/-!
# What the language provides

The functions that every program may call, with the number of their parameters and the help an
editor shows for them, and the help for the keywords that have some. The table of functions also
holds the entry point `init`, which a program may always declare.
-/

namespace Tranquility

/-- A block of code in the markup of an editor's help. -/
def codeBlock (code : String) : String :=
  "\n```\n" ++ code ++ "\n```\n"

/-- A function that every program may call. -/
structure BuiltinFunction where
  /-- The name to call it by. -/
  name : String
  /-- The number of arguments it takes. -/
  parameterCount : Nat
  /-- Its declaration, with types, as help shows it. -/
  signature : String
  /-- What it does. -/
  purpose : String
  deriving DecidableEq, Repr

/-- A keyword with help of its own. -/
structure KeywordHelp where
  /-- The keyword. -/
  word : String
  /-- Its grammar as help shows it. -/
  grammar : String
  /-- What it is for. -/
  purpose : String
  deriving DecidableEq, Repr

/-- The help for a built-in function. -/
def BuiltinFunction.description (function : BuiltinFunction) : String :=
  codeBlock function.signature ++ function.purpose

/-- The help for a keyword. -/
def KeywordHelp.description (help : KeywordHelp) : String :=
  codeBlock help.grammar ++ help.purpose

namespace Builtin

/-- The name of the function that starts a program; a program may always declare it. -/
def entryPoint : String := "init"

/-- The built-in functions, in the order of the global scope. -/
def functions : List BuiltinFunction := [
  ⟨"alloc", 1,
    "fun alloc(locations: Integer) -> Address<Any>",
    "Allocates a block of memory with `locations` locations. Returns the address of the " ++
      "first location."⟩,
  ⟨"button", 2,
    "fun button(label: String, onClick: Function) -> Button",
    "Creates a button on the HTML page with the given `label`. When the button is pushed, " ++
      "the function `onClick` is called. An identifier is returned that can be passed to " ++
      "`buttonlabel()` to identify the button."⟩,
  ⟨"buttonlabel", 2,
    "fun buttonlabel(button: Button, label: String) -> void",
    "Sets the label on the button identified by `button` to `label`. The value of `button` " ++
      "can be obtained from `button()`."⟩,
  ⟨"free", 1,
    "fun free(address: Address<Any>) -> void",
    "Returns the previously allocated memory block to the free list. `address` refers to " ++
      "the memory address returned by a call to `alloc()`."⟩,
  ⟨"html", 1,
    "fun html(code: HTMLCode) -> void",
    "Sends `code` as an HTML code to the HTML window."⟩,
  ⟨"i2s", 2,
    "fun i2s(address: Address<String>, number: Integer) -> void",
    "Converts the integer `number` to a string, and stores it in the memory location " ++
      "specified by `address`."⟩,
  ⟨"iprint", 1,
    "fun iprint(number: Integer) -> void",
    "Prints an integer to the console. This will not print a new line by default."⟩,
  ⟨"iread", 1,
    "fun iread(prompt: String) -> Integer",
    "Prompts the user to enter an integer with the message `prompt`."⟩,
  ⟨"makeimg", 0,
    "fun makeimg() -> Image",
    "Creates an image with no source and returns a reference to the image."⟩,
  ⟨"makelabel", 1,
    "fun makelabel(text: String) -> Label",
    "Creates a label setting its contents to `text` and returns an integer label " ++
      "identifier that can be passed to `setlabel()`."⟩,
  ⟨"maketable", 3,
    "fun maketable(rows: Integer, columns: Integer, onClick: Function) -> Table",
    "Creates a table with `rows` rows and `columns` columns and returns an integer " ++
      "identifying the table. The function `onClick` is called each time the user clicks on " ++
      "the table. `onClick` receives the row and column clicked as arguments."⟩,
  ⟨"random", 1,
    "fun random(max: Integer) -> Integer",
    "Returns a random number between 0 and `max`, including 0 but not `max`."⟩,
  ⟨"setcell", 4,
    "fun setcell(table: Table, row: Integer, column: Integer, text: String) -> void",
    "Sets the contents of the cell at row `row` and column `column` in table `table` to " ++
      "the string `text`. The value of `table` can be obtained from `maketable()`."⟩,
  ⟨"setcellcolor", 4,
    "fun setcellcolor(table: Table, row: Integer, column: Integer, color: String) -> void",
    "Sets the background color of the cell at row `row` and column `column` in the table " ++
      "`table` to `color`. The value of `table` can be obtained from `maketable()`."⟩,
  ⟨"setimg", 2,
    "fun setimg(image: Image, src: String) -> void",
    "Sets the source of an image. The value of `image` can be obtained from a call to " ++
      "`makeimg()`."⟩,
  ⟨"setlabel", 2,
    "fun setlabel(label: Label, text: String) -> void",
    "Sets the text in `label` to `text`. The value of `label` can be obtained from a call " ++
      "to `makelabel()`."⟩,
  ⟨"sprint", 1,
    "fun sprint(text: String) -> void",
    "Prints the string `text` to the console. This will not print a new line by default."⟩,
  ⟨"sread", 2,
    "fun sread(address: Address<String>, prompt: String) -> void",
    "Prompts the user to enter a string with the message `prompt` and stores the result in " ++
      "`address`."⟩,
  ⟨"stoptimer", 1,
    "fun stoptimer(timer: Timer) -> void",
    "Stops the given timer. A reference to the timer can be obtained from `timer()`."⟩,
  ⟨"timer", 2,
    "fun timer(milliseconds: Integer, function: Function) -> Timer",
    "Sets a timer. The function `function` will be called after `milliseconds` " ++
      "milliseconds have passed. Returns an identifier of this timer that can be used in " ++
      "`stoptimer()`."⟩,
  ⟨"init", 0,
    "fun init() -> void",
    "The main function for the program. This is the function that will be called when the " ++
      "program is run."⟩]

/-- The keywords with help of their own. -/
def keywordHelp : List KeywordHelp := [
  ⟨"else", "else \"\x7b\" \"\\n\" <stmt-list> \"\x7d\" \"\\n\" |\nelse <if-stmt>",
    "A list of statements to be executed if the preceding if statement's condition is " ++
      "false."⟩,
  ⟨"fun", "fun <name: Identifier>",
    "Defines a function with the name `name`"⟩,
  ⟨"var", "var <name: Identifier>",
    "Defines a variable with the name `name`"⟩]

/-- The built-in function of a name. -/
def find? (name : String) : Option BuiltinFunction :=
  functions.find? (·.name = name)

/-- The help for a built-in function or, failing that, for a keyword. -/
def describe? (word : String) : Option String :=
  match find? word with
  | some function => some function.description
  | none => (keywordHelp.find? (·.word = word)).map (·.description)

/-- No two built-in functions share a name. -/
theorem nodup_names : (functions.map (·.name)).Nodup := by
  decide

end Builtin

end Tranquility
