/-!
# Types of expressions

Every expression has one of five types. `any` goes with every type, an address goes with an integer,
and otherwise the two operands of an operator must have the same type. A declaration made by hand
may name a type the language does not know; such a type goes with itself and with `any`.
-/

namespace Tranquility

/-- The type of an expression. -/
inductive Ty where
  | any
  | integer
  | string
  | boolean
  | address
  /-- A type the language does not know. -/
  | other (name : String)
  deriving DecidableEq, Repr

namespace Ty

/-- The name of a type. -/
def name : Ty → String
  | any => "any"
  | integer => "integer"
  | string => "string"
  | boolean => "boolean"
  | address => "address"
  | other name => name

/-- The type that a name stands for. -/
def ofName : String → Ty
  | "any" => any
  | "integer" => integer
  | "string" => string
  | "boolean" => boolean
  | "address" => address
  | name => other name

/-- A binary operator accepts operands of these types. -/
def operandsMatch (left right : Ty) : Bool :=
  left = right || left = any || right = any ||
    (left = address && right = integer) || (left = integer && right = address)

/-- The name of a type with the article that fits its first letter. -/
def withArticle (type : Ty) : String :=
  match type.name.toList with
  | [] => "an "
  | c :: _ => (if c ∈ ['a', 'e', 'i', 'o', 'u'] then "an " else "a ") ++ type.name

/-- Every name stands for a type of that name. -/
theorem name_ofName (name : String) : (ofName name).name = name := by
  unfold ofName
  split <;> rfl

/-- The order of the operands does not matter to their types. -/
theorem operandsMatch_comm (left right : Ty) :
    operandsMatch left right = operandsMatch right left := by
  rw [Bool.eq_iff_iff]
  simp only [operandsMatch, Bool.or_eq_true, Bool.and_eq_true, decide_eq_true_eq]
  grind

end Ty

end Tranquility
