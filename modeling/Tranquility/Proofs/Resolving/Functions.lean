import Tranquility.Proofs.Resolving.Blocks
import Mathlib.Data.List.Induction

/-!
# The functions of a program

A program lists its functions, and the scopes that its parse leaves hold them too, after those of
the language. A name is looked up in the list from the front and in the scopes from the end. The
grammar refuses a function whose name is taken, so that the two lookups find the same declaration of
every name but that of the entry point, which may be declared again and again: there the list has
the first declaration and the scopes have the last.
-/

namespace Tranquility

open Grammar

/-- The declarations of the entry point in a program. -/
def Program.entryPoints (program : Program) : List FunctionDecl :=
  program.functions.filter (·.name = Builtin.entryPoint)

/-- The first entry point of a program is the first function of its name. -/
theorem Program.head?_entryPoints (program : Program) :
    program.entryPoints.head? = program.findFunction? Builtin.entryPoint :=
  List.head?_filter

/-- The functions of a program as its list of declarations has them and as the scopes of a state
have them. -/
structure Program.FunctionsFound (program : Program) (s : State) : Prop where
  /-- Functions other than the entry point have names of their own. -/
  nodup : ((program.functions.map (·.name)).filter (· ≠ Builtin.entryPoint)).Nodup
  /-- No function other than the entry point has the name of a built-in one. -/
  not_builtin : ∀ function ∈ program.functions, function.name ≠ Builtin.entryPoint →
    Builtin.find? function.name = none
  /-- A function that is declared is found with its number of parameters and its own token. -/
  declared : ∀ name ≠ Builtin.entryPoint, ∀ function, program.findFunction? name = some function →
    s.findFunction? name = some ⟨name, function.parameters.length, some function.token⟩
  /-- A function that is not declared is found if it is built in, and it has no token. -/
  undeclared : ∀ name ≠ Builtin.entryPoint, program.findFunction? name = none →
    s.findFunction? name = (Builtin.find? name).map fun function =>
      ⟨name, function.parameterCount, none⟩
  /-- What is found with a token is declared. -/
  declared_iff : ∀ name ≠ Builtin.entryPoint, (∃ function, program.findFunction? name =
    some function) ↔ ∃ symbol token, s.findFunction? name = some symbol ∧ symbol.token = some token
  /-- The list has the first declaration of the entry point. -/
  first_entryPoint : program.findFunction? Builtin.entryPoint = program.entryPoints.head?
  /-- The scopes have the last declaration of the entry point, or the built-in one. -/
  last_entryPoint : s.findFunction? Builtin.entryPoint =
    some (match program.entryPoints.getLast? with
      | some function => ⟨Builtin.entryPoint, function.parameters.length, some function.token⟩
      | none => ⟨Builtin.entryPoint, 0, none⟩)

namespace FunctionDecl

variable {globals : List (List Token)} {functions : List FunctionDecl} {name : String}

/-- A function is the entry point, or its name is neither built in nor taken. -/
theorem AllLegal.pairwise (h : AllLegal globals functions) : functions.Pairwise
    fun earlier later => later.name ≠ Builtin.entryPoint → earlier.name ≠ later.name := by
  induction functions using List.reverseRecOn with
  | nil => exact .nil
  | append_singleton functions last ih =>
    obtain ⟨hall, hlast⟩ := allLegal_concat.mp h
    rw [List.pairwise_append]
    refine ⟨ih hall, List.pairwise_singleton _ _, ?_⟩
    intro earlier hearlier later hlater hentry heq
    obtain rfl := List.mem_singleton.mp hlater
    obtain ⟨_, hnew⟩ := hlast.name_new.resolve_left hentry
    exact hnew (heq ▸ List.mem_map_of_mem hearlier)

/-- A function of a list other than the entry point is not built in. -/
theorem AllLegal.find?_builtin (h : AllLegal globals functions) {function : FunctionDecl}
    (hmem : function ∈ functions) (hentry : function.name ≠ Builtin.entryPoint) :
    Builtin.find? function.name = none := by
  obtain ⟨earlier, later, hsplit⟩ := List.append_of_mem hmem
  obtain ⟨hbuiltin, _⟩ := (h earlier function later hsplit).name_new.resolve_left hentry
  rw [Builtin.find?, List.find?_eq_none]
  intro other hother hname
  exact hbuiltin (of_decide_eq_true hname ▸ List.mem_map_of_mem hother)

/-- A function other than the entry point is the only one of its name. -/
theorem AllLegal.find?_eq (h : AllLegal globals functions) {function : FunctionDecl}
    (hmem : function ∈ functions) (hentry : function.name ≠ Builtin.entryPoint) :
    functions.find? (·.name = function.name) = some function := by
  obtain ⟨earlier, later, rfl⟩ := List.append_of_mem hmem
  obtain ⟨_, _, hearlier⟩ := List.pairwise_append.mp h.pairwise
  rw [List.find?_eq_some_iff_append]
  refine ⟨by simp, earlier, later, rfl, ?_⟩
  intro other hother
  simpa using hearlier other hother function List.mem_cons_self hentry

/-- But for the entry point it does not matter from which end of a list a name is looked up. -/
theorem AllLegal.find?_reverse (h : AllLegal globals functions)
    (hname : name ≠ Builtin.entryPoint) :
    functions.reverse.find? (·.name = name) = functions.find? (·.name = name) := by
  apply find?_reverse_of_pairwise
  apply h.pairwise.imp
  intro earlier later hne hearlier
  rw [decide_eq_true_iff] at hearlier
  apply decide_eq_false
  intro hlater
  exact hne (hlater ▸ hname) (hearlier.trans hlater.symm)

/-- A name other than that of the entry point means the function that is declared under it, or else
the built-in one. -/
theorem AllLegal.symbolAmong?_eq (h : AllLegal globals functions)
    (hname : name ≠ Builtin.entryPoint) : symbolAmong? functions name =
      match functions.find? (·.name = name) with
      | some function => some ⟨name, function.parameters.length, some function.token⟩
      | none => (Builtin.find? name).map fun function => ⟨name, function.parameterCount, none⟩ := by
  rw [symbolAmong?, h.find?_reverse hname]
  cases hfind : functions.find? (·.name = name) with
  | some function =>
    obtain rfl : function.name = name := by simpa using List.find?_some hfind
    rfl
  | none =>
    cases hbuiltin : Builtin.find? name with
    | none => rfl
    | some function =>
      obtain rfl : function.name = name := by
        simpa using List.find?_some hbuiltin
      rfl

/-- What a name means is declared if it has a token. -/
theorem exists_of_symbolAmong? {symbol : FunctionSymbol} {declared : Token}
    (h : symbolAmong? functions name = some symbol) (htoken : symbol.token = some declared) :
    ∃ function ∈ functions, function.name = name ∧ function.token = declared := by
  unfold symbolAmong? at h
  split at h
  case h_1 function hfound =>
    obtain rfl := Option.some.inj h
    have hmem := List.mem_reverse.mp (List.mem_of_find?_eq_some hfound)
    exact ⟨function, hmem, by simpa using List.find?_some hfound, Option.some.inj htoken⟩
  case h_2 =>
    obtain ⟨builtin, _, rfl⟩ := Option.map_eq_some_iff.mp h
    cases htoken

/-- The name of the entry point means the last of its declarations, or else the built-in one. -/
theorem symbolAmong?_entryPoint (functions : List FunctionDecl) :
    symbolAmong? functions Builtin.entryPoint =
      some (match (functions.filter (·.name = Builtin.entryPoint)).getLast? with
        | some function => ⟨Builtin.entryPoint, function.parameters.length, some function.token⟩
        | none => ⟨Builtin.entryPoint, 0, none⟩) := by
  have hbuiltin : (Builtin.find? Builtin.entryPoint).map (·.symbol) =
      some ⟨Builtin.entryPoint, 0, none⟩ := rfl
  rw [symbolAmong?, hbuiltin, List.getLast?_eq_head?_reverse, ← List.filter_reverse,
    List.head?_filter]
  cases hfind : functions.reverse.find? (·.name = Builtin.entryPoint) with
  | none => rfl
  | some function =>
    have hname : function.name = Builtin.entryPoint := by simpa using List.find?_some hfind
    have hsymbol : function.symbol =
        ⟨Builtin.entryPoint, function.parameters.length, some function.token⟩ := by
      rw [symbol, hname, arity]
    exact congrArg some hsymbol

end FunctionDecl

/-- Where the global scope is current and holds the functions of a program, they are found as the
program declares them. -/
theorem Program.functionsFound {program : Program} {s : State}
    (hlegal : FunctionDecl.AllLegal program.globals program.functions) {globals : List Token}
    (htop : s.scopes.AtTop globals program.functions) : program.FunctionsFound s := by
  have hfound : ∀ name, s.findFunction? name = FunctionDecl.symbolAmong? program.functions name :=
    htop.findFunction?_eq
  have hdeclared : ∀ name ≠ Builtin.entryPoint, ∀ function,
      program.findFunction? name = some function →
        s.findFunction? name = some ⟨name, function.parameters.length, some function.token⟩ := by
    intro name hname function hfunction
    rw [hfound, hlegal.symbolAmong?_eq hname, show program.functions.find? _ = _ from hfunction]
  have hundeclared : ∀ name ≠ Builtin.entryPoint, program.findFunction? name = none →
      s.findFunction? name = (Builtin.find? name).map fun function =>
        ⟨name, function.parameterCount, none⟩ := by
    intro name hname hnone
    rw [hfound, hlegal.symbolAmong?_eq hname, show program.functions.find? _ = _ from hnone]
  constructor
  case nodup =>
    rw [List.filter_map, List.Nodup, List.pairwise_map]
    apply (hlegal.pairwise.filter _).imp_of_mem
    intro earlier later _ hlater hne
    exact hne (by simpa using (List.mem_filter.mp hlater).2)
  case not_builtin => exact fun function => hlegal.find?_builtin
  case declared => exact hdeclared
  case undeclared => exact hundeclared
  case declared_iff =>
    intro name hname
    constructor
    · rintro ⟨function, hfunction⟩
      exact ⟨_, _, hdeclared name hname function hfunction, rfl⟩
    · rintro ⟨symbol, token, hsymbol, htoken⟩
      by_contra hnone
      rw [hundeclared name hname (Option.eq_none_iff_forall_ne_some.mpr fun function hfunction =>
        hnone ⟨function, hfunction⟩), Option.map_eq_some_iff] at hsymbol
      obtain ⟨_, _, rfl⟩ := hsymbol
      cases htoken
  case first_entryPoint => exact program.head?_entryPoints.symm
  case last_entryPoint => exact (hfound _).trans (FunctionDecl.symbolAmong?_entryPoint _)

/-- A parse that ends in a program leaves scopes in which the functions of the program are found.
Names other than that of the entry point are declared once at most, and then not built in, so that
the program and the scopes have one and the same declaration; of the entry point the program has the
first declaration and the scopes have the last. -/
theorem functions_of_parse {tokens : List Token} {reporter : Reporter} {program : Program}
    {s' : State} (h : Grammar.program.run (.ofTokens tokens reporter) = .ok program s') :
    program.FunctionsFound s' := by
  obtain ⟨⟨front, ended, hreads⟩, _, _, _, hlegal⟩ := program_reads rfl h
  have htop := (Scopes.atTop_initial.declared program.globals.flatten).settle_all program.functions
  rw [← program.settle_trace front ended] at htop
  have hscopes : s'.scopes = (program.trace front ended).settle .initial := hreads.scopes_eq
  rw [← hscopes] at htop
  exact program.functionsFound hlegal htop

/-- Of two declarations of the entry point the program has the first, which takes no argument, and
the scopes have the second, which takes one. -/
theorem functions_of_parse_twice : ∃ tokens program s',
    tokenize "fun init() \x7b\n\x7d\nfun f(a) \x7b\n\x7d\nfun init(b) \x7b\n\x7d" = .ok tokens ∧
      Grammar.program.run (.ofTokens tokens .empty) = .ok program s' ∧
        program.FunctionsFound s' ∧ program.entryPoints.map (·.arity) = [0, 1] ∧
          (s'.findFunction? Builtin.entryPoint).map (·.arity) = some 1 := by
  have htokens := tokenize_eq
    "fun init() \x7b\n\x7d\nfun f(a) \x7b\n\x7d\nfun init(b) \x7b\n\x7d"
  have hok : Grammar.reaches (fun program s' => decide (
        program.entryPoints.map (·.arity) = [0, 1] ∧
          (s'.findFunction? Builtin.entryPoint).map (·.arity) = some 1))
      (Grammar.program.run (.ofTokens (Token.significant (scan
        "fun init() \x7b\n\x7d\nfun f(a) \x7b\n\x7d\nfun init(b) \x7b\n\x7d").tokens)
        .empty)) = true := by decide +kernel
  obtain ⟨program, s', h, harities⟩ := Grammar.exists_ok_of_reaches hok
  obtain ⟨hentries, hfound⟩ := of_decide_eq_true harities
  exact ⟨_, program, s', htokens, h, functions_of_parse h, hentries, hfound⟩

end Tranquility
