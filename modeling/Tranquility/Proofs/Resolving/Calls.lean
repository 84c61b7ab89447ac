import Tranquility.Proofs.Reading.Program

/-!
# The functions that calls mean

A call is resolved where it is read, against the functions declared so far. In the tree this means
that the function around a call and those in front of it count, that the last of them with the name
decides, and that a function of the language itself is meant only where none of them has the name.
-/

namespace Tranquility

/-- In the body of the function at a place of a program, a name means a function that takes this
number of arguments. -/
inductive Program.Means (program : Program) (place : Nat) (name : String) (arity : Nat) : Prop where
  /-- The last function of the name, up to the one at the place, takes that many. -/
  | declared (index : Nat) (callee : FunctionDecl) (index_le : index ≤ place)
      (at_index : program.functions[index]? = some callee) (name_eq : callee.name = name)
      (arity_eq : callee.arity = arity)
      (last : ∀ later other, index < later → later ≤ place →
        program.functions[later]? = some other → other.name ≠ name)
  /-- No function up to the one at the place has the name, and one of the language takes that
  many. -/
  | builtin (function : BuiltinFunction) (found : Builtin.find? name = some function)
      (arity_eq : function.parameterCount = arity)
      (none_declared : ∀ index other, index ≤ place →
        program.functions[index]? = some other → other.name ≠ name)

/-- The expression calls this name with this many arguments. -/
def Expr.isCallOf (name : String) (arity : Nat) : Expr → Bool
  | .call token arguments => decide (token.text = name ∧ arguments.length = arity)
  | _ => false

namespace FunctionDecl

/-- The number of arguments of a name comes from the last function that has it, or from the
language. -/
theorem arityAmong?_eq_some {functions : List FunctionDecl} {name : String} {arity : Int}
    (h : arityAmong? functions name = some arity) :
    (∃ earlier callee later, functions = earlier ++ callee :: later ∧ callee.name = name ∧
      (callee.arity : Int) = arity ∧ ∀ other ∈ later, other.name ≠ name) ∨
    (∀ other ∈ functions, other.name ≠ name) ∧
      ∃ builtin, Builtin.find? name = some builtin ∧ (builtin.parameterCount : Int) = arity := by
  unfold arityAmong? at h
  split at h
  case h_1 callee hcallee =>
    obtain ⟨hname, earlier, later, hsplit, hlater⟩ := find?_reverse_eq_some_iff.mp hcallee
    exact .inl ⟨earlier, callee, later, hsplit, of_decide_eq_true hname, Option.some.inj h,
      fun other hother => of_decide_eq_false (hlater other hother)⟩
  case h_2 hnone =>
    refine .inr ⟨fun other hother => ?_, ?_⟩
    · have hother := List.find?_eq_none.mp hnone other (List.mem_reverse.mpr hother)
      simpa using hother
    · obtain ⟨builtin, hfound, hcount⟩ := Option.map_eq_some_iff.mp h
      exact ⟨builtin, hfound, hcount⟩

/-- Somewhere in its body the function calls this name with this many arguments. -/
def calls (function : FunctionDecl) (name : String) (arity : Nat) : Bool :=
  (Stmt.nodesOfAll function.body).any (·.isCallOf name arity)

/-- What a function calls is the name of one of its nodes. -/
theorem exists_call_of_calls {function : FunctionDecl} {name : String} {arity : Nat}
    (h : function.calls name arity = true) :
    ∃ token arguments, Expr.call token arguments ∈ Stmt.nodesOfAll function.body ∧
      token.text = name ∧ arguments.length = arity := by
  obtain ⟨expr, hmem, hcall⟩ := List.any_eq_true.mp h
  cases expr with
  | call token arguments => exact ⟨token, arguments, hmem, of_decide_eq_true hcall⟩
  | _ => cases hcall

end FunctionDecl

/-- What is declared up to a place of a program gives a name its meaning there. -/
theorem Program.means_of_arityAmong? {program : Program} {place arity : Nat} {name : String}
    (h : FunctionDecl.arityAmong? (program.functions.take (place + 1)) name = some (arity : Int)) :
    program.Means place name arity := by
  have hget : ∀ index, index ≤ place →
      (program.functions.take (place + 1))[index]? = program.functions[index]? :=
    fun index hle => List.getElem?_take_of_lt (Nat.lt_succ_of_le hle)
  rcases FunctionDecl.arityAmong?_eq_some h with
    ⟨earlier, callee, later, hsplit, hname, harity, hlater⟩ | ⟨hnone, builtin, hfound, hcount⟩
  · have hlength : earlier.length < place + 1 := by
      have hle := List.length_take_le (place + 1) program.functions
      rw [hsplit, List.length_append, List.length_cons] at hle
      omega
    refine .declared earlier.length callee (Nat.le_of_lt_succ hlength) ?_ hname
      (Int.ofNat.inj harity) fun index other hlt hle hother => ?_
    · rw [← hget _ (Nat.le_of_lt_succ hlength), hsplit, List.getElem?_append_right (Nat.le_refl _),
        Nat.sub_self, List.getElem?_cons_zero]
    · rw [← hget _ hle, hsplit, List.getElem?_append_right (Nat.le_of_lt hlt)] at hother
      refine hlater other (List.mem_of_getElem? (i := index - earlier.length - 1) ?_)
      rw [← List.getElem?_cons_succ, ← hother]
      congr 1
      omega
  · refine .builtin builtin hfound (Int.ofNat.inj hcount) fun index other hle hother => ?_
    rw [← hget _ hle] at hother
    exact hnone other (List.mem_of_getElem? hother)

/-- Every call in a program that the grammar reads has as many arguments as the function takes that
its name means there. A function of the language is meant, or else one that is declared in front or
is the function around the call: none that only comes later. -/
theorem call_of_parse {tokens : List Token} {reporter : Reporter} {program : Program}
    {s' : Grammar.State}
    (h : Grammar.program.run (.ofTokens tokens reporter) = .ok program s') {place : Nat}
    {function : FunctionDecl} (hfunction : program.functions[place]? = some function)
    {name : Token} {arguments : List Expr}
    (hcall : Expr.call name arguments ∈ Stmt.nodesOfAll function.body) :
    program.Means place name.text arguments.length ∧
      (Builtin.find? name.text = none → ∃ index callee, index ≤ place ∧
        program.functions[index]? = some callee ∧ callee.name = name.text) := by
  obtain ⟨_, _, _, _, hlegal⟩ := Grammar.program_reads rfl h
  have hnamed := ((hlegal.legal hfunction).body.nodes _ hcall).named
  have hmeans : program.Means place name.text arguments.length := by
    apply Program.means_of_arityAmong?
    rw [List.take_add_one, hfunction]
    exact hnamed
  refine ⟨hmeans, fun hbuiltin => ?_⟩
  cases hmeans with
  | declared index callee hle hat hname =>
    exact ⟨index, callee, hle, hat, hname⟩
  | builtin function hfound =>
    rw [hbuiltin] at hfound
    cases hfound

/-- A call of the entry point means that of the language, until the program declares its own with
another number of arguments. -/
theorem call_of_parse_entryPoint : ∃ tokens program s',
    tokenize "fun f() \x7b\ninit()\n\x7d\nfun init(a) \x7b\ninit(init(a))\n\x7d" = .ok tokens ∧
      Grammar.program.run (.ofTokens tokens .empty) = .ok program s' ∧
        program.Means 0 "init" 0 ∧ program.Means 1 "init" 1 := by
  have htokens := tokenize_eq
    "fun f() \x7b\ninit()\n\x7d\nfun init(a) \x7b\ninit(init(a))\n\x7d"
  have hok : Grammar.reaches (fun program _ =>
        program.functions[0]?.any (·.calls "init" 0) &&
          program.functions[1]?.any (·.calls "init" 1))
      (Grammar.program.run (.ofTokens (Token.significant (scan
        "fun f() \x7b\ninit()\n\x7d\nfun init(a) \x7b\ninit(init(a))\n\x7d").tokens)
        .empty)) = true := by decide +kernel
  obtain ⟨program, s', h, hcalls⟩ := Grammar.exists_ok_of_reaches hok
  obtain ⟨hcalls, hcalls'⟩ := Bool.and_eq_true_iff.mp hcalls
  obtain ⟨hfirst, hcall⟩ := (Option.any_eq_true_iff_get _ _).mp hcalls
  obtain ⟨hsecond, hcall'⟩ := (Option.any_eq_true_iff_get _ _).mp hcalls'
  obtain ⟨name, arguments, hmem, hname, hlength⟩ := FunctionDecl.exists_call_of_calls hcall
  obtain ⟨name', arguments', hmem', hname', hlength'⟩ := FunctionDecl.exists_call_of_calls hcall'
  have hmeans := (call_of_parse h (Option.some_get hfirst).symm hmem).1
  have hmeans' := (call_of_parse h (Option.some_get hsecond).symm hmem').1
  rw [hname, hlength] at hmeans
  rw [hname', hlength'] at hmeans'
  exact ⟨_, program, s', htokens, h, hmeans, hmeans'⟩

end Tranquility
