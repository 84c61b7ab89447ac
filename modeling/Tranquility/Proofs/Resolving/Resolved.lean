import Tranquility.Proofs.Checking.Diagnostics
import Tranquility.Proofs.Descent.Visible

/-!
# Where calls are resolved

A parse resolves the name of a call where it reads the call, by looking the name up in the scopes
that it has got so far. Every call of a program has been resolved in this way, to the last function
of the name that the program declares up to the function around the call; and whatever the parse
looks up for a call, it finds the last function of the name up to some place of the program.
-/

namespace Tranquility

namespace Grammar

open Scopes

/-- The state in which the parse of a check starts. -/
def State.start (tokens : List Token) : State :=
  .ofTokens tokens (Reporter.empty.reportUnrecognized tokens)

/-- A parse from a state resolves the name of a call: it comes to a place where it reads the call,
and what it finds for the name, once it has read it, is the function. -/
inductive Resolves (s : State) (name : Token) (arguments : List Expr) (symbol : FunctionSymbol) :
    Prop where
  | intro {t t₁ t' : State} (descends : Descends .program s .operand t)
    (call_read : operand.run t = .ok (.call name arguments) t')
    (name_read : (expect .identifier).run t = .ok name t₁)
    (found : t₁.findFunction? name.text = some symbol)

variable {s s' t t' : State} {name : Token} {arguments : List Expr}

/-- A call starts with its name, so that no other kind of operand has been read. -/
theorem kind_of_call (h : operand.run t = .ok (.call name arguments) t') :
    t.current.kind = .identifier := by
  have hlead := (operand_yields _ _ _ h).reads.lead
  rw [Expr.trace_call] at hlead
  cases hrest : t.rest with
  | nil =>
    rw [hrest] at hlead
    exact hlead.elim
  | cons token rest =>
    rw [hrest] at hlead
    rw [State.current, hrest]
    exact hlead.1.kind

/-- The name of a variable is no call. -/
theorem reference_ne_call : ¬ reference.run t = .ok (.call name arguments) t' := by
  intro h
  obtain ⟨token, t₁, _, h⟩ := run_bind_ok.mp h
  rw [run_observe_bind] at h
  obtain ⟨_, t₂, _, h⟩ := run_bind_ok.mp h
  obtain ⟨heq, _⟩ := run_pure_ok.mp h
  cases heq

/-- Where an operand is a call, its name has been read first and means a function. -/
theorem exists_found_of_call (h : operand.run t = .ok (.call name arguments) t') :
    ∃ t₁ symbol, (expect .identifier).run t = .ok name t₁ ∧
      t₁.findFunction? name.text = some symbol := by
  have hkind := kind_of_call h
  rw [operand_eq, operandOver, run_observe_bind, hkind] at h
  simp only at h
  rw [run_observe_bind] at h
  split at h
  case isTrue =>
    obtain ⟨name, t₁, hname, h⟩ := run_bind_ok.mp h
    rw [run_observe_bind] at h
    split at h
    case h_1 => exact absurd h run_reject_ok
    case h_2 symbol hfound =>
      obtain ⟨_, t₂, _, h⟩ := run_bind_ok.mp h
      obtain ⟨arguments, t₃, _, h⟩ := run_bind_ok.mp h
      obtain ⟨_, t₄, _, h⟩ := run_bind_ok.mp h
      obtain ⟨_, t₅, _, h⟩ := run_bind_ok.mp h
      obtain ⟨heq, _⟩ := run_pure_ok.mp h
      cases heq
      exact ⟨t₁, symbol, hname, hfound⟩
  case isFalse => exact absurd h reference_ne_call

/-- To read a name does not change what names mean. -/
theorem findFunction?_of_expect {t₁ : State} (h : (expect .identifier).run t = .ok name t₁)
    (other : String) : t₁.findFunction? other = t.findFunction? other := by
  have hscopes : t₁.scopes = t.scopes := (reads_expect rfl h).scopes_eq
  rw [State.findFunction?, hscopes]
  rfl

/-! ## The functions of a program -/

/-- A program is read as global variables, in front of its functions, and then these. -/
theorem exists_front_of_program {program : Program} (hscopes : s.scopes = .initial)
    (h : Grammar.program.run s = .ok program s') : ∃ s₁ s₂,
      preamble.run s = .ok program.globals s₁ ∧ functions.run s₁ = .ok program.functions s₂ ∧
        s₁.scopes.AtTop program.globals.flatten [] ∧
          (Token.names program.globals.flatten).Nodup := by
  rw [program_eq] at h
  obtain ⟨globals, s₁, front, h⟩ := run_bind_ok.mp h
  obtain ⟨functions, s₂, hfunctions, h⟩ := run_bind_ok.mp h
  rw [run_observe_bind, run_observe_bind] at h
  obtain ⟨_, s₃, _, h⟩ := run_bind_ok.mp h
  obtain ⟨rfl, _⟩ := run_pure_ok.mp h
  refine ⟨s₁, s₂, front, hfunctions, ?_⟩
  obtain ⟨_, s₄, hnewlines, front⟩ := run_bind_ok.mp front
  obtain ⟨globals, s₅, hglobals, front⟩ := run_bind_ok.mp front
  rw [run_observe_bind, run_observe_bind] at front
  obtain ⟨_, s₆, hrequire, front⟩ := run_bind_ok.mp front
  obtain ⟨_, rfl⟩ := run_require_ok.mp hrequire
  obtain ⟨rfl, rfl⟩ := run_pure_ok.mp front
  obtain ⟨count, hnewlines⟩ := newlines_reads hnewlines
  have htop : s₄.scopes.AtTop [] [] := by
    rw [hnewlines.scopes_eq, hscopes]
    exact Scopes.atTop_initial
  obtain ⟨_, hfresh, hglobals⟩ := variableLines_reads htop.valid hglobals
  refine ⟨?_, hfresh.nodup⟩
  rw [hglobals.scopes_eq]
  exact htop.declared globals.flatten

/-- Where a function of a program starts, the program has one there, after those in front of it. -/
theorem FunctionsTo.exists_split {functions earlier : List FunctionDecl}
    (h : FunctionsTo s earlier t) (hread : Grammar.functions.run s = .ok functions s') :
    ∃ decl later t', functions = earlier ++ decl :: later ∧ function.run t = .ok decl t' := by
  rw [functions_eq, h.run_eq eats_function] at hread
  obtain ⟨decl, t', hdecl, hread⟩ := run_bind_ok.mp hread
  have hextends : ∃ later, functions = (earlier ++ [decl]) ++ later := by
    refine run_collect_ok (fun items _ => ∃ later, items = (earlier ++ [decl]) ++ later) ?_
      ⟨[], (List.append_nil _).symm⟩ hread
    rintro items _ item _ ⟨later, rfl⟩ _ _
    exact ⟨later ++ [item], List.append_assoc _ _ _⟩
  obtain ⟨later, hextends⟩ := hextends
  rw [List.append_assoc] at hextends
  exact ⟨decl, later, t', hextends, hdecl⟩

/-- In a program that has been read, every call has been resolved: its name means the last function
of the name up to the one around the call. -/
theorem exists_resolves {program : Program} (hscopes : s.scopes = .initial)
    (h : Grammar.program.run s = .ok program s') {place : Nat} {decl : FunctionDecl}
    (hdecl : program.functions[place]? = some decl)
    (hcall : Expr.call name arguments ∈ Stmt.nodesOfAll decl.body) :
    ∃ symbol, Resolves s name arguments symbol ∧
      FunctionDecl.symbolAmong? (program.functions.take (place + 1)) name.text = some symbol := by
  have hsplit : program.functions =
      program.functions.take place ++ decl :: program.functions.drop (place + 1) := by
    obtain ⟨hlt, rfl⟩ := List.getElem?_eq_some_iff.mp hdecl
    rw [← List.drop_eq_getElem_cons hlt, List.take_append_drop]
  obtain ⟨s₁, s₂, front, hfunctions, htop, hnodup⟩ := exists_front_of_program hscopes h
  rw [functions_eq] at hfunctions
  obtain ⟨u, u', hitems, hread⟩ := exists_read_of_listOf hfunctions hsplit
  obtain ⟨v, nodes, henters, hgives, hmem⟩ := exists_enters_of_function hread hcall
  obtain ⟨hbody, hvalid, hmeans⟩ :=
    henters.findFunction?_eq hread (FunctionsTo.atTop hitems htop hnodup) hnodup
  obtain ⟨t, t', hdescends, hoperand⟩ := hgives.exists_operand rfl hmem
  obtain ⟨t₁, symbol, hname, hfound⟩ := exists_found_of_call hoperand
  have hsame := (hdescends.sameFunctions hbody hvalid).findFunction?_eq name.text
  refine ⟨symbol, ⟨?_, hoperand, hname, hfound⟩, ?_⟩
  · exact .enter (.function front hitems.itemAt) (.enter henters hdescends)
  · rw [List.take_add_one, hdecl, ← hfound, findFunction?_of_expect hname]
    exact ((hmeans name.text).symm.trans hsame.symm)

/-- Whatever a parse that reads a program finds for a call, it is the last function of the name up
to one of the functions of the program. -/
theorem Resolves.exists_split {program : Program} {symbol : FunctionSymbol}
    (h : Resolves s name arguments symbol) (hscopes : s.scopes = .initial)
    (hprogram : Grammar.program.run s = .ok program s') : ∃ earlier decl later,
      program.functions = earlier ++ decl :: later ∧
        FunctionDecl.symbolAmong? (earlier ++ [decl]) name.text = some symbol := by
  obtain ⟨descends, _, name_read, found⟩ := h
  obtain ⟨s₁, s₂, hfront, hfunctions, htop, hnodup⟩ := exists_front_of_program hscopes hprogram
  rw [findFunction?_of_expect name_read] at found
  cases descends with
  | enter first rest =>
    cases first with
    | function front item =>
      rw [hfront] at front
      cases front
      obtain ⟨earlier, hitems⟩ := ItemAt.exists_itemsTo item
      obtain ⟨decl, later, u', hsplit, hread⟩ := FunctionsTo.exists_split hitems hfunctions
      refine ⟨earlier, decl, later, hsplit, ?_⟩
      cases rest with
      | enter first rest =>
        obtain ⟨hbody, hvalid, hmeans⟩ :=
          first.findFunction?_eq hread (FunctionsTo.atTop hitems htop hnodup) hnodup
        rw [← hmeans, ← found]
        exact ((rest.sameFunctions hbody hvalid).findFunction?_eq name.text).symm

end Grammar

end Tranquility
