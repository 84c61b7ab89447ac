import Tranquility.Proofs.Reading.Program
import Tranquility.Proofs.Scope.Arena

/-!
# The arena of a program

The scopes that a parse leaves are those of the tree that it returns. Braces open and close scopes
while tokens are read, and the rules write declarations and marks into them; at the end all of this
can be read off the tree, block by block.
-/

namespace Tranquility

/-- What a program without a token unread leaves of the scopes it starts with. -/
theorem Program.settle_trace (program : Program) (front : Nat) (ended : Bool) (scopes : Scopes) :
    (program.trace front ended).settle scopes = program.functions.foldl
      (fun scopes function => function.settle scopes) (scopes.declared program.globals.flatten) :=
  rfl

/-- The global variables alone make up the global scope. -/
theorem Scopes.toList_declared_initial (globals : List Token) :
    (Scopes.initial.declared globals).arena.toList = [.program globals []] := by
  rw [Scopes.declared, Array.toList_modify]
  exact congrArg ([·]) (Scope.addVariables_program [] globals [])

/-- A program that the grammar reads leaves the global scope current, and in the arena the scopes of
its blocks in the order of their left braces. Each has its kind, the scopes around it and what is
declared in it, and those of the loops are marked with their `until` statement and no others. -/
theorem arena_of_parse {tokens : List Token} {reporter : Reporter} {program : Program}
    {s' : Grammar.State}
    (h : Grammar.program.run (.ofTokens tokens reporter) = .ok program s') :
    s'.scopes.current = 0 ∧ s'.scopes.arena.toList = program.arena ∧
      ∀ scope ∈ s'.scopes.arena, scope.MarkedAsLoop := by
  obtain ⟨⟨front, ended, hreads⟩, _, _, _, hlegal⟩ := Grammar.program_reads rfl h
  have hglobals : (Scopes.initial.declared program.globals.flatten).AtTop
      program.globals.flatten [] := Scopes.atTop_initial.declared program.globals.flatten
  have hcomplete : ∀ function ∈ program.functions, Stmt.AllComplete function.body := by
    intro function hfunction
    obtain ⟨earlier, later, hsplit⟩ := List.append_of_mem hfunction
    exact (hlegal earlier function later hsplit).body.complete
  have harena := hglobals.toList_settle_all program.functions
    (Scopes.toList_declared_initial program.globals.flatten) hcomplete
  rw [← program.settle_trace front ended] at harena
  have htop := hglobals.settle_all program.functions
  rw [← program.settle_trace front ended] at htop
  have hscopes : s'.scopes = (program.trace front ended).settle .initial := hreads.scopes_eq
  rw [hscopes]
  refine ⟨htop.current, harena, fun scope hscope => ?_⟩
  have hmem := Array.mem_toList_iff.mpr hscope
  rw [harena] at hmem
  exact program.markedAsLoop_of_mem_arena scope hmem

/-- A conditional with a chained one in a loop: all their blocks stand in the body of the loop. -/
theorem arena_of_parse_chained : ∃ tokens program s',
    tokenize
      "fun f(a) \x7b\nloop \x7b\nif a \x7b\n1\n\x7d\nelse if 2 \x7b\n3\n\x7d\nuntil 4\n\x7d\n\x7d" =
      .ok tokens ∧
      Grammar.program.run (.ofTokens tokens .empty) = .ok program s' ∧
        s'.scopes.current = 0 ∧ s'.scopes.arena.toList = program.arena ∧
          (∀ scope ∈ s'.scopes.arena, scope.MarkedAsLoop) ∧
            program.arena.map (fun scope => (scope.kind, scope.parent?)) =
              [(.global, none), (.function, some 0), (.loop, some 1), (.ifBranch, some 2),
                (.ifBranch, some 2)] := by
  have htokens := tokenize_eq
    "fun f(a) \x7b\nloop \x7b\nif a \x7b\n1\n\x7d\nelse if 2 \x7b\n3\n\x7d\nuntil 4\n\x7d\n\x7d"
  have hok : Grammar.reaches (fun program _ => decide (
        program.arena.map (fun scope => (scope.kind, scope.parent?)) =
          [(.global, none), (.function, some 0), (.loop, some 1), (.ifBranch, some 2),
            (.ifBranch, some 2)]))
      (Grammar.program.run (.ofTokens (Token.significant (scan
        "fun f(a) \x7b\nloop \x7b\nif a \x7b\n1\n\x7d\nelse if 2 \x7b\n3\n\x7d\nuntil 4\n\x7d\n\x7d"
        ).tokens) .empty)) = true := by decide +kernel
  obtain ⟨program, s', h, hscopes⟩ := Grammar.exists_ok_of_reaches hok
  obtain ⟨hcurrent, harena, hmarked⟩ := arena_of_parse h
  exact ⟨_, program, s', htokens, h, hcurrent, harena, hmarked, of_decide_eq_true hscopes⟩

end Tranquility
