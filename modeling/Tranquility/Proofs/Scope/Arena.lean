import Tranquility.Proofs.Scope.Declared

/-!
# The scopes of blocks

What the braces of a tree leave in the arena, said of the tree alone. A block has one scope, in the
order of the opening braces and inside the scopes of the blocks around it, and only the scope of a
loop has an `until` statement. The walk that opens and closes scopes comes to the same: it puts the
scopes of the blocks at the end of the arena and marks the loop in whose body it goes.
-/

namespace Tranquility

/-! ## Trees -/

mutual

/-- The scopes of the blocks in a statement, which stands inside the scopes `outer`. The first block
gets the number `first`. -/
def Stmt.blocks (outer : List Nat) (first : Nat) : Stmt → List Scope
  | .conditional conditional => conditional.blocks outer first
  | .loop _ body =>
    ⟨.loop, outer, [], [], true⟩ :: Stmt.blocksOfAll (first :: outer) (first + 1) body
  | .until _ _ => []
  | .result _ _ => []
  | .assignment _ _ _ => []
  | .expression _ => []

/-- The scopes of the blocks of a conditional and of what is chained to it, all of which stand in
the same scopes. -/
def Conditional.blocks (outer : List Nat) (first : Nat) : Conditional → List Scope
  | .only _ _ body =>
    ⟨.ifBranch, outer, [], [], false⟩ :: Stmt.blocksOfAll (first :: outer) (first + 1) body
  | .otherwise _ _ body alternative =>
    let here :=
      ⟨.ifBranch, outer, [], [], false⟩ :: Stmt.blocksOfAll (first :: outer) (first + 1) body
    let second := first + here.length
    here ++ ⟨.elseBranch, outer, [], [], false⟩ ::
      Stmt.blocksOfAll (second :: outer) (second + 1) alternative
  | .chained _ _ body next =>
    let here :=
      ⟨.ifBranch, outer, [], [], false⟩ :: Stmt.blocksOfAll (first :: outer) (first + 1) body
    here ++ next.blocks outer (first + here.length)

/-- The scopes of the blocks of some statements, one statement after the other. -/
def Stmt.blocksOfAll (outer : List Nat) (first : Nat) : List Stmt → List Scope
  | [] => []
  | stmt :: stmts =>
    let here := stmt.blocks outer first
    here ++ Stmt.blocksOfAll outer (first + here.length) stmts

end

/-- The scope of a function and those of the blocks in its body. -/
def FunctionDecl.blocks (first : Nat) (function : FunctionDecl) : List Scope :=
  .function (function.parameters ++ function.locals.flatten) ::
    Stmt.blocksOfAll [first, 0] (first + 1) function.body

/-- The scopes of some functions and of the blocks in them, one function after the other. -/
def FunctionDecl.blocksOfAll (first : Nat) : List FunctionDecl → List Scope
  | [] => []
  | function :: functions =>
    let here := function.blocks first
    here ++ FunctionDecl.blocksOfAll (first + here.length) functions

/-- All scopes of a program: the global one, and then those of its functions. -/
def Program.arena (program : Program) : List Scope :=
  .program program.globals.flatten program.functions ::
    FunctionDecl.blocksOfAll 1 program.functions

/-! ## Marks -/

/-- The scope has an `until` statement exactly if it is the body of a loop. -/
def Scope.MarkedAsLoop (scope : Scope) : Prop :=
  scope.hasUntil = true ↔ scope.kind = .loop

mutual

/-- The blocks of a statement are marked exactly if they are loops. -/
theorem Stmt.markedAsLoop_of_mem_blocks : ∀ (stmt : Stmt) {outer : List Nat} {first : Nat},
    ∀ scope ∈ stmt.blocks outer first, scope.MarkedAsLoop
  | .conditional conditional, _, _ => conditional.markedAsLoop_of_mem_blocks
  | .loop _ body, _, _ =>
    List.forall_mem_cons.mpr
      ⟨by simp [Scope.MarkedAsLoop], Stmt.markedAsLoop_of_mem_blocksOfAll body⟩
  | .until _ _, _, _ => by simp [Stmt.blocks]
  | .result _ _, _, _ => by simp [Stmt.blocks]
  | .assignment _ _ _, _, _ => by simp [Stmt.blocks]
  | .expression _, _, _ => by simp [Stmt.blocks]

theorem Conditional.markedAsLoop_of_mem_blocks : ∀ (conditional : Conditional) {outer : List Nat}
    {first : Nat}, ∀ scope ∈ conditional.blocks outer first, scope.MarkedAsLoop
  | .only _ _ body, _, _ =>
    List.forall_mem_cons.mpr
      ⟨by simp [Scope.MarkedAsLoop], Stmt.markedAsLoop_of_mem_blocksOfAll body⟩
  | .otherwise _ _ body alternative, _, _ =>
    List.forall_mem_append.mpr
      ⟨List.forall_mem_cons.mpr
        ⟨by simp [Scope.MarkedAsLoop], Stmt.markedAsLoop_of_mem_blocksOfAll body⟩,
        List.forall_mem_cons.mpr
          ⟨by simp [Scope.MarkedAsLoop], Stmt.markedAsLoop_of_mem_blocksOfAll alternative⟩⟩
  | .chained _ _ body next, _, _ =>
    List.forall_mem_append.mpr
      ⟨List.forall_mem_cons.mpr
        ⟨by simp [Scope.MarkedAsLoop], Stmt.markedAsLoop_of_mem_blocksOfAll body⟩,
        next.markedAsLoop_of_mem_blocks⟩

theorem Stmt.markedAsLoop_of_mem_blocksOfAll : ∀ (stmts : List Stmt) {outer : List Nat}
    {first : Nat}, ∀ scope ∈ Stmt.blocksOfAll outer first stmts, scope.MarkedAsLoop
  | [], _, _ => by simp [Stmt.blocksOfAll]
  | stmt :: stmts, _, _ =>
    List.forall_mem_append.mpr
      ⟨stmt.markedAsLoop_of_mem_blocks, Stmt.markedAsLoop_of_mem_blocksOfAll stmts⟩

end

/-- Among the scopes of a program those of the loops have an `until` statement and no others. -/
theorem Program.markedAsLoop_of_mem_arena (program : Program) :
    ∀ scope ∈ program.arena, scope.MarkedAsLoop := by
  have hfunctions : ∀ (functions : List FunctionDecl) (first : Nat),
      ∀ scope ∈ FunctionDecl.blocksOfAll first functions, scope.MarkedAsLoop := by
    intro functions
    induction functions with
    | nil => simp [FunctionDecl.blocksOfAll]
    | cons function functions ih =>
      intro first
      refine List.forall_mem_append.mpr ⟨List.forall_mem_cons.mpr ⟨?_, ?_⟩, ih _⟩
      · simp [Scope.MarkedAsLoop, Scope.function]
      · exact Stmt.markedAsLoop_of_mem_blocksOfAll function.body
  refine List.forall_mem_cons.mpr ⟨?_, hfunctions program.functions 1⟩
  simp [Scope.MarkedAsLoop, Scope.program]

/-! ## Walks -/

/-- The scope after statements that have an `until` among them or not. -/
def Scope.mark (marks : Bool) (scope : Scope) : Scope :=
  { scope with hasUntil := scope.hasUntil || (marks && scope.kind = .loop) }

/-- Without an `until` statement a scope stays as it is. -/
theorem Scope.mark_false (scope : Scope) : scope.mark false = scope := by
  simp [Scope.mark]

/-- One mark is as good as two. -/
theorem Scope.mark_mark (marks marks' : Bool) (scope : Scope) :
    (scope.mark marks).mark marks' = scope.mark (marks || marks') := by
  cases marks <;> cases marks' <;> simp [Scope.mark]

/-- Only loops are marked. -/
theorem Scope.mark_of_ne_loop {scope : Scope} (h : scope.kind ≠ .loop) (marks : Bool) :
    scope.mark marks = scope := by
  simp [Scope.mark, h]

namespace Scopes

/-- The scopes after statements that have an `until` among them or not. -/
def marked (marks : Bool) (scopes : Scopes) : Scopes :=
  { scopes with arena := scopes.arena.modify scopes.current (Scope.mark marks) }

/-- The scopes with more of them at the end. -/
def extended (blocks : List Scope) (scopes : Scopes) : Scopes :=
  { scopes with arena := scopes.arena ++ blocks.toArray }

variable {scopes : Scopes}

/-- Scopes are told by the current one and the records in their arena. -/
theorem eq_of_getElem? {other : Scopes} (hcurrent : scopes.current = other.current)
    (harena : ∀ id : Nat, scopes.arena[id]? = other.arena[id]?) : scopes = other := by
  obtain ⟨arena, current⟩ := scopes
  obtain ⟨arena', current'⟩ := other
  rw [Scopes.mk.injEq]
  exact ⟨Array.ext_getElem? harena, hcurrent⟩

/-- A mark is on the record of the current scope alone. -/
theorem getElem?_marked (marks : Bool) (id : Nat) : (scopes.marked marks).arena[id]? =
    if scopes.current = id then (scopes.arena[id]?).map (Scope.mark marks)
    else scopes.arena[id]? :=
  Array.getElem?_modify

/-- New records come after those that there were. -/
theorem getElem?_extended (blocks : List Scope) (id : Nat) : (scopes.extended blocks).arena[id]? =
    if id < scopes.arena.size then scopes.arena[id]? else blocks[id - scopes.arena.size]? := by
  simp [extended, Array.getElem?_append]

@[simp] theorem current_marked (marks : Bool) : (scopes.marked marks).current = scopes.current :=
  rfl

@[simp] theorem current_extended (blocks : List Scope) :
    (scopes.extended blocks).current = scopes.current := rfl

@[simp] theorem size_marked (marks : Bool) :
    (scopes.marked marks).arena.size = scopes.arena.size := Array.size_modify

@[simp] theorem size_extended (blocks : List Scope) :
    (scopes.extended blocks).arena.size = scopes.arena.size + blocks.length := by
  simp [extended]

@[simp] theorem chain_marked (marks : Bool) (id : Nat) :
    (scopes.marked marks).chain id = scopes.chain id :=
  congrArg (id :: ·) (outer_modify (Scope.mark marks) (fun _ => rfl) _ _)

/-- More records at the end do not change what is around a scope. -/
theorem chain_extended (blocks : List Scope) {id : Nat} (h : id < scopes.arena.size) :
    (scopes.extended blocks).chain id = scopes.chain id := by
  simp only [chain, outer, getElem?_extended, if_pos h]

/-- Without an `until` statement nothing is marked. -/
theorem marked_false : scopes.marked false = scopes := by
  have hmark : Scope.mark false = id := funext Scope.mark_false
  refine eq_of_getElem? rfl fun i => ?_
  rw [getElem?_marked, hmark, Option.map_id_fun]
  exact ite_id _

/-- Only in the body of a loop is anything marked. -/
theorem marked_of_ne_loop (h : scopes.kind? scopes.current ≠ some .loop) (marks : Bool) :
    scopes.marked marks = scopes := by
  refine eq_of_getElem? rfl fun id => ?_
  rw [getElem?_marked]
  by_cases hid : scopes.current = id
  · rw [if_pos hid, ← hid]
    cases hscope : scopes.arena[scopes.current]? with
    | none => rfl
    | some scope =>
      have hkind : scope.kind ≠ .loop := by simpa [kind?, hscope] using h
      exact congrArg some (Scope.mark_of_ne_loop hkind marks)
  · rw [if_neg hid]

/-- To mark the loop that is current is to mark the current scope if it is a loop. -/
theorem markLoop_eq : scopes.markLoop = scopes.marked true := by
  unfold markLoop
  split
  case isTrue hloop =>
    refine eq_of_getElem? rfl fun id => ?_
    rw [getElem?_marked, markUntil, Array.getElem?_modify]
    by_cases hid : scopes.current = id
    · obtain ⟨scope, hscope, hkind⟩ := Option.map_eq_some_iff.mp hloop
      rw [if_pos hid, if_pos hid, ← hid, hscope]
      simp [Scope.mark, Scope.markUntil, hkind]
    · rw [if_neg hid, if_neg hid]
  case isFalse hloop => exact (marked_of_ne_loop hloop true).symm

/-- Marks add up. -/
theorem marked_marked (marks marks' : Bool) :
    (scopes.marked marks).marked marks' = scopes.marked (marks || marks') := by
  refine eq_of_getElem? rfl fun id => ?_
  rw [getElem?_marked, getElem?_marked, getElem?_marked, current_marked]
  by_cases hid : scopes.current = id
  · rw [if_pos hid, if_pos hid, if_pos hid, Option.map_map]
    exact congrArg (Option.map · _) (funext (Scope.mark_mark marks marks'))
  · simp only [if_neg hid]

theorem extended_nil : scopes.extended [] = scopes :=
  eq_of_getElem? rfl fun id => by simp [extended]

/-- Records may be added one part after the other. -/
theorem extended_append (blocks blocks' : List Scope) :
    scopes.extended (blocks ++ blocks') = (scopes.extended blocks).extended blocks' :=
  eq_of_getElem? rfl fun id => by simp [extended, Array.append_assoc]

/-- A mark does not depend on the scopes that come after the current one. -/
theorem marked_extended (h : scopes.current < scopes.arena.size) (marks : Bool)
    (blocks : List Scope) :
    (scopes.extended blocks).marked marks = (scopes.marked marks).extended blocks := by
  refine eq_of_getElem? rfl fun id => ?_
  rw [getElem?_marked, getElem?_extended, getElem?_extended, getElem?_marked, current_extended,
    size_marked]
  by_cases hid : scopes.current = id
  · rw [if_pos hid, if_pos (hid ▸ h), if_pos (hid ▸ h), if_pos hid]
  · rw [if_neg hid, if_neg hid]

/-- The last scope is closed after the blocks in it: it stands at the end of the arena, and they
stand behind it. -/
theorem closed_extended {inner : Scopes} {own : Scope} {further : List Nat}
    (hcurrent : inner.current = scopes.arena.size)
    (hsize : inner.arena.size = scopes.arena.size + 1)
    (hold : ∀ id < scopes.arena.size, inner.arena[id]? = scopes.arena[id]?)
    (hown : inner.arena[scopes.arena.size]? = some own)
    (houter : own.outer = scopes.current :: further) (blocks : List Scope) :
    (inner.extended blocks).closed = scopes.extended (own :: blocks) := by
  have hat : (inner.extended blocks).arena[scopes.arena.size]? = some own := by
    rw [getElem?_extended, if_pos (by omega), hown]
  refine eq_of_getElem? ?_ fun id => ?_
  · have hinner : (inner.extended blocks).outer inner.current = scopes.current :: further := by
      rw [outer, hcurrent, hat]
      exact houter
    rw [closed, current_extended, hinner]
    rfl
  · show (inner.extended blocks).arena[id]? = _
    rw [getElem?_extended (own :: blocks)]
    rcases Nat.lt_trichotomy id scopes.arena.size with hid | rfl | hid
    · rw [if_pos hid, getElem?_extended, if_pos (by omega), hold id hid]
    · rw [if_neg (Nat.lt_irrefl _), hat, Nat.sub_self]
      rfl
    · rw [if_neg (by omega), getElem?_extended, if_neg (by omega), hsize,
        show id - scopes.arena.size = id - (scopes.arena.size + 1) + 1 by omega]
      rfl

/-- A block puts its scope at the end of the arena, then the scopes of the blocks in it. -/
theorem closed_block (kind : ScopeKind) (marks : Bool) (blocks : List Scope) :
    (((scopes.opened kind).marked marks).extended blocks).closed = scopes.extended
      (Scope.mark marks ⟨kind, scopes.chain scopes.current, [], [], false⟩ :: blocks) := by
  apply closed_extended
  · exact current_opened kind scopes
  · rw [size_marked, size_opened]
  · intro id hid
    rw [getElem?_marked, current_opened, if_neg (by omega), arena_opened_of_lt hid]
  · rw [getElem?_marked, current_opened, if_pos rfl, arena_opened_size]
    rfl
  · rfl

/-- Statements in a block have put the scopes of their blocks after that of the block. -/
theorem closed_of_eq {kind : ScopeKind} {marks : Bool} {body : List Stmt} {inner : Scopes}
    (h : inner = ((scopes.opened kind).marked marks).extended (Stmt.blocksOfAll
      ((scopes.opened kind).chain (scopes.opened kind).current) (scopes.opened kind).arena.size
        body)) :
    inner.closed = scopes.extended (Scope.mark marks
      ⟨kind, scopes.chain scopes.current, [], [], false⟩ :: Stmt.blocksOfAll
        (scopes.arena.size :: scopes.chain scopes.current) (scopes.arena.size + 1) body) := by
  have hchain : (scopes.opened kind).chain scopes.arena.size =
      scopes.arena.size :: scopes.chain scopes.current :=
    congrArg _ (outer_opened_size kind scopes)
  rw [h, closed_block, size_opened, current_opened, hchain]

/-- The block of a branch. -/
theorem closed_of_branch {kind : ScopeKind} (hkind : kind ≠ .loop) {marks : Bool}
    {body : List Stmt} {inner : Scopes}
    (h : inner = ((scopes.opened kind).marked marks).extended (Stmt.blocksOfAll
      ((scopes.opened kind).chain (scopes.opened kind).current) (scopes.opened kind).arena.size
        body)) :
    inner.closed = scopes.extended (⟨kind, scopes.chain scopes.current, [], [], false⟩ ::
      Stmt.blocksOfAll (scopes.arena.size :: scopes.chain scopes.current) (scopes.arena.size + 1)
        body) := by
  rw [closed_of_eq h, Scope.mark_of_ne_loop hkind]

/-- Statements after the first walk on from where that has come to. -/
theorem extended_marked (hv : scopes.Valid) {marks marks' : Bool} {blocks blocks' : List Scope} :
    (((scopes.marked marks).extended blocks).marked marks').extended blocks' =
      (scopes.marked (marks || marks')).extended (blocks ++ blocks') := by
  rw [marked_extended, marked_marked, extended_append]
  rw [current_marked, size_marked]
  exact hv.current_lt

end Scopes

mutual

/-- A statement puts the scopes of its blocks at the end of the arena, and marks the loop around it
if it is an `until` statement. -/
theorem Stmt.settle_eq : ∀ (stmt : Stmt) {scopes : Scopes}, scopes.Valid → stmt.Complete →
    stmt.settle scopes = (scopes.marked stmt.isUntil).extended
      (stmt.blocks (scopes.chain scopes.current) scopes.arena.size)
  | .conditional conditional, _, hv, hcomplete => by
    rw [Stmt.settle, conditional.settle_eq hv hcomplete]
    exact congrArg _ Scopes.marked_false.symm
  | .until _ _, _, _, _ => by
    rw [Stmt.settle, Scopes.markLoop_eq]
    exact Scopes.extended_nil.symm
  | .loop _ body, _, hv, ⟨huntil, hcomplete⟩ => by
    have hbody := Stmt.settleAll_eq body (hv.opened .loop) hcomplete
    rw [huntil] at hbody
    rw [Stmt.settle, Scopes.closed_of_eq hbody]
    exact congrArg _ Scopes.marked_false.symm
  | .result _ _, _, _, _ => (Scopes.extended_nil.trans Scopes.marked_false).symm
  | .assignment _ _ _, _, _, _ => (Scopes.extended_nil.trans Scopes.marked_false).symm
  | .expression _, _, _, _ => (Scopes.extended_nil.trans Scopes.marked_false).symm

/-- A conditional adds its blocks to the arena, and nothing else. -/
theorem Conditional.settle_eq : ∀ (conditional : Conditional) {scopes : Scopes}, scopes.Valid →
    conditional.Complete → conditional.settle scopes =
      scopes.extended (conditional.blocks (scopes.chain scopes.current) scopes.arena.size)
  | .only _ _ body, _, hv, ⟨_, hcomplete⟩ =>
    Scopes.closed_of_branch (by decide) (Stmt.settleAll_eq body (hv.opened .ifBranch) hcomplete)
  -- The first block is closed when the second one opens, so both stand in the same scopes.
  | .otherwise _ _ body alternative, scopes, hv, ⟨⟨_, hcomplete⟩, _, hcomplete'⟩ => by
    have hbody := Scopes.closed_of_branch (by decide)
      (Stmt.settleAll_eq body (hv.opened .ifBranch) hcomplete)
    have hbetween : (Stmt.settleAll body (scopes.opened .ifBranch)).closed.Valid :=
      ((Stmt.passes_all body (hv.opened .ifBranch)).block hv).valid
    rw [Conditional.settle, Scopes.closed_of_branch (by decide)
      (Stmt.settleAll_eq alternative (hbetween.opened .elseBranch) hcomplete'), hbody,
      Scopes.current_extended, Scopes.size_extended, Scopes.chain_extended _ hv.current_lt,
      ← Scopes.extended_append]
    rfl
  | .chained _ _ body next, scopes, hv, ⟨⟨_, hcomplete⟩, hnext⟩ => by
    have hbody := Scopes.closed_of_branch (by decide)
      (Stmt.settleAll_eq body (hv.opened .ifBranch) hcomplete)
    have hbetween : (Stmt.settleAll body (scopes.opened .ifBranch)).closed.Valid :=
      ((Stmt.passes_all body (hv.opened .ifBranch)).block hv).valid
    rw [Conditional.settle, next.settle_eq hbetween hnext, hbody, Scopes.current_extended,
      Scopes.size_extended, Scopes.chain_extended _ hv.current_lt, ← Scopes.extended_append]
    rfl

/-- Statements put the scopes of their blocks at the end of the arena, and mark the loop around them
if an `until` statement is among them. -/
theorem Stmt.settleAll_eq : ∀ (stmts : List Stmt) {scopes : Scopes}, scopes.Valid →
    Stmt.AllComplete stmts → Stmt.settleAll stmts scopes =
      (scopes.marked (stmts.any Stmt.isUntil)).extended
        (Stmt.blocksOfAll (scopes.chain scopes.current) scopes.arena.size stmts)
  | [], _, _, _ => (Scopes.extended_nil.trans Scopes.marked_false).symm
  | stmt :: stmts, scopes, hv, ⟨hcomplete, hcompletes⟩ => by
    rw [Stmt.settleAll, Stmt.settleAll_eq stmts (stmt.passes hv).valid hcompletes,
      stmt.settle_eq hv hcomplete, Scopes.extended_marked hv]
    rw [Scopes.current_extended, Scopes.current_marked, Scopes.chain_extended, Scopes.chain_marked,
      Scopes.size_extended, Scopes.size_marked]
    · rfl
    · rw [Scopes.size_marked]
      exact hv.current_lt

end

/-! ## Functions -/

namespace Scopes

variable {globals : List Token} {functions : List FunctionDecl} {scopes : Scopes}

@[simp] theorem current_entered (function : FunctionDecl) :
    (function.entered scopes).current = scopes.arena.size := rfl

@[simp] theorem size_entered (function : FunctionDecl) :
    (function.entered scopes).arena.size = scopes.arena.size + 1 := by
  simp [FunctionDecl.entered, declared, declareFunction]

/-- In a function the scopes in front of its own are those in front of the function, with its entry
in the global one. -/
theorem getElem?_entered (function : FunctionDecl) {id : Nat} (h : id < scopes.arena.size) :
    (function.entered scopes).arena[id]? =
      (scopes.declareFunction function.symbol 0).arena[id]? := by
  have hne : scopes.arena.size ≠ id := Nat.ne_of_gt h
  simp [FunctionDecl.entered, declared, declareFunction, Array.getElem?_modify, hne,
    arena_opened_of_lt h]

/-- A function puts its scope at the end of the arena, and the scopes of the blocks in it after
that. -/
theorem AtTop.settle_eq (h : AtTop globals functions scopes) (function : FunctionDecl)
    (hcomplete : Stmt.AllComplete function.body) : function.settle scopes =
      (scopes.declareFunction function.symbol 0).extended (function.blocks scopes.arena.size) := by
  have hin := h.entered function
  have hchain : (function.entered scopes).chain scopes.arena.size = [scopes.arena.size, 0] :=
    congrArg _ hin.outer_current
  have hkind : (function.entered scopes).kind? scopes.arena.size ≠ some .loop := by
    rw [kind?, show (function.entered scopes).arena[scopes.arena.size]? = _ from hin.own]
    simp [Scope.function]
  have hsettle := Stmt.settleAll_eq function.body hin.valid hcomplete
  rw [current_entered, size_entered, hchain, marked_of_ne_loop hkind] at hsettle
  have hsize : (scopes.declareFunction function.symbol 0).arena.size = scopes.arena.size :=
    Array.size_modify
  have houter : (Scope.function (function.parameters ++ function.locals.flatten)).outer =
      [(scopes.declareFunction function.symbol 0).current] :=
    congrArg ([·]) h.current.symm
  rw [FunctionDecl.settle, hsettle]
  refine closed_extended ?_ ?_ ?_ ?_ houter _
  · rw [hsize, current_entered]
  · rw [hsize, size_entered]
  · intro id hid
    exact getElem?_entered function (hsize ▸ hid)
  · rw [hsize]
    exact hin.own

/-- Functions one after the other put their scopes and those of their blocks at the end of the
arena. -/
theorem AtTop.toList_settle_all (further : List FunctionDecl)
    (h : AtTop globals functions scopes) {blocks : List Scope}
    (harena : scopes.arena.toList = .program globals functions :: blocks)
    (hcomplete : ∀ function ∈ further, Stmt.AllComplete function.body) :
    (further.foldl (fun scopes function => function.settle scopes) scopes).arena.toList =
      .program globals (functions ++ further) ::
        (blocks ++ FunctionDecl.blocksOfAll (blocks.length + 1) further) := by
  induction further generalizing functions scopes blocks with
  | nil => simpa [FunctionDecl.blocksOfAll] using harena
  | cons function further ih =>
    obtain ⟨hfirst, hfurther⟩ := List.forall_mem_cons.mp hcomplete
    have hsize : scopes.arena.size = blocks.length + 1 := by
      rw [← Array.length_toList, harena, List.length_cons]
    have hsettle : (function.settle scopes).arena.toList =
        .program globals (functions ++ [function]) ::
          (blocks ++ function.blocks scopes.arena.size) := by
      rw [h.settle_eq function hfirst, extended, declareFunction, Array.toList_append,
        Array.toList_modify, harena, List.modify_zero_cons, Scope.addFunction_program]
      rfl
    rw [List.foldl_cons, ih (h.settle function) hsettle hfurther,
      List.append_cons functions function further, FunctionDecl.blocksOfAll, hsize,
      List.length_append, List.append_assoc blocks, Nat.add_right_comm blocks.length]

end Scopes

end Tranquility
