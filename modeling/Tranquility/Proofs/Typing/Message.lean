import Tranquility.Proofs.Descent.Enters

/-!
# What says that something cannot be done

The messages about operands whose types do not go together start with "Cannot", whatever the
operator, and no other violation of the grammar is worded like this. So most rules never say it:
they fail at a token, at a name or at a text. A rule made of such rules never says it either.
-/

namespace Tranquility

/-! ## Messages -/

namespace Violation

/-- The violation is about the operands of an operator, or it is given by words that may say
anything. -/
def mayConcernOperands : Violation → Bool
  | operandTypes _ _ => true
  | described _ => true
  | _ => false

/-- Whatever the operator, the message says what cannot be done with the operands. -/
theorem cannot_operandTypes (token : Token) (left right : Ty) :
    "Cannot ".toList <+: ((operandTypes left right).message token).toList := by
  show "Cannot ".toList <+: (operandMessage token.text left.withArticle right.withArticle).toList
  unfold operandMessage
  split <;> simp only [toString, String.toList_append] <;> simp

/-- A text starts as its front does. -/
theorem head?_append {c : Char} {front : String} (h : front.toList.head? = some c)
    (rest : String) : (front ++ rest).toList.head? = some c := by
  rw [String.toList_append, List.head?_append, h]
  rfl

/-- What is unexpected is said with another first letter. -/
theorem head?_unexpected (shown expected : String) :
    (unexpected shown expected).toList.head? = some 'U' :=
  head?_append (head?_append (head?_append rfl _) _) _

/-- The other messages start with one of these letters. -/
theorem head?_message {violation : Violation} (h : violation.mayConcernOperands = false)
    (token : Token) : ∃ c ∈ ['D', 'E', 'F', 'I', 'T', 'U', 'V'],
      (violation.message token).toList.head? = some c := by
  cases violation with
  | operandTypes => cases h
  | described => cases h
  | expectedKind => exact ⟨'E', by decide, head?_append (head?_append (head?_append rfl _) _) _⟩
  | expectedText =>
    exact ⟨'E', by decide, head?_append (head?_append (head?_append (head?_append rfl _) _) _) _⟩
  | expectedLiteral => exact ⟨'E', by decide, head?_append rfl _⟩
  | missingFunction =>
    exact ⟨'E', by decide,
      show "Expected at least one function declaration".toList.head? = _ by rfl⟩
  | endOfInput => exact ⟨'U', by decide, show "Unexpected end of input".toList.head? = _ by rfl⟩
  | expectedDeclarations | expectedFunction | misplacedKeyword | expectedStatement |
      expectedExpression => exact ⟨'U', by decide, head?_unexpected _ _⟩
  | duplicateFunction =>
    exact ⟨'T', by decide, head?_append (head?_append (head?_append rfl _) _) _⟩
  | duplicateVariable => exact ⟨'D', by decide, head?_append (head?_append rfl _) _⟩
  | undefinedVariable => exact ⟨'V', by decide, head?_append (head?_append rfl _) _⟩
  | undefinedFunction => exact ⟨'F', by decide, head?_append (head?_append rfl _) _⟩
  | argumentCount =>
    exact ⟨'I', by decide,
      head?_append (head?_append (head?_append (head?_append (head?_append rfl _) _) _) _) _⟩
  | invalidEscape => exact ⟨'I', by decide, head?_append (head?_append (head?_append rfl _) _) _⟩
  | endlessLoop =>
    exact ⟨'I', by decide,
      show "Infinite loop: Loop statement is missing `until` statement.".toList.head? = _ by rfl⟩

/-- Only a violation that may concern operands can say that something cannot be done. -/
theorem not_cannot {violation : Violation} (h : violation.mayConcernOperands = false)
    (token : Token) : ¬ "Cannot ".toList <+: (violation.message token).toList := by
  rintro ⟨rest, hrest⟩
  obtain ⟨c, hc, hhead⟩ := head?_message h token
  rw [← hrest] at hhead
  rw [← Option.some.inj hhead] at hc
  exact absurd hc (by decide)

end Violation

/-- The error is a violation whose message says that something cannot be done. -/
def Error.SaysCannot (e : Error) : Prop :=
  ∃ error, e = .violation error ∧ "Cannot ".toList <+: error.message.toList

/-- Only an error that may concern operands can say so. -/
theorem Error.not_saysCannot {violation : Violation} (h : violation.mayConcernOperands = false)
    (token : Token) (severity : Severity) :
    ¬ SaysCannot (.violation ⟨token, violation, severity⟩) := by
  rintro ⟨error, herror, hcannot⟩
  cases herror
  exact Violation.not_cannot h token hcannot

/-- To refuse a token says nothing about operands. -/
theorem Token.mayConcernOperands_of_refusal? {token : Token} {kind : Option Kind}
    {text : Option String} {violation : Violation} (h : token.refusal? kind text = some violation) :
    violation.mayConcernOperands = false := by
  rcases refusal?_cases h with ⟨_, rfl⟩ | ⟨_, rfl⟩ | rfl <;> rfl

namespace Grammar

/-! ## Rules that never say so -/

/-- No error of the rule says that something cannot be done. -/
def Mute {α : Type} (rule : Rule α) : Prop :=
  ∀ s e s', rule.run s = .error e s' → ¬ e.SaysCannot

variable {α β : Type}

namespace Mute

/-- An error that says so is none of the rule. -/
theorem elim {rule : Rule α} {s s' : State} {e : Error} {P : Prop} (h : Mute rule)
    (hrun : rule.run s = .error e s') (hcannot : e.SaysCannot) : P :=
  absurd hcannot (h s e s' hrun)

theorem pure (a : α) : Mute (Pure.pure a) :=
  fun _ _ _ h => absurd h run_pure_error

theorem bind {x : Rule α} {f : α → Rule β} (hx : Mute x) (hf : ∀ a, Mute (f a)) :
    Mute (x >>= f) := by
  intro s e s' h
  rcases run_bind_error.mp h with h | ⟨a, s₁, _, h⟩
  · exact hx _ _ _ h
  · exact hf a _ _ _ h

theorem observe {view : State → α} {f : α → Rule β} (hf : ∀ a, Mute (f a)) :
    Mute (Grammar.observe view >>= f) :=
  fun s e s' h => hf (view s) s e s' h

theorem ite {condition : Prop} [Decidable condition] {x y : Rule α} (hx : Mute x) (hy : Mute y) :
    Mute (if condition then x else y) := by
  split
  · exact hx
  · exact hy

theorem discard {x : Rule α} (hx : Mute x) : Mute (discard x) :=
  fun _ _ _ h => hx _ _ _ (run_discard_error.mp h)

theorem reject {violation : Violation} (h : violation.mayConcernOperands = false) (token : Token) :
    Mute (Grammar.reject token violation : Rule α) := by
  intro s e s' hrun
  obtain ⟨rfl, _⟩ := run_reject_error.mp hrun
  exact Error.not_saysCannot h token _

theorem require {violation : Violation} (h : violation.mayConcernOperands = false)
    (condition : Bool) (token : Token) : Mute (Grammar.require condition token violation) :=
  .ite (.pure ()) (.reject h token)

theorem modified (change : State → State) : Mute (modify change : Rule Unit) := by
  intro s e s' h
  cases h

theorem whilst {continues : State → Bool} {step : α → Rule α} (hstep : ∀ a, Mute (step a)) (a : α) :
    Mute (Grammar.whilst continues step a) := by
  intro s e s' h
  obtain ⟨b, s₁, _, _, h⟩ := run_whilst_error (fun _ _ => True) (fun _ _ _ _ _ _ _ => trivial)
    trivial h
  exact hstep b _ _ _ h

theorem collect {continues : State → Bool} {item : Rule α} (hitem : Mute item) (items : List α) :
    Mute (Grammar.collect continues item items) :=
  .whilst (fun _ => hitem.bind fun _ => .pure _) items

theorem unlessAt {stop : Kind} {items : Rule (List α)} (hitems : Mute items) :
    Mute (Grammar.unlessAt stop items) :=
  .observe fun _ => .ite (.pure []) hitems

end Mute

/-- A token is refused in other words. -/
theorem mute_advance (kind : Option Kind) (text : Option String) (opens : Option ScopeKind) :
    Mute (advance kind text opens) := by
  intro s e s' h
  rw [run_advance] at h
  split at h
  case h_1 violation hrefusal =>
    cases h
    exact Error.not_saysCannot (Token.mayConcernOperands_of_refusal? hrefusal) s.current _
  case h_2 =>
    cases h
    rintro ⟨_, herror, _⟩
    cases herror
  case h_3 => cases h

/-- A token that is missing has nothing to do with operands. -/
theorem mute_expect (kind : Kind) : Mute (expect kind) :=
  mute_advance _ _ _

theorem mute_skip (kind : Kind) : Mute (skip kind) :=
  (mute_expect kind).discard

theorem mute_expectKeyword (text : String) : Mute (expectKeyword text) :=
  mute_advance _ _ _

theorem mute_skipKeyword (text : String) : Mute (skipKeyword text) :=
  (mute_expectKeyword text).discard

theorem mute_openScope (kind : ScopeKind) : Mute (openScope kind) :=
  (mute_advance _ _ _).discard

/-- Escapes have nothing to do with operands. -/
theorem mute_checkText (token : Token) : Mute (checkText token) := by
  refine .ite ?_ (.pure ())
  unfold checkEscapes
  split
  · exact .pure ()
  · exact .reject rfl token
  · rintro s e s' ⟨⟩ ⟨_, herror, _⟩
    cases herror

/-- A literal has no operands. -/
theorem mute_literal : Mute literal := by
  refine .observe fun token => ?_
  split
  · exact .reject rfl token
  · exact (mute_advance _ _ _).bind fun token => (mute_checkText token).bind fun _ => .pure _

/-- The name of a variable has no operands. -/
theorem mute_reference : Mute reference :=
  (mute_expect .identifier).bind fun token => .observe fun _ => (Mute.require rfl _ token).bind
    fun _ => .pure _

/-- The mark on a loop never fails. -/
theorem mute_markLoop : Mute markLoop :=
  .modified _

/-- Up to its body a loop has no expression. -/
theorem mute_loopHead : Mute loopHead :=
  (mute_expectKeyword "loop").bind fun _ => (mute_openScope .loop).bind fun _ => .observe fun _ =>
    (mute_skip .newline).bind fun _ => .pure _

/-- The verdict on a loop has nothing to do with operands. -/
theorem mute_loopEnd (token : Token) (scope : Nat) (body : List Stmt) :
    Mute (loopEnd token scope body) :=
  .observe fun _ => (Mute.require rfl _ token).bind fun _ => (mute_skip .rightBrace).bind fun _ =>
    (mute_skip .newline).bind fun _ => .pure _

theorem mute_identifiers : Mute identifiers :=
  (mute_expect .identifier).bind fun first =>
    .collect ((mute_skip .comma).bind fun _ => mute_expect .identifier) [first]

theorem mute_declareVariables (tokens : List Token) : Mute (declareVariables tokens) := by
  induction tokens with
  | nil => exact .pure ()
  | cons token tokens ih =>
    refine Mute.bind (fun s e s' h => ?_) fun _ => ih
    rw [run_declareVariable] at h
    split at h
    · cases h
      exact Error.not_saysCannot rfl token _
    · cases h

theorem mute_variableLines : Mute variableLines :=
  .collect ((mute_skipKeyword "var").bind fun _ => mute_identifiers.bind fun names =>
    (mute_declareVariables names).bind fun _ => (mute_skip .newline).bind fun _ => .pure names) []

theorem mute_functionHead : Mute functionHead := by
  refine (mute_skipKeyword "fun").bind fun _ => (mute_expect .identifier).bind fun name => ?_
  refine .observe fun _ => (Mute.require rfl _ name).bind fun _ =>
    (mute_skip .leftParen).bind fun _ => ?_
  refine mute_identifiers.unlessAt.bind fun parameters => (mute_skip .rightParen).bind fun _ =>
    .observe fun _ => (mute_openScope .function).bind fun _ => (Mute.modified _).bind fun _ => ?_
  exact (mute_declareVariables parameters).bind fun _ => (mute_skip .newline).bind fun _ => .pure _

theorem mute_functionEnd : Mute functionEnd :=
  .observe fun _ => .ite (.pure ()) (mute_skip .newline)

/-- What is said about the start of a program is not about operands. -/
theorem mayConcernOperands_startFault (s : State) : s.startFault.mayConcernOperands = false := by
  unfold State.startFault
  split <;> rfl

/-- What stands in front of the functions has no operands. -/
theorem mute_preamble : Mute preamble := by
  refine (Mute.whilst (fun _ => mute_skip .newline) ()).bind fun _ => mute_variableLines.bind
    fun globals => .observe fun first s e s' h => ?_
  rw [run_observe_bind] at h
  have hmute : Mute (require (first.isKeyword "fun") first s.startFault) :=
    .require (mayConcernOperands_startFault s) _ first
  exact hmute.bind (fun _ => .pure globals) s e s' h

end Grammar

end Tranquility
