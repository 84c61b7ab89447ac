import Tranquility.Editor.Server
import Tranquility.Proofs.Checking.Diagnostics

/-!
# What a server knows after a session

A session is a list of events about any documents in any order. What the server keeps of a document
and publishes about it follows from the texts with which the document has been checked since it was
closed last: the last of them decides about the result, and the last one that was a program about
the symbols. Events about other documents make no difference.
-/

namespace Tranquility.Editor

/-! ## The history of a document -/

/-- The document that an event is about. -/
def Event.uri : Event → String
  | .opened uri _ | .changed uri _ | .saved uri | .closed uri => uri

/-- The text that a document has after an event about it. -/
def Event.textAfter (text? : Option String) : Event → Option String
  | .opened _ text | .changed _ text => some text
  | .saved _ => text?
  | .closed _ => none

/-- What a server does with a document at an event. -/
inductive Visit where
  /-- The document is checked as it is now. -/
  | checked (text : String)
  /-- What is known about the document is dropped. -/
  | forgotten
  deriving DecidableEq, Repr

/-- What an event asks for if its document has a text: whatever opens, changes or is saved is
checked with all of its text. A document without a text cannot be saved. -/
def Event.visit? (text? : Option String) : Event → Option Visit
  | .opened _ text | .changed _ text => some (.checked text)
  | .saved _ => text?.map .checked
  | .closed _ => some .forgotten

/-- The events about one document. -/
def eventsOf (uri : String) (events : List Event) : List Event :=
  events.filter (·.uri = uri)

/-- What events ask for, one after the other, of a document with a text. -/
def visitsFrom (text? : Option String) : List Event → List Visit
  | [] => []
  | event :: events =>
    (event.visit? text?).toList ++ visitsFrom (event.textAfter text?) events

/-- What the events of a session ask for of a document that is closed at the start. -/
def visits (uri : String) (events : List Event) : List Visit :=
  visitsFrom none (eventsOf uri events)

/-- The text of a document after a session, if it is open. -/
def textAfter (uri : String) (events : List Event) : Option String :=
  (eventsOf uri events).foldl Event.textAfter none

/-- The texts of the checks in front of the first time that a document is forgotten. -/
def leadingTexts : List Visit → List String
  | .checked text :: visits => text :: leadingTexts visits
  | _ => []

/-- The texts with which a document has been checked since it was forgotten last, the latest first.
-/
def recentTexts (uri : String) (events : List Event) : List String :=
  leadingTexts (visits uri events).reverse

/-- The program that a check finds in a text. -/
def programOf? (text : String) : Option Program :=
  (check text).toOption.bind (·.program)

/-- The program found in a text is that of its check. -/
theorem programOf?_eq_some_iff {text : String} {program : Program} :
    programOf? text = some program ↔
      ∃ analysis, check text = .ok analysis ∧ analysis.program = some program := by
  rw [programOf?]
  cases check text with
  | ok analysis => simp [Except.toOption]
  | error error => simp [Except.toOption]

namespace Visit

/-- What is published at a visit: a check publishes its diagnostics once, if the document is one of
the language, and a document that is forgotten has no diagnostics. -/
inductive Publishes (uri : String) : Visit → List Publication → Prop where
  | checked {text : String} {analysis : Analysis} (source : isSourcePath uri = true)
    (found : check text = .ok analysis) :
    Publishes uri (.checked text) [⟨uri, clientDiagnostics text analysis⟩]
  | ignored {text : String} (source : isSourcePath uri = false) : Publishes uri (.checked text) []
  | forgotten : Publishes uri .forgotten [⟨uri, []⟩]

/-- The publications are those of the visits, one visit after the other. -/
inductive PublishesAll (uri : String) : List Visit → List Publication → Prop where
  | nil : PublishesAll uri [] []
  | cons {visit : Visit} {visits : List Visit} {part published : List Publication}
    (first : visit.Publishes uri part) (rest : PublishesAll uri visits published) :
    PublishesAll uri (visit :: visits) (part ++ published)

variable {uri other : String} {visit : Visit} {visits visits' : List Visit}
  {published published' : List Publication}

/-- What is published at a visit is about its document. -/
theorem Publishes.uri_eq (h : visit.Publishes uri published) :
    ∀ publication ∈ published, publication.uri = uri := by
  cases h <;> simp

/-- What is published is settled by the visit. -/
theorem Publishes.unique (h : visit.Publishes uri published)
    (h' : visit.Publishes uri published') : published = published' := by
  cases h with
  | checked source found =>
    cases h' with
    | checked _ found' =>
      rw [found, Except.ok.injEq] at found'
      rw [found']
    | ignored source' =>
      rw [source] at source'
      cases source'
  | ignored source =>
    cases h' with
    | checked source' =>
      rw [source] at source'
      cases source'
    | ignored => rfl
  | forgotten =>
    cases h' with
    | forgotten => rfl

/-- The publications of one visit are those of a session with no other visit. -/
theorem PublishesAll.single (h : visit.Publishes uri published) :
    PublishesAll uri [visit] published := by
  have hcons := PublishesAll.cons h .nil
  rwa [List.append_nil] at hcons

/-- The publications of a session go on with those of what comes after it. -/
theorem PublishesAll.append (h : PublishesAll uri visits published)
    (h' : PublishesAll uri visits' published') :
    PublishesAll uri (visits ++ visits') (published ++ published') := by
  induction h with
  | nil => exact h'
  | cons first _ ih =>
    rw [List.cons_append, List.append_assoc]
    exact .cons first ih

/-- All publications of a document carry its name. -/
theorem PublishesAll.uri_eq (h : PublishesAll uri visits published) :
    ∀ publication ∈ published, publication.uri = uri := by
  induction h with
  | nil => simp
  | cons first _ ih => exact List.forall_mem_append.mpr ⟨first.uri_eq, ih⟩

/-- What is published is settled by the visits. -/
theorem PublishesAll.unique (h : PublishesAll uri visits published)
    (h' : PublishesAll uri visits published') : published = published' := by
  induction h generalizing published' with
  | nil =>
    cases h'
    rfl
  | cons first _ ih =>
    cases h' with
    | cons first' rest' => rw [first.unique first', ih rest']

/-- Of what is published about one document nothing is about another. -/
theorem PublishesAll.filter_self (h : PublishesAll uri visits published) :
    published.filter (·.uri = uri) = published :=
  List.filter_eq_self.mpr fun publication hmem => decide_eq_true (h.uri_eq publication hmem)

/-- None of the publications of a document is of another one. -/
theorem PublishesAll.filter_other (h : PublishesAll uri visits published) (hne : uri ≠ other) :
    published.filter (·.uri = other) = [] := by
  apply List.filter_eq_nil_iff.mpr
  intro publication hmem
  rw [decide_eq_true_eq, h.uri_eq publication hmem]
  exact hne

end Visit

section

variable {uri : String} {events : List Event} {event : Event}

/-- Later events start from the text that earlier ones have left. -/
theorem visitsFrom_append (text? : Option String) (events later : List Event) :
    visitsFrom text? (events ++ later) =
      visitsFrom text? events ++ visitsFrom (events.foldl Event.textAfter text?) later := by
  induction events generalizing text? with
  | nil => rfl
  | cons event events ih =>
    rw [List.cons_append, visitsFrom, visitsFrom, ih, List.append_assoc, List.foldl_cons]

/-- An event about a document is the last of those about it. -/
theorem eventsOf_concat_self (h : event.uri = uri) :
    eventsOf uri (events ++ [event]) = eventsOf uri events ++ [event] := by
  simp [eventsOf, h]

/-- An event about another document is none about this one. -/
theorem eventsOf_concat_other (h : event.uri ≠ uri) :
    eventsOf uri (events ++ [event]) = eventsOf uri events := by
  simp [eventsOf, h]

/-- An event adds what it asks for, which depends on the text at that time. -/
theorem visits_concat (h : event.uri = uri) : visits uri (events ++ [event]) =
    visits uri events ++ (event.visit? (textAfter uri events)).toList := by
  rw [visits, eventsOf_concat_self h, visitsFrom_append, visitsFrom, visitsFrom, List.append_nil]
  rfl

/-- The text of a document is told by the last event about it and the text before. -/
theorem textAfter_concat (h : event.uri = uri) :
    textAfter uri (events ++ [event]) = event.textAfter (textAfter uri events) := by
  rw [textAfter, eventsOf_concat_self h, List.foldl_append]
  rfl

/-- A check puts its text in front of the others, and a document that is forgotten has none. -/
theorem recentTexts_concat (h : event.uri = uri) : recentTexts uri (events ++ [event]) =
    match event.visit? (textAfter uri events) with
    | some (.checked text) => text :: recentTexts uri events
    | some .forgotten => []
    | none => recentTexts uri events := by
  rw [recentTexts, visits_concat h, List.reverse_append]
  cases event.visit? (textAfter uri events) with
  | none => rfl
  | some visit => cases visit <;> rfl

end

/-! ## What a server knows about one document -/

/-- What a server knows about a document. -/
structure Document where
  /-- Its text, if it is open. -/
  text : Option String
  /-- What its last check has found. -/
  result : Option Analysis
  /-- The symbols of its last text that was a program. -/
  symbols : Option (List Symbol)

/-- What a server knows about the document of a name. -/
def Server.document (server : Server) (uri : String) : Document :=
  ⟨server.texts[uri]?, server.results[uri]?, server.symbols[uri]?⟩

namespace Document

variable {uri : String}

/-- What there is to know about a document with a text that has been checked with others, the latest
first. -/
def ofTexts (uri : String) (text? : Option String) (recent : List String) : Document where
  text := text?
  result := if isSourcePath uri then recent.head?.bind fun text => (check text).toOption else none
  symbols := if isSourcePath uri then (recent.findSome? programOf?).map Symbol.ofProgram else none

/-- Of a document in another language nothing but the text is known. -/
theorem ofTexts_of_not_source (h : isSourcePath uri = false) (text? : Option String)
    (recent : List String) : ofTexts uri text? recent = ⟨text?, none, none⟩ := by
  rw [ofTexts, h]
  rfl

/-- The analysis of a document is that of its latest text. -/
theorem result_ofTexts_iff {text? : Option String} {recent : List String} {analysis : Analysis} :
    (ofTexts uri text? recent).result = some analysis ↔
      isSourcePath uri = true ∧ ∃ text, recent.head? = some text ∧ check text = .ok analysis := by
  have hfound : ∀ text, (check text).toOption = some analysis ↔ check text = .ok analysis := by
    intro text
    cases check text <;> simp [Except.toOption]
  rw [ofTexts]
  cases isSourcePath uri with
  | false => simp
  | true => simp [Option.bind_eq_some_iff, hfound]

/-- The symbols of a document are those of the latest text in which a program was found. -/
theorem symbols_ofTexts_iff {text? : Option String} {recent : List String}
    {symbols : List Symbol} : (ofTexts uri text? recent).symbols = some symbols ↔
      isSourcePath uri = true ∧ ∃ program, recent.findSome? programOf? = some program ∧
        Symbol.ofProgram program = symbols := by
  rw [ofTexts]
  cases isSourcePath uri with
  | false => simp
  | true => simp only [if_true, true_and, Option.map_eq_some_iff]

/-- There is a result if the document has been checked. -/
theorem isSome_result_ofTexts {text? : Option String} {recent : List String} :
    (ofTexts uri text? recent).result.isSome = true ↔
      isSourcePath uri = true ∧ recent ≠ [] := by
  rw [Option.isSome_iff_exists]
  simp only [result_ofTexts_iff]
  constructor
  · rintro ⟨_, hsource, text, hhead, _⟩
    refine ⟨hsource, ?_⟩
    rintro rfl
    cases hhead
  · rintro ⟨hsource, hne⟩
    obtain ⟨text, texts, rfl⟩ := List.exists_cons_of_ne_nil hne
    obtain ⟨_, analysis, _, hcheck, _⟩ := exists_check text
    exact ⟨analysis, hsource, text, rfl, hcheck⟩

/-- There are symbols if a text was a program. -/
theorem isSome_symbols_ofTexts {text? : Option String} {recent : List String} :
    (ofTexts uri text? recent).symbols.isSome = true ↔
      isSourcePath uri = true ∧ ∃ text ∈ recent, (programOf? text).isSome = true := by
  rw [ofTexts]
  cases isSourcePath uri with
  | false => simp
  | true =>
    simp only [if_true, true_and, Option.isSome_map, List.isSome_findSome?, List.any_eq_true]

end Document

namespace Server

variable {server : Server} {uri other text : String}

/-- The documents with an analysis are the checked ones. -/
theorem mem_checked_iff : uri ∈ server.checked ↔ (server.document uri).result.isSome = true := by
  rw [checked, Std.TreeMap.mem_keys, Std.TreeMap.mem_iff_isSome_getElem?]
  rfl

/-- The documents with symbols are listed as such. -/
theorem mem_withSymbols_iff :
    uri ∈ server.withSymbols ↔ (server.document uri).symbols.isSome = true := by
  rw [withSymbols, Std.TreeMap.mem_keys, Std.TreeMap.mem_iff_isSome_getElem?]
  rfl

/-- A new text leaves the analysis and the symbols of a document. -/
theorem document_setText (server : Server) (uri text : String) :
    (server.setText uri text).document uri = { server.document uri with text := some text } := by
  simp [document, setText]

/-- A new text of one document changes nothing of another one. -/
theorem document_setText_other (h : uri ≠ other) (text : String) :
    (server.setText uri text).document other = server.document other := by
  simp [document, setText, Std.TreeMap.getElem?_insert, h]

/-- A document that is forgotten is not known at all, once its text is gone. -/
theorem document_forget (server : Server) (uri : String) :
    ({ server with texts := server.texts.erase uri }.forget uri).server.document uri =
      ⟨none, none, none⟩ := by
  simp [document, forget]

/-- To forget one document changes nothing of another one. -/
theorem document_forget_other (h : uri ≠ other) :
    ({ server with texts := server.texts.erase uri }.forget uri).server.document other =
      server.document other := by
  simp [document, forget, Std.TreeMap.getElem?_erase, h]

/-- A check of a document of the language gives it a result, and symbols if its text is a program.
It publishes once and leaves other documents alone. -/
theorem refresh_source (server : Server) (hsource : isSourcePath uri = true) (text : String) :
    ∃ analysis reaction, check text = .ok analysis ∧ server.refresh uri text = .ok reaction ∧
      reaction.server.document uri = { server.document uri with
        result := some analysis
        symbols := (analysis.program.map Symbol.ofProgram).or (server.document uri).symbols } ∧
      (∀ other, uri ≠ other → reaction.server.document other = server.document other) ∧
        reaction.published = [⟨uri, clientDiagnostics text analysis⟩] := by
  obtain ⟨_, analysis, _, hcheck, _⟩ := exists_check text
  have hrun : server.refresh uri text = .ok ⟨{ server with
      results := server.results.insert uri analysis
      symbols := analysis.program.elim server.symbols fun program =>
        server.symbols.insert uri (Symbol.ofProgram program) },
      [⟨uri, clientDiagnostics text analysis⟩]⟩ := by
    rw [refresh, hsource, hcheck]
    cases hprogram : analysis.program with
    | none => simp [hprogram]
    | some program => simp [hprogram]
  refine ⟨analysis, _, hcheck, hrun, ?_, ?_, rfl⟩
  · cases hprogram : analysis.program with
    | none => simp [document]
    | some program => simp [document]
  · intro other hother
    cases hprogram : analysis.program with
    | none => simp [document, Std.TreeMap.getElem?_insert, hother]
    | some program => simp [document, Std.TreeMap.getElem?_insert, hother]

/-- Other documents are not checked. -/
theorem refresh_not_source (server : Server) (hsource : isSourcePath uri = false) (text : String) :
    server.refresh uri text = .ok ⟨server, []⟩ := by
  rw [refresh, hsource]
  rfl

/-- A document that has been checked with a text is known by this text and those before it. -/
theorem refresh_document {text? : Option String} {recent : List String}
    (h : server.document uri = .ofTexts uri text? recent) (text : String) :
    ∃ reaction, server.refresh uri text = .ok reaction ∧
      reaction.server.document uri = .ofTexts uri text? (text :: recent) ∧
        (∀ other, uri ≠ other → reaction.server.document other = server.document other) ∧
          (Visit.checked text).Publishes uri reaction.published := by
  cases hsource : isSourcePath uri with
  | false =>
    refine ⟨⟨server, []⟩, refresh_not_source server hsource text, ?_, fun _ _ => rfl,
      .ignored hsource⟩
    rw [h, Document.ofTexts_of_not_source hsource, Document.ofTexts_of_not_source hsource]
  | true =>
    obtain ⟨analysis, reaction, hcheck, hrun, hdocument, hother, hpublished⟩ :=
      refresh_source server hsource text
    have hprogram : programOf? text = analysis.program := by
      rw [programOf?, hcheck]
      rfl
    refine ⟨reaction, hrun, ?_, hother, hpublished ▸ .checked hsource hcheck⟩
    rw [hdocument, h]
    simp only [Document.ofTexts, hsource, if_true, List.head?_cons, Option.bind_some, hcheck,
      List.findSome?_cons, hprogram, Document.mk.injEq, true_and]
    constructor
    · rfl
    · cases analysis.program <;> rfl

/-! ## One event -/

/-- A document that gets a text is checked with it. -/
theorem setText_document {text? : Option String} {recent : List String}
    (h : server.document uri = .ofTexts uri text? recent) (text : String) :
    ∃ reaction, (server.setText uri text).refresh uri text = .ok reaction ∧
      reaction.server.document uri = .ofTexts uri (some text) (text :: recent) ∧
        (∀ other, uri ≠ other → reaction.server.document other = server.document other) ∧
          (Visit.checked text).Publishes uri reaction.published := by
  have hset : (server.setText uri text).document uri = .ofTexts uri (some text) recent := by
    rw [document_setText, h]
    rfl
  obtain ⟨reaction, hrun, hdocument, hother, hpublishes⟩ := refresh_document hset text
  refine ⟨reaction, hrun, hdocument, fun other hne => ?_, hpublishes⟩
  rw [hother other hne, document_setText_other hne]

/-- An event does to its document what it asks for and publishes that alone. Other documents stay as
they are. -/
theorem handle_document {events : List Event} {event : Event}
    (h : server.document event.uri =
      .ofTexts event.uri (textAfter event.uri events) (recentTexts event.uri events)) :
    ∃ reaction, server.handle event = .ok reaction ∧
      reaction.server.document event.uri = .ofTexts event.uri
        (textAfter event.uri (events ++ [event])) (recentTexts event.uri (events ++ [event])) ∧
      (∀ other, event.uri ≠ other →
        reaction.server.document other = server.document other) ∧
      Visit.PublishesAll event.uri (event.visit? (textAfter event.uri events)).toList
        reaction.published := by
  rw [textAfter_concat rfl, recentTexts_concat rfl]
  cases event <;> dsimp only [Event.uri, Event.textAfter, Event.visit?] at h ⊢
  case opened uri text =>
    obtain ⟨reaction, hrun, hdocument, hother, hpublishes⟩ := setText_document h text
    exact ⟨reaction, hrun, hdocument, hother, .single hpublishes⟩
  case changed uri text =>
    obtain ⟨reaction, hrun, hdocument, hother, hpublishes⟩ := setText_document h text
    exact ⟨reaction, hrun, hdocument, hother, .single hpublishes⟩
  case saved uri =>
    have htext : server.texts[uri]? = textAfter uri events := congrArg Document.text h
    cases hafter : textAfter uri events with
    | none =>
      rw [hafter] at htext h
      refine ⟨⟨server, []⟩, ?_, h, fun _ _ => rfl, .nil⟩
      rw [handle, htext]
    | some text =>
      rw [hafter] at htext h
      obtain ⟨reaction, hrun, hdocument, hother, hpublishes⟩ := refresh_document h text
      refine ⟨reaction, ?_, hdocument, hother, .single hpublishes⟩
      rw [handle, htext]
      exact hrun
  case closed uri =>
    refine ⟨_, rfl, ?_, fun other hne => document_forget_other hne, .single .forgotten⟩
    rw [document_forget]
    simp [Document.ofTexts]

/-! ## A session -/

/-- The server after some events, with all that it has published. -/
def run (server : Server) : List Event → Except Error Reaction
  | [] => .ok ⟨server, []⟩
  | event :: events => do
    let reaction ← server.handle event
    let later ← reaction.server.run events
    return ⟨later.server, reaction.published ++ later.published⟩

/-- One more event is handled by the server that the others have left. -/
theorem run_concat {events : List Event} {event : Event} {reaction last : Reaction}
    (h : server.run events = .ok reaction) (hlast : reaction.server.handle event = .ok last) :
    server.run (events ++ [event]) = .ok ⟨last.server, reaction.published ++ last.published⟩ := by
  induction events generalizing server reaction with
  | nil =>
    cases h
    rw [List.nil_append, run, hlast]
    simp [bind, Except.bind, run, pure, Except.pure]
  | cons first events ih =>
    rw [run] at h
    cases hfirst : server.handle first with
    | error e => simp [hfirst, bind, Except.bind] at h
    | ok middle =>
      cases hrest : middle.server.run events with
      | error e => simp [hfirst, hrest, bind, Except.bind] at h
      | ok later =>
        simp only [hfirst, hrest, bind, Except.bind, pure, Except.pure, Except.ok.injEq] at h
        subst h
        rw [List.cons_append, run, hfirst]
        simp only [bind, Except.bind, ih hrest hlast, pure, Except.pure, List.append_assoc]

/-- Of every document a server knows what its history tells, and has published what its visits
ask for. -/
theorem run_document (events : List Event) : ∃ reaction, initial.run events = .ok reaction ∧
    ∀ uri, reaction.server.document uri =
        .ofTexts uri (textAfter uri events) (recentTexts uri events) ∧
      Visit.PublishesAll uri (visits uri events) (reaction.published.filter (·.uri = uri)) := by
  induction events using List.reverseRecOn with
  | nil =>
    refine ⟨⟨initial, []⟩, rfl, fun uri => ⟨?_, .nil⟩⟩
    simp [document, initial, Document.ofTexts, recentTexts, visits, eventsOf, visitsFrom, textAfter,
      leadingTexts]
  | append_singleton events event ih =>
    obtain ⟨reaction, hrun, hknown⟩ := ih
    obtain ⟨last, hhandle, hself, hother, hpublishes⟩ := handle_document (hknown event.uri).1
    refine ⟨_, run_concat hrun hhandle, fun uri => ?_⟩
    rw [List.filter_append]
    by_cases huri : event.uri = uri
    · subst huri
      rw [visits_concat rfl, hpublishes.filter_self]
      exact ⟨hself, (hknown event.uri).2.append hpublishes⟩
    · rw [hpublishes.filter_other huri, List.append_nil, textAfter, recentTexts, visits,
        eventsOf_concat_other huri, hother uri huri]
      exact hknown uri

/-- A session always runs to its end. Then a document of the language has a result exactly if it has
been checked since it was forgotten last, and it is what a check finds in the last of these texts.
It has symbols exactly if one of these texts was a program, and they are those of the last one that
was; so every document with symbols has a result. Every check of a document of the language
publishes once what it has found, a document that is forgotten publishes once that it has no
diagnostics, and nothing else is published. What is known and published about a document is the same
after every session with the same events about it, whatever happens to others in between. -/
theorem run_history (events : List Event) : ∃ server published,
    initial.run events = .ok ⟨server, published⟩ ∧
    (∀ uri ∈ server.withSymbols, uri ∈ server.checked) ∧
    ∀ uri,
      (uri ∈ server.checked ↔ isSourcePath uri = true ∧ recentTexts uri events ≠ []) ∧
      (∀ analysis, server.results[uri]? = some analysis ↔ isSourcePath uri = true ∧
        ∃ text, (recentTexts uri events).head? = some text ∧ check text = .ok analysis) ∧
      (uri ∈ server.withSymbols ↔ isSourcePath uri = true ∧
        ∃ text ∈ recentTexts uri events, (programOf? text).isSome = true) ∧
      (∀ symbols, server.symbols[uri]? = some symbols ↔ isSourcePath uri = true ∧
        ∃ program, (recentTexts uri events).findSome? programOf? = some program ∧
          Symbol.ofProgram program = symbols) ∧
      Visit.PublishesAll uri (visits uri events) (published.filter (·.uri = uri)) ∧
      ∀ events' server' published', initial.run events' = .ok ⟨server', published'⟩ →
        eventsOf uri events' = eventsOf uri events →
          server'.document uri = server.document uri ∧
            published'.filter (·.uri = uri) = published.filter (·.uri = uri) := by
  obtain ⟨⟨server, published⟩, hrun, hknown⟩ := run_document events
  have hchecked : ∀ uri, uri ∈ server.checked ↔
      isSourcePath uri = true ∧ recentTexts uri events ≠ [] := by
    intro uri
    rw [mem_checked_iff, (hknown uri).1]
    exact Document.isSome_result_ofTexts
  have hsymbols : ∀ uri, uri ∈ server.withSymbols ↔ isSourcePath uri = true ∧
      ∃ text ∈ recentTexts uri events, (programOf? text).isSome = true := by
    intro uri
    rw [mem_withSymbols_iff, (hknown uri).1]
    exact Document.isSome_symbols_ofTexts
  refine ⟨server, published, hrun, fun uri hmem => ?_, fun uri => ?_⟩
  · obtain ⟨hsource, text, hrecent, _⟩ := (hsymbols uri).mp hmem
    exact (hchecked uri).mpr ⟨hsource, List.ne_nil_of_mem hrecent⟩
  · obtain ⟨hdocument, hpublished⟩ := hknown uri
    have hresult : server.results[uri]? = _ := congrArg Document.result hdocument
    have hlast : server.symbols[uri]? = _ := congrArg Document.symbols hdocument
    refine ⟨hchecked uri, fun analysis => ?_, hsymbols uri, fun symbols => ?_, hpublished, ?_⟩
    · rw [hresult, Document.result_ofTexts_iff]
    · rw [hlast, Document.symbols_ofTexts_iff]
    · intro events' server' published' hrun' hevents
      obtain ⟨reaction, hreaction, hknown'⟩ := run_document events'
      rw [hrun', Except.ok.injEq] at hreaction
      subst hreaction
      obtain ⟨hdocument', hpublished'⟩ := hknown' uri
      rw [textAfter, recentTexts, visits, hevents] at hdocument'
      rw [visits, hevents] at hpublished'
      exact ⟨hdocument'.trans hdocument.symm, hpublished'.unique hpublished⟩

/-- A document that is broken by an edit keeps its symbols, while another one is closed in between.
-/
theorem run_history_broken : ∃ server published, initial.run [.opened "a.t" "fun f() \x7b\n\x7d",
      .opened "b.t" "1", .changed "a.t" "fun", .closed "b.t"] = .ok ⟨server, published⟩ ∧
    "a.t" ∈ server.checked ∧ "a.t" ∈ server.withSymbols ∧ "b.t" ∉ server.checked ∧
    (∃ analysis, server.results["a.t"]? = some analysis ∧ check "fun" = .ok analysis) ∧
    ∃ server' published', initial.run [.opened "a.t" "fun f() \x7b\n\x7d", .changed "a.t" "fun"] =
        .ok ⟨server', published'⟩ ∧ server'.document "a.t" = server.document "a.t" ∧
      published'.filter (·.uri = "a.t") = published.filter (·.uri = "a.t") := by
  obtain ⟨server, published, hrun, hsubset, hknown⟩ := run_history
    [.opened "a.t" "fun f() \x7b\n\x7d", .opened "b.t" "1", .changed "a.t" "fun", .closed "b.t"]
  obtain ⟨server', published', hrun', _⟩ :=
    run_history [.opened "a.t" "fun f() \x7b\n\x7d", .changed "a.t" "fun"]
  obtain ⟨_, hresult, hsymbols, _, _, hother⟩ := hknown "a.t"
  obtain ⟨hclosed, _⟩ := hknown "b.t"
  obtain ⟨_, analysis, _, hcheck, _⟩ := exists_check "fun"
  have hsource : isSourcePath "a.t" = true := by decide +kernel
  have hprogram : (programOf? "fun f() \x7b\n\x7d").isSome = true := by decide +kernel
  have hmem : "a.t" ∈ server.withSymbols :=
    hsymbols.mpr ⟨hsource, _, .tail _ (.head _), hprogram⟩
  refine ⟨server, published, hrun, hsubset _ hmem, hmem, fun h => (hclosed.mp h).2 rfl,
    ⟨analysis, (hresult analysis).mpr ⟨hsource, "fun", rfl, hcheck⟩, hcheck⟩,
    server', published', hrun', hother _ server' published' hrun' rfl⟩

end Server

end Tranquility.Editor
