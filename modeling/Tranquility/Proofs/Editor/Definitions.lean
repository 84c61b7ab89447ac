import Tranquility.Proofs.Editor.Symbols
import Tranquility.Proofs.Resolving.Calls
import Tranquility.Proofs.Resolving.Functions
import Tranquility.Proofs.Resolving.Resolved

/-!
# Declarations of calls

An editor looks a name up in one list, which has the global variables in front of the functions, and
takes the first symbol of the name. A parse looks the name of a call up among functions only, and
takes the last one. The two come to the same declaration unless a global variable has the name of
the function, or the call means an entry point that is not the first one.
-/

namespace Tranquility

open Grammar

/-- A name alone tells that the declaration of a function is meant: no global variable has the name,
and among entry points the first one is meant. -/
structure Program.ToldByName (program : Program) (name : String) (declared : Token) : Prop where
  no_global : name ∉ Token.names program.globals.flatten
  first_entryPoint : name = Builtin.entryPoint →
    program.entryPoints.head?.map (·.token) = some declared

namespace Editor

/-- What a name leads to in a program is the global variable of the name, or else the first
function of the name. -/
theorem Symbol.find?_ofProgram (program : Program) (name : String) :
    (ofProgram program).find? (·.name = name) =
      ((program.globals.flatten.find? (·.text = name)).map ofVariable).or
        ((program.findFunction? name).map ofFunction) := by
  rw [ofProgram, List.find?_append, List.find?_map, List.find?_map]
  rfl

namespace Server

/-- In a document a name leads to the function that a token declares. -/
def FindsFunction (server : Server) (uri name : String) (declared : Token) : Prop :=
  ∃ symbol, server.findSymbol? uri name = some symbol ∧ symbol.kind = .callable ∧
    symbol.token = declared

variable {server : Server} {uri : String} {program : Program}

/-- A name is looked up among the global variables first, and then among the functions, each from
the front. -/
theorem findSymbol?_eq (hsymbols : server.symbolsOf uri = Symbol.ofProgram program)
    (name : String) : server.findSymbol? uri name =
      ((program.globals.flatten.find? (·.text = name)).map .ofVariable).or
        ((program.findFunction? name).map .ofFunction) := by
  rw [findSymbol?, hsymbols, Symbol.find?_ofProgram]

/-- The name of a function leads to its declaration if the name alone tells that this is meant. -/
theorem findsFunction_iff (hsymbols : server.symbolsOf uri = Symbol.ofProgram program)
    (hlegal : FunctionDecl.AllLegal program.globals program.functions)
    {functions : List FunctionDecl} (hfunctions : functions ⊆ program.functions) {name : String}
    {symbol : FunctionSymbol} (hsymbol : FunctionDecl.symbolAmong? functions name = some symbol)
    {declared : Token} (htoken : symbol.token = some declared) :
    server.FindsFunction uri name declared ↔ program.ToldByName name declared := by
  obtain ⟨callee, hcallee, rfl, rfl⟩ := FunctionDecl.exists_of_symbolAmong? hsymbol htoken
  have hglobal : callee.name ∉ Token.names program.globals.flatten ↔
      program.globals.flatten.find? (·.text = callee.name) = none := by
    simp [Token.names]
  rw [FindsFunction, findSymbol?_eq hsymbols]
  constructor
  · rintro ⟨symbol, hfound, hkind, hdeclared⟩
    cases hvariable : program.globals.flatten.find? (·.text = callee.name) with
    | some global =>
      rw [hvariable] at hfound
      cases hfound
      cases hkind
    | none =>
      refine ⟨hglobal.mpr hvariable, fun hentry => ?_⟩
      rw [hvariable] at hfound
      obtain ⟨first, hfirst, rfl⟩ := Option.map_eq_some_iff.mp hfound
      rw [program.head?_entryPoints, ← hentry, hfirst]
      exact congrArg some hdeclared
  · rintro ⟨hnone, hentry⟩
    obtain ⟨first, hfirst, hdeclared⟩ : ∃ first,
        program.findFunction? callee.name = some first ∧ first.token = callee.token := by
      by_cases hname : callee.name = Builtin.entryPoint
      · rw [hname, ← program.head?_entryPoints]
        exact Option.map_eq_some_iff.mp (hentry hname)
      · exact ⟨callee, hlegal.find?_eq (hfunctions hcallee) hname, rfl⟩
    refine ⟨.ofFunction first, ?_, rfl, hdeclared⟩
    rw [hglobal.mp hnone, hfirst]
    rfl

/-- A call of a name in a function has been resolved to the declaration that the name means there,
and whether the name leads to that declaration can be told. -/
theorem exists_resolved_call (hsymbols : server.symbolsOf uri = Symbol.ofProgram program)
    {tokens : List Token} {s' : State} (hparse : Grammar.parse tokens = .ok program s')
    {place : Nat} {function : FunctionDecl} (hfunction : program.functions[place]? = some function)
    {name : String} {arity : Nat} (hcalls : function.calls name arity = true) {declared : Token}
    (hdeclared : (FunctionDecl.symbolAmong? (program.functions.take (place + 1)) name).bind
      (·.token) = some declared) :
    ∃ token arguments symbol, token.text = name ∧ Expr.call token arguments ∈ program.nodes ∧
      Resolves (.start tokens) token arguments symbol ∧ symbol.token = some declared ∧
        (server.FindsFunction uri name declared ↔ program.ToldByName name declared) := by
  obtain ⟨token, arguments, hcall, rfl, _⟩ := FunctionDecl.exists_call_of_calls hcalls
  obtain ⟨symbol, hresolves, hsymbol⟩ := exists_resolves rfl hparse hfunction hcall
  rw [hsymbol] at hdeclared
  have hlegal := (program_reads rfl hparse).functions
  have hfinds := findsFunction_iff hsymbols hlegal (List.take_subset _ _) hsymbol hdeclared
  have hnode : Expr.call token arguments ∈ program.nodes :=
    List.mem_flatMap.mpr ⟨function, List.mem_of_getElem? hfunction, hcall⟩
  exact ⟨token, arguments, symbol, rfl, hnode, hresolves, hdeclared, hfinds⟩

end Server

/-- If a source is a program, then every call in it has been resolved to the last function of the
name that is declared up to there. Whatever declaration a call has been resolved to, a document with
the source leads from the name to that very one exactly if the name alone tells that it is meant; a
name leads to the global variable that has it, or else to the first function. -/
theorem findSymbol_of_call {source uri : String} {analysis : Analysis} {program : Program}
    (hcheck : check source = .ok analysis) (hprogram : analysis.program = some program)
    (hsource : isSourcePath uri = true) (server : Server) :
    ∃ tokens reaction, tokenize source = .ok tokens ∧ server.refresh uri source = .ok reaction ∧
      (∀ place function, program.functions[place]? = some function → ∀ name arguments,
        Expr.call name arguments ∈ Stmt.nodesOfAll function.body →
          ∃ symbol, Resolves (.start tokens) name arguments symbol ∧ FunctionDecl.symbolAmong?
            (program.functions.take (place + 1)) name.text = some symbol) ∧
      (∀ name arguments symbol declared, Resolves (.start tokens) name arguments symbol →
        symbol.token = some declared →
          (reaction.server.FindsFunction uri name.text declared ↔
            program.ToldByName name.text declared)) ∧
      ∀ name, reaction.server.findSymbol? uri name =
        ((program.globals.flatten.find? (·.text = name)).map .ofVariable).or
          ((program.findFunction? name).map .ofFunction) := by
  obtain ⟨tokens, s', htokens, hparse⟩ := exists_parse hcheck hprogram
  obtain ⟨reaction, hrun, hsymbols⟩ := server.symbolsOf_refresh hsource hcheck hprogram
  refine ⟨tokens, reaction, htokens, hrun, ?_, ?_, Server.findSymbol?_eq hsymbols⟩
  · intro place function hfunction name arguments hcall
    exact exists_resolves rfl hparse hfunction hcall
  · intro name arguments symbol declared hresolves htoken
    obtain ⟨earlier, decl, later, hsplit, hsymbol⟩ := hresolves.exists_split rfl hparse
    have hfunctions : earlier ++ [decl] ⊆ program.functions := by
      rw [hsplit, List.append_cons earlier decl later]
      exact List.subset_append_left _ later
    have hlegal := (program_reads rfl hparse).functions
    exact Server.findsFunction_iff hsymbols hlegal hfunctions hsymbol htoken

/-- The call of a function that is declared once leads to its declaration. -/
theorem findSymbol_of_call_plain : ∃ program tokens reaction name arguments symbol declared,
    programOf? "var a\nfun f(b) \x7b\n\x7d\nfun init() \x7b\nf(a)\n\x7d" = some program ∧
    tokenize "var a\nfun f(b) \x7b\n\x7d\nfun init() \x7b\nf(a)\n\x7d" = .ok tokens ∧
      Server.initial.refresh "a.t" "var a\nfun f(b) \x7b\n\x7d\nfun init() \x7b\nf(a)\n\x7d" =
        .ok reaction ∧
      name.text = "f" ∧ Resolves (.start tokens) name arguments symbol ∧
        symbol.token = some declared ∧ reaction.server.FindsFunction "a.t" "f" declared := by
  have hfound : (programOf? "var a\nfun f(b) \x7b\n\x7d\nfun init() \x7b\nf(a)\n\x7d").any
      (fun program => program.functions[1]?.any (·.calls "f" 1) && decide (
        "f" ∉ Token.names program.globals.flatten ∧
          (FunctionDecl.symbolAmong? (program.functions.take 2) "f").bind (·.token) ≠ none)) =
        true := by
    decide +kernel
  obtain ⟨program, hfind, hfound⟩ := (Option.any_eq_true _ _).mp hfound
  obtain ⟨analysis, hcheck, hprogram⟩ := programOf?_eq_some_iff.mp hfind
  obtain ⟨hcalls, hmeans⟩ := Bool.and_eq_true_iff.mp hfound
  obtain ⟨function, hfunction, hcalls⟩ := (Option.any_eq_true _ _).mp hcalls
  obtain ⟨hglobal, htoken⟩ := of_decide_eq_true hmeans
  obtain ⟨name, arguments, hcall, hname, _⟩ := FunctionDecl.exists_call_of_calls hcalls
  have hsource : isSourcePath "a.t" = true := by decide +kernel
  obtain ⟨tokens, reaction, htokens, hrun, hresolves, hfinds, _⟩ :=
    findSymbol_of_call hcheck hprogram hsource .initial
  obtain ⟨symbol, hresolves, hsymbol⟩ := hresolves 1 function hfunction name arguments hcall
  rw [hname] at hsymbol
  rw [hsymbol] at htoken
  obtain ⟨declared, htoken⟩ := Option.ne_none_iff_exists'.mp htoken
  have hfinds := hfinds name arguments symbol declared hresolves htoken
  rw [hname] at hfinds
  refine ⟨program, tokens, reaction, name, arguments, symbol, declared, hfind, htokens, hrun,
    hname, hresolves, htoken, hfinds.mpr ⟨hglobal, fun hentry => ?_⟩⟩
  exact absurd hentry (by decide)

/-- A call that shares its name with a global variable leads to the variable, and a call of an entry
point that is declared a second time leads to the first. -/
theorem findSymbol_of_call_misled : ∃ program tokens reaction,
    programOf?
      "var f\nfun f() \x7b\n\x7d\nfun init() \x7b\n\x7d\nfun init(a) \x7b\nf()\ninit(1)\n\x7d" =
        some program ∧
    tokenize
      "var f\nfun f() \x7b\n\x7d\nfun init() \x7b\n\x7d\nfun init(a) \x7b\nf()\ninit(1)\n\x7d" =
        .ok tokens ∧
    Server.initial.refresh "a.t"
      "var f\nfun f() \x7b\n\x7d\nfun init() \x7b\n\x7d\nfun init(a) \x7b\nf()\ninit(1)\n\x7d" =
        .ok reaction ∧
      ∀ text ∈ ["f", "init"], ∃ name arguments symbol declared, name.text = text ∧
        Expr.call name arguments ∈ program.nodes ∧ Resolves (.start tokens) name arguments symbol ∧
          symbol.token = some declared ∧ ¬ reaction.server.FindsFunction "a.t" text declared := by
  have hfound : (programOf?
      "var f\nfun f() \x7b\n\x7d\nfun init() \x7b\n\x7d\nfun init(a) \x7b\nf()\ninit(1)\n\x7d").any
      (fun program => program.functions[2]?.any (fun function =>
        function.calls "f" 0 && function.calls "init" 1) && decide (
          "f" ∈ Token.names program.globals.flatten ∧
            (FunctionDecl.symbolAmong? (program.functions.take 3) "f").bind (·.token) ≠ none ∧
            (FunctionDecl.symbolAmong? (program.functions.take 3) "init").bind (·.token) ≠ none ∧
            (FunctionDecl.symbolAmong? (program.functions.take 3) "init").bind (·.token) ≠
              program.entryPoints.head?.map (·.token))) = true := by
    decide +kernel
  obtain ⟨program, hfind, hfound⟩ := (Option.any_eq_true _ _).mp hfound
  obtain ⟨analysis, hcheck, hprogram⟩ := programOf?_eq_some_iff.mp hfind
  obtain ⟨hcalls, hmeans⟩ := Bool.and_eq_true_iff.mp hfound
  obtain ⟨function, hfunction, hcalls⟩ := (Option.any_eq_true _ _).mp hcalls
  obtain ⟨hcalls_f, hcalls_init⟩ := Bool.and_eq_true_iff.mp hcalls
  obtain ⟨hglobal, htoken_f, htoken_init, hfirst⟩ := of_decide_eq_true hmeans
  obtain ⟨tokens, s', htokens, hparse⟩ := exists_parse hcheck hprogram
  have hsource : isSourcePath "a.t" = true := by decide +kernel
  obtain ⟨reaction, hrun, hsymbols⟩ := Server.symbolsOf_refresh .initial hsource hcheck hprogram
  refine ⟨program, tokens, reaction, hfind, htokens, hrun, ?_⟩
  rw [List.forall_mem_cons, List.forall_mem_singleton]
  constructor
  · obtain ⟨declared, hdeclared⟩ := Option.ne_none_iff_exists'.mp htoken_f
    obtain ⟨name, arguments, symbol, hname, hnode, hresolves, htoken, hfinds⟩ :=
      Server.exists_resolved_call hsymbols hparse hfunction hcalls_f hdeclared
    exact ⟨name, arguments, symbol, declared, hname, hnode, hresolves, htoken,
      fun h => (hfinds.mp h).no_global hglobal⟩
  · obtain ⟨declared, hdeclared⟩ := Option.ne_none_iff_exists'.mp htoken_init
    obtain ⟨name, arguments, symbol, hname, hnode, hresolves, htoken, hfinds⟩ :=
      Server.exists_resolved_call hsymbols hparse hfunction hcalls_init hdeclared
    exact ⟨name, arguments, symbol, declared, hname, hnode, hresolves, htoken,
      fun h => hfirst (hdeclared.trans ((hfinds.mp h).first_entryPoint rfl).symm)⟩

end Editor

end Tranquility
