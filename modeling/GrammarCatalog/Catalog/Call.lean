import GrammarCatalog.Catalog.Defining
import GrammarCatalog.Catalog.Retrieval

/-! The calls that a catalogue takes, as data. A run of calls is a list, and what it does is what
the calls do one after another. -/
namespace GrammarCatalog

/-- A call to one catalogue. -/
inductive Call where
  | define (language : Language) (vocabulary : Vocabulary) (rules : List String)
    (registered : Bool)
  | defineChecked (language : Language) (vocabulary : Vocabulary) (rules : List String)
    (registered : Bool)
  | intern (symbol : Symbol) (name : String) (owner : Option Language) (registered : Bool)
  | endToken (language : Language)
  | isDefined (language : Language)
  | tokens (language : Language)
  | rules (language : Language)
  | tokenNames (language : Language)
  | ruleNames (language : Language)
  | token (language : Language) (symbol : Symbol)
  | tokenByName (language : Language) (name : String)
  | rule (language : Language) (rule : RuleNumber)
  | ruleByName (language : Language) (name : String)
  | tokenSet (language : Language) (symbols : List Symbol)
  | languageCount
  | definedLanguages

/-- What a call may answer. -/
inductive Answer where
  | done
  | refused (refusal : Refusal)
  | token (token : Option TokenElement)
  | rule (rule : Option RuleElement)
  | tokens (tokens : List TokenElement)
  | rules (rules : List RuleElement)
  | tokenNames (index : Option (NameIndex Symbol))
  | ruleNames (index : Option (NameIndex RuleNumber))
  | tokenSet (set : TokenSet)
  | truth (truth : Bool)
  | count (count : Nat)
  | languages (languages : List Language)

/-- Takes a call in a state. -/
def State.take (state : State) : Call → Outcome Answer
  | .define language vocabulary rules registered =>
    (state.define language vocabulary rules registered).map fun _ => .done
  | .defineChecked language vocabulary rules registered =>
    (state.defineChecked language vocabulary rules registered).map fun
      | .ok _ => .done
      | .error refusal => .refused refusal
  | .intern symbol name owner registered =>
    (state.intern symbol name owner registered).map (.token ∘ some)
  | .endToken language => (state.endToken language).map (.token ∘ some)
  | .isDefined language => .silent (.truth (state.catalog.isDefined language)) state
  | .tokens language => .silent (.tokens (state.catalog.tokens language)) state
  | .rules language => .silent (.rules (state.catalog.rules language)) state
  | .tokenNames language => .silent (.tokenNames (state.catalog.tokenNames? language)) state
  | .ruleNames language => .silent (.ruleNames (state.catalog.ruleNames? language)) state
  | .token language symbol => (state.token? language symbol).map .token
  | .tokenByName language name =>
    .silent (.token (state.catalog.tokenByName? language name)) state
  | .rule language rule => .silent (.rule (state.catalog.rule? language rule)) state
  | .ruleByName language name => .silent (.rule (state.catalog.ruleByName? language name)) state
  | .tokenSet language symbols => (state.tokenSet language symbols).map .tokenSet
  | .languageCount => .silent (.count state.catalog.languageCount) state
  | .definedLanguages => .silent (.languages state.catalog.definedLanguages) state

/-- Takes the calls one after another and gives their answers in that order. -/
def State.takeAll (state : State) : List Call → Outcome (List Answer)
  | [] => .silent [] state
  | call :: rest =>
    (state.take call).andThen fun answer state => (state.takeAll rest).map (answer :: ·)

end GrammarCatalog
