import GrammarCatalog.Catalog.Interning
import GrammarCatalog.Naming

/-! Defining languages. Only the first definition of a language counts. It interns the names of the
vocabulary and then publishes the lists and the indexes in one step, so a language has either all
of them or none. -/
namespace GrammarCatalog

namespace State

/-- Publishes the tables of a language. The tokens are at hand; the rules are made here, for no
language shares its rules. -/
def publish (state : State) (language : Language) (names : List (Symbol × String))
    (tokens : List TokenElement) (ruleNames : List String) (registered : Bool) : Outcome Unit :=
  let numbered := Naming.numberedRules ruleNames
  let (rules, supply) := state.supply.rulesFor language registered numbered
  let (publication, supply) := supply.publication
  let definition : Definition :=
    { tokens := ⟨publication, tokens⟩
      rules := ⟨publication, rules⟩
      symbolOf := ⟨publication, .ofNamed names⟩
      ruleOf := ⟨publication, .ofNamed numbered⟩ }
  ⟨(), [⟨.defined tokens.length rules.length, []⟩],
    ⟨supply, state.catalog.addDefinition language definition⟩⟩

/-- Gives a language its tables: first its tokens, which its scope may have already, then the
publication of everything. -/
def establish (state : State) (language : Language) (names : List (Symbol × String))
    (ruleNames : List String) (registered : Bool) : Outcome Unit :=
  (state.internAll (some language) registered names).andThen fun tokens state =>
    state.publish language names tokens ruleNames registered

/-- What is said of a language that was defined before. -/
def keepDefinition (state : State) : Outcome Unit := ⟨(), [⟨.alreadyDefined, []⟩], state⟩

/-- Defines a language unless it is defined. The vocabulary is taken as it is: a symbol without a
display name goes by its number, which is noticed before anything is made, and a name that is
given twice has one token. -/
def define (state : State) (language : Language) (vocabulary : Vocabulary)
    (ruleNames : List String) (registered : Bool) : Outcome Unit :=
  Outcome.inside ⟨.defining, language.id⟩ <|
    if state.catalog.isDefined language then state.keepDefinition
    else (state.establish language vocabulary.names ruleNames registered).preceded
      (vocabulary.unnamed.map .unnamed)

/-- Defines a language unless it is defined, provided that the names are fit for use. The check
comes first, even for a language that is defined, and a refusal leaves no trace. -/
def defineChecked (state : State) (language : Language) (vocabulary : Vocabulary)
    (ruleNames : List String) (registered : Bool) : Outcome (Except Refusal Unit) :=
  match Naming.check vocabulary ruleNames with
  | .error fault => .silent (.error ⟨language.id, fault⟩) state
  | .ok names =>
    Outcome.map .ok <| Outcome.inside ⟨.definingChecked, language.id⟩ <|
      if state.catalog.isDefined language then state.keepDefinition
      else state.establish language names ruleNames registered

/-- Publishing makes the tokens at hand the list of the language, and no other language is
concerned. -/
theorem tokens_publish (state : State) (language other : Language)
    (names : List (Symbol × String)) (tokens : List TokenElement) (ruleNames : List String)
    (registered : Bool) :
    (state.publish language names tokens ruleNames registered).state.catalog.tokens other =
      if other = language then tokens else state.catalog.tokens other := by
  by_cases hOther : other = language <;>
    simp [publish, Catalog.tokens, Catalog.definition?_addDefinition, hOther]

/-- A refused definition leaves the state as it was and is not logged. -/
theorem defineChecked_of_error (state : State) (language : Language) (vocabulary : Vocabulary)
    (ruleNames : List String) (registered : Bool) (fault : Fault)
    (hFault : Naming.check vocabulary ruleNames = .error fault) :
    state.defineChecked language vocabulary ruleNames registered =
      .silent (.error ⟨language.id, fault⟩) state := by
  simp [defineChecked, hFault]

end State

end GrammarCatalog
