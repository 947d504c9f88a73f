import GrammarCatalog.Proofs.Growth

/-! What calls demand. Of the many calls only three kinds can add anything: those that ask for the
token of a name, those that define a language, and those that ask for the end of the input. What a
call does to the state depends on its demand alone. -/
namespace GrammarCatalog

/-- What is said of a name when its token is asked for. -/
structure Mention where
  symbol : Symbol
  name : String
  owner : Option Language
  registered : Bool
  deriving DecidableEq

namespace Mention

/-- The scope and the name, which decide about the token. -/
def key (mention : Mention) : Language × String :=
  (Language.scopeOf mention.owner, mention.name)

end Mention

/-- The mention that a token shows. -/
def TokenElement.mention (token : TokenElement) : Mention :=
  ⟨token.symbol, token.name, token.owner, token.registered⟩

/-- The mentions that a definition makes, in the order of the symbols. -/
def Blueprint.mentions (blueprint : Blueprint) (language : Language) : List Mention :=
  blueprint.names.map fun (symbol, name) => ⟨symbol, name, some language, blueprint.registered⟩

/-- What a call wants the catalogue to have. -/
inductive Demand where
  | token (mention : Mention)
  | definition (language : Language) (blueprint : Blueprint)
  | ending (language : Language)
  | nothing
  deriving DecidableEq

/-- A refused definition demands nothing, and neither does a symbol or a set without the end of the
input. -/
def Call.demand : Call → Demand
  | .define language vocabulary ruleList registered =>
    .definition language ⟨vocabulary.names, ruleList, registered⟩
  | .defineChecked language vocabulary ruleList registered =>
    match Naming.check vocabulary ruleList with
    | .error _ => .nothing
    | .ok _ => .definition language ⟨vocabulary.names, ruleList, registered⟩
  | .intern symbol name owner registered => .token ⟨symbol, name, owner, registered⟩
  | .endToken language => .ending language
  | .token language symbol => if symbol.isEndOfInput then .ending language else .nothing
  | .tokenSet language symbols =>
    if symbols.any Symbol.isEndOfInput then .ending language else .nothing
  | _ => .nothing

namespace State

/-- The state in which a demand is met. -/
def meet (state : State) : Demand → State
  | .token mention =>
    (state.intern mention.symbol mention.name mention.owner mention.registered).state
  | .definition language blueprint =>
    if state.catalog.isDefined language then state
    else (state.establish language blueprint.names blueprint.rules blueprint.registered).state
  | .ending language => (state.endToken language).state
  | .nothing => state

/-- What a call does to the state is to meet its demand. -/
theorem state_take (state : State) (call : Call) :
    (state.take call).state = state.meet call.demand := by
  cases call with
  | define language vocabulary rules registered =>
      simp only [take, Call.demand, meet, Outcome.map, define, Outcome.inside]
      split
      · rfl
      · rfl
  | defineChecked language vocabulary rules registered =>
      cases hCheck : Naming.check vocabulary rules with
      | error fault => simp only [take, Call.demand, hCheck, meet, Outcome.map, defineChecked,
          Outcome.silent]
      | ok names =>
          simp only [take, Call.demand, hCheck, meet, Outcome.map, defineChecked, Outcome.inside,
            Naming.names_of_check hCheck]
          split
          · rfl
          · rfl
  | token language symbol =>
      simp only [take, Call.demand, Outcome.map, token?]
      split
      · rfl
      · rfl
  | tokenSet language symbols =>
      simp only [take, Call.demand, Outcome.map, tokenSet, state_collect]
      split
      · rfl
      · rfl
  | _ => rfl

theorem Adds.grows {before after : State} (hAdds : Adds before after) : Grows before after :=
  Relation.ReflTransGen.single hAdds

theorem grows_intern (state : State) (symbol : Symbol) (name : String) (owner : Option Language)
    (registered : Bool) : Grows state (state.intern symbol name owner registered).state := by
  cases hToken : state.catalog.interned? (Language.scopeOf owner) name with
  | some token =>
      rw [intern_of_interned _ _ _ _ _ _ hToken]
      exact Grows.refl state
  | none =>
      have hAdds := Adds.token state (.interned (Language.scopeOf owner) name) symbol name owner
        registered hToken ⟨rfl, rfl⟩
      simp only [intern, hToken]
      exact hAdds.grows

theorem grows_endToken (state : State) (language : Language) :
    Grows state (state.endToken language).state := by
  cases hToken : state.catalog.end? language with
  | some token =>
      rw [endToken_of_end? _ _ _ hToken]
      exact Grows.refl state
  | none =>
      have hAdds := Adds.token state (.ending language) .endOfInput Symbol.endOfInputName
        (some language) false hToken ⟨rfl, rfl, rfl, rfl⟩
      simp only [endToken, hToken]
      exact hAdds.grows

theorem grows_internAll (state : State) (owner : Option Language) (registered : Bool)
    (named : List (Symbol × String)) :
    Grows state (state.internAll owner registered named).state := by
  induction named generalizing state with
  | nil => exact Grows.refl state
  | cons entry rest ih => exact (grows_intern _ _ _ _ _).trans (ih _)

/-- Interning does not touch definitions or ends of the input. -/
theorem definitions_intern (state : State) (symbol : Symbol) (name : String)
    (owner : Option Language) (registered : Bool) :
    (state.intern symbol name owner registered).state.catalog.definitions =
      state.catalog.definitions ∧
    (state.intern symbol name owner registered).state.catalog.ends = state.catalog.ends := by
  unfold intern
  dsimp only
  split
  · exact ⟨rfl, rfl⟩
  · exact ⟨rfl, rfl⟩

theorem definitions_internAll (state : State) (owner : Option Language) (registered : Bool)
    (named : List (Symbol × String)) :
    (state.internAll owner registered named).state.catalog.definitions =
      state.catalog.definitions ∧
    (state.internAll owner registered named).state.catalog.ends = state.catalog.ends := by
  induction named generalizing state with
  | nil => exact ⟨rfl, rfl⟩
  | cons entry rest ih =>
      obtain ⟨hFirst, hFirstEnds⟩ := definitions_intern state entry.1 entry.2 owner registered
      obtain ⟨hRest, hRestEnds⟩ := ih (state.intern entry.1 entry.2 owner registered).state
      exact ⟨hRest.trans hFirst, hRestEnds.trans hFirstEnds⟩

/-- The one who asks for a name is given what is kept for it from then on. -/
theorem answer_intern (state : State) (symbol : Symbol) (name : String)
    (owner : Option Language) (registered : Bool) :
    (state.intern symbol name owner registered).state.catalog.interned?
      (Language.scopeOf owner) name =
        some (state.intern symbol name owner registered).answer := by
  rw [interned?_intern, if_pos rfl]

theorem answer_internAll (state : State) (owner : Option Language) (registered : Bool)
    (named : List (Symbol × String)) :
    (state.internAll owner registered named).answer.map some =
      named.map fun entry =>
        (state.internAll owner registered named).state.catalog.interned?
          (Language.scopeOf owner) entry.2 := by
  induction named generalizing state with
  | nil => rfl
  | cons entry rest ih =>
      have hRest := ih (state.intern entry.1 entry.2 owner registered).state
      have hFirst := interned?_of_grows (grows_internAll _ owner registered rest)
        (answer_intern state entry.1 entry.2 owner registered)
      exact congrArg₂ List.cons hFirst.symm hRest

/-- Establishing a new language interns its names and then adds its definition. -/
theorem adds_establish (state : State) (language : Language) (blueprint : Blueprint)
    (hNew : state.catalog.definition? language = none) :
    Adds (state.internAll (some language) blueprint.registered blueprint.names).state
      (state.establish language blueprint.names blueprint.rules blueprint.registered).state := by
  have hDefinition :
      (state.internAll (some language) blueprint.registered
        blueprint.names).state.catalog.definition? language = none := by
    rw [Catalog.definition?, (definitions_internAll _ _ _ _).1]
    exact hNew
  have hTokens := answer_internAll state (some language) blueprint.registered blueprint.names
  have hAdds := Adds.definition _ language blueprint _ hDefinition hTokens
  rw [← state_publish] at hAdds
  exact hAdds

theorem definition?_of_not_isDefined {catalog : Catalog} {language : Language}
    (hNew : ¬catalog.isDefined language = true) : catalog.definition? language = none := by
  simpa [Catalog.isDefined] using hNew

theorem grows_meet (state : State) (demand : Demand) : Grows state (state.meet demand) := by
  cases demand with
  | token mention => exact grows_intern _ _ _ _ _
  | definition language blueprint =>
      unfold meet
      dsimp only
      split
      · exact Grows.refl state
      · next hNew =>
        have hAdds := adds_establish state language blueprint (definition?_of_not_isDefined hNew)
        exact (grows_internAll _ _ _ _).trans hAdds.grows
  | ending language => exact grows_endToken state language
  | nothing => exact Grows.refl state

theorem grows_take (state : State) (call : Call) : Grows state (state.take call).state := by
  rw [state_take]
  exact grows_meet state call.demand

theorem grows_takeAll (state : State) (calls : List Call) :
    Grows state (state.takeAll calls).state := by
  induction calls generalizing state with
  | nil => exact Grows.refl state
  | cons call rest ih => exact (grows_take state call).trans (ih _)

end State

/-- What a catalogue has to say to a call that asks for a token or that defines without a check. -/
def Catalog.recall? (catalog : Catalog) : Call → Option Answer
  | .define .. => some .done
  | .intern _ name owner _ => some (.token (catalog.interned? (Language.scopeOf owner) name))
  | .endToken language => some (.token (catalog.end? language))
  | _ => none

namespace State

/-- The answer to such a call is what the catalogue has to say at any later time. -/
theorem answer_take_of_recall? (state finish : State) (call : Call) (answer : Answer)
    (hGrows : Grows (state.take call).state finish)
    (hRecall : finish.catalog.recall? call = some answer) : (state.take call).answer = answer := by
  cases call with
  | define language vocabulary rules registered =>
      cases hRecall
      rfl
  | intern symbol name owner registered =>
      have hToken := interned?_of_grows hGrows (answer_intern state symbol name owner registered)
      rw [Catalog.recall?, hToken] at hRecall
      cases hRecall
      rfl
  | endToken language =>
      have hEnd : (state.endToken language).state.catalog.end? language =
          some (state.endToken language).answer := by
        rw [end?_endToken, if_pos rfl]
      have hToken : finish.catalog.end? language = some (state.endToken language).answer :=
        tokenAt?_of_grows hGrows (.ending language) hEnd
      rw [Catalog.recall?, hToken] at hRecall
      cases hRecall
      rfl
  | _ => cases hRecall

theorem answer_takeAll_of_recall? (state : State) (calls : List Call) (place : Nat) (call : Call)
    (answer : Answer) (hCall : calls[place]? = some call)
    (hRecall : (state.takeAll calls).state.catalog.recall? call = some answer) :
    (state.takeAll calls).answer[place]? = some answer := by
  induction calls generalizing state place with
  | nil => cases hCall
  | cons first rest ih =>
      cases place with
      | zero =>
          cases hCall
          have hAnswer := answer_take_of_recall? state _ call answer
            (grows_takeAll (state.take call).state rest) hRecall
          exact congrArg some hAnswer
      | succ place => exact ih (state.take first).state place hCall hRecall

end State

end GrammarCatalog
