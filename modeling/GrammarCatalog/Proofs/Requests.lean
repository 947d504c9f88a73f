import GrammarCatalog.Proofs.Demand

/-! How calls set about their work. A call that may add something refuses its names at once, or asks
for one token, or sets out to define a language. The first touches no table; the second looks for a
token and makes it where there is none; the third has several things to do. -/
namespace GrammarCatalog

/-- What is asked for when one token is wanted. -/
inductive Request where
  | name (mention : Mention)
  | ending (language : Language)
  deriving DecidableEq

namespace Request

/-- What the token looks like if it is made for this request. -/
def mention : Request → Mention
  | name mention => mention
  | ending language => ⟨.endOfInput, Symbol.endOfInputName, some language, false⟩

/-- What the requested token is kept under. -/
def key : Request → TokenKey
  | name mention => .interned (Language.scopeOf mention.owner) mention.name
  | ending language => .ending language

end Request

/-- How a call sets about its work. -/
inductive Opening where
  /-- The names are not fit for use. -/
  | refuse (refusal : Refusal)
  | ask (request : Request)
  | define (language : Language) (blueprint : Blueprint)

/-- The calls that define a language, with or without a check, and those that ask for a token to be
made. The names are checked before anything else. -/
def Call.opening? : Call → Option Opening
  | .define language vocabulary ruleList registered =>
    some (.define language ⟨vocabulary.names, ruleList, registered⟩)
  | .defineChecked language vocabulary ruleList registered =>
    match Naming.check vocabulary ruleList with
    | .error fault => some (.refuse ⟨language.id, fault⟩)
    | .ok names => some (.define language ⟨names, ruleList, registered⟩)
  | .intern symbol name owner registered =>
    some (.ask (.name ⟨symbol, name, owner, registered⟩))
  | .endToken language => some (.ask (.ending language))
  | _ => none

namespace State

/-- Gives the requested token, and makes it where there is none. -/
def grant (state : State) : Request → Outcome TokenElement
  | .name mention => state.intern mention.symbol mention.name mention.owner mention.registered
  | .ending language => state.endToken language

/-- The answer and the state that a call comes to, by the way in which it opens. -/
def follow (state : State) : Opening → Answer × State
  | .refuse refusal => (.refused refusal, state)
  | .ask request =>
    (.token (some (state.grant request).answer), (state.grant request).state)
  | .define language blueprint => (.done, state.meet (.definition language blueprint))

/-- A token that is kept is given as it is. -/
theorem grant_of_kept (state : State) (request : Request) (token : TokenElement)
    (hKept : state.catalog.tokenAt? request.key = some token) :
    state.grant request = .silent token state := by
  cases request with
  | name mention => exact intern_of_interned _ _ _ _ _ _ hKept
  | ending language => exact endToken_of_end? _ _ _ hKept

/-- A token that is missing is made and kept. -/
theorem grant_of_missing (state : State) (request : Request)
    (hMissing : state.catalog.tokenAt? request.key = none) :
    let made := state.supply.token request.mention.symbol request.mention.name
      request.mention.owner request.mention.registered
    (state.grant request).answer = made.1 ∧
      (state.grant request).state = ⟨made.2, state.catalog.addToken made.1 request.key⟩ := by
  cases request with
  | name mention =>
      have hInterned : state.catalog.interned? (Language.scopeOf mention.owner) mention.name =
          none := hMissing
      simp only [grant, intern, hInterned]
      exact ⟨rfl, rfl⟩
  | ending language =>
      have hEnd : state.catalog.end? language = none := hMissing
      simp only [grant, endToken, hEnd]
      exact ⟨rfl, rfl⟩

/-- Whoever asks for a token is given what is kept from then on. -/
theorem tokenAt?_grant (state : State) (request : Request) :
    (state.grant request).state.catalog.tokenAt? request.key =
      some (state.grant request).answer := by
  cases request with
  | name mention => exact answer_intern _ _ _ _ _
  | ending language =>
      simp only [grant, Request.key, Catalog.tokenAt?, end?_endToken, ↓reduceIte]

theorem isDefined_meet_definition (state : State) (language : Language) (blueprint : Blueprint) :
    (state.meet (.definition language blueprint)).catalog.isDefined language = true := by
  unfold meet
  dsimp only
  split
  · assumption
  · simp only [establish, Outcome.andThen, state_publish, Catalog.isDefined,
      Catalog.definition?_addDefinition, ↓reduceIte, Option.isSome_some]

theorem take_of_opening? {call : Call} {opening : Opening} (hOpening : call.opening? = some opening)
    (state : State) :
    (state.take call).answer = (state.follow opening).1 ∧
      (state.take call).state = (state.follow opening).2 := by
  cases call with
  | define language vocabulary ruleList registered =>
      cases hOpening
      refine ⟨rfl, ?_⟩
      rw [state_take]
      rfl
  | defineChecked language vocabulary ruleList registered =>
      cases hCheck : Naming.check vocabulary ruleList with
      | error fault =>
          simp only [Call.opening?, hCheck, Option.some.injEq] at hOpening
          rw [← hOpening, take, defineChecked_of_error _ _ _ _ _ _ hCheck]
          exact ⟨rfl, rfl⟩
      | ok names =>
          simp only [Call.opening?, hCheck, Option.some.injEq] at hOpening
          rw [← hOpening, state_take, Call.demand, hCheck, Naming.names_of_check hCheck]
          refine ⟨?_, rfl⟩
          simp only [take, defineChecked, hCheck, Outcome.map, follow]
  | intern symbol name owner registered =>
      cases hOpening
      exact ⟨rfl, rfl⟩
  | endToken language =>
      cases hOpening
      exact ⟨rfl, rfl⟩
  | _ => cases hOpening

/-- Calls come after one another, whether they are given at once or in two parts. -/
theorem takeAll_append (state : State) (calls others : List Call) :
    (state.takeAll (calls ++ others)).state =
        ((state.takeAll calls).state.takeAll others).state ∧
      (state.takeAll (calls ++ others)).answer =
        (state.takeAll calls).answer ++ ((state.takeAll calls).state.takeAll others).answer := by
  induction calls generalizing state with
  | nil => exact ⟨rfl, rfl⟩
  | cons call rest ih =>
      obtain ⟨hState, hAnswer⟩ := ih (state.take call).state
      exact ⟨hState, congrArg ((state.take call).answer :: ·) hAnswer⟩

end State

end GrammarCatalog
