import GrammarCatalog.Proofs.Reachable
import GrammarCatalog.Proofs.Requests

/-! Entries are there to stay. Whatever happens later, a language keeps its four tables and a key
its token, and no two languages ever have a table in common. Hence calls that have been taken may be
taken again, in any order and any number of times: each of them finds what it asks for. -/
namespace GrammarCatalog

namespace State

variable {state later : State}

/-- A call that opens in some way finds in every later state what it came to. -/
theorem follow_again {opening : Opening} (hGrows : Grows (state.follow opening).2 later) :
    later.follow opening = ((state.follow opening).1, later) := by
  cases opening with
  | refuse refusal => rfl
  | ask request =>
      have hKept := tokenAt?_of_grows hGrows request.key (state.tokenAt?_grant request)
      rw [follow, grant_of_kept _ _ _ hKept]
      rfl
  | define language blueprint =>
      have hDefined := state.isDefined_meet_definition language blueprint
      obtain ⟨definition, hDefinition⟩ := Option.isSome_iff_exists.mp hDefined
      have hLater : later.catalog.isDefined language = true := by
        rw [Catalog.isDefined, definition?_of_grows hGrows hDefinition]
        rfl
      rw [follow, meet, if_pos hLater]
      rfl

theorem take_again {call : Call} (hOpening : call.opening?.isSome)
    (hGrows : Grows (state.take call).state later) :
    (later.take call).state = later ∧ (later.take call).answer = (state.take call).answer := by
  obtain ⟨opening, hOpening⟩ := Option.isSome_iff_exists.mp hOpening
  obtain ⟨hAnswer, hState⟩ := take_of_opening? hOpening state
  obtain ⟨hAgainAnswer, hAgainState⟩ := take_of_opening? hOpening later
  rw [hState] at hGrows
  rw [hAgainAnswer, hAgainState, hAnswer, follow_again hGrows]
  exact ⟨rfl, rfl⟩

/-- A call among several that have been taken finds at the end what it came to. -/
theorem take_after_takeAll (state : State) (calls : List Call) (place : Nat) (call : Call)
    (hCall : calls[place]? = some call) (hOpening : call.opening?.isSome) :
    ((state.takeAll calls).state.take call).state = (state.takeAll calls).state ∧
      (state.takeAll calls).answer[place]? =
        some ((state.takeAll calls).state.take call).answer := by
  induction calls generalizing state place with
  | nil => cases hCall
  | cons first rest ih =>
      cases place with
      | zero =>
          cases hCall
          have hGrows := grows_takeAll (state.take call).state rest
          obtain ⟨hState, hAnswer⟩ := take_again hOpening hGrows
          exact ⟨hState, congrArg some hAnswer.symm⟩
      | succ place => exact ih _ place hCall

/-- Calls that change nothing one by one change nothing one after another. -/
theorem takeAll_of_unchanged (state : State) (calls : List Call)
    (hUnchanged : ∀ call ∈ calls, (state.take call).state = state) :
    (state.takeAll calls).state = state ∧
      (state.takeAll calls).answer = calls.map fun call => (state.take call).answer := by
  induction calls with
  | nil => exact ⟨rfl, rfl⟩
  | cons call rest ih =>
      obtain ⟨hState, hAnswer⟩ := ih fun other hOther =>
        hUnchanged other (List.mem_cons_of_mem _ hOther)
      have hFirst := hUnchanged call List.mem_cons_self
      refine ⟨?_, ?_⟩
      · simp only [takeAll, Outcome.andThen, Outcome.map, hFirst, hState]
      · simp only [takeAll, Outcome.andThen, Outcome.map, hFirst, hAnswer, List.map_cons]

end State

namespace World

/-- The number that is read off the definition of a language in a catalogue. -/
def read? (world : World) (read : Definition → Nat) (key : Nat × Language) : Option Nat :=
  ((world.catalogs key.1).definition? key.2).map read

section Publications

variable {read : Definition → Nat}
  (hRead : ∀ (state : State) language blueprint tokens,
    read (state.published language blueprint tokens) = state.supply.publications)

include hRead

theorem publications_issued_of_adds {world : World} {number : Nat} {state : State}
    (hAdds : State.Adds (world.stateOf number) state)
    (hIssued : Issued (world.read? read) world.supply.publications) :
    Issued ((world.withState number state).read? read) state.supply.publications := by
  cases hAdds with
  | token added symbol name owner registered hNew hFits =>
      apply hIssued.extend (Nat.le_refl _) fun _ _ => False
      · intro key serial hSerial
        rcases key with ⟨other, language⟩
        simp only [read?, catalogs_withState] at hSerial
        split at hSerial
        · next hOther =>
          rw [Catalog.definition?_addToken, ← hOther] at hSerial
          exact Or.inl hSerial
        · exact Or.inl hSerial
      · intro key serial hAdded
        exact hAdded.elim
      · intro key key' serial hAdded
        exact hAdded.elim
  | definition added blueprint tokens hNew hTokens =>
      apply hIssued.extend (Nat.le_succ _) fun key serial =>
        key = (number, added) ∧ serial = world.supply.publications
      · intro key serial hSerial
        rcases key with ⟨other, language⟩
        simp only [read?, catalogs_withState] at hSerial
        split at hSerial
        · next hOther =>
          rw [Catalog.definition?_addDefinition] at hSerial
          split at hSerial
          · next hLanguage =>
            rw [Option.map_some, hRead] at hSerial
            cases hSerial
            exact Or.inr ⟨by rw [hOther, hLanguage], rfl⟩
          · rw [← hOther] at hSerial
            exact Or.inl hSerial
        · exact Or.inl hSerial
      · intro key serial hAdded
        rw [hAdded.2]
        exact ⟨Nat.le_refl _, Nat.lt_succ_self _⟩
      · intro key key' serial hAdded hAdded'
        rw [hAdded.1, hAdded'.1]

/-- No number of a publication is issued twice. -/
theorem publications_issued (moves : List Move) :
    Issued ((after moves).read? read) (after moves).supply.publications := by
  apply run_keeps (fun world => Issued (world.read? read) world.supply.publications)
  · intro world move hIssued
    cases move with
    | call number call =>
        exact withState_keeps (fun world => Issued (world.read? read) world.supply.publications)
          (fun _ _ _ => publications_issued_of_adds hRead) (State.grows_take _ call) hIssued
    | _ => exact hIssued
  · constructor
    · intro key serial hSerial
      cases hSerial
    · intro key key' serial hSerial
      cases hSerial

theorem read_injective {moves : List Move} {key key' : Nat × Language}
    {definition definition' : Definition}
    (hDefinition : ((after moves).catalogs key.1).definition? key.2 = some definition)
    (hDefinition' : ((after moves).catalogs key'.1).definition? key'.2 = some definition')
    (hSame : read definition = read definition') : key = key' := by
  have hNumber : (after moves).read? read key = some (read definition) :=
    congrArg (Option.map read) hDefinition
  have hNumber' : (after moves).read? read key' = some (read definition) := by
    rw [read?, hDefinition', Option.map_some, hSame]
  exact (publications_issued hRead moves).apart hNumber hNumber'

end Publications

/-- Two languages, each in its catalogue, have all four tables in common or none. They have them in
common only when they are one and the same. -/
theorem samePublications?_eq {moves : List Move} {number number' : Nat}
    {language language' : Language}
    (hDefined : ((after moves).catalogs number).isDefined language = true)
    (hDefined' : ((after moves).catalogs number').isDefined language' = true) :
    (after moves).samePublications? number language number' language' =
      some (List.replicate 4 (decide ((number, language) = (number', language')))) := by
  obtain ⟨definition, hDefinition⟩ := Option.isSome_iff_exists.mp hDefined
  obtain ⟨definition', hDefinition'⟩ := Option.isSome_iff_exists.mp hDefined'
  simp only [samePublications?, hDefinition, hDefinition', Option.bind_eq_bind, Option.bind_some,
    Option.pure_def]
  by_cases hKey : (number, language) = (number', language')
  · obtain ⟨rfl, rfl⟩ := Prod.mk.inj hKey
    obtain rfl := Option.some.inj (hDefinition.symm.trans hDefinition')
    simp [List.replicate]
  · have hApart : ∀ read : Definition → Nat, (∀ (state : State) language blueprint tokens,
        read (state.published language blueprint tokens) = state.supply.publications) →
        read definition ≠ read definition' := fun read hRead hSame =>
      hKey (@read_injective read hRead moves (number, language) (number', language') _ _ hDefinition
        hDefinition' hSame)
    have hTokens : definition.tokens ≠ definition'.tokens := fun hSame =>
      hApart (·.tokens.publication) (fun _ _ _ _ => rfl) (congrArg _ hSame)
    have hRules : definition.rules ≠ definition'.rules := fun hSame =>
      hApart (·.rules.publication) (fun _ _ _ _ => rfl) (congrArg _ hSame)
    have hSymbols : definition.symbolOf ≠ definition'.symbolOf := fun hSame =>
      hApart (·.symbolOf.publication) (fun _ _ _ _ => rfl) (congrArg _ hSame)
    have hNumbers : definition.ruleOf ≠ definition'.ruleOf := fun hSame =>
      hApart (·.ruleOf.publication) (fun _ _ _ _ => rfl) (congrArg _ hSame)
    simp only [hTokens, hRules, hSymbols, hNumbers, hKey, decide_false]
    rfl

end World

/-- Entries are there to stay, and so calls may be taken again. Whatever happens, a token is kept
under its key and a language keeps the tables that were published for it, which no other language
has, be it in the same catalogue or in another. Its lists and its indexes of names are those tables
at every later moment. When calls that define languages or ask for tokens
are taken once more, in any order and any number of times, the state stays as it is down to the
serial numbers, and every call is answered as the first time. -/
theorem entries_stay_and_calls_repeat (moves later : List World.Move) (number : Nat) :
    (∀ key token, ((World.after moves).catalogs number).tokenAt? key = some token →
      ((World.after (moves ++ later)).catalogs number).tokenAt? key = some token) ∧
    (∀ language definition,
      ((World.after moves).catalogs number).definition? language = some definition →
      ((World.after (moves ++ later)).catalogs number).definition? language = some definition) ∧
    (∀ language definition,
      ((World.after moves).catalogs number).definition? language = some definition →
      let catalog := (World.after moves).catalogs number
      let grown := (World.after (moves ++ later)).catalogs number
      (grown.tokens language = definition.tokens.content ∧
        grown.rules language = definition.rules.content ∧
        grown.tokenNames? language = some definition.symbolOf.content ∧
        grown.ruleNames? language = some definition.ruleOf.content) ∧
      grown.tokens language = catalog.tokens language ∧
      grown.rules language = catalog.rules language ∧
      grown.tokenNames? language = catalog.tokenNames? language ∧
      grown.ruleNames? language = catalog.ruleNames? language) ∧
    (∀ number' language language',
      ((World.after moves).catalogs number).isDefined language = true →
      ((World.after moves).catalogs number').isDefined language' = true →
      (World.after moves).samePublications? number language number' language' =
        some (List.replicate 4 (decide ((number, language) = (number', language'))))) ∧
    ∀ calls again : List Call, (∀ call ∈ calls, call.opening?.isSome) →
      (∀ call ∈ again, call ∈ calls) →
      let first := ((World.after moves).stateOf number).takeAll calls
      let second := first.state.takeAll again
      second.state = first.state ∧
        ∀ (place place' : Nat) (call : Call), calls[place]? = some call →
          again[place']? = some call → second.answer[place']? = first.answer[place]? ∧
            (first.answer[place]?).isSome := by
  have hKept : ∀ language definition,
      ((World.after moves).catalogs number).definition? language = some definition →
      ((World.after (moves ++ later)).catalogs number).definition? language = some definition := by
    intro language definition hDefinition
    rw [World.after_append]
    exact World.definition?_run _ later hDefinition
  refine ⟨?_, hKept, ?_, ?_, ?_⟩
  · intro key token hToken
    rw [World.after_append]
    exact World.tokenAt?_run _ later key hToken
  · intro language definition hDefinition catalog grown
    have hGrown := hKept language definition hDefinition
    refine ⟨Catalog.tables_of_definition? hGrown, ?_⟩
    exact (Catalog.tables_eq (hGrown.trans hDefinition.symm)).2
  · intro number' language language' hDefined hDefined'
    exact World.samePublications?_eq hDefined hDefined'
  · intro calls again hOpenings hAgain first second
    have hTaken := ((World.after moves).stateOf number).take_after_takeAll calls
    have hUnchanged : ∀ call ∈ again, (first.state.take call).state = first.state := by
      intro call hCall
      obtain ⟨place, hPlace⟩ := List.mem_iff_getElem?.mp (hAgain call hCall)
      exact (hTaken place call hPlace (hOpenings call (hAgain call hCall))).1
    obtain ⟨hState, hAnswer⟩ := State.takeAll_of_unchanged first.state again hUnchanged
    refine ⟨hState, ?_⟩
    intro place place' call hCall hCall'
    have hOpening := hOpenings call (List.mem_of_getElem? hCall)
    obtain ⟨_, hFirst⟩ := hTaken place call hCall hOpening
    rw [hAnswer, List.getElem?_map, hCall', hFirst]
    exact ⟨rfl, rfl⟩

/-- A language without symbols and rules is defined in two catalogues. It keeps its empty tables
when it is defined anew, and those of the other catalogue are others. Among the calls that are taken
again, in another order, is a definition that is refused both times. -/
theorem entries_stay_and_calls_repeat_of_empty_language :
    let base := Language.root 1 "base"
    let refused := Call.defineChecked base (.ofNames ⟨1⟩ [(⟨0⟩, "A"), (⟨1⟩, "A")]) [] false
    let interning := Call.intern ⟨7⟩ "A" (some base) true
    let moves : List World.Move :=
      [.call 0 (.define base (.ofNames ⟨-1⟩ []) [] false), .call 0 (.endToken base),
        .call 1 (.define base (.ofNames ⟨-1⟩ []) [] false)]
    let later : List World.Move := [.call 0 (.define base (.ofNames ⟨0⟩ [(⟨0⟩, "A")]) ["r"] true)]
    let first := ((World.after moves).stateOf 0).takeAll [interning, refused, .endToken base]
    let second := first.state.takeAll [.endToken base, refused, interning]
    (∃ token, ((World.after (moves ++ later)).catalogs 0).tokenAt? (.ending base) = some token) ∧
      ((World.after (moves ++ later)).catalogs 0).definition? base =
        some ⟨⟨0, []⟩, ⟨0, []⟩, ⟨0, .ofNamed []⟩, ⟨0, .ofNamed []⟩⟩ ∧
      ((World.after (moves ++ later)).catalogs 0).tokenNames? base = some (.ofNamed []) ∧
      (World.after moves).samePublications? 0 base 1 base = some [false, false, false, false] ∧
      second.state = first.state ∧ second.answer[1]? = first.answer[1]? := by
  intro base refused interning moves later first second
  obtain ⟨hTokens, hDefinitions, hShown, hTables, hCalls⟩ :=
    entries_stay_and_calls_repeat moves later 0
  obtain ⟨⟨_, _, hNames, _⟩, _⟩ := hShown base _ rfl
  obtain ⟨hState, hAnswers⟩ := hCalls [interning, refused, .endToken base]
    [.endToken base, refused, interning] (by decide) (by simp)
  exact ⟨⟨_, hTokens (.ending base) _ rfl⟩, hDefinitions base _ rfl, hNames,
    hTables 1 base base rfl rfl, hState, (hAnswers 1 1 refused rfl rfl).1⟩

end GrammarCatalog
