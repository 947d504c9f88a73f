import GrammarCatalog.Proofs.Trimming

/-! Lookups leave no trace. Some of them do add to a catalogue, for they make the end of the input
when they are the first to ask for it. But nobody can tell whether lookups were made in between:
every call answers and logs what it would have without them, with other instances in the place of
instances. -/
namespace GrammarCatalog

open History

namespace World

/-- A move of a run, or a lookup that is put in between. -/
inductive Step where
  | kept (move : Move)
  | inserted (number : Nat) (lookup : Call) (hLookup : lookup.looksUp = true)

namespace Step

def move : Step → Move
  | kept move => move
  | inserted number lookup _ => .call number lookup

def kept? : Step → Option Move
  | kept move => some move
  | inserted .. => none

end Step

/-- The world after a run without the lookups in between. -/
def afterKept (steps : List Step) : World := after (steps.filterMap Step.kept?)

/-- The world after a run with the lookups in between. -/
def afterAll (steps : List Step) : World := after (steps.map Step.move)

section Demands

variable (number : Nat) (steps : List Step)

/-- Lookups in between make no demand for a name. -/
theorem naming_demandsTo :
    (demandsTo number (steps.map Step.move)).filter Demand.isNaming =
      (demandsTo number (steps.filterMap Step.kept?)).filter Demand.isNaming := by
  induction steps with
  | nil => rfl
  | cons step rest ih =>
      unfold demandsTo at ih ⊢
      cases step with
      | kept move =>
          rw [List.map_cons, List.filterMap_cons, List.filterMap_cons, Step.kept?, Step.move,
            List.filterMap_cons]
          cases move.demand? number with
          | none => exact ih
          | some demand => rw [List.filter_cons, List.filter_cons, ih]
      | inserted other lookup hLookup =>
          rw [List.map_cons, List.filterMap_cons, List.filterMap_cons, Step.kept?, Step.move]
          cases hDemand : Move.demand? number (.call other lookup) with
          | none => exact ih
          | some demand =>
              obtain ⟨_, hMade⟩ := Option.ite_none_right_eq_some.mp hDemand
              cases hMade
              rw [List.filter_cons_of_neg, ih]
              rw [Call.isNaming_demand hLookup]
              exact Bool.false_ne_true

theorem kept_sublist : (steps.filterMap Step.kept?).Sublist (steps.map Step.move) := by
  induction steps with
  | nil => exact .slnil
  | cons step rest ih =>
      cases step with
      | kept move => exact ih.cons_cons move
      | inserted other lookup hLookup => exact ih.cons _

theorem mem_endings_of_kept {language : Language}
    (hEnding : language ∈ (demandsTo number (steps.filterMap Step.kept?)).filterMap
      Demand.ending?) :
    language ∈ (demandsTo number (steps.map Step.move)).filterMap Demand.ending? :=
  (((kept_sublist steps).filterMap _).filterMap _).subset hEnding

end Demands

/-- The tokens that are kept in some catalogue. -/
def heldTokens (world : World) : Set TokenElement :=
  {token | ∃ key, world.tokenAt? key = some token}

def heldRules (world : World) : Set RuleElement :=
  {rule | ∃ key, world.ruleAt? key = some rule}

/-- A world whose catalogues are without the ends of the input that those of another one have
not. -/
def trimmedTo (world other : World) : World :=
  { world with catalogs := fun number =>
      (world.catalogs number).trimmedTo (other.catalogs number) }

theorem tokenAt?_afterKept_append (before later : List Step) (key : Nat × TokenKey)
    (token : TokenElement) (hToken : (afterKept before).tokenAt? key = some token) :
    (afterKept (before ++ later)).tokenAt? key = some token := by
  rw [afterKept, List.filterMap_append]
  exact tokenAt?_after_append _ _ key token hToken

theorem ruleAt?_afterKept_append (before later : List Step) (key : Nat × Language × Nat)
    (rule : RuleElement) (hRule : (afterKept before).ruleAt? key = some rule) :
    (afterKept (before ++ later)).ruleAt? key = some rule := by
  rw [afterKept, List.filterMap_append]
  exact ruleAt?_after_append _ _ key rule hRule

section Trimmed

variable (steps : List Step)

/-- The world after the run with the lookups, without the ends of the input that only they have
made. -/
def trimmedAll : World := (afterAll steps).trimmedTo (afterKept steps)

theorem records_trimmedAll (number : Nat) :
    ((trimmedAll steps).catalogs number).Records
      (demandsTo number (steps.filterMap Step.kept?)) :=
  (records_after (steps.map Step.move) number).trimmedTo
    (records_after (steps.filterMap Step.kept?) number) (naming_demandsTo number steps)
    fun _ => mem_endings_of_kept number steps

theorem tokenKey_trimmedAll (key key' : Nat × TokenKey) (token : TokenElement)
    (hToken : (trimmedAll steps).tokenAt? key = some token)
    (hToken' : (trimmedAll steps).tokenAt? key' = some token) : key = key' :=
  (sound_after (steps.map Step.move)).tokenKey_eq key key' token
    (Catalog.tokenAt?_of_trimmedTo hToken) (Catalog.tokenAt?_of_trimmedTo hToken')

theorem ruleKey_trimmedAll (key key' : Nat × Language × Nat) (rule : RuleElement)
    (hRule : (trimmedAll steps).ruleAt? key = some rule)
    (hRule' : (trimmedAll steps).ruleAt? key' = some rule) : key = key' :=
  (sound_after (steps.map Step.move)).ruleKey_eq key key' rule hRule hRule'

theorem tokenAt?_trimmedAll_append (before later : List Step) (key : Nat × TokenKey)
    (token : TokenElement) (hToken : (trimmedAll before).tokenAt? key = some token) :
    (trimmedAll (before ++ later)).tokenAt? key = some token := by
  apply Catalog.tokenAt?_trimmedTo_of_grown _ _ hToken
  · intro token hAll
    rw [afterAll, List.map_append]
    exact tokenAt?_after_append _ _ key token hAll
  · intro hAsked
    obtain ⟨token, hKept⟩ := Option.isSome_iff_exists.mp hAsked
    exact Option.isSome_iff_exists.mpr
      ⟨token, tokenAt?_afterKept_append before later key token hKept⟩

theorem ruleAt?_trimmedAll_append (before later : List Step) (key : Nat × Language × Nat)
    (rule : RuleElement) (hRule : (trimmedAll before).ruleAt? key = some rule) :
    (trimmedAll (before ++ later)).ruleAt? key = some rule := by
  have hAll : (afterAll (before ++ later)).ruleAt? key = some rule := by
    rw [afterAll, List.map_append]
    exact ruleAt?_after_append _ _ key rule hRule
  exact hAll

end Trimmed

end World

/-- A translation matches all that the catalogues of one world hold one by one with what those of
another one hold, but for the ends of the input that only the other one has. Instances keep all that
they show. -/
structure Translation.Embeds (translation : Translation) (first second : World) : Prop where
  tokens : Set.BijOn translation.token first.heldTokens (second.trimmedTo first).heldTokens
  rules : Set.BijOn translation.rule first.heldRules second.heldRules
  mention : ∀ token ∈ first.heldTokens, (translation.token token).mention = token.mention
  shown : ∀ rule ∈ first.heldRules, (translation.rule rule).shown = rule.shown

namespace World

/-- One translation serves at every moment of a run: the catalogues of the run with the lookups
correspond, once they are trimmed, to those of the run without. -/
theorem exists_translation_kept (steps : List Step) :
    ∃ translation : Translation, translation.Embeds (afterKept steps) (afterAll steps) ∧
      ∀ before later, steps = before ++ later → ∀ number,
        ((afterKept before).catalogs number).Corresponds translation
          ((trimmedAll before).catalogs number) := by
  have hSame := History.Similar.refl
  have hTokenKeys : ∀ steps key, ((afterKept steps).tokenAt? key).isSome =
      ((trimmedAll steps).tokenAt? key).isSome := fun steps key =>
    (records_after _ key.1).isSome_tokenAt?_eq (records_trimmedAll steps key.1) (hSame _) key.2
  have hRuleKeys : ∀ steps key, ((afterKept steps).ruleAt? key).isSome =
      ((trimmedAll steps).ruleAt? key).isSome := fun steps key =>
    (records_after _ key.1).isSome_ruleAt?_eq (records_trimmedAll steps key.1) (hSame _) key.2
  have hSound : (afterKept steps).Sound := sound_after _
  have hSoundAll : (afterAll steps).Sound := sound_after _
  obtain ⟨onTokens, hTokens, hBijTokens⟩ :=
    exists_bijection hSound.tokenKey_eq (tokenKey_trimmedAll steps) (hTokenKeys steps)
  obtain ⟨onRules, hRules, hBijRules⟩ :=
    exists_bijection hSound.ruleKey_eq (ruleKey_trimmedAll steps) (hRuleKeys steps)
  refine ⟨⟨onTokens, onRules⟩, ⟨hBijTokens, hBijRules, ?_, ?_⟩, ?_⟩
  · intro token hHeld
    rcases hHeld with ⟨key, hToken⟩
    have hMention : ((afterKept steps).tokenAt? key).map TokenElement.mention =
        ((trimmedAll steps).tokenAt? key).map TokenElement.mention :=
      (records_after _ key.1).map_mention_tokenAt? (records_trimmedAll steps key.1)
        (fun _ _ => (hSound.catalogs key.1).fits _)
        (fun _ _ hTrimmed => (hSoundAll.catalogs key.1).fits _
          (Catalog.tokenAt?_of_trimmedTo hTrimmed)) key.2
    rw [hTokens, hToken, Option.map_some, Option.map_some, Option.map_some] at hMention
    exact (Option.some.inj hMention).symm
  · intro rule hHeld
    rcases hHeld with ⟨key, hRule⟩
    have hShown : ((afterKept steps).ruleAt? key).map RuleElement.shown =
        ((trimmedAll steps).ruleAt? key).map RuleElement.shown :=
      (records_after _ key.1).map_shown_ruleAt? (records_trimmedAll steps key.1) (hSame _) key.2
    rw [hRules, hRule, Option.map_some, Option.map_some, Option.map_some] at hShown
    exact (Option.some.inj hShown).symm
  · intro before later hSteps number
    -- What is matched in the end was matched at this moment, for nothing was taken away since.
    subst hSteps
    have hTokensBefore := map_of_map_later (tokenAt?_afterKept_append before later)
      (tokenAt?_trimmedAll_append before later) (hTokenKeys before) hTokens
    have hRulesBefore := map_of_map_later (ruleAt?_afterKept_append before later)
      (ruleAt?_trimmedAll_append before later) (hRuleKeys before) hRules
    exact (records_after _ number).corresponds (records_trimmedAll before number) (hSame _)
      (fun key => hTokensBefore (number, key)) (fun key => hRulesBefore (number, key))

theorem definedLanguages_after (moves : List Move) (number : Nat) :
    ((after moves).catalogs number).definedLanguages = languages (demandsTo number moves) :=
  (@reads_run
    (fun history catalog =>
      catalog.Records history ∧ catalog.definedLanguages = languages history)
    State.definedLanguages_meet empty moves number [] ⟨Catalog.records_empty, rfl⟩).2

/-- The same languages are listed, with lookups in between or without. -/
theorem definedLanguages_afterAll (steps : List Step) (number : Nat) :
    ((afterAll steps).catalogs number).definedLanguages =
      ((afterKept steps).catalogs number).definedLanguages := by
  rw [afterAll, afterKept, definedLanguages_after, definedLanguages_after, ← languages_naming,
    naming_demandsTo, languages_naming]

theorem isDefined_afterAll (steps : List Step) (number : Nat) (language : Language) :
    ((afterAll steps).catalogs number).isDefined language =
      ((afterKept steps).catalogs number).isDefined language := by
  rw [Bool.eq_iff_iff, ← Catalog.mem_definedLanguages, ← Catalog.mem_definedLanguages,
    definedLanguages_afterAll]

/-- No call makes a language. -/
theorem supply_languages_take (world : World) (number : Nat) (call : Call) :
    (world.next (.call number call)).supply.languages = world.supply.languages := by
  apply (State.grows_take (world.stateOf number) call).keeps
    (fun state => state.supply.languages = world.supply.languages)
  · intro before after hAdds hSame
    cases hAdds with
    | token => exact hSame
    | definition => exact hSame
  · rfl

theorem supply_languages_next {world world' : World} (move : Move)
    (hSame : world.supply.languages = world'.supply.languages) :
    (world.next move).supply.languages = (world'.next move).supply.languages := by
  cases move with
  | call number call => rw [supply_languages_take, supply_languages_take, hSame]
  | root id => exact congrArg (· + 1) hSame
  | dialect id base => exact congrArg (· + 1) hSame
  | token => exact hSame
  | rule => exact hSame

/-- The next language to be made is the same, with lookups in between or without. -/
theorem supply_languages_run {world world' : World} (steps : List Step)
    (hSame : world.supply.languages = world'.supply.languages) :
    (world.run (steps.map Step.move)).supply.languages =
      (world'.run (steps.filterMap Step.kept?)).supply.languages := by
  induction steps generalizing world world' with
  | nil => exact hSame
  | cons step rest ih =>
      cases step with
      | kept move => exact ih (supply_languages_next move hSame)
      | inserted number lookup hLookup =>
          have hMade := supply_languages_take world number lookup
          exact ih (hMade.trans hSame)

/-- The end of the input is neither interned nor listed anywhere. -/
theorem Sound.end_apart {world : World} (hSound : world.Sound) {number : Nat} {language : Language}
    {token : TokenElement} (hEnd : (world.catalogs number).end? language = some token)
    (other : Nat) :
    (∀ scope name, (world.catalogs other).interned? scope name ≠ some token) ∧
      ∀ language', token ∉ (world.catalogs other).tokens language' := by
  have hApart : ∀ scope name, (world.catalogs other).interned? scope name ≠ some token := by
    intro scope name hToken
    have hKey := hSound.tokenKey_eq (number, .ending language) (other, .interned scope name) token
      hEnd hToken
    cases hKey
  exact ⟨hApart, fun language' hListed =>
    hApart _ _ ((hSound.catalogs other).interned?_of_mem_tokens hListed)⟩

/-- The tokens of an answer are kept in the end. -/
theorem held_of_answer {moves later : List Move} {number : Nat} {call : Call}
    {token : TokenElement} (hToken : token ∈ ((after moves).take number call).1.tokenElements) :
    token ∈ (after (moves ++ .call number call :: later)).heldTokens := by
  obtain ⟨key, hHandsOut⟩ := exists_handsOut _ number call token hToken
  refine ⟨key, ?_⟩
  rw [after_append]
  exact tokenAt?_run _ later key.2 (tokenAt?_of_handsOut (sound_after moves) hHandsOut)

/-- Worlds that correspond on every language, before the call and after it, answer alike and log the
same. -/
theorem take_eq {translation : Translation} {first second : World} {number : Nat} {call : Call}
    (hOnce : Set.InjOn translation.token
      {token | token ∈ (first.take number call).1.tokenElements})
    (hLanguages : (second.catalogs number).definedLanguages =
      (first.catalogs number).definedLanguages)
    (hBefore : ∀ language, (first.catalogs number).CorrespondsOn translation language
      (second.catalogs number))
    (hAfter : ∀ language,
      ((first.next (.call number call)).catalogs number).CorrespondsOn translation language
        ((second.next (.call number call)).catalogs number)) :
    (second.take number call).1 = translation.answer (first.take number call).1 ∧
      (second.take number call).2.1 = (first.take number call).2.1 := by
  cases hLanguage : call.language? with
  | some language =>
      have hTaken := hAfter language
      simp only [next, take, catalogs_withState, ↓reduceIte] at hTaken
      exact ⟨State.answer_take_eq_on hLanguage (hBefore language) hTaken hOnce,
        State.events_take_eq_on hLanguage (hBefore language)⟩
  | none =>
      cases call with
      | languageCount =>
          have hCount := congrArg List.length hLanguages
          simp only [Catalog.definedLanguages, List.length_reverse, List.length_map] at hCount
          exact ⟨congrArg Answer.count hCount, rfl⟩
      | definedLanguages => exact ⟨congrArg Answer.languages hLanguages, rfl⟩
      | _ => cases hLanguage

/-- Lookups are not noticed. However many of them are put into a run, and wherever, all other calls
answer and log the same, with other instances under one translation that is one to one and keeps all
that they show. At every moment the same languages are defined, and the catalogues say the same; all
that they have in addition are ends of the input. A lookup itself logs nothing and neither defines
nor interns. An end of the input is never interned or listed. -/
theorem lookups_are_unobservable (steps : List Step) :
    (∃ translation : Translation, translation.Embeds (afterKept steps) (afterAll steps) ∧
      ∀ before later, steps = before ++ later →
        (afterAll before).supply.languages = (afterKept before).supply.languages ∧
        (∀ number, (∀ language, ((afterAll before).catalogs number).isDefined language =
            ((afterKept before).catalogs number).isDefined language) ∧
          ((afterAll before).catalogs number).definedLanguages =
            ((afterKept before).catalogs number).definedLanguages ∧
          ((afterKept before).catalogs number).Corresponds translation
            ((trimmedAll before).catalogs number)) ∧
        ∀ number call rest, later = .kept (.call number call) :: rest →
          let without := (afterKept before).take number call
          let amid := (afterAll before).take number call
          amid.1 = translation.answer without.1 ∧ amid.2.1 = without.2.1) ∧
    (∀ (state : State) (lookup : Call), lookup.looksUp = true →
      (state.take lookup).events = [] ∧
        (state.take lookup).state.catalog.definitions = state.catalog.definitions ∧
        (state.take lookup).state.catalog.interned = state.catalog.interned) ∧
    ∀ number language token, ((afterAll steps).catalogs number).end? language = some token →
      ∀ other, (∀ scope name,
          ((afterAll steps).catalogs other).interned? scope name ≠ some token) ∧
        ∀ language', token ∉ ((afterAll steps).catalogs other).tokens language' := by
  obtain ⟨translation, hEmbeds, hCorresponds⟩ := exists_translation_kept steps
  refine ⟨⟨translation, hEmbeds, ?_⟩, fun state _ => state.take_lookup,
    fun _ _ _ => (sound_after _).end_apart⟩
  intro before later hSteps
  refine ⟨supply_languages_run before rfl, fun number =>
    ⟨isDefined_afterAll before number, definedLanguages_afterAll before number,
      hCorresponds before later hSteps number⟩, ?_⟩
  intro number call rest hLater without amid
  subst hLater
  have hBefore := hCorresponds before _ hSteps number
  have hAfter := hCorresponds (before ++ [.kept (.call number call)]) rest (by simp [hSteps]) number
  have hOnce : Set.InjOn translation.token {token | token ∈ without.1.tokenElements} := by
    apply hEmbeds.tokens.injOn.mono
    intro token hToken
    rw [hSteps, afterKept, List.filterMap_append]
    exact held_of_answer hToken
  apply take_eq hOnce (definedLanguages_afterAll before number)
  · intro language
    exact hBefore.on_of_trimmedTo language
  · intro language
    have hOn := hAfter.on_of_trimmedTo language
    rw [afterKept, afterAll, List.filterMap_append, List.map_append, after_append,
      after_append] at hOn
    exact hOn

/-- Two lookups come to the end of the input first, so there the first two tokens have changed
places. -/
theorem lookups_are_unobservable_though_first :
    let base := Language.root 1 "base"
    let define := Move.call 0 (.define base (.ofNames ⟨0⟩ [(⟨0⟩, "X")]) ["r"] false)
    let call := Call.tokenSet base [⟨0⟩, .endOfInput]
    let before : List Step :=
      [.inserted 0 (.token base .endOfInput) rfl, .inserted 0 .definedLanguages rfl, .kept define,
        .inserted 0 (.tokenSet base [.endOfInput]) rfl]
    let x : TokenElement := ⟨0, ⟨0⟩, "X", some base, false⟩
    let ending : TokenElement := ⟨1, .endOfInput, Symbol.endOfInputName, some base, false⟩
    ((afterKept before).take 0 call).1 = .tokenSet ⟨[x, ending]⟩ ∧
    ∃ translation : Translation,
      ((afterAll before).take 0 call).1 =
        .tokenSet ⟨[translation.token x, translation.token ending]⟩ ∧
      translation.token x = { x with serial := 1 } ∧
      translation.token ending = { ending with serial := 0 } := by
  intro base define call before x ending
  have hWithout : ((afterKept before).take 0 call).1 = .tokenSet ⟨[x, ending]⟩ := rfl
  obtain ⟨⟨translation, _, hMoments⟩, _⟩ :=
    lookups_are_unobservable (before ++ [.kept (.call 0 call)])
  obtain ⟨_, _, hCalls⟩ := hMoments before _ rfl
  have hAnswer := (hCalls 0 call [] rfl).1
  rw [hWithout] at hAnswer
  have hMembers := congrArg Answer.tokenElements hAnswer
  refine ⟨hWithout, translation, hAnswer, ?_⟩
  exact ⟨(List.cons.inj hMembers).1.symm, (List.cons.inj (List.cons.inj hMembers).2).1.symm⟩

end World

end GrammarCatalog
