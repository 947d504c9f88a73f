import GrammarCatalog.Proofs.Answers

/-! Demands for names, and catalogues without surplus ends. A lookup demands at most the end of the
input. Such demands leave the definitions and the interned names alone. A catalogue that has met
more of them than another one is rid of what they have made by trimming. -/
namespace GrammarCatalog

/-- Whether a call only asks. All calls do but those that define a language or intern a name. -/
def Call.looksUp : Call → Bool
  | .define .. => false
  | .defineChecked .. => false
  | .intern .. => false
  | _ => true

/-- Whether a demand is for names, by themselves or with a definition. -/
def Demand.isNaming : Demand → Bool
  | .token _ => true
  | .definition .. => true
  | .ending _ => false
  | .nothing => false

theorem Call.isNaming_demand {call : Call} (hLooksUp : call.looksUp = true) :
    call.demand.isNaming = false := by
  cases call with
  | define => cases hLooksUp
  | defineChecked => cases hLooksUp
  | intern => cases hLooksUp
  | token language symbol =>
      simp only [demand]
      split
      · rfl
      · rfl
  | tokenSet language symbols =>
      simp only [demand]
      split
      · rfl
      · rfl
  | _ => rfl

namespace History

/-- The languages that are defined, in the order in which they are demanded first. -/
def languages (history : List Demand) : List Language :=
  ((history.filterMap Demand.definition?).map Prod.fst).eraseDups

theorem mem_languages (history : List Demand) (language : Language) :
    language ∈ languages history ↔ (blueprint? history language).isSome := by
  simp [languages, blueprint?, List.lookup_isSome_iff]

theorem languages_append_of_not_definition {history : List Demand} {demand : Demand}
    (hOther : demand.definition? = none) : languages (history ++ [demand]) = languages history := by
  simp [languages, hOther]

theorem languages_append_definition (history : List Demand) (language : Language)
    (blueprint : Blueprint) :
    languages (history ++ [.definition language blueprint]) =
      languages history ++
        if (blueprint? history language).isSome then [] else [language] := by
  simp only [← mem_languages]
  rw [languages, List.filterMap_append, List.map_append, List.eraseDups_append, languages]
  congr 1
  by_cases hMember : language ∈ (history.filterMap Demand.definition?).map Prod.fst
  · have hKnown : [language].removeAll ((history.filterMap Demand.definition?).map Prod.fst) = [] :=
      by simp [List.removeAll, hMember]
    rw [if_pos (List.mem_eraseDups.mpr hMember)]
    exact congrArg List.eraseDups hKnown
  · have hNew : [language].removeAll ((history.filterMap Demand.definition?).map Prod.fst) =
        [language] := by simp [List.removeAll, hMember]
    rw [if_neg (mt List.mem_eraseDups.mp hMember)]
    exact congrArg List.eraseDups hNew

section Naming

variable (history : List Demand)

theorem filterMap_definition?_naming :
    (history.filter Demand.isNaming).filterMap Demand.definition? =
      history.filterMap Demand.definition? := by
  rw [List.filterMap_filter]
  apply List.filterMap_congr
  intro demand _
  cases demand <;> rfl

theorem blueprint?_naming (language : Language) :
    blueprint? (history.filter Demand.isNaming) language = blueprint? history language := by
  rw [blueprint?, filterMap_definition?_naming, blueprint?]

theorem languages_naming : languages (history.filter Demand.isNaming) = languages history := by
  rw [languages, filterMap_definition?_naming, languages]

theorem mentionsOf_naming (demand : Demand) :
    mentionsOf (history.filter Demand.isNaming) demand = mentionsOf history demand := by
  cases demand with
  | definition language blueprint => rw [mentionsOf, mentionsOf, blueprint?_naming]
  | _ => rfl

theorem mentionsAfter_naming (demands : List Demand) :
    mentionsAfter (history.filter Demand.isNaming) (demands.filter Demand.isNaming) =
      mentionsAfter history demands := by
  induction demands generalizing history with
  | nil => rfl
  | cons demand rest ih =>
      have hRest := ih (history ++ [demand])
      rw [List.filter_append] at hRest
      cases demand with
      | token | definition =>
          exact congrArg₂ (· ++ ·) (mentionsOf_naming history _) hRest
      | ending | nothing =>
          rw [List.filter_cons_of_neg Bool.false_ne_true, List.filter_nil, List.append_nil] at hRest
          exact hRest

/-- The demands that are for no name can be left out of a history. -/
theorem mentions_naming : mentions (history.filter Demand.isNaming) = mentions history :=
  mentionsAfter_naming [] history

end Naming

end History

open History

namespace State

/-- Only a demand for names changes what is defined or interned. -/
theorem tables_meet (state : State) {demand : Demand} (hOther : demand.isNaming = false) :
    (state.meet demand).catalog.definitions = state.catalog.definitions ∧
      (state.meet demand).catalog.interned = state.catalog.interned := by
  cases demand with
  | token => cases hOther
  | definition => cases hOther
  | ending language =>
      unfold meet endToken
      dsimp only
      split
      · exact ⟨rfl, rfl⟩
      · exact ⟨rfl, rfl⟩
  | nothing => exact ⟨rfl, rfl⟩

/-- The defined languages are read off the history, as all the rest is. -/
theorem definedLanguages_meet (state : State) (history : List Demand) (demand : Demand)
    (hReads : state.catalog.Records history ∧ state.catalog.definedLanguages = languages history) :
    (state.meet demand).catalog.Records (history ++ [demand]) ∧
      (state.meet demand).catalog.definedLanguages = languages (history ++ [demand]) := by
  obtain ⟨hRecords, hLanguages⟩ := hReads
  refine ⟨records_meet state history demand hRecords, ?_⟩
  cases demand with
  | token mention =>
      have hSame := (definitions_intern state mention.symbol mention.name mention.owner
        mention.registered).1
      rw [meet, Catalog.definedLanguages, hSame, languages_append_of_not_definition rfl,
        ← hLanguages, Catalog.definedLanguages]
  | definition language blueprint =>
      rw [languages_append_definition, ← hRecords.isDefined_eq, ← hLanguages, meet]
      split
      · rw [List.append_nil]
      · simp only [establish, Outcome.andThen, state_publish, Catalog.definedLanguages,
          Catalog.addDefinition, (definitions_internAll _ _ _ _).1, List.map_cons,
          List.reverse_cons]
  | ending language =>
      have hSame := (state.tables_meet (rfl : (Demand.ending language).isNaming = false)).1
      rw [Catalog.definedLanguages, hSame, languages_append_of_not_definition rfl, ← hLanguages,
        Catalog.definedLanguages]
  | nothing =>
      rw [languages_append_of_not_definition rfl]
      exact hLanguages

/-- A lookup logs nothing and changes neither what is defined nor what is interned. -/
theorem take_lookup (state : State) {lookup : Call} (hLookup : lookup.looksUp = true) :
    (state.take lookup).events = [] ∧
      (state.take lookup).state.catalog.definitions = state.catalog.definitions ∧
      (state.take lookup).state.catalog.interned = state.catalog.interned := by
  refine ⟨?_, ?_⟩
  · cases lookup with
    | define => cases hLookup
    | defineChecked => cases hLookup
    | intern => cases hLookup
    | endToken language => exact events_endToken state language
    | token language symbol =>
        simp only [take, Outcome.map, token?]
        split
        · exact events_endToken state language
        · rfl
    | tokenSet language symbols => exact events_collect _ _ _ _ _
    | _ => rfl
  · rw [state_take]
    exact state.tables_meet (Call.isNaming_demand hLookup)

end State

namespace Catalog

/-- A catalogue without the ends of the input that another one has not. -/
def trimmedTo (catalog other : Catalog) : Catalog :=
  { catalog with ends := catalog.ends.filter fun entry => (other.end? entry.1).isSome }

theorem end?_trimmedTo (catalog other : Catalog) (language : Language) :
    (catalog.trimmedTo other).end? language =
      if (other.end? language).isSome then catalog.end? language else none :=
  lookup_filter_keys (fun language => (other.end? language).isSome) catalog.ends language

theorem tokenAt?_of_trimmedTo {catalog other : Catalog} {key : TokenKey} {token : TokenElement}
    (hToken : (catalog.trimmedTo other).tokenAt? key = some token) :
    catalog.tokenAt? key = some token := by
  cases key with
  | interned scope name => exact hToken
  | ending language =>
      rw [tokenAt?, end?_trimmedTo] at hToken
      exact (Option.ite_none_right_eq_some.mp hToken).2

/-- What is kept after the trimming is kept when both catalogues have grown. -/
theorem tokenAt?_trimmedTo_of_grown {catalog catalog' other other' : Catalog} {key : TokenKey}
    {token : TokenElement}
    (hKept : ∀ token, catalog.tokenAt? key = some token → catalog'.tokenAt? key = some token)
    (hOther : (other.tokenAt? key).isSome → (other'.tokenAt? key).isSome)
    (hToken : (catalog.trimmedTo other).tokenAt? key = some token) :
    (catalog'.trimmedTo other').tokenAt? key = some token := by
  cases key with
  | interned scope name => exact hKept token hToken
  | ending language =>
      rw [tokenAt?, end?_trimmedTo] at hToken ⊢
      obtain ⟨hAsked, hEnd⟩ := Option.ite_none_right_eq_some.mp hToken
      exact Option.ite_none_right_eq_some.mpr ⟨hOther hAsked, hKept token hEnd⟩

/-- A catalogue with a longer history records a shorter one once it is trimmed, if only demands for
the end of the input make the difference. -/
theorem Records.trimmedTo {catalog other : Catalog} {history earlier : List Demand}
    (hRecords : catalog.Records history) (hOther : other.Records earlier)
    (hNaming : history.filter Demand.isNaming = earlier.filter Demand.isNaming)
    (hEnds : ∀ language ∈ earlier.filterMap Demand.ending?,
      language ∈ history.filterMap Demand.ending?) :
    (catalog.trimmedTo other).Records earlier := by
  have hBlueprints : ∀ language, blueprint? earlier language = blueprint? history language := by
    intro language
    rw [← blueprint?_naming, ← hNaming, blueprint?_naming]
  refine ⟨?_, ?_, ?_, ?_⟩
  · rw [← mentions_naming, ← hNaming, mentions_naming]
    exact hRecords.interns
  · intro language blueprint hBlueprint
    rw [hBlueprints] at hBlueprint
    obtain ⟨definition, hDefinition, hRealizes⟩ := hRecords.realizes hBlueprint
    exact ⟨definition, hDefinition, hRealizes.mono fun _ _ hToken => hToken⟩
  · intro language hBlueprint
    rw [hBlueprints] at hBlueprint
    exact hRecords.undefined hBlueprint
  · intro language
    rw [end?_trimmedTo, ← hOther.ends]
    cases hAsked : (other.end? language).isSome with
    | true => simpa using (hRecords.ends language).mpr (hEnds _ ((hOther.ends language).mp hAsked))
    | false => simp

/-- A catalogue that corresponds once it is trimmed corresponds on every language. -/
theorem Corresponds.on_of_trimmedTo {translation : Translation} {first second other : Catalog}
    (hCorresponds : first.Corresponds translation (second.trimmedTo other)) (language : Language) :
    first.CorrespondsOn translation language second := by
  refine ⟨hCorresponds.isDefined language, hCorresponds.tokens language,
    hCorresponds.rules language, hCorresponds.tokenNames language,
    hCorresponds.ruleNames language, hCorresponds.interned language.scope, ?_⟩
  intro token hToken
  have hEnd := hCorresponds.ends language
  rw [hToken, Option.map_some] at hEnd
  exact @tokenAt?_of_trimmedTo _ _ (.ending language) _ hEnd

end Catalog

end GrammarCatalog
