import GrammarCatalog.Proofs.History

/-! Similar histories. Demands that come in another order may bring other mentions to the front, but
as long as the definitions of a language agree, the blueprints in effect, the names that are
mentioned and the ends that are asked for are the same. Catalogues with similar histories are filled
alike. -/
namespace GrammarCatalog

namespace History

theorem mem_of_blueprint? {history : List Demand} {language : Language} {blueprint : Blueprint}
    (hBlueprint : blueprint? history language = some blueprint) :
    .definition language blueprint ∈ history := by
  induction history with
  | nil => cases hBlueprint
  | cons demand rest ih =>
      rw [blueprint?_cons] at hBlueprint
      cases hFirst : blueprint? [demand] language with
      | none =>
          rw [hFirst, Option.none_or] at hBlueprint
          exact List.mem_cons_of_mem _ (ih hBlueprint)
      | some first =>
          rw [hFirst, Option.some_or] at hBlueprint
          cases hBlueprint
          cases demand with
          | definition other added =>
              rw [blueprint?_definition] at hFirst
              split at hFirst
              · next hOther =>
                cases hFirst
                rw [hOther]
                exact List.mem_cons_self
              · cases hFirst
          | _ => cases hFirst

theorem isSome_blueprint?_of_mem {history : List Demand} {language : Language}
    {blueprint : Blueprint} (hDemand : .definition language blueprint ∈ history) :
    (blueprint? history language).isSome := by
  induction history with
  | nil => cases hDemand
  | cons demand rest ih =>
      rw [blueprint?_cons, Option.isSome_or]
      rcases List.mem_cons.mp hDemand with hFirst | hRest
      · rw [← hFirst, blueprint?_definition, if_pos rfl]
        rfl
      · rw [ih hRest, Bool.or_true]

/-- Which of several definitions of a language comes first does not matter when they agree. -/
theorem blueprint?_eq_of_agree {demands demands' : List Demand} {language : Language}
    (hSame : ∀ demand, demand ∈ demands ↔ demand ∈ demands')
    (hAgree : ∀ blueprint blueprint', .definition language blueprint ∈ demands →
      .definition language blueprint' ∈ demands → blueprint = blueprint') :
    blueprint? demands language = blueprint? demands' language := by
  cases hFirst : blueprint? demands language with
  | none =>
      cases hSecond : blueprint? demands' language with
      | none => rfl
      | some blueprint =>
          have hDemand := (hSame _).mpr (mem_of_blueprint? hSecond)
          have hIsSome := isSome_blueprint?_of_mem hDemand
          rw [hFirst] at hIsSome
          cases hIsSome
  | some blueprint =>
      have hDemand := mem_of_blueprint? hFirst
      obtain ⟨blueprint', hSecond⟩ :=
        Option.isSome_iff_exists.mp (isSome_blueprint?_of_mem ((hSame _).mp hDemand))
      have hDemand' := (hSame _).mpr (mem_of_blueprint? hSecond)
      rw [hSecond, hAgree blueprint blueprint' hDemand hDemand']

/-- The mention of a name that comes first after some demands comes first within one demand, read as
if that demand were the next one. -/
theorem exists_first?_of_mentionsAfter (earlier past demands : List Demand) {scope : Language}
    {name : String} {mention : Mention}
    (hFirst : first? (mentionsAfter (earlier ++ past) demands) scope name = some mention) :
    ∃ demand ∈ demands, first? (mentionsOf earlier demand) scope name = some mention := by
  induction demands generalizing past with
  | nil => cases hFirst
  | cons demand rest ih =>
      rw [mentionsAfter, first?_append] at hFirst
      cases hHead : first? (mentionsOf (earlier ++ past) demand) scope name with
      | none =>
          rw [hHead, Option.none_or, List.append_assoc] at hFirst
          obtain ⟨other, hOther, hMention⟩ := ih _ hFirst
          exact ⟨other, List.mem_cons_of_mem _ hOther, hMention⟩
      | some head =>
          rw [hHead, Option.some_or] at hFirst
          cases hFirst
          refine ⟨demand, List.mem_cons_self, ?_⟩
          cases demand with
          | definition language blueprint =>
              rw [mentionsOf, blueprint?_append, Option.isSome_or] at hHead
              rw [mentionsOf]
              cases hDefined : (blueprint? earlier language).isSome with
              | true =>
                  rw [hDefined] at hHead
                  cases hHead
              | false =>
                  rw [hDefined, Bool.false_or] at hHead
                  split at hHead
                  · cases hHead
                  · exact hHead
          | _ => exact hHead

/-- Histories that fill a catalogue alike. -/
structure Similar (history history' : List Demand) : Prop where
  blueprints : ∀ language, blueprint? history language = blueprint? history' language
  mentioned : ∀ mention, mention ∈ mentions history ↔ mention ∈ mentions history'
  ends : ∀ language, language ∈ history.filterMap Demand.ending? ↔
    language ∈ history'.filterMap Demand.ending?

theorem Similar.refl (history : List Demand) : Similar history history :=
  ⟨fun _ => rfl, fun _ => Iff.rfl, fun _ => Iff.rfl⟩

/-- The order of further demands leaves the histories similar when the demands agree on every
language that is not yet defined. -/
theorem similar_append (history : List Demand) {demands demands' : List Demand}
    (hSame : ∀ demand, demand ∈ demands ↔ demand ∈ demands')
    (hAgree : ∀ language, blueprint? history language = none → ∀ blueprint blueprint',
      .definition language blueprint ∈ demands → .definition language blueprint' ∈ demands →
        blueprint = blueprint') :
    Similar (history ++ demands) (history ++ demands') := by
  have hBlueprints : ∀ language, blueprint? history language = none →
      blueprint? demands language = blueprint? demands' language := fun language hNew =>
    blueprint?_eq_of_agree hSame (hAgree language hNew)
  refine ⟨?_, ?_, ?_⟩
  · intro language
    rw [blueprint?_append, blueprint?_append]
    cases hBefore : blueprint? history language with
    | some blueprint => rfl
    | none => rw [hBlueprints language hBefore]
  · intro mention
    have hNew : (∃ language blueprint, blueprint? history language = none ∧
        blueprint? demands language = some blueprint ∧ mention ∈ blueprint.mentions language) ↔
        ∃ language blueprint, blueprint? history language = none ∧
          blueprint? demands' language = some blueprint ∧
          mention ∈ blueprint.mentions language := by
      apply exists_congr
      intro language
      apply exists_congr
      intro blueprint
      apply and_congr_right
      intro hBefore
      rw [hBlueprints language hBefore]
    rw [mentions_append, mentions_append, List.mem_append, List.mem_append, mem_mentionsAfter,
      mem_mentionsAfter, hSame, hNew]
  · intro language
    simp only [List.filterMap_append, List.mem_append, List.mem_filterMap, hSame]

end History

open History

namespace Catalog

section Records

variable {catalog : Catalog} {history : List Demand}

/-- What a catalogue shows of a language is read off the blueprint in effect. -/
theorem Records.map_definition? {α : Type} (hRecords : catalog.Records history)
    (language : Language) (read : Definition → α) (say : Blueprint → α)
    (hSays : ∀ blueprint definition, catalog.Realizes language blueprint definition →
      read definition = say blueprint) :
    (catalog.definition? language).map read = (blueprint? history language).map say := by
  cases hBlueprint : blueprint? history language with
  | none =>
      rw [hRecords.undefined hBlueprint]
      rfl
  | some blueprint =>
      obtain ⟨definition, hDefinition, hRealizes⟩ := hRecords.realizes hBlueprint
      rw [hDefinition]
      exact congrArg some (hSays blueprint definition hRealizes)

theorem Records.tokenNames?_eq (hRecords : catalog.Records history) (language : Language) :
    catalog.tokenNames? language =
      (blueprint? history language).map fun blueprint => .ofNamed blueprint.names :=
  hRecords.map_definition? language _ _ fun _ _ hRealizes => hRealizes.symbolOf

theorem Records.ruleNames?_eq (hRecords : catalog.Records history) (language : Language) :
    catalog.ruleNames? language = (blueprint? history language).map fun blueprint =>
      .ofNamed (Naming.numberedRules blueprint.rules) :=
  hRecords.map_definition? language _ _ fun _ _ hRealizes => hRealizes.ruleOf

theorem Records.map_some_tokens (hRecords : catalog.Records history) (language : Language) :
    (catalog.tokens language).map some = ((blueprint? history language).map fun blueprint =>
      blueprint.names.map fun named => catalog.interned? language.scope named.2).getD [] := by
  rw [← hRecords.map_definition? language (fun definition => definition.tokens.content.map some) _
    fun _ _ hRealizes => hRealizes.tokens]
  unfold tokens
  cases catalog.definition? language with
  | none => rfl
  | some definition => rfl

theorem Records.map_shown_rules (hRecords : catalog.Records history) (language : Language) :
    (catalog.rules language).map RuleElement.shown =
      ((blueprint? history language).map fun blueprint =>
        (Naming.numberedRules blueprint.rules).map fun (rule, name) =>
          (rule, name, language, blueprint.registered)).getD [] := by
  rw [← hRecords.map_definition? language
    (fun definition => definition.rules.content.map RuleElement.shown) _
    fun _ _ hRealizes => hRealizes.rules]
  unfold rules
  cases catalog.definition? language with
  | none => rfl
  | some definition => rfl

end Records

section Similar

variable {first second : Catalog} {history history' : List Demand}

/-- Catalogues with similar histories have tokens under the same keys. -/
theorem Records.isSome_tokenAt?_eq (hFirst : first.Records history)
    (hSecond : second.Records history') (hSimilar : Similar history history') (key : TokenKey) :
    (first.tokenAt? key).isSome = (second.tokenAt? key).isSome := by
  rw [Bool.eq_iff_iff]
  cases key with
  | interned scope name =>
      simp only [tokenAt?, hFirst.isSome_interned?, hSecond.isSome_interned?, hSimilar.mentioned]
  | ending language =>
      simp only [tokenAt?, hFirst.ends, hSecond.ends, hSimilar.ends]

/-- The rules of catalogues with similar histories show the same. -/
theorem Records.map_shown_ruleAt? (hFirst : first.Records history)
    (hSecond : second.Records history') (hSimilar : Similar history history')
    (key : Language × Nat) :
    (first.ruleAt? key).map RuleElement.shown = (second.ruleAt? key).map RuleElement.shown := by
  have hRules : (first.rules key.1).map RuleElement.shown =
      (second.rules key.1).map RuleElement.shown := by
    rw [hFirst.map_shown_rules, hSecond.map_shown_rules, hSimilar.blueprints]
  have hAt := congrArg (·[key.2]?) hRules
  simp only [List.getElem?_map] at hAt
  exact hAt

theorem Records.isSome_ruleAt?_eq (hFirst : first.Records history)
    (hSecond : second.Records history') (hSimilar : Similar history history')
    (key : Language × Nat) : (first.ruleAt? key).isSome = (second.ruleAt? key).isSome := by
  have hIsSome := congrArg Option.isSome (hFirst.map_shown_ruleAt? hSecond hSimilar key)
  rw [Option.isSome_map, Option.isSome_map] at hIsSome
  exact hIsSome

end Similar

end Catalog

end GrammarCatalog
