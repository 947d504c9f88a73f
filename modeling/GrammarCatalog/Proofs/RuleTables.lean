import GrammarCatalog.Proofs.FirstBearers
import GrammarCatalog.Proofs.Grammars
import GrammarCatalog.Proofs.Inverses

/-! Rule tables. The rules of a language are made for it alone, one for each rule that its grammar
names. No two of them are one instance, in whatever lists they stand, so of several rules with one
name only the first is found by the name. -/
namespace GrammarCatalog

namespace Catalog

/-- A catalogue has the rules of a grammar. The list has one entry for each of them, which shows its
number, its name and its language. A number leads to the entry at its place, and a name to the first
entry that bears it and to no other. -/
structure HasRules (catalog : Catalog) (language : Language) (grammar : Grammar) : Prop where
  count : (catalog.rules language).length = grammar.rules.length
  entries : ∀ (place : Nat) rule, (catalog.rules language)[place]? = some rule →
    rule.rule.position = place ∧ grammar.rules[place]? = some rule.name ∧
      rule.owner = language ∧ rule.registered = grammar.registered
  byNumber : ∀ number : RuleNumber,
    (number.position < grammar.rules.length → ∃ rule, catalog.rule? language number = some rule ∧
      (catalog.rules language)[number.position]? = some rule) ∧
    (grammar.rules.length ≤ number.position → catalog.rule? language number = none)
  names : ∃ index, catalog.ruleNames? language = some index ∧
    index.LeadsToFirst grammar.rules RuleNumber.atPosition
  byName : ∀ name place, IsLeast {place : Nat | grammar.rules[place]? = some name} place →
    ∃ rule, catalog.ruleByName? language name = some rule ∧
      (catalog.rules language)[place]? = some rule ∧
      ∀ (other : Nat) rule', (catalog.rules language)[other]? = some rule' → other ≠ place →
        rule' ≠ rule
  otherNames : ∀ name, name ∉ grammar.rules → catalog.ruleByName? language name = none

variable {catalog : Catalog} {language : Language} {grammar : Grammar} {definition : Definition}
  (hDefinition : catalog.definition? language = some definition)
  (hRealizes : catalog.Realizes language grammar.blueprint definition)

include hDefinition hRealizes

theorem length_rules : (catalog.rules language).length = grammar.rules.length := by
  rw [(tables_of_definition? hDefinition).2.1]
  exact hRealizes.length_rules

/-- An entry shows what the grammar says of the rule at its place. -/
theorem map_shown_getElem?_rules (place : Nat) :
    ((catalog.rules language)[place]?).map RuleElement.shown =
      grammar.rules[place]?.map fun name =>
        (.atPosition place, name, language, grammar.registered) := by
  have hShown := congrArg (·[place]?) hRealizes.rules
  rw [(tables_of_definition? hDefinition).2.1]
  simp only [List.getElem?_map, Naming.getElem?_numberedRules, Option.map_map] at hShown
  exact hShown

theorem exists_ruleNames : ∃ index, catalog.ruleNames? language = some index ∧
    index.LeadsToFirst grammar.rules RuleNumber.atPosition := by
  refine ⟨definition.ruleOf.content, (tables_of_definition? hDefinition).2.2.2, ?_⟩
  rw [hRealizes.ruleOf]
  exact NameIndex.leadsToFirst_ofNamed (Naming.getElem?_numberedRules grammar.rules)

theorem ruleByName?_eq_none {name : String} (hOther : name ∉ grammar.rules) :
    catalog.ruleByName? language name = none := by
  obtain ⟨index, hIndex, hLeads⟩ := exists_ruleNames hDefinition hRealizes
  calc
    catalog.ruleByName? language name = (index.find? name).bind (catalog.rule? language) := by
      rw [ruleByName?, hIndex]
      rfl
    _ = none := by rw [hLeads.find?_eq_none hOther, Option.bind_none]

section Numbered

variable (hRules : grammar.rules.length < RuleNumber.places)

include hRules

theorem lt_ruleNumber_places {place : Nat} {rule : RuleElement}
    (hEntry : (catalog.rules language)[place]? = some rule) : place < RuleNumber.places := by
  have hBound := (List.getElem?_eq_some_iff.mp hEntry).1
  rw [length_rules hDefinition hRealizes] at hBound
  exact Nat.lt_trans hBound hRules

/-- A name leads to the entry at its first place. -/
theorem ruleByName?_of_isLeast {name : String} {place : Nat}
    (hFirst : IsLeast {place : Nat | grammar.rules[place]? = some name} place) :
    catalog.ruleByName? language name = (catalog.rules language)[place]? := by
  obtain ⟨index, hIndex, hLeads⟩ := exists_ruleNames hDefinition hRealizes
  have hBound := (List.getElem?_eq_some_iff.mp hFirst.1).1
  calc
    catalog.ruleByName? language name = (index.find? name).bind (catalog.rule? language) := by
      rw [ruleByName?, hIndex]
      rfl
    _ = catalog.rule? language (.atPosition place) := by
      rw [hLeads.least name place hFirst, Option.bind_some]
    _ = (catalog.rules language)[place]? := by
      rw [rule?, RuleNumber.position_atPosition place (Nat.lt_trans hBound hRules)]

/-- The tables of a language have the rules of its grammar, provided that its entries are apart. -/
theorem hasRules_of_realizes
    (hApart : ∀ (place place' : Nat) rule, (catalog.rules language)[place]? = some rule →
      (catalog.rules language)[place']? = some rule → place = place') :
    catalog.HasRules language grammar := by
  have hCount := length_rules hDefinition hRealizes
  refine ⟨hCount, ?_, ?_, exists_ruleNames hDefinition hRealizes, ?_, ?_⟩
  · intro place rule hEntry
    have hPlace := lt_ruleNumber_places hDefinition hRealizes hRules hEntry
    have hShown := map_shown_getElem?_rules hDefinition hRealizes place
    rw [hEntry, Option.map_some, eq_comm, Option.map_eq_some_iff] at hShown
    obtain ⟨name, hName, hSame⟩ := hShown
    simp only [RuleElement.shown, Prod.mk.injEq] at hSame
    obtain ⟨hNumber, rfl, hOwner, hRegistered⟩ := hSame
    refine ⟨?_, hName, hOwner.symm, hRegistered.symm⟩
    rw [← hNumber, RuleNumber.position_atPosition place hPlace]
  · intro number
    constructor
    · intro hBound
      rw [← hCount] at hBound
      exact ⟨_, List.getElem?_eq_getElem hBound, List.getElem?_eq_getElem hBound⟩
    · intro hBeyond
      rw [← hCount] at hBeyond
      exact List.getElem?_eq_none hBeyond
  · intro name place hFirst
    have hBound := (List.getElem?_eq_some_iff.mp hFirst.1).1
    rw [← hCount] at hBound
    have hEntry := List.getElem?_eq_getElem hBound
    have hFound := ruleByName?_of_isLeast hDefinition hRealizes hRules hFirst
    refine ⟨_, hFound.trans hEntry, hEntry, ?_⟩
    rintro other rule' hOther hNe rfl
    exact hNe (hApart other place _ hOther hEntry)
  · intro name hOther
    exact ruleByName?_eq_none hDefinition hRealizes hOther

end Numbered

end Catalog

namespace World

/-- Rule tables are exact. Once a language is defined it has the rules of the grammar that counts for
it, always the same ones. No rule stands in two places, be they in one list, in those of two
languages or in two catalogues. Where a language is not defined, no name leads to a rule. -/
theorem rule_tables_are_exact (moves : List Move) :
    (∀ number language, ((after moves).catalogs number).isDefined language = true →
      ∃ grammar, grammar? moves number language = some grammar ∧
        (grammar.rules.length < RuleNumber.places → ∀ later,
          ((after (moves ++ later)).catalogs number).HasRules language grammar ∧
          ((after (moves ++ later)).catalogs number).rules language =
            ((after moves).catalogs number).rules language)) ∧
    (∀ (key key' : Nat × Language × Nat) rule rule', (after moves).ruleAt? key = some rule →
      (after moves).ruleAt? key' = some rule' → (rule.serial = rule'.serial ↔ key = key')) ∧
    (∀ number language, ((after moves).catalogs number).isDefined language = false →
      ∀ name, ((after moves).catalogs number).ruleByName? language name = none) := by
  refine ⟨?_, ?_, ?_⟩
  · intro number language hDefined
    rw [isDefined_after] at hDefined
    obtain ⟨grammar, hGrammar⟩ := Option.isSome_iff_exists.mp hDefined
    refine ⟨grammar, hGrammar, ?_⟩
    intro hRules later
    obtain ⟨definition, hDefinition, hRealizes⟩ :=
      realizes_grammar (grammar?_append_of_some hGrammar later)
    have hSame := definition?_append_of_grammar hGrammar later
    refine ⟨Catalog.hasRules_of_realizes hDefinition hRealizes hRules ?_,
      (Catalog.tables_eq hSame).2.2.1⟩
    intro place place' rule hEntry hEntry'
    have hKey := (sound_after (moves ++ later)).ruleKey_eq (number, language, place)
      (number, language, place') rule hEntry hEntry'
    exact congrArg (fun key => key.2.2) hKey
  · intro key key' rule rule' hRule hRule'
    constructor
    · intro hSerial
      have hFirst : (after moves).ruleSerial? key = some rule.serial :=
        congrArg (Option.map RuleElement.serial) hRule
      have hSecond : (after moves).ruleSerial? key' = some rule.serial := by
        rw [hSerial]
        exact congrArg (Option.map RuleElement.serial) hRule'
      exact (sound_after moves).rules.apart hFirst hSecond
    · rintro rfl
      rw [Option.some.inj (hRule.symm.trans hRule')]
  · intro number language hUndefined name
    have hDefinition := State.definition?_of_not_isDefined (Bool.eq_false_iff.mp hUndefined)
    rw [Catalog.ruleByName?, Catalog.ruleNames?, hDefinition]
    rfl

/-- A base has two rules of one name. Its dialect and another catalogue have a rule of that name as
well, and neither a definition that comes too late nor a later one that is checked replaces
anything. The name leads to the first of the two rules. -/
theorem rule_tables_are_exact_of_repeated_name :
    let base := Language.root 1 "base"
    let dialect := Language.dialect 2 "dialect" base
    let vocabulary := Vocabulary.ofNames ⟨-1⟩ []
    let moves : List Move :=
      [.call 0 (.define base vocabulary ["r", "s", "r"] true),
        .call 0 (.define dialect vocabulary ["r"] false),
        .call 1 (.define base vocabulary ["r"] false),
        .call 0 (.define base vocabulary ["t"] false)]
    let later : List Move := [.call 0 (.defineChecked base vocabulary ["q"] false)]
    let catalog := (after (moves ++ later)).catalogs 0
    (∃ first last, catalog.ruleByName? base "r" = some first ∧
      catalog.rule? base ⟨2⟩ = some last ∧ last.name = "r" ∧ last.registered = true ∧
      last ≠ first) ∧
    catalog.rule? base ⟨3⟩ = none ∧ catalog.ruleByName? base "t" = none ∧
    (∃ own other, (after moves).ruleAt? (0, dialect, 0) = some own ∧
      (after moves).ruleAt? (1, base, 0) = some other ∧ own.serial ≠ other.serial) ∧
    ((after moves).catalogs 1).ruleByName? dialect "r" = none := by
  intro base dialect vocabulary moves later catalog
  obtain ⟨hTables, hApart, hUndefined⟩ := rule_tables_are_exact moves
  obtain ⟨grammar, hGrammar, hRules⟩ := hTables 0 base (isDefined_after moves 0 base)
  obtain rfl : ⟨vocabulary, ["r", "s", "r"], true⟩ = grammar := Option.some.inj hGrammar
  obtain ⟨hHas, _⟩ := hRules (by decide) later
  have hFirst : IsLeast {place : Nat | ["r", "s", "r"][place]? = some "r"} 0 :=
    ⟨rfl, fun place _ => Nat.zero_le place⟩
  obtain ⟨first, hName, _, hOthers⟩ := hHas.byName "r" 0 hFirst
  obtain ⟨last, hLast, hEntry⟩ := (hHas.byNumber ⟨2⟩).1 (by decide)
  obtain ⟨_, hLastName, _, hRegistered⟩ := hHas.entries 2 last hEntry
  refine ⟨⟨first, last, hName, hLast, (Option.some.inj hLastName).symm, hRegistered,
    hOthers 2 last hEntry (by decide)⟩, (hHas.byNumber ⟨3⟩).2 (by decide),
    hHas.otherNames "t" (by decide), ?_, hUndefined 1 dialect rfl "r"⟩
  refine ⟨_, _, rfl, rfl, fun hSerial => ?_⟩
  have hKeys := (hApart (0, dialect, 0) (1, base, 0) _ _ rfl rfl).mp hSerial
  cases hKeys

end World

end GrammarCatalog
