import GrammarCatalog.Proofs.CheckedDefinitions
import GrammarCatalog.Proofs.History

/-! Names that lead back. The index of a language sends a name to the first symbol that bears it,
and the list sends the symbol to its token, which may have been made long before for another
language of the scope. The two undo one another exactly when the names are fit for use. The same
holds of the rules. -/
namespace GrammarCatalog

namespace NameIndex

variable {α : Type} {named : List (α × String)}

/-- Where no name is given twice, every entry is the first one of its name. -/
theorem firsts_of_nodup (hNodup : (named.map Prod.snd).Nodup) :
    firsts named = named.map Prod.swap := by
  induction named with
  | nil => rfl
  | cons entry rest ih =>
      obtain ⟨bearer, name⟩ := entry
      obtain ⟨hNew, hRest⟩ := List.nodup_cons.mp hNodup
      rw [firsts, ih hRest, List.map_cons, List.filter_eq_self.mpr]
      · rfl
      · intro other hOther
        obtain ⟨source, hSource, rfl⟩ := List.mem_map.mp hOther
        have hName : source.2 ≠ name := fun hEqual =>
          hNew (List.mem_map.mpr ⟨source, hSource, hEqual⟩)
        simpa using hName

theorem find?_ofNamed_eq_some_iff (hNodup : (named.map Prod.snd).Nodup) (name : String)
    (bearer : α) : (ofNamed named).find? name = some bearer ↔ (bearer, name) ∈ named := by
  rw [find?_ofNamed]
  constructor
  · intro hFind
    obtain ⟨entry, hEntry, rfl⟩ := Option.map_eq_some_iff.mp hFind
    obtain rfl : entry.2 = name := by simpa using List.find?_some hEntry
    exact List.mem_of_find?_eq_some hEntry
  · intro hMember
    have hSome : (named.find? (·.2 == name)).isSome :=
      List.find?_isSome.mpr ⟨_, hMember, beq_self_eq_true name⟩
    obtain ⟨entry, hEntry⟩ := Option.isSome_iff_exists.mp hSome
    have hName : entry.2 = name := by simpa using List.find?_some hEntry
    rw [hEntry, List.inj_on_of_nodup_map hNodup (List.mem_of_find?_eq_some hEntry) hMember hName]
    rfl

section Numbered

variable {β : Type} {elements : List β} {nameOf : β → String} {number : Nat → α}
  (hNumbered : ∀ place : Nat,
    named[place]? = elements[place]?.map fun element => (number place, nameOf element))

include hNumbered

theorem map_snd_of_numbered : named.map Prod.snd = elements.map nameOf := by
  apply List.ext_getElem?
  intro place
  rw [List.getElem?_map, List.getElem?_map, hNumbered, Option.map_map]
  rfl

/-- The index of numbered elements has an entry for each of them and leads from the name of each
back to its number exactly when no name is given twice. -/
theorem leads_back_iff_nodup (hOnce : ∀ place place' : Nat, place < elements.length →
      place' < elements.length → number place = number place' → place = place') :
    ((ofNamed named).entries.length = elements.length ∧ ∀ place : Nat, ∀ element,
      elements[place]? = some element →
        (ofNamed named).find? (nameOf element) = some (number place)) ↔
      (elements.map nameOf).Nodup := by
  have hNames := map_snd_of_numbered hNumbered
  have hLength : named.length = elements.length := by
    rw [← List.length_map (f := Prod.snd), hNames, List.length_map]
  constructor
  · rintro ⟨_, hBack⟩
    apply List.nodup_iff_getElem?_ne_getElem?.mpr
    intro place place' hLess hBound hSame
    rw [List.length_map] at hBound
    have hElement := List.getElem?_eq_getElem (Nat.lt_trans hLess hBound)
    have hElement' := List.getElem?_eq_getElem hBound
    rw [List.getElem?_map, List.getElem?_map, hElement, hElement', Option.map_some,
      Option.map_some, Option.some.injEq] at hSame
    have hNumber := hBack place _ hElement
    rw [hSame, hBack place' _ hElement', Option.some.injEq] at hNumber
    have hPlace := hOnce place' place hBound (Nat.lt_trans hLess hBound) hNumber
    omega
  · intro hNodup
    rw [← hNames] at hNodup
    constructor
    · rw [ofNamed, firsts_of_nodup hNodup, List.length_map, hLength]
    · intro place element hElement
      rw [find?_ofNamed_eq_some_iff hNodup]
      apply List.mem_of_getElem? (i := place)
      rw [hNumbered, hElement, Option.map_some]

/-- Where no name is given twice, the index leads to exactly the number of the element that bears
the name. -/
theorem find?_eq_some_iff_of_nodup (hNodup : (elements.map nameOf).Nodup) (name : String)
    (bearer : α) : (ofNamed named).find? name = some bearer ↔
      ∃ element, (∃ place : Nat, elements[place]? = some element ∧ number place = bearer) ∧
        nameOf element = name := by
  rw [← map_snd_of_numbered hNumbered] at hNodup
  rw [find?_ofNamed_eq_some_iff hNodup, List.mem_iff_getElem?]
  simp only [hNumbered, Option.map_eq_some_iff, Prod.mk.injEq]
  constructor
  · rintro ⟨place, element, hElement, hBearer, hName⟩
    exact ⟨element, ⟨place, hElement, hBearer⟩, hName⟩
  · rintro ⟨element, ⟨place, hElement, hBearer⟩, hName⟩
    exact ⟨place, element, hElement, hBearer, hName⟩

end Numbered

end NameIndex

namespace Vocabulary

variable (vocabulary : Vocabulary)

theorem map_snd_names :
    vocabulary.names.map Prod.snd = vocabulary.lastSymbol.upTo.map vocabulary.nameOf := by
  rw [names, List.map_map]
  rfl

theorem getElem?_names (place : Nat) :
    vocabulary.names[place]? = (vocabulary.names.map Prod.snd)[place]?.map fun name =>
      (.atPosition place, name) := by
  rw [map_snd_names, names, List.getElem?_map, List.getElem?_map, Symbol.getElem?_upTo]
  split
  · rfl
  · rfl

/-- Where every symbol has a display name, the names are given once each exactly when the display
names tell the symbols apart. -/
theorem nodup_names_iff
    (hNamed : ∀ symbol, vocabulary.InRange symbol → (vocabulary.displayName symbol).isSome) :
    (vocabulary.names.map Prod.snd).Nodup ↔
      ∀ symbol other, vocabulary.InRange symbol → vocabulary.InRange other →
        vocabulary.displayName symbol = vocabulary.displayName other → symbol = other := by
  have hNodup : vocabulary.lastSymbol.upTo.Nodup := by
    apply (List.nodup_map_iff_inj_on List.nodup_range).mpr
    intro place hPlace other hOther hEqual
    exact Symbol.atPosition_inj (Symbol.lt_places_of_lt_countTo (List.mem_range.mp hPlace))
      (Symbol.lt_places_of_lt_countTo (List.mem_range.mp hOther)) hEqual
  rw [map_snd_names, List.nodup_map_iff_inj_on hNodup]
  simp only [Symbol.mem_upTo]
  constructor
  · intro hApart symbol other hSymbol hOther hSame
    rw [displayName_eq_some_nameOf (hNamed symbol hSymbol),
      displayName_eq_some_nameOf (hNamed other hOther), Option.some.injEq] at hSame
    exact hApart symbol hSymbol other hOther hSame
  · intro hApart symbol hSymbol other hOther hSame
    apply hApart symbol other hSymbol hOther
    rw [displayName_eq_some_nameOf (hNamed symbol hSymbol),
      displayName_eq_some_nameOf (hNamed other hOther), hSame]

end Vocabulary

namespace Catalog

/-- Every name leads back. The index of the token names has an entry for each symbol, as the list of
the tokens has, and sends the name of each listed token to the symbol where it is listed. No
instance is listed twice. The index of the rule names has an entry for each rule and sends the name
of each rule to its number. -/
structure LeadsBack (catalog : Catalog) (language : Language) (last : Symbol) (ruleCount : Nat) :
    Prop where
  tokenNames : ∃ index, catalog.tokenNames? language = some index ∧
    (index.entries.length : Int) = last.number.toInt + 1 ∧
    (catalog.tokens language).length = index.entries.length ∧
    ∀ place : Nat, ∀ token, (catalog.tokens language)[place]? = some token →
      index.find? token.name = some (.atPosition place)
  tokensApart : ((catalog.tokens language).map TokenElement.serial).Nodup
  ruleNames : ∃ index, catalog.ruleNames? language = some index ∧
    index.entries.length = ruleCount ∧
    (catalog.rules language).length = index.entries.length ∧
    ∀ place : Nat, ∀ rule, (catalog.rules language)[place]? = some rule →
      index.find? rule.name = some (.atPosition place)

/-- Names and elements undo one another: the index sends a name to exactly the symbol whose listed
token bears it, and to exactly the number of the rule that bears it. -/
structure MutuallyInverse (catalog : Catalog) (language : Language) : Prop where
  tokens : ∀ name symbol,
    (catalog.tokenNames? language).bind (·.find? name) = some symbol ↔
      ∃ token, catalog.listedToken? language symbol = some token ∧ token.name = name
  rules : ∀ name number,
    (catalog.ruleNames? language).bind (·.find? name) = some number ↔
      ∃ rule, catalog.rule? language number = some rule ∧ rule.name = name

variable {catalog : Catalog} {language : Language}

/-- A token is listed for the symbol that has its place. -/
theorem listedToken?_eq_some_iff_getElem? {symbol : Symbol} {token : TokenElement}
    (hLength : (catalog.tokens language).length ≤ Symbol.places) :
    catalog.listedToken? language symbol = some token ↔
      ∃ place : Nat, (catalog.tokens language)[place]? = some token ∧
        Symbol.atPosition place = symbol := by
  rw [listedToken?, Option.bind_eq_some_iff]
  constructor
  · rintro ⟨place, hPlace, hToken⟩
    exact ⟨place, hToken, (Symbol.atPosition_of_position? hPlace).symm⟩
  · rintro ⟨place, hToken, rfl⟩
    have hPlace := (List.getElem?_eq_some_iff.mp hToken).1
    exact ⟨place, Symbol.position?_atPosition place (Nat.lt_of_lt_of_le hPlace hLength), hToken⟩

/-- A rule has the number of its place. -/
theorem rule?_eq_some_iff_getElem? {number : RuleNumber} {rule : RuleElement}
    (hLength : (catalog.rules language).length < RuleNumber.places) :
    catalog.rule? language number = some rule ↔
      ∃ place : Nat, (catalog.rules language)[place]? = some rule ∧
        RuleNumber.atPosition place = number := by
  constructor
  · intro hRule
    exact ⟨number.position, hRule, number.atPosition_position⟩
  · rintro ⟨place, hRule, rfl⟩
    have hPlace := (List.getElem?_eq_some_iff.mp hRule).1
    rw [rule?, RuleNumber.position_atPosition place (Nat.lt_trans hPlace hLength)]
    exact hRule

section Realizes

variable {blueprint : Blueprint} {definition : Definition}
  (hRealizes : catalog.Realizes language blueprint definition)

include hRealizes

/-- The listed tokens bear the names that their language is defined with. -/
theorem Realizes.map_name_getElem?_tokens (hSound : catalog.Sound) (place : Nat) :
    (definition.tokens.content[place]?).map TokenElement.name =
      (blueprint.names[place]?).map Prod.snd := by
  have hLength := congrArg List.length hRealizes.tokens
  rw [List.length_map, List.length_map] at hLength
  cases hName : blueprint.names[place]? with
  | none =>
      rw [List.getElem?_eq_none_iff, ← hLength, ← List.getElem?_eq_none_iff] at hName
      rw [hName]
      rfl
  | some named =>
      obtain ⟨token, hSlot, hToken⟩ := hRealizes.getElem?_tokens hName
      have hFits := hSound.fits (.interned language.scope named.2) hToken
      rw [hSlot, Option.map_some, Option.map_some, hFits.1]

theorem Realizes.map_name_rules :
    definition.rules.content.map RuleElement.name = blueprint.rules := by
  have hNames := congrArg (List.map fun shown => shown.2.1) hRealizes.rules
  rw [List.map_map, List.map_map] at hNames
  exact hNames.trans (Naming.map_snd_numberedRules blueprint.rules)

end Realizes

section Defined

variable {vocabulary : Vocabulary} {rules : List String} {registered : Bool}
  {definition : Definition}

variable (hRealizes : catalog.Realizes language ⟨vocabulary.names, rules, registered⟩ definition)

include hRealizes

/-- Every symbol is numbered by the place of its token in the list, under the name of that token. -/
theorem Realizes.getElem?_names (hSound : catalog.Sound) (place : Nat) :
    vocabulary.names[place]? = definition.tokens.content[place]?.map fun token =>
      (Symbol.atPosition place, token.name) := by
  have hNames := hRealizes.map_name_getElem?_tokens hSound place
  rw [vocabulary.getElem?_names, List.getElem?_map, ← hNames, Option.map_map]
  rfl

theorem Realizes.getElem?_numberedRules (place : Nat) :
    (Naming.numberedRules rules)[place]? = definition.rules.content[place]?.map fun rule =>
      (RuleNumber.atPosition place, rule.name) := by
  have hNames : definition.rules.content.map RuleElement.name = rules := hRealizes.map_name_rules
  rw [Naming.getElem?_numberedRules, ← hNames, List.getElem?_map, Option.map_map]
  rfl

theorem Realizes.length_tokens (hSound : catalog.Sound) :
    definition.tokens.content.length = vocabulary.lastSymbol.countTo := by
  have hNames := NameIndex.map_snd_of_numbered (hRealizes.getElem?_names hSound)
  rw [← vocabulary.length_names, ← List.length_map (f := Prod.snd), hNames, List.length_map]

theorem Realizes.length_rules : definition.rules.content.length = rules.length := by
  have hNames : definition.rules.content.map RuleElement.name = rules := hRealizes.map_name_rules
  rw [← hNames, List.length_map]

end Defined

end Catalog

theorem State.fit_of_answer_take {state : State} {language : Language} {vocabulary : Vocabulary}
    {rules : List String} {registered : Bool}
    (hDone : (state.take (.defineChecked language vocabulary rules registered)).answer = .done) :
    Naming.Fit vocabulary rules := by
  apply (state.answer_defineChecked_eq_ok_iff language vocabulary rules registered).mp
  rw [State.take, Outcome.map] at hDone
  cases hAnswer : (state.defineChecked language vocabulary rules registered).answer with
  | ok => rfl
  | error refusal =>
      rw [hAnswer] at hDone
      cases hDone

namespace World

variable {world : World} {number : Nat} {language : Language}

/-- Tokens that are listed under different names are different instances. -/
theorem Sound.nodup_serials (hSound : world.Sound)
    (hNames : (((world.catalogs number).tokens language).map TokenElement.name).Nodup) :
    (((world.catalogs number).tokens language).map TokenElement.serial).Nodup := by
  apply List.Nodup.map_on _ hNames.of_map
  intro token hToken other hOther hSerial
  have hKept := (hSound.catalogs number).interned?_of_mem_tokens hToken
  have hKept' := (hSound.catalogs number).interned?_of_mem_tokens hOther
  have hKey := hSound.eq_of_serial_eq (number, .interned language.scope token.name)
    (number, .interned language.scope other.name) hKept hKept' hSerial
  simp only [Prod.mk.injEq, TokenKey.interned.injEq, true_and] at hKey
  rw [hKey] at hKept
  exact Option.some.inj (hKept.symm.trans hKept')

section Realized

variable {vocabulary : Vocabulary} {rules : List String} {registered : Bool}
  {definition : Definition} (hSound : world.Sound)
  (hDefinition : (world.catalogs number).definition? language = some definition)
  (hRealizes : (world.catalogs number).Realizes language ⟨vocabulary.names, rules, registered⟩
    definition)

include hSound hDefinition hRealizes

/-- Every name leads back exactly when no two symbols and no two rules go by one name. -/
theorem leadsBack_iff_nodup (hRange : -1 ≤ vocabulary.lastSymbol.number)
    (hRules : rules.length < RuleNumber.places) :
    (world.catalogs number).LeadsBack language vocabulary.lastSymbol rules.length ↔
      (vocabulary.names.map Prod.snd).Nodup ∧ rules.Nodup := by
  obtain ⟨hTokens, hRuleList, hTokenNames, hRuleNames⟩ := Catalog.tables_of_definition? hDefinition
  have hTokenCount := hRealizes.length_tokens (hSound.catalogs number)
  have hRuleCount := hRealizes.length_rules
  have hNamed := hRealizes.getElem?_names (hSound.catalogs number)
  have hNumbered := hRealizes.getElem?_numberedRules
  have hSymbols := NameIndex.leads_back_iff_nodup hNamed fun place place' hPlace hPlace' =>
    Symbol.atPosition_inj (Symbol.lt_places_of_lt_countTo (hTokenCount ▸ hPlace))
      (Symbol.lt_places_of_lt_countTo (hTokenCount ▸ hPlace'))
  have hNumbers := NameIndex.leads_back_iff_nodup hNumbered fun place place' hPlace hPlace' =>
    RuleNumber.atPosition_inj (Nat.lt_trans (hRuleCount ▸ hPlace) hRules)
      (Nat.lt_trans (hRuleCount ▸ hPlace') hRules)
  rw [← NameIndex.map_snd_of_numbered hNamed, hTokenCount, ← hTokens] at hSymbols
  rw [← NameIndex.map_snd_of_numbered hNumbered, Naming.map_snd_numberedRules, hRuleCount,
    ← hRuleList] at hNumbers
  rw [← hSymbols, ← hNumbers]
  constructor
  · rintro ⟨⟨index, hIndex, hLength, _, hBack⟩, _, ⟨index', hIndex', hLength', _, hBack'⟩⟩
    rw [hTokenNames, hRealizes.symbolOf] at hIndex
    rw [hRuleNames, hRealizes.ruleOf] at hIndex'
    cases hIndex
    cases hIndex'
    rw [← Symbol.countTo_eq hRange, Int.natCast_inj] at hLength
    exact ⟨⟨hLength, hBack⟩, hLength', hBack'⟩
  · rintro ⟨⟨hLength, hBack⟩, hLength', hBack'⟩
    -- Tokens with names of their own are different instances, so that need not be asked for.
    have hNames := hSymbols.mp ⟨hLength, hBack⟩
    rw [NameIndex.map_snd_of_numbered hNamed, ← hTokens] at hNames
    rw [← hRealizes.symbolOf] at hLength hBack
    rw [← hRealizes.ruleOf] at hLength' hBack'
    refine ⟨⟨_, hTokenNames, ?_, ?_, hBack⟩, hSound.nodup_serials hNames,
      ⟨_, hRuleNames, hLength', ?_, hBack'⟩⟩
    · rw [hLength, Symbol.countTo_eq hRange]
    · rw [hTokens, hTokenCount, hLength]
    · rw [hRuleList, hRuleCount, hLength']

/-- Where no two symbols and no two rules go by one name, names and elements undo one another. -/
theorem mutuallyInverse_of_nodup (hNames : (vocabulary.names.map Prod.snd).Nodup)
    (hRules : rules.length < RuleNumber.places) (hNodup : rules.Nodup) :
    (world.catalogs number).MutuallyInverse language := by
  obtain ⟨hTokens, hRuleList, hTokenNames, hRuleNames⟩ := Catalog.tables_of_definition? hDefinition
  have hNamed := hRealizes.getElem?_names (hSound.catalogs number)
  have hNumbered := hRealizes.getElem?_numberedRules
  constructor
  · intro name symbol
    rw [NameIndex.map_snd_of_numbered hNamed] at hNames
    rw [hTokenNames, Option.bind_some, hRealizes.symbolOf,
      NameIndex.find?_eq_some_iff_of_nodup hNamed hNames]
    have hLength : ((world.catalogs number).tokens language).length ≤ Symbol.places := by
      rw [hTokens, hRealizes.length_tokens (hSound.catalogs number)]
      exact Symbol.countTo_le_places _
    simp only [Catalog.listedToken?_eq_some_iff_getElem? hLength, hTokens]
  · intro name ruleNumber
    rw [← Naming.map_snd_numberedRules rules, NameIndex.map_snd_of_numbered hNumbered] at hNodup
    rw [hRuleNames, Option.bind_some, hRealizes.ruleOf,
      NameIndex.find?_eq_some_iff_of_nodup hNumbered hNodup]
    have hLength : ((world.catalogs number).rules language).length < RuleNumber.places := by
      rw [hRuleList, hRealizes.length_rules]
      exact hRules
    simp only [Catalog.rule?_eq_some_iff_getElem? hLength, hRuleList]

end Realized

/-- A language that a call defines has from then on what the call says. -/
theorem realizes_after_definition {moves : List Move} (later : List Move) {call : Call}
    {blueprint : Blueprint}
    (hUndefined : ((after moves).catalogs number).isDefined language = false)
    (hDemand : call.demand = .definition language blueprint) :
    ∃ definition,
      ((after (moves ++ .call number call :: later)).catalogs number).definition? language =
        some definition ∧
      ((after (moves ++ .call number call :: later)).catalogs number).Realizes language blueprint
        definition := by
  apply (records_after (moves ++ .call number call :: later) number).realizes
  have hBefore : History.blueprint? (demandsTo number moves) language = none := by
    rw [(records_after moves number).isDefined_eq] at hUndefined
    simpa using hUndefined
  have hCall : Move.demand? number (.call number call) = some (.definition language blueprint) := by
    rw [Move.demand?, if_pos rfl, hDemand]
  rw [demandsTo, List.filterMap_append, List.filterMap_cons_some hCall, History.blueprint?_append,
    History.blueprint?_cons, History.blueprint?_definition, if_pos rfl, Option.some_or]
  exact congrArg (Option.or · _) hBefore

/-- Let a language be undefined and be defined without a check, from names of which none is missing.
Then at any later moment every name leads back exactly when the check would have accepted the names.
If the check is made and accepts, names and elements undo one another from then on. -/
theorem names_lead_back_iff_accepted (moves later : List Move) (number : Nat)
    (language : Language) (vocabulary : Vocabulary) (rules : List String) (registered : Bool)
    (hUndefined : ((after moves).catalogs number).isDefined language = false)
    (hRules : rules.length < RuleNumber.places) :
    let catalogAfter := fun call => (after (moves ++ .call number call :: later)).catalogs number
    (-1 ≤ vocabulary.lastSymbol.number →
      (∀ symbol, vocabulary.InRange symbol → (vocabulary.displayName symbol).isSome) →
      ((catalogAfter (.define language vocabulary rules registered)).LeadsBack language
          vocabulary.lastSymbol rules.length ↔
        ∃ names, Naming.check vocabulary rules = .ok names)) ∧
    (((after moves).take number (.defineChecked language vocabulary rules registered)).1 = .done →
      (catalogAfter (.defineChecked language vocabulary rules registered)).MutuallyInverse
        language) := by
  intro catalogAfter
  constructor
  · intro hRange hNamed
    obtain ⟨definition, hDefinition, hRealizes⟩ :=
      realizes_after_definition later hUndefined (Call.demand.eq_1 ..)
    rw [leadsBack_iff_nodup (sound_after _) hDefinition hRealizes hRange hRules,
      vocabulary.nodup_names_iff hNamed, Naming.exists_check_eq_ok_iff]
    constructor
    · rintro ⟨hSymbols, hApart⟩
      exact ⟨hRange, hNamed, hSymbols, hApart⟩
    · intro hFit
      exact ⟨hFit.symbolsApart, hFit.rulesApart⟩
  · intro hDone
    have hFit := State.fit_of_answer_take hDone
    have hDemand := Call.demand_defineChecked hFit language registered
    obtain ⟨definition, hDefinition, hRealizes⟩ :=
      realizes_after_definition later hUndefined hDemand
    have hNames := (vocabulary.nodup_names_iff hFit.named).mpr hFit.symbolsApart
    exact mutuallyInverse_of_nodup (sound_after _) hDefinition hRealizes hNames hRules
      hFit.rulesApart

/-- The base has a token of the second name already, under another number. Two rules of one name
are enough for the names not to lead back. -/
theorem names_lead_back_iff_accepted_of_shared_name :
    let base := Language.root 1 "base"
    let dialect := Language.dialect 2 "dialect" base
    let vocabulary := Vocabulary.ofNames ⟨1⟩ [(⟨0⟩, "A"), (⟨1⟩, "B")]
    let moves : List Move := [.call 0 (.define base (.ofNames ⟨0⟩ [(⟨0⟩, "B")]) [] false)]
    let later : List Move := [.call 0 (.endToken dialect)]
    let catalogAfter := fun call => (after (moves ++ .call 0 call :: later)).catalogs 0
    (catalogAfter (.define dialect vocabulary ["r", "s"] false)).LeadsBack dialect ⟨1⟩ 2 ∧
    ¬(catalogAfter (.define dialect vocabulary ["r", "r"] false)).LeadsBack dialect ⟨1⟩ 2 ∧
    (catalogAfter (.defineChecked dialect vocabulary ["r", "s"] false)).MutuallyInverse
      dialect := by
  intro base dialect vocabulary moves later catalogAfter
  have hFit : Naming.Fit vocabulary ["r", "s"] := Naming.exists_check_eq_ok_iff.mp ⟨_, rfl⟩
  obtain ⟨hAccepted, hInverse⟩ :=
    names_lead_back_iff_accepted moves later 0 dialect vocabulary ["r", "s"] false rfl (by decide)
  obtain ⟨hRefused, _⟩ :=
    names_lead_back_iff_accepted moves later 0 dialect vocabulary ["r", "r"] false rfl (by decide)
  refine ⟨(hAccepted hFit.range hFit.named).mpr ⟨_, rfl⟩, fun hBack => ?_, hInverse rfl⟩
  obtain ⟨_, hCheck⟩ := (hRefused hFit.range hFit.named).mp hBack
  cases hCheck

end World

end GrammarCatalog
