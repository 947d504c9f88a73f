import GrammarCatalog.Proofs.FirstBearers
import GrammarCatalog.Proofs.Grammars
import GrammarCatalog.Proofs.Inverses
import GrammarCatalog.Proofs.Membership

/-! Ways to a token. A token of a language can be read off the list, asked for by its symbol, found
by its name or interned once more. The list and the index come about apart from one another and the
interned tokens are shared with other languages, but whichever way is taken, the token is the one
that the scope keeps for the name. -/
namespace GrammarCatalog

theorem Symbol.isEndOfInput_atPosition {place : Nat} (hPlace : place < Symbol.places) :
    (Symbol.atPosition place).isEndOfInput = false :=
  isEndOfInput_of_position? (position?_atPosition place hPlace)

theorem Grammar.length_symbolNames (grammar : Grammar) :
    grammar.symbolNames.length = grammar.vocabulary.lastSymbol.countTo := by
  rw [symbolNames, List.length_map, Vocabulary.length_names]

/-- A place that has a name is one that a symbol can have. -/
theorem Grammar.lt_places {grammar : Grammar} {place : Nat} {name : String}
    (hName : grammar.symbolNames[place]? = some name) : place < Symbol.places := by
  have hBound := (List.getElem?_eq_some_iff.mp hName).1
  rw [length_symbolNames] at hBound
  exact Symbol.lt_places_of_lt_countTo hBound

/-- The name at a place is numbered by the place. -/
theorem Grammar.getElem?_names {grammar : Grammar} {place : Nat} {name : String}
    (hName : grammar.symbolNames[place]? = some name) :
    grammar.blueprint.names[place]? = some (.atPosition place, name) :=
  calc
    grammar.vocabulary.names[place]? =
        grammar.symbolNames[place]?.map fun name => (.atPosition place, name) :=
      grammar.vocabulary.getElem?_names place
    _ = some (.atPosition place, name) := by rw [hName, Option.map_some]

namespace Catalog

variable {catalog : Catalog} {language : Language} {grammar : Grammar} {definition : Definition}

theorem listedToken?_atPosition {place : Nat} (hPlace : place < Symbol.places) :
    catalog.listedToken? language (.atPosition place) = (catalog.tokens language)[place]? := by
  rw [listedToken?, Symbol.position?_atPosition place hPlace, Option.bind_some]

section Realizes

variable (hDefinition : catalog.definition? language = some definition)
  (hRealizes : catalog.Realizes language grammar.blueprint definition)

include hDefinition hRealizes

theorem map_name_tokens (hSound : catalog.Sound) :
    (catalog.tokens language).map TokenElement.name = grammar.symbolNames := by
  apply List.ext_getElem?
  intro place
  rw [(tables_of_definition? hDefinition).1, List.getElem?_map, Grammar.symbolNames,
    List.getElem?_map]
  exact hRealizes.map_name_getElem?_tokens hSound place

/-- Every slot holds the token that the scope keeps for its name. -/
theorem exists_getElem?_tokens {place : Nat} {name : String}
    (hName : grammar.symbolNames[place]? = some name) :
    ∃ token, (catalog.tokens language)[place]? = some token ∧
      catalog.interned? language.scope name = some token := by
  rw [(tables_of_definition? hDefinition).1]
  exact hRealizes.getElem?_tokens (Grammar.getElem?_names hName)

/-- The index of the names is there and leads to the first symbols that bear them. -/
theorem exists_tokenNames : ∃ index, catalog.tokenNames? language = some index ∧
    index.LeadsToFirst grammar.symbolNames Symbol.atPosition := by
  refine ⟨definition.symbolOf.content, (tables_of_definition? hDefinition).2.2.1, ?_⟩
  rw [hRealizes.symbolOf]
  exact NameIndex.leadsToFirst_ofNamed grammar.vocabulary.getElem?_names

/-- A name leads to the token that the scope keeps for it, provided that it is a name of the
language. -/
theorem tokenByName?_eq_interned? (name : String) : catalog.tokenByName? language name =
    if name ∈ grammar.symbolNames then catalog.interned? language.scope name else none := by
  obtain ⟨index, hIndex, hLeads⟩ := exists_tokenNames hDefinition hRealizes
  rw [tokenByName?, hIndex]
  split
  · next hName =>
    obtain ⟨place, hFirst⟩ := NameIndex.exists_isLeast hName
    obtain ⟨token, hSlot, hToken⟩ := exists_getElem?_tokens hDefinition hRealizes hFirst.1
    calc
      (index.find? name).bind (catalog.listedToken? language) =
          catalog.listedToken? language (.atPosition place) := by
        rw [hLeads.least name place hFirst, Option.bind_some]
      _ = (catalog.tokens language)[place]? := listedToken?_atPosition (Grammar.lt_places hFirst.1)
      _ = catalog.interned? language.scope name := by rw [hSlot, hToken]
  · next hOther =>
    calc
      (index.find? name).bind (catalog.listedToken? language) = none := by
        rw [hLeads.find?_eq_none hOther, Option.bind_none]

/-- A symbol is listed exactly when it is in the range of the vocabulary. -/
theorem isSome_listedToken?_iff (hSound : catalog.Sound) (symbol : Symbol) :
    (catalog.listedToken? language symbol).isSome ↔ grammar.vocabulary.InRange symbol := by
  have hLength : (catalog.tokens language).length = grammar.vocabulary.lastSymbol.countTo := by
    rw [(tables_of_definition? hDefinition).1]
    exact hRealizes.length_tokens hSound
  rw [Vocabulary.inRange_iff, ← hLength]
  constructor
  · intro hListed
    obtain ⟨token, hToken⟩ := Option.isSome_iff_exists.mp hListed
    obtain ⟨place, hPlace, hSlot⟩ := Option.bind_eq_some_iff.mp hToken
    exact ⟨place, (List.getElem?_eq_some_iff.mp hSlot).1, Symbol.atPosition_of_position? hPlace⟩
  · rintro ⟨place, hBound, rfl⟩
    have hPlace : place < Symbol.places := Symbol.lt_places_of_lt_countTo (hLength ▸ hBound)
    rw [listedToken?_atPosition hPlace, List.getElem?_eq_getElem hBound]
    rfl

end Realizes

end Catalog

namespace State

/-- All ways to the tokens of a language agree. The list has a slot for each symbol under the name
that it goes by, the index leads from a name to the first symbol that bears it, and a name, every
symbol that bears it and whoever interns it anew in the scope come to one token. -/
structure FindsTokens (state : State) (language : Language) (grammar : Grammar) : Prop where
  slots : ((state.catalog.tokens language).length : Int) =
    max (grammar.vocabulary.lastSymbol.number.toInt + 1) 0
  spelled : ∃ names, grammar.vocabulary.Spells names ∧ grammar.symbolNames = names.map Prod.snd
  named : (state.catalog.tokens language).map TokenElement.name = grammar.symbolNames
  index : ∃ index, state.catalog.tokenNames? language = some index ∧
    index.LeadsToFirst grammar.symbolNames Symbol.atPosition
  byName : ∀ name, (state.catalog.tokenByName? language name).isSome ↔
    name ∈ grammar.symbolNames
  bySymbol : ∀ symbol, symbol.isEndOfInput = false →
    ((state.token? language symbol).answer.isSome ↔ grammar.vocabulary.InRange symbol)
  same : ∀ name token, state.catalog.tokenByName? language name = some token →
    (∀ place : Nat, grammar.symbolNames[place]? = some name →
      (state.catalog.tokens language)[place]? = some token ∧
      state.token? language (.atPosition place) = .silent (some token) state) ∧
    ∀ symbol owner registered, Language.scopeOf owner = language.scope →
      state.intern symbol name owner registered = .silent token state

theorem findsTokens_of_realizes {state : State} {language : Language} {grammar : Grammar}
    {definition : Definition} (hSound : state.catalog.Sound)
    (hDefinition : state.catalog.definition? language = some definition)
    (hRealizes : state.catalog.Realizes language grammar.blueprint definition) :
    state.FindsTokens language grammar := by
  have hNamed := Catalog.map_name_tokens hDefinition hRealizes hSound
  have hSlot {place : Nat} {name : String} (hName : grammar.symbolNames[place]? = some name) :=
    Catalog.exists_getElem?_tokens hDefinition hRealizes hName
  refine ⟨?_, ⟨_, grammar.vocabulary.spells_names, rfl⟩, hNamed,
    Catalog.exists_tokenNames hDefinition hRealizes, ?_, ?_, ?_⟩
  · have hLength := congrArg List.length hNamed
    rw [List.length_map, Grammar.length_symbolNames] at hLength
    rw [hLength, Symbol.countTo]
    exact Int.toNat_eq_max _
  · intro name
    rw [Catalog.tokenByName?_eq_interned? hDefinition hRealizes]
    split
    · next hName =>
      obtain ⟨place, hPlace⟩ := List.mem_iff_getElem?.mp hName
      obtain ⟨token, _, hToken⟩ := hSlot hPlace
      simp [hToken, hName]
    · next hOther => simp [hOther]
  · intro symbol hOther
    rw [token?_of_not_end state language hOther]
    exact Catalog.isSome_listedToken?_iff hDefinition hRealizes hSound symbol
  · intro name token hNamed
    rw [Catalog.tokenByName?_eq_interned? hDefinition hRealizes,
      Option.ite_none_right_eq_some] at hNamed
    obtain ⟨_, hToken⟩ := hNamed
    constructor
    · intro place hPlace
      obtain ⟨kept, hKept, hInterned⟩ := hSlot hPlace
      obtain rfl := Option.some.inj (hInterned.symm.trans hToken)
      have hBound := Grammar.lt_places hPlace
      rw [token?_of_not_end state language (Symbol.isEndOfInput_atPosition hBound),
        Catalog.listedToken?_atPosition hBound]
      exact ⟨hKept, congrArg (Outcome.silent · state) hKept⟩
    · intro symbol owner registered hScope
      rw [← hScope] at hToken
      exact state.intern_of_interned symbol name owner registered token hToken

end State

namespace World

/-- All ways to the tokens of a defined language agree, by the grammar that counts for it. A
language that is not defined has no list, no index and no token but the end of the input. -/
theorem token_lookups_agree (moves : List Move) (number : Nat) (language : Language) :
    let state := (after moves).stateOf number
    (state.catalog.isDefined language = true →
      ∃ grammar, grammar? moves number language = some grammar ∧
        state.FindsTokens language grammar) ∧
    (state.catalog.isDefined language = false →
      state.catalog.tokens language = [] ∧ state.catalog.tokenNames? language = none ∧
      (∀ name, state.catalog.tokenByName? language name = none) ∧
      ∀ symbol, symbol.isEndOfInput = false →
        state.token? language symbol = .silent none state) := by
  intro state
  constructor
  · intro hDefined
    have hSome := (isDefined_after moves number language).symm.trans hDefined
    obtain ⟨grammar, hGrammar⟩ := Option.isSome_iff_exists.mp hSome
    obtain ⟨definition, hDefinition, hRealizes⟩ := realizes_grammar hGrammar
    exact ⟨grammar, hGrammar, State.findsTokens_of_realizes
      ((sound_after moves).catalogs number) hDefinition hRealizes⟩
  · intro hUndefined
    have hDefinition := State.definition?_of_not_isDefined (Bool.eq_false_iff.mp hUndefined)
    have hTokens : state.catalog.tokens language = [] := by
      rw [Catalog.tokens, hDefinition]
    have hNames : state.catalog.tokenNames? language = none := by
      rw [Catalog.tokenNames?, hDefinition, Option.map_none]
    refine ⟨hTokens, hNames, ?_, ?_⟩
    · intro name
      rw [Catalog.tokenByName?, hNames]
      rfl
    · intro symbol hOther
      rw [State.token?_of_not_end state language hOther, Catalog.listedToken?, hTokens]
      simp

/-- A base repeats the name `A`, which its dialect has interned before under another number. Both
symbols of the base, the name and the dialect come to the token of the dialect. The dialect itself
is refused and so is not defined. -/
theorem token_lookups_agree_of_repeated_name :
    let base := Language.root 1 "base"
    let dialect := Language.dialect 2 "dialect" base
    let vocabulary := Vocabulary.ofNames ⟨2⟩ [(⟨0⟩, "A"), (⟨1⟩, "B"), (⟨2⟩, "A")]
    let moves : List Move :=
      [.call 0 (.intern ⟨7⟩ "A" (some dialect) true),
        .call 0 (.defineChecked dialect vocabulary [] false),
        .call 0 (.define base vocabulary [] false),
        .call 0 (.define base (.ofNames ⟨0⟩ [(⟨0⟩, "C")]) [] false)]
    let state := (after moves).stateOf 0
    ∃ token, state.catalog.tokenByName? base "A" = some token ∧
      (state.catalog.tokens base)[0]? = some token ∧
      state.token? base ⟨2⟩ = .silent (some token) state ∧
      state.intern ⟨9⟩ "A" (some dialect) false = .silent token state ∧
      state.catalog.tokenByName? base "C" = none ∧
      state.catalog.tokenByName? dialect "A" = none := by
  intro base dialect vocabulary moves state
  obtain ⟨hBase, _⟩ := token_lookups_agree moves 0 base
  obtain ⟨_, hDialect⟩ := token_lookups_agree moves 0 dialect
  obtain ⟨grammar, hGrammar, hFinds⟩ := hBase rfl
  obtain rfl : ⟨vocabulary, [], false⟩ = grammar := Option.some.inj hGrammar
  have hNames : Grammar.symbolNames ⟨vocabulary, [], false⟩ = ["A", "B", "A"] := rfl
  have hSome := (hFinds.byName "A").mpr (by rw [hNames]; decide)
  obtain ⟨token, hToken⟩ := Option.isSome_iff_exists.mp hSome
  obtain ⟨hPlaces, hIntern⟩ := hFinds.same "A" token hToken
  have hMissing := mt (hFinds.byName "C").mp (by rw [hNames]; decide)
  exact ⟨token, hToken, (hPlaces 0 rfl).1, (hPlaces 2 rfl).2, hIntern ⟨9⟩ (some dialect) false rfl,
    Option.not_isSome_iff_eq_none.mp hMissing, (hDialect rfl).2.2.1 "A"⟩

end World

end GrammarCatalog
