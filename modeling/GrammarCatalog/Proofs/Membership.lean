import GrammarCatalog.Proofs.Dialects
import GrammarCatalog.Proofs.Identity

/-! Membership across languages. A set that is made for one language is asked about tokens of
another. What decides is the scope and the name: not the numbers of the symbols, nor who owns the
tokens, nor which language was defined first. Ends of the input go by their language alone. -/
namespace GrammarCatalog

/-- The end of the input has no place in a list. -/
theorem Symbol.isEndOfInput_of_position? {symbol : Symbol} {place : Nat}
    (hPlace : symbol.position? = some place) : symbol.isEndOfInput = false := by
  rw [Bool.eq_false_iff]
  intro hEnd
  obtain rfl : symbol = endOfInput := by simpa [isEndOfInput] using hEnd
  cases hPlace

namespace State

/-- The members of a set are the listed tokens of the symbols and the end of the input, if the
symbols have it. -/
theorem mem_tokenSet (state : State) (language : Language) (symbols : List Symbol)
    (token : TokenElement) :
    token ∈ (state.tokenSet language symbols).answer.members ↔
      (∃ symbol ∈ symbols, state.catalog.listedToken? language symbol = some token) ∨
      (symbols.any Symbol.isEndOfInput = true ∧ token = (state.endToken language).answer) := by
  rw [tokenSet, mem_collect, List.any_eq_true]
  constructor
  · intro hMember
    rcases hMember with hEmpty | ⟨symbol, hSymbol, _, hListed⟩ | ⟨symbol, hSymbol, hEnd, hToken⟩
    · cases hEmpty
    · exact Or.inl ⟨symbol, hSymbol, hListed⟩
    · exact Or.inr ⟨⟨symbol, hSymbol, hEnd⟩, hToken⟩
  · intro hMember
    rcases hMember with ⟨symbol, hSymbol, hListed⟩ | ⟨⟨symbol, hSymbol, hEnd⟩, hToken⟩
    · obtain ⟨place, hPlace, _⟩ := Option.bind_eq_some_iff.mp hListed
      exact Or.inr (Or.inl ⟨symbol, hSymbol, Symbol.isEndOfInput_of_position? hPlace, hListed⟩)
    · exact Or.inr (Or.inr ⟨symbol, hSymbol, hEnd, hToken⟩)

end State

/-- The listed token of a symbol is the one that the scope keeps for the name at the place of the
symbol. -/
theorem Catalog.Records.listedToken?_eq_some_iff {catalog : Catalog} {history : List Demand}
    (hRecords : catalog.Records history) {language : Language} {blueprint : Blueprint}
    (hBlueprint : History.blueprint? history language = some blueprint) (symbol : Symbol)
    (token : TokenElement) :
    catalog.listedToken? language symbol = some token ↔
      ∃ place named, symbol.position? = some place ∧ blueprint.names[place]? = some named ∧
        catalog.interned? language.scope named.2 = some token := by
  rw [listedToken?, Option.bind_eq_some_iff]
  constructor
  · intro hListed
    obtain ⟨place, hPlace, hSlot⟩ := hListed
    have hLength := hRecords.length_tokens hBlueprint
    obtain ⟨hBound, _⟩ := List.getElem?_eq_some_iff.mp hSlot
    rw [hLength] at hBound
    have hNamed := List.getElem?_eq_getElem hBound
    obtain ⟨kept, hKept, hInterned⟩ := hRecords.getElem?_tokens hBlueprint hNamed
    obtain rfl := Option.some.inj (hKept.symm.trans hSlot)
    exact ⟨place, _, hPlace, hNamed, hInterned⟩
  · intro hNamed
    obtain ⟨place, named, hPlace, hNamed, hInterned⟩ := hNamed
    obtain ⟨kept, hKept, hSame⟩ := hRecords.getElem?_tokens hBlueprint hNamed
    obtain rfl := Option.some.inj (hSame.symm.trans hInterned)
    exact ⟨place, hPlace, hKept⟩

/-- Some of the symbols goes by the name. -/
def Blueprint.HasNamed (blueprint : Blueprint) (symbols : List Symbol) (name : String) : Prop :=
  ∃ symbol ∈ symbols, ∃ place named, symbol.position? = some place ∧
    blueprint.names[place]? = some named ∧ named.2 = name

/-- The keys of the tokens that symbols stand for in a language. -/
def Blueprint.Selects (blueprint : Blueprint) (language : Language) (symbols : List Symbol) :
    TokenKey → Prop
  | .interned scope name => language.scope = scope ∧ blueprint.HasNamed symbols name
  | .ending other => language = other ∧ symbols.any Symbol.isEndOfInput = true

namespace World

variable {moves : List Move} {moment number : Nat} {language : Language} {symbols : List Symbol}
  {blueprint : Blueprint}

/-- What is kept at a moment of a run is kept in the end. -/
theorem tokenAt?_after_of_take (moment : Nat) (key : TokenKey) {token : TokenElement}
    (hToken : ((after (moves.take moment)).catalogs number).tokenAt? key = some token) :
    ((after moves).catalogs number).tokenAt? key = some token := by
  rw [← List.take_append_drop moment moves, after_append]
  exact tokenAt?_run _ _ key hToken

/-- A set that has the end of the input leaves it in the catalogue. -/
theorem end?_after_of_tokenSet
    (hMove : moves[moment]? = some (.call number (.tokenSet language symbols)))
    (hEnd : symbols.any Symbol.isEndOfInput = true) :
    ((after moves).catalogs number).end? language =
      some (((after (moves.take moment)).stateOf number).endToken language).answer := by
  have hDemand : (Call.tokenSet language symbols).demand = .ending language := if_pos hEnd
  rw [after_eq_run_next hMove]
  exact tokenAt?_run _ _ (.ending language) (end?_next_of_demand _ number _ language hDemand)

section Set

variable (hMove : moves[moment]? = some (.call number (.tokenSet language symbols)))
  (hBlueprint : History.blueprint? (demandsTo number (moves.take moment)) language =
    some blueprint)

include hMove hBlueprint

/-- Every member of a set is kept under a key that the symbols stand for. -/
theorem exists_selected_key {token : TokenElement} (hMember : token ∈
      (((after (moves.take moment)).stateOf number).tokenSet language symbols).answer.members) :
    ∃ key, blueprint.Selects language symbols key ∧
      ((after moves).catalogs number).tokenAt? key = some token := by
  have hRecords := records_after (moves.take moment) number
  rcases (State.mem_tokenSet _ _ _ _).mp hMember with ⟨symbol, hSymbol, hListed⟩ | ⟨hEnd, rfl⟩
  · obtain ⟨place, named, hPlace, hNamed, hInterned⟩ :=
      (hRecords.listedToken?_eq_some_iff hBlueprint symbol token).mp hListed
    exact ⟨.interned language.scope named.2, ⟨rfl, symbol, hSymbol, place, named, hPlace, hNamed,
      rfl⟩, tokenAt?_after_of_take moment _ hInterned⟩
  · exact ⟨.ending language, ⟨rfl, hEnd⟩, end?_after_of_tokenSet hMove hEnd⟩

/-- The token under a key that the symbols stand for is a member. -/
theorem mem_of_selects {key : TokenKey} {token : TokenElement}
    (hSelects : blueprint.Selects language symbols key)
    (hToken : ((after moves).catalogs number).tokenAt? key = some token) : token ∈
      (((after (moves.take moment)).stateOf number).tokenSet language symbols).answer.members := by
  have hRecords := records_after (moves.take moment) number
  apply (State.mem_tokenSet _ _ _ _).mpr
  cases key with
  | interned scope name =>
      obtain ⟨rfl, symbol, hSymbol, place, named, hPlace, hNamed, rfl⟩ := hSelects
      obtain ⟨kept, _, hInterned⟩ := hRecords.getElem?_tokens hBlueprint hNamed
      have hLater := tokenAt?_after_of_take moment (.interned language.scope named.2) hInterned
      obtain rfl := Option.some.inj (hLater.symm.trans hToken)
      exact Or.inl ⟨symbol, hSymbol, (hRecords.listedToken?_eq_some_iff hBlueprint symbol _).mpr
        ⟨place, named, hPlace, hNamed, hInterned⟩⟩
  | ending other =>
      obtain ⟨rfl, hEnd⟩ := hSelects
      have hLater := end?_after_of_tokenSet hMove hEnd
      exact Or.inr ⟨hEnd, Option.some.inj (hToken.symm.trans hLater)⟩

/-- A set has a token exactly when the symbols stand for the key of the token. -/
theorem contains_iff_selects {key : TokenKey} {token : TokenElement}
    (hToken : ((after moves).catalogs number).tokenAt? key = some token) :
    (((after (moves.take moment)).stateOf number).tokenSet language symbols).answer.contains
      token = true ↔ blueprint.Selects language symbols key := by
  rw [TokenSet.contains_iff]
  constructor
  · intro hMember
    obtain ⟨other, hSelects, hOther⟩ := exists_selected_key hMove hBlueprint hMember
    have hKey := (sound_after moves).eq_of_serial_eq (number, other) (number, key) hOther hToken rfl
    rw [← (Prod.mk.inj hKey).2]
    exact hSelects
  · intro hSelects
    exact mem_of_selects hMove hBlueprint hSelects hToken

end Set

/-- A set that is made for one language has a token that another language lists, at any later time
and whichever of them was defined first, exactly when both have one scope and some of the symbols
goes by the name of the slot in the language of the set. Of the ends of the input it has at most
that of its own language, and has it exactly when it is among the symbols. -/
theorem contains_iff_same_scope_and_name (moves : List Move) (moment number : Nat)
    (language : Language) (symbols : List Symbol) (blueprint : Blueprint)
    (hMove : moves[moment]? = some (.call number (.tokenSet language symbols)))
    (hBlueprint : History.blueprint? (demandsTo number (moves.take moment)) language =
      some blueprint) :
    ∃ set, answerAt? moves moment = some (.tokenSet set) ∧
      (∀ other blueprint', History.blueprint? (demandsTo number moves) other = some blueprint' →
        ∀ (place : Nat) token,
          (((after moves).catalogs number).tokens other)[place]? = some token →
          ∃ named, blueprint'.names[place]? = some named ∧
            (set.contains token = true ↔
              language.scope = other.scope ∧ blueprint.HasNamed symbols named.2)) ∧
      ∀ other, set.contains (((after moves).stateOf number).endToken other).answer = true ↔
        language = other ∧ symbols.any Symbol.isEndOfInput = true := by
  refine ⟨(((after (moves.take moment)).stateOf number).tokenSet language symbols).answer, ?_, ?_,
    ?_⟩
  · rw [answerAt?, hMove]
    rfl
  · intro other blueprint' hOther place token hSlot
    have hRecords := records_after moves number
    obtain ⟨hBound, _⟩ := List.getElem?_eq_some_iff.mp hSlot
    rw [hRecords.length_tokens hOther] at hBound
    have hNamed := List.getElem?_eq_getElem hBound
    obtain ⟨kept, hKept, hInterned⟩ := hRecords.getElem?_tokens hOther hNamed
    obtain rfl := Option.some.inj (hKept.symm.trans hSlot)
    exact ⟨_, hNamed, @contains_iff_selects _ _ _ _ _ _ hMove hBlueprint
      (.interned other.scope _) _ hInterned⟩
  · intro other
    -- The end of the input may be made only now, so the run is taken one call further.
    let asked := moves ++ [.call number (.endToken other)]
    have hBound := (List.getElem?_eq_some_iff.mp hMove).1
    have hTake : asked.take moment = moves.take moment :=
      List.take_append_of_le_length (Nat.le_of_lt hBound)
    have hAsked : asked[moment]? = some (.call number (.tokenSet language symbols)) := by
      rw [List.getElem?_append_left hBound, hMove]
    have hEnd : ((after asked).catalogs number).tokenAt? (.ending other) =
        some (((after moves).stateOf number).endToken other).answer := by
      rw [after_append]
      exact end?_next_of_demand _ number _ other rfl
    rw [← hTake] at hBlueprint ⊢
    exact contains_iff_selects hAsked hBlueprint hEnd

/-- A set that is made for a dialect has the token of the root that bears the name, although the two
number it differently. It has neither the other token of the root, which has the number that is in
the set, nor the end of the root's input. -/
theorem contains_iff_same_scope_and_name_of_root :
    let root := Language.root 1 "root"
    let dialect := Language.dialect 2 "dialect" root
    let symbols : List Symbol := [⟨1⟩, ⟨7⟩, .endOfInput]
    let moves : List Move :=
      [.call 0 (.define dialect (.ofNames ⟨1⟩ [(⟨0⟩, "X"), (⟨1⟩, "Y")]) [] false),
        .call 0 (.tokenSet dialect symbols),
        .call 0 (.define root (.ofNames ⟨1⟩ [(⟨0⟩, "Y"), (⟨1⟩, "Z")]) [] true)]
    ∃ set own other, answerAt? moves 1 = some (.tokenSet set) ∧
      ((after moves).catalogs 0).tokens root = [own, other] ∧
      set.contains own = true ∧ set.contains other = false ∧
      set.contains (((after moves).stateOf 0).endToken root).answer = false := by
  intro root dialect symbols moves
  let own : TokenElement := ⟨1, ⟨1⟩, "Y", some dialect, false⟩
  let other : TokenElement := ⟨3, ⟨1⟩, "Z", some root, true⟩
  obtain ⟨set, hAnswer, hSlots, hEnds⟩ :=
    contains_iff_same_scope_and_name moves 1 0 dialect symbols _ rfl rfl
  obtain ⟨named, hNamed, hOwn⟩ := hSlots root _ rfl 0 own rfl
  obtain ⟨named', hNamed', hOther⟩ := hSlots root _ rfl 1 other rfl
  have hNone : ∀ named ∈ (Vocabulary.ofNames ⟨1⟩ [(⟨0⟩, "X"), (⟨1⟩, "Y")]).names,
      named.2 ≠ "Z" := by decide
  cases hNamed
  cases hNamed'
  refine ⟨set, own, other, hAnswer, rfl, hOwn.mpr ?_, ?_, ?_⟩
  · exact ⟨rfl, ⟨1⟩, by decide, 1, (⟨1⟩, "Y"), by decide, rfl, rfl⟩
  · rw [Bool.eq_false_iff, ne_eq, hOther]
    rintro ⟨_, symbol, _, place, entry, _, hEntry, hName⟩
    exact hNone entry (List.mem_of_getElem? hEntry) hName
  · rw [Bool.eq_false_iff, ne_eq, hEnds]
    decide

end World

end GrammarCatalog
