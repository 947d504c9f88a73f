import GrammarCatalog.Proofs.Collecting
import GrammarCatalog.Proofs.Lookups
import GrammarCatalog.Proofs.TokenLookups

/-! Sets made in one call. Such a set has as many members as its symbols have different names, for
symbols of one name share their token. The end of the input counts as one more, since it is no
listed token even where a symbol goes by its name. -/
namespace GrammarCatalog

theorem Symbol.any_isEndOfInput (symbols : List Symbol) :
    symbols.any Symbol.isEndOfInput = true ↔ Symbol.endOfInput ∈ symbols := by
  simp [isEndOfInput]

/-- The names of those of the symbols that the grammar knows. -/
def Grammar.slotNames (grammar : Grammar) (symbols : List Symbol) : List String :=
  (symbols.filter fun symbol => decide (grammar.vocabulary.InRange symbol)).map
    grammar.vocabulary.nameOf

theorem Grammar.mem_slotNames {grammar : Grammar} {symbols : List Symbol} {name : String} :
    name ∈ grammar.slotNames symbols ↔
      ∃ symbol ∈ symbols, grammar.vocabulary.InRange symbol ∧
        grammar.vocabulary.GoesBy symbol name := by
  simp [slotNames, Vocabulary.goesBy_iff, and_assoc]

namespace Catalog

variable {catalog : Catalog} {language : Language}

section Realizes

variable {grammar : Grammar} {definition : Definition}
  (hDefinition : catalog.definition? language = some definition)
  (hRealizes : catalog.Realizes language grammar.blueprint definition)
  (hSound : catalog.Sound)

include hDefinition hRealizes hSound

theorem map_name_listedToken? (symbol : Symbol) :
    (catalog.listedToken? language symbol).map TokenElement.name =
      if grammar.vocabulary.InRange symbol then some (grammar.vocabulary.nameOf symbol)
      else none := by
  split
  · next hInRange =>
    obtain ⟨place, hPlace, rfl⟩ := (Vocabulary.inRange_iff symbol).mp hInRange
    have hNames := congrArg (·[place]?) (map_name_tokens hDefinition hRealizes hSound)
    simp only [List.getElem?_map, Grammar.symbolNames, Vocabulary.map_snd_names,
      Symbol.getElem?_upTo, if_pos hPlace, Option.map_some] at hNames
    rw [listedToken?_atPosition (Symbol.lt_places_of_lt_countTo hPlace), hNames]
  · next hOther =>
    have hNone := mt (isSome_listedToken?_iff hDefinition hRealizes hSound symbol).mp hOther
    rw [Option.not_isSome_iff_eq_none.mp hNone, Option.map_none]

theorem map_name_filterMap_listedToken? (symbols : List Symbol) :
    (symbols.filterMap (catalog.listedToken? language)).map TokenElement.name =
      grammar.slotNames symbols := by
  rw [List.map_filterMap, Grammar.slotNames, ← List.filterMap_eq_map, List.filterMap_filter]
  apply List.filterMap_congr
  intro symbol _
  rw [map_name_listedToken? hDefinition hRealizes hSound]
  simp

end Realizes

theorem mem_tokens_of_mem_filterMap {symbols : List Symbol} {token : TokenElement}
    (hToken : token ∈ symbols.filterMap (catalog.listedToken? language)) :
    token ∈ catalog.tokens language := by
  obtain ⟨symbol, _, hListed⟩ := List.mem_filterMap.mp hToken
  exact mem_tokens_of_listedToken? hListed

/-- Listed tokens are told apart by their names. -/
theorem Sound.distinct_names (hSound : catalog.Sound) (symbols : List Symbol) :
    Listing.distinct ((symbols.filterMap (catalog.listedToken? language)).map TokenElement.name) =
      Listing.distinct (symbols.filterMap (catalog.listedToken? language)) := by
  apply Listing.distinct_map
  intro token hToken other hOther hName
  have hKept := hSound.interned?_of_mem_tokens (mem_tokens_of_mem_filterMap hToken)
  have hKept' := hSound.interned?_of_mem_tokens (mem_tokens_of_mem_filterMap hOther)
  rw [hName] at hKept
  exact Option.some.inj (hKept.symm.trans hKept')

end Catalog

namespace State

variable (state : State) (language : Language)

/-- Asking for the end of the input adds it or changes nothing. -/
theorem endToken_adds :
    (state.endToken language).state = state ∨
      state.catalog.end? language = none ∧ ∃ ending,
        (state.endToken language).state.catalog = state.catalog.addEnd language ending := by
  cases hEnd : state.catalog.end? language with
  | some token =>
      rw [endToken_of_end? _ _ _ hEnd]
      exact Or.inl rfl
  | none =>
      right
      simp only [endToken, hEnd, Outcome.silent, true_and]
      exact ⟨_, rfl⟩

theorem tokenSet_adds (symbols : List Symbol) :
    (state.tokenSet language symbols).state = state ∨
      Symbol.endOfInput ∈ symbols ∧ state.catalog.end? language = none ∧ ∃ ending,
        (state.tokenSet language symbols).state.catalog =
          state.catalog.addEnd language ending := by
  rw [tokenSet, state_collect]
  split
  · next hEnd =>
    rcases state.endToken_adds language with hSame | ⟨hNew, hAdded⟩
    · exact Or.inl hSame
    · exact Or.inr ⟨(Symbol.any_isEndOfInput symbols).mp hEnd, hNew, hAdded⟩
  · exact Or.inl rfl

/-- A set has the listed tokens of its symbols, and the end of the input besides. -/
theorem size_tokenSet
    (hEnd : (state.endToken language).answer ∉ state.catalog.tokens language)
    (symbols : List Symbol) :
    (state.tokenSet language symbols).answer.size =
      Listing.distinct (symbols.filterMap (state.catalog.listedToken? language)) +
        if Symbol.endOfInput ∈ symbols then 1 else 0 := by
  let listed := symbols.filterMap (state.catalog.listedToken? language)
  have hMembers : (state.tokenSet language symbols).answer.members.toFinset =
      if Symbol.endOfInput ∈ symbols then insert (state.endToken language).answer listed.toFinset
      else listed.toFinset := by
    ext token
    rw [List.mem_toFinset, mem_tokenSet, Symbol.any_isEndOfInput, ← List.mem_filterMap]
    split
    · next hSymbol =>
      rw [Finset.mem_insert, List.mem_toFinset, or_comm]
      simp only [hSymbol, true_and, listed]
    · next hSymbol =>
      rw [List.mem_toFinset]
      simp only [hSymbol, false_and, or_false, listed]
  have hNodup := state.nodup_tokenSet language symbols
  rw [TokenSet.size, ← List.toFinset_card_of_nodup hNodup, hMembers, Listing.distinct_eq_card]
  split
  · apply Finset.card_insert_of_notMem
    rw [List.mem_toFinset]
    exact fun hListed => hEnd (Catalog.mem_tokens_of_mem_filterMap hListed)
  · rfl

end State

namespace World

/-- The end of the input is no listed token, be it kept already or made by whoever asks now. -/
theorem answer_endToken_notMem_tokens (moves : List Move) (number : Nat) (language : Language) :
    (((after moves).stateOf number).endToken language).answer ∉
      ((after moves).catalogs number).tokens language := by
  -- It may be made only now and be kept nowhere yet, so one more call is made to have it kept.
  let asked := Move.call number (.endToken language)
  have hEnd : (((after moves).next asked).catalogs number).end? language =
      some (((after moves).stateOf number).endToken language).answer := by
    exact end?_next_of_demand _ number _ language rfl
  have hSound := sound_next (after moves) asked (sound_after moves)
  have hTokens : (((after moves).next asked).catalogs number).tokens language =
      ((after moves).catalogs number).tokens language := by
    simp only [asked, next, take, catalogs_withState, ↓reduceIte]
    exact ((after moves).stateOf number).tokens_endToken language language
  have hApart := (hSound.end_apart hEnd number).2 language
  rwa [hTokens] at hApart

/-- The different tokens that are listed for symbols are as many as the names that the grammar has
for these symbols. -/
theorem distinct_listed (moves : List Move) (number : Nat) (language : Language)
    (symbols : List Symbol) :
    Listing.distinct
        (symbols.filterMap (((after moves).catalogs number).listedToken? language)) =
      Listing.distinct
        ((grammar? moves number language).elim [] fun grammar => grammar.slotNames symbols) := by
  have hSound := (sound_after moves).catalogs number
  cases hGrammar : grammar? moves number language with
  | some grammar =>
      obtain ⟨definition, hDefinition, hRealizes⟩ := realizes_grammar hGrammar
      rw [← hSound.distinct_names,
        Catalog.map_name_filterMap_listedToken? hDefinition hRealizes hSound, Option.elim_some]
  | none =>
      have hTokens : ((after moves).catalogs number).tokens language = [] := by
        rw [Catalog.tokens, definition?_eq_none hGrammar]
      have hListed : symbols.filterMap (((after moves).catalogs number).listedToken? language) =
          [] := by
        apply List.eq_nil_iff_forall_not_mem.mpr
        intro token hToken
        have hMember := Catalog.mem_tokens_of_mem_filterMap hToken
        rw [hTokens] at hMember
        cases hMember
      rw [hListed, Option.elim_none]
      rfl

/-- A set is made in one call as it is by asking for its symbols one by one, down to the state that
is left. It adds the end of the input at most, and has as many members as its symbols have different
names, and the end of the input. The names are those that the symbols of the range go by. Its
members depend on the symbols that occur, and of sets that are made one after another, in any order,
the set of two lists together is the union of their sets. -/
theorem bulk_set_is_single_lookups (moves : List Move) (number : Nat) (language : Language) :
    let state := (after moves).stateOf number
    (∀ symbols, state.tokenSet language symbols =
      (state.takeAll (symbols.map (.token language))).map fun answers =>
        .ofList (answers.flatMap Answer.tokenElements)) ∧
    (∀ symbols, (state.tokenSet language symbols).state = state ∨
      Symbol.endOfInput ∈ symbols ∧ state.catalog.end? language = none ∧ ∃ ending,
        (state.tokenSet language symbols).state.catalog =
          state.catalog.addEnd language ending) ∧
    (∀ symbols, (state.tokenSet language symbols).answer.size =
      Listing.distinct
          ((grammar? moves number language).elim [] fun grammar => grammar.slotNames symbols) +
        if Symbol.endOfInput ∈ symbols then 1 else 0) ∧
    (∀ (grammar : Grammar) symbols name, name ∈ grammar.slotNames symbols ↔
      ∃ symbol ∈ symbols, grammar.vocabulary.InRange symbol ∧
        grammar.vocabulary.GoesBy symbol name) ∧
    (∀ symbols others : List Symbol, (∀ symbol, symbol ∈ symbols ↔ symbol ∈ others) →
      (state.tokenSet language symbols).answer.sameAs (state.tokenSet language others).answer =
        true) ∧
    ∀ (lists : List (List Symbol)) (place place' place'' : Nat) (left right : List Symbol),
      lists[place]? = some left → lists[place']? = some right →
      lists[place'']? = some (left ++ right) →
      let answers := (state.takeAll (lists.map (.tokenSet language))).answer
      ∃ first second both, answers[place]? = some (.tokenSet first) ∧
        answers[place']? = some (.tokenSet second) ∧ answers[place'']? = some (.tokenSet both) ∧
        both.sameAs (first.union second) = true := by
  intro state
  refine ⟨state.collect_eq language .empty, state.tokenSet_adds language, ?_,
    fun _ _ _ => Grammar.mem_slotNames, fun _ _ => state.sameAs_tokenSet language, ?_⟩
  · intro symbols
    rw [← distinct_listed]
    exact state.size_tokenSet language (answer_endToken_notMem_tokens moves number language) symbols
  · intro lists place place' place'' left right hLeft hRight hBoth answers
    have hAnswers : answers =
        lists.map fun symbols => .tokenSet (state.tokenSet language symbols).answer :=
      state.answer_takeAll_tokenSet language lists
    simp only [hAnswers, List.getElem?_map, hLeft, hRight, hBoth, Option.map_some]
    exact ⟨_, _, _, rfl, rfl, rfl, state.sameAs_tokenSet_append language left right⟩

/-- Two symbols share the name `A` and one goes by the name of the end of the input. With these, two
symbols that do not exist and the end of the input itself, a set has three members. The union is
asked for first. -/
theorem bulk_set_is_single_lookups_of_shared_names :
    let base := Language.root 1 "base"
    let vocabulary :=
      Vocabulary.ofNames ⟨3⟩ [(⟨0⟩, "A"), (⟨1⟩, "B"), (⟨2⟩, "A"), (⟨3⟩, "EOF")]
    let state := (after [.call 0 (.define base vocabulary [] false)]).stateOf 0
    let left : List Symbol := [⟨2⟩, .endOfInput, ⟨-7⟩]
    let right : List Symbol := [⟨0⟩, ⟨3⟩, ⟨9⟩]
    let answers := (state.takeAll ([left ++ right, right, left].map (.tokenSet base))).answer
    (state.tokenSet base (left ++ right)).answer.size = 3 ∧
      (state.tokenSet base (left ++ right)).answer.sameAs
        (state.tokenSet base (right ++ left)).answer = true ∧
      ∃ first second both, answers[2]? = some (.tokenSet first) ∧
        answers[1]? = some (.tokenSet second) ∧ answers[0]? = some (.tokenSet both) ∧
        both.sameAs (first.union second) = true := by
  intro base vocabulary state left right answers
  obtain ⟨_, _, hSize, _, hSame, hUnion⟩ :=
    bulk_set_is_single_lookups [.call 0 (.define base vocabulary [] false)] 0 base
  have hSwap : ∀ symbol, symbol ∈ left ++ right ↔ symbol ∈ right ++ left := fun _ =>
    List.perm_append_comm.mem_iff
  refine ⟨?_, hSame _ _ hSwap, hUnion [left ++ right, right, left] 2 1 0 left right rfl rfl rfl⟩
  rw [hSize]
  decide

end World

end GrammarCatalog
