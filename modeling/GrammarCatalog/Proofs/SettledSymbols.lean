import GrammarCatalog.Proofs.Collecting
import GrammarCatalog.Proofs.TokenLookups

/-! Settled symbols. A token has the symbol of the first mention of its name, which need not be the
one by which a language numbers it. Where all who mention a name within a scope give it one symbol,
every language finds its own symbols at its tokens, and goes on finding them whatever happens
later. -/
namespace GrammarCatalog

open History

/-- Whoever mentions a name in a scope gives it the same symbol. -/
def History.OneSymbolEach (mentioned : List Mention) : Prop :=
  ∀ mention ∈ mentioned, ∀ other ∈ mentioned, mention.key = other.key →
    mention.symbol = other.symbol

instance (mentioned : List Mention) : Decidable (OneSymbolEach mentioned) :=
  inferInstanceAs (Decidable (∀ mention ∈ mentioned, ∀ other ∈ mentioned,
    mention.key = other.key → mention.symbol = other.symbol))

/-- Those of the symbols that have a token: the end of the input and the symbols in range. -/
def Vocabulary.known (vocabulary : Vocabulary) (symbols : List Symbol) : List Symbol :=
  symbols.filter fun symbol => symbol.isEndOfInput || decide (vocabulary.InRange symbol)

/-- A grammar that counts mentions the names of its symbols. -/
theorem History.mem_mentions_of_grammar {history : List Demand} {language : Language}
    {grammar : Grammar} (hBlueprint : blueprint? history language = some grammar.blueprint)
    {place : Nat} {name : String} (hName : grammar.symbolNames[place]? = some name) :
    ⟨.atPosition place, name, some language, grammar.registered⟩ ∈ mentions history := by
  apply (mem_mentionsAfter [] history _).mpr
  exact Or.inr ⟨language, grammar.blueprint, rfl, hBlueprint,
    List.mem_map_of_mem (List.mem_of_getElem? (Grammar.getElem?_names hName))⟩

/-- Where names have one symbol each, a token has the symbol that any mention of it says. -/
theorem Catalog.Records.symbol_of_mention {catalog : Catalog} {history : List Demand}
    (hRecords : catalog.Records history) (hSettled : OneSymbolEach (mentions history))
    {mention : Mention} {token : TokenElement} (hMention : mention ∈ mentions history)
    (hToken : catalog.interned? mention.key.1 mention.key.2 = some token) :
    token.symbol = mention.symbol := by
  have hFirst := hRecords.interns mention.key.1 mention.key.2
  rw [hToken, Option.map_some] at hFirst
  exact hSettled token.mention (List.mem_of_find?_eq_some hFirst.symm) mention hMention
    (key_of_first? hFirst.symm)

namespace State

/-- A language finds its own symbols. Whatever is found by a symbol or listed at its place has this
symbol, and a set has one member for each of its known symbols, with just this symbol. -/
structure FindsSymbols (state : State) (language : Language) (vocabulary : Vocabulary) : Prop where
  bySymbol : ∀ symbol token, (state.token? language symbol).answer = some token →
    token.symbol = symbol
  listed : ∀ (place : Nat) token, (state.catalog.tokens language)[place]? = some token →
    token.symbol = .atPosition place
  setSize : ∀ symbols, (state.tokenSet language symbols).answer.size =
    Listing.distinct (vocabulary.known symbols)
  setSymbols : ∀ symbols, (state.tokenSet language symbols).answer.symbols =
    Listing.ascending (vocabulary.known symbols)
  setEnd : ∀ symbols, (∃ member ∈ (state.tokenSet language symbols).answer.members,
    member.isEndOfInput = true) ↔ Symbol.endOfInput ∈ symbols

theorem symbol_answer_endToken {state : State} (hSound : state.catalog.Sound)
    (language : Language) : (state.endToken language).answer.symbol = .endOfInput := by
  cases hEnd : state.catalog.end? language with
  | some token =>
      rw [endToken_of_end? _ _ _ hEnd]
      exact (hSound.fits (.ending language) hEnd).1
  | none =>
      simp only [endToken, hEnd]
      rfl

section Listed

variable {state : State} {language : Language} (hSound : state.catalog.Sound)
  (hListed : ∀ (place : Nat) token, (state.catalog.tokens language)[place]? = some token →
    token.symbol = .atPosition place)

include hSound hListed

theorem symbol_of_token? {symbol : Symbol} {token : TokenElement}
    (hToken : (state.token? language symbol).answer = some token) : token.symbol = symbol := by
  cases hEnd : symbol.isEndOfInput with
  | true =>
      simp only [token?, hEnd, ↓reduceIte, Outcome.map, Option.some.injEq] at hToken
      rw [← hToken, symbol_answer_endToken hSound]
      exact (of_decide_eq_true hEnd).symm
  | false =>
      rw [token?_of_not_end state language hEnd] at hToken
      obtain ⟨place, hPlace, hSlot⟩ := Option.bind_eq_some_iff.mp hToken
      rw [hListed place token hSlot, Symbol.atPosition_of_position? hPlace]

section Realizes

variable {grammar : Grammar} {definition : Definition}
  (hDefinition : state.catalog.definition? language = some definition)
  (hRealizes : state.catalog.Realizes language grammar.blueprint definition)

include hDefinition hRealizes

/-- The tokens that are found for symbols have the known ones of these symbols. -/
theorem map_symbol_filterMap_token? (symbols : List Symbol) :
    (symbols.filterMap fun symbol => (state.token? language symbol).answer).map
      TokenElement.symbol = grammar.vocabulary.known symbols := by
  rw [List.map_filterMap, Vocabulary.known, ← List.filterMap_eq_filter]
  apply List.filterMap_congr
  intro symbol _
  have hKnown : (state.token? language symbol).answer.isSome =
      (symbol.isEndOfInput || decide (grammar.vocabulary.InRange symbol)) := by
    cases hEnd : symbol.isEndOfInput with
    | true => simp [token?, hEnd, Outcome.map]
    | false =>
        rw [token?_of_not_end state language hEnd, Bool.false_or, Bool.eq_iff_iff,
          decide_eq_true_iff]
        exact Catalog.isSome_listedToken?_iff hDefinition hRealizes hSound symbol
  cases hToken : (state.token? language symbol).answer with
  | some token =>
      rw [Option.map_some, symbol_of_token? hSound hListed hToken, Option.guard, ← hKnown, hToken]
      rfl
  | none =>
      rw [Option.map_none, Option.guard, ← hKnown, hToken]
      rfl

theorem findsSymbols_of_listed : state.FindsSymbols language grammar.vocabulary := by
  have hSymbol : ∀ symbol token, (state.token? language symbol).answer = some token →
      token.symbol = symbol := fun _ _ => symbol_of_token? hSound hListed
  have hFound := map_symbol_filterMap_token? hSound hListed hDefinition hRealizes
  -- A token has the symbol that it was found by, so its symbol tells it apart from the others.
  have hApart : ∀ symbols : List Symbol,
      ∀ token ∈ symbols.filterMap (fun symbol => (state.token? language symbol).answer),
      ∀ other ∈ symbols.filterMap (fun symbol => (state.token? language symbol).answer),
        token.symbol = other.symbol → token = other := by
    intro symbols token hToken other hOther hSame
    obtain ⟨symbol, _, hToken⟩ := List.mem_filterMap.mp hToken
    obtain ⟨symbol', _, hOther⟩ := List.mem_filterMap.mp hOther
    rw [hSymbol symbol token hToken, hSymbol symbol' other hOther] at hSame
    rw [hSame] at hToken
    exact Option.some.inj (hToken.symm.trans hOther)
  refine ⟨hSymbol, hListed, ?_, ?_, ?_⟩
  · intro symbols
    rw [answer_tokenSet, TokenSet.size_ofList, ← Listing.distinct_map (hApart symbols), hFound]
  · intro symbols
    rw [answer_tokenSet, TokenSet.symbols, TokenSet.members_ofList,
      ← Listing.eraseDups_map (hApart symbols), hFound, Listing.ascending]
  · intro symbols
    constructor
    · rintro ⟨member, hMember, hEnd⟩
      obtain ⟨symbol, hAsked, hToken⟩ := (state.mem_tokenSet_iff_token? language symbols member).mp
        hMember
      obtain rfl := hSymbol symbol member hToken
      rwa [← of_decide_eq_true hEnd]
    · intro hAsked
      have hToken : (state.token? language .endOfInput).answer =
          some (state.endToken language).answer := rfl
      refine ⟨(state.endToken language).answer, ?_, ?_⟩
      · exact (state.mem_tokenSet_iff_token? language symbols _).mpr ⟨_, hAsked, hToken⟩
      · rw [TokenElement.isEndOfInput, hSymbol _ _ hToken]
        rfl

end Realizes

end Listed

end State

namespace World

variable {moves : List Move} {number : Nat} {language : Language} {grammar : Grammar}

/-- A slot of a list holds a token with the symbol of the slot. -/
theorem symbol_of_getElem?_tokens
    (hSettled : OneSymbolEach (mentions (demandsTo number moves)))
    (hGrammar : grammar? moves number language = some grammar) {place : Nat}
    {token : TokenElement}
    (hSlot : (((after moves).catalogs number).tokens language)[place]? = some token) :
    token.symbol = .atPosition place := by
  have hBlueprint := blueprint?_demandsTo moves number language
  rw [hGrammar, Option.map_some] at hBlueprint
  obtain ⟨definition, hDefinition, hRealizes⟩ := realizes_grammar hGrammar
  have hNames := Catalog.map_name_tokens hDefinition hRealizes ((sound_after moves).catalogs number)
  have hName : grammar.symbolNames[place]? = some token.name := by
    rw [← hNames, List.getElem?_map, hSlot, Option.map_some]
  obtain ⟨kept, hKept, hInterned⟩ := Catalog.exists_getElem?_tokens hDefinition hRealizes hName
  obtain rfl := Option.some.inj (hKept.symm.trans hSlot)
  exact (records_after moves number).symbol_of_mention hSettled
    (mem_mentions_of_grammar hBlueprint hName) hInterned

/-- Let all mentions of a name in a scope give it one symbol, be it where the name is interned or in a
grammar that counts. Then every language that is defined finds its own symbols, now and whatever
happens later. -/
theorem settled_symbols_are_found (moves : List Move) (number : Nat)
    (hSettled : OneSymbolEach (mentions (demandsTo number moves))) :
    ∀ language, ((after moves).catalogs number).isDefined language = true →
      ∃ grammar, grammar? moves number language = some grammar ∧
        ∀ later, ((after (moves ++ later)).stateOf number).FindsSymbols language
          grammar.vocabulary := by
  intro language hDefined
  rw [isDefined_after] at hDefined
  obtain ⟨grammar, hGrammar⟩ := Option.isSome_iff_exists.mp hDefined
  refine ⟨grammar, hGrammar, ?_⟩
  intro later
  obtain ⟨definition, hDefinition, hRealizes⟩ :=
    realizes_grammar (grammar?_append_of_some hGrammar later)
  apply State.findsSymbols_of_listed ((sound_after _).catalogs number) _ hDefinition hRealizes
  intro place token hSlot
  have hTokens := (Catalog.tables_eq (definition?_append_of_grammar hGrammar later)).2.1
  rw [World.stateOf, hTokens] at hSlot
  exact symbol_of_getElem?_tokens hSettled hGrammar hSlot

/-- A dialect and its base number their names alike, and so does the interning that comes first. A
definition that comes too late, another scope and another catalogue number them otherwise, and so
does later interning. The dialect has its symbol 1 once and the end of its input. -/
theorem settled_symbols_are_found_of_dialect :
    let base := Language.root 1 "base"
    let dialect := Language.dialect 2 "dialect" base
    let swapped := Vocabulary.ofNames ⟨1⟩ [(⟨0⟩, "B"), (⟨1⟩, "A")]
    let moves : List Move :=
      [.call 0 (.intern ⟨1⟩ "B" (some base) true),
        .call 0 (.define dialect (.ofNames ⟨1⟩ [(⟨0⟩, "A"), (⟨1⟩, "B")]) [] false),
        .call 0 (.define base (.ofNames ⟨2⟩ [(⟨0⟩, "A"), (⟨1⟩, "B"), (⟨2⟩, "C")]) [] false),
        .call 0 (.define base swapped [] false), .call 0 (.intern ⟨7⟩ "A" none false),
        .call 1 (.define base swapped [] false)]
    let later : List Move := [.call 0 (.intern ⟨9⟩ "C" (some dialect) false)]
    let state := (after (moves ++ later)).stateOf 0
    let symbols : List Symbol := [⟨1⟩, .endOfInput, ⟨5⟩, ⟨1⟩, ⟨-7⟩]
    let set := (state.tokenSet dialect symbols).answer
    (∀ token, (state.catalog.tokens base)[2]? = some token → token.symbol = ⟨2⟩) ∧
      (∀ token, (state.token? dialect ⟨1⟩).answer = some token → token.symbol = ⟨1⟩) ∧
      set.size = 2 ∧ set.symbols = Listing.ascending [⟨1⟩, .endOfInput] ∧
      ∃ member ∈ set.members, member.isEndOfInput = true := by
  intro base dialect swapped moves later state symbols set
  have hSettled : OneSymbolEach (mentions (demandsTo 0 moves)) := by decide
  have hFound := settled_symbols_are_found moves 0 hSettled
  obtain ⟨_, _, hBase⟩ := hFound base (isDefined_after moves 0 base)
  obtain ⟨grammar, hGrammar, hDialect⟩ := hFound dialect (isDefined_after moves 0 dialect)
  obtain rfl : ⟨.ofNames ⟨1⟩ [(⟨0⟩, "A"), (⟨1⟩, "B")], [], false⟩ = grammar :=
    Option.some.inj hGrammar
  have hFinds : state.FindsSymbols dialect _ := hDialect later
  refine ⟨(hBase later).listed 2, hFinds.bySymbol ⟨1⟩, (hFinds.setSize symbols).trans ?_,
    (hFinds.setSymbols symbols).trans ?_, (hFinds.setEnd symbols).mpr ?_⟩
  · decide
  · exact congrArg (List.mergeSort · fun a b => decide (a ≤ b)) (by decide)
  · decide

end World

end GrammarCatalog
