import GrammarCatalog.NameTable
import GrammarCatalog.Proofs.Announcements
import GrammarCatalog.Proofs.TokenLookups

/-! Name tables as vocabularies. A table has a name for every symbol of its range and for the end of
the input, and for nothing else, however short its lists are and whatever holes they have. So a
definition from a table misses no name, and a checked one can only be refused because two symbols, or
two rules, come to one name. -/
namespace GrammarCatalog

theorem Symbol.lt_places_of_position? {symbol : Symbol} {place : Nat}
    (hPlace : symbol.position? = some place) : place < places := by
  unfold position? at hPlace
  split at hPlace
  · cases hPlace
  · cases hPlace
    have hBound := symbol.number.toInt_lt
    unfold places
    omega

namespace Vocabulary

variable {vocabulary : Vocabulary} (hRange : -1 ≤ vocabulary.lastSymbol.number)
  (hNamed : ∀ symbol, vocabulary.InRange symbol → (vocabulary.displayName symbol).isSome)

include hRange hNamed

/-- Where no name is missing, all that the check can find in the symbols is a name that two of them
share. -/
theorem checkedNames_ne_error {fault : Fault} (hFault : vocabulary.checkedNames = .error fault) :
    ∃ name first second, fault = .sharedTokenName name first second ∧
      vocabulary.InRange first ∧ vocabulary.InRange second ∧ first ≠ second ∧
      vocabulary.displayName first = some name ∧ vocabulary.displayName second = some name := by
  have hVerdict := vocabulary.verdict_checkedNames
  rw [hFault] at hVerdict
  cases hVerdict with
  | rangeTooLow hLow => exact absurd hRange (Int32.not_le.mpr hLow)
  | unnamedSymbol _ hFirst hUnnamed =>
      have hSome := hNamed _ hFirst.inRange
      rw [hUnnamed] at hSome
      cases hSome
  | sharedTokenName _ hFirst hInRange hSmaller hName hName' =>
      refine ⟨_, _, _, rfl, hInRange, hFirst.inRange, ?_, hName, hName'⟩
      rintro rfl
      exact Int32.lt_irrefl hSmaller

/-- Two symbols of one name are found. -/
theorem exists_checkedNames_eq_error {first second : Symbol} (hFirst : vocabulary.InRange first)
    (hSecond : vocabulary.InRange second) (hApart : first ≠ second)
    (hSame : vocabulary.displayName first = vocabulary.displayName second) :
    ∃ fault, vocabulary.checkedNames = .error fault := by
  rcases exists_firstOffender_or hRange with ⟨symbol, hOffender⟩ | hNone
  · obtain ⟨name, hName⟩ := Option.isSome_iff_exists.mp (hNamed symbol hOffender.inRange)
    obtain ⟨_, hShared⟩ := vocabulary.verdict_checkedNames.eq_of_firstOffender hRange hOffender
    obtain ⟨other, hFault, _⟩ := hShared name hName
    exact ⟨_, hFault⟩
  · obtain ⟨_, hSymbols⟩ := forall_not_offends_iff.mp hNone
    exact absurd (hSymbols first second hFirst hSecond hSame) hApart

end Vocabulary

namespace NameTable

variable (table : NameTable)

/-- The first name that one of several lists has at a place. A list that is too short or has a hole
there is passed over. When all are passed over, the place gives its number for a name. -/
inductive Resolves (place : Nat) : List (List (Option String)) → String → Prop where
  | found {names others name} (hEntry : names[place]? = some (some name)) :
      Resolves place (names :: others) name
  | passed {names others name} (hLacks : ∀ entry, names[place]? ≠ some (some entry))
      (hOthers : Resolves place others name) : Resolves place (names :: others) name
  | numbered : Resolves place [] (toString place)

theorem resolves_iff (place : Nat) (lists : List (List (Option String))) (name : String) :
    Resolves place lists name ↔
      (lists.findSome? fun names => names[place]?.join).getD (toString place) = name := by
  induction lists with
  | nil =>
      constructor
      · rintro ⟨⟩
        rfl
      · rintro rfl
        exact .numbered
  | cons names others ih =>
      cases hEntry : names[place]?.join with
      | some entry =>
          have hHere := Option.join_eq_some_iff.mp hEntry
          simp only [List.findSome?_cons, hEntry, Option.getD_some]
          constructor
          · intro hResolves
            cases hResolves with
            | found hFound => simpa [hHere] using hFound
            | passed hLacks => exact absurd hHere (hLacks entry)
          · rintro rfl
            exact .found hHere
      | none =>
          have hLacks : ∀ entry, names[place]? ≠ some (some entry) := by
            intro entry hHere
            simp [hHere] at hEntry
          simp only [List.findSome?_cons, hEntry, ← ih]
          constructor
          · intro hResolves
            cases hResolves with
            | found hFound => exact absurd hFound (hLacks name)
            | passed _ hOthers => exact hOthers
          · exact .passed hLacks

theorem entry_atPosition {place : Nat} (hPlace : place < Symbol.places)
    (names : List (Option String)) :
    entry names (.atPosition place) = names[place]?.join := by
  rw [entry, Symbol.position?_atPosition place hPlace, Option.bind_some]

theorem countTo_lastSymbol : table.lastSymbol.countTo = min table.longest Symbol.places := by
  have hLast := table.toInt_lastSymbol
  unfold Symbol.countTo
  omega

theorem neg_one_le_lastSymbol : -1 ≤ table.lastSymbol.number := by
  have hLast := table.toInt_lastSymbol
  rw [Int32.le_iff_toInt_le]
  have hMinus : (-1 : Int32).toInt = -1 := rfl
  omega

theorem not_inRange_iff (symbol : Symbol) : ¬table.vocabulary.InRange symbol ↔
    symbol.number < 0 ∨ table.lastSymbol.number < symbol.number := by
  rw [Vocabulary.InRange, not_and_or, Int32.not_le, Int32.not_le]
  rfl

/-- A name is there for the end of the input and for the symbols of the range. -/
theorem isSome_displayName_iff (symbol : Symbol) : (table.displayName symbol).isSome ↔
    symbol = .endOfInput ∨ table.vocabulary.InRange symbol := by
  unfold displayName
  split
  · next hEnd =>
    have hSymbol : symbol = .endOfInput := by simpa [Symbol.isEndOfInput] using hEnd
    simp [hSymbol]
  · next hOther =>
    have hSymbol : symbol ≠ .endOfInput := by simpa [Symbol.isEndOfInput] using hOther
    split
    · next hOutside =>
      simp [hSymbol, (table.not_inRange_iff symbol).mpr hOutside]
    · next hInside =>
      rw [← table.not_inRange_iff, not_not] at hInside
      simp [hInside]

theorem displayName_eq_some_iff {place : Nat} (hPlace : place < table.lastSymbol.countTo)
    (name : String) : table.displayName (.atPosition place) = some name ↔
      Resolves place [table.display, table.literal, table.symbolic] name := by
  have hPlaces := Symbol.lt_places_of_lt_countTo hPlace
  have hText : (Symbol.atPosition place).text = toString place := by
    rw [Symbol.text, Symbol.toInt_atPosition place hPlaces]
    rfl
  have hInside : ¬((Symbol.atPosition place).number < 0 ∨
      table.lastSymbol.number < (Symbol.atPosition place).number) := by
    rw [← table.not_inRange_iff, not_not]
    exact (table.vocabulary.inRange_iff _).mpr ⟨place, hPlace, rfl⟩
  rw [resolves_iff, displayName, Symbol.isEndOfInput_atPosition hPlaces, if_neg Bool.false_ne_true,
    if_neg hInside, literalName, symbolicName, Symbol.isEndOfInput_atPosition hPlaces,
    if_neg Bool.false_ne_true, hText, Option.some.injEq]
  simp only [entry_atPosition hPlaces, List.findSome?_cons, List.findSome?_nil]
  cases table.display[place]?.join with
  | some _ => rfl
  | none =>
      cases table.literal[place]?.join with
      | some _ => rfl
      | none =>
          cases table.symbolic[place]?.join with
          | some _ => rfl
          | none => rfl

/-- A symbol that has an entry in some list is in the range. -/
theorem inRange_of_entry {names : List (Option String)} (hLength : names.length ≤ table.longest)
    {symbol : Symbol} (hEntry : (entry names symbol).isSome) : table.vocabulary.InRange symbol := by
  obtain ⟨name, hName⟩ := Option.isSome_iff_exists.mp hEntry
  obtain ⟨place, hPlace, hSlot⟩ := Option.bind_eq_some_iff.mp hName
  obtain ⟨hBound, _⟩ := List.getElem?_eq_some_iff.mp (Option.join_eq_some_iff.mp hSlot)
  have hPlaces := Symbol.lt_places_of_position? hPlace
  have hCount := table.countTo_lastSymbol
  refine (table.vocabulary.inRange_iff symbol).mpr
    ⟨place, ?_, Symbol.atPosition_of_position? hPlace⟩
  change place < table.lastSymbol.countTo
  omega

theorem isSome_displayName_of_inRange (symbol : Symbol)
    (hInRange : table.vocabulary.InRange symbol) : (table.vocabulary.displayName symbol).isSome :=
  (table.isSome_displayName_iff symbol).mpr (Or.inr hInRange)

theorem isSome_displayName_of_literalName {symbol : Symbol}
    (hLiteral : (table.literalName symbol).isSome) : (table.displayName symbol).isSome := by
  have hLength : table.literal.length ≤ table.longest := by
    unfold longest
    omega
  exact table.isSome_displayName_of_inRange symbol (table.inRange_of_entry hLength hLiteral)

theorem isSome_displayName_of_symbolicName {symbol : Symbol}
    (hSymbolic : (table.symbolicName symbol).isSome) : (table.displayName symbol).isSome := by
  have hLength : table.symbolic.length ≤ table.longest := by
    unfold longest
    omega
  unfold symbolicName at hSymbolic
  split at hSymbolic
  · next hEnd =>
    have hSymbol : symbol = .endOfInput := by simpa [Symbol.isEndOfInput] using hEnd
    exact (table.isSome_displayName_iff symbol).mpr (Or.inl hSymbol)
  · exact table.isSome_displayName_of_inRange symbol (table.inRange_of_entry hLength hSymbolic)

/-- As long as the length is a number for symbols, the last symbol is one less, without a wrap. -/
theorem lastSymbol_of_lt (hLongest : table.longest < Symbol.places) :
    (Int32.ofNat table.longest).toInt = table.longest ∧
      table.lastSymbol.number = Int32.ofNat table.longest - 1 := by
  refine ⟨Int32.toInt_ofNat_of_lt hLongest, ?_⟩
  rw [lastSymbol, if_pos hLongest]

theorem lastSymbol_of_le (hLongest : Symbol.places ≤ table.longest) :
    table.lastSymbol.number = Int32.maxValue := by
  rw [lastSymbol, if_neg (Nat.not_lt.mpr hLongest)]

end NameTable

/-- Where no symbol is unnamed, a definition gives no warning. -/
theorem Notice.level_ne_warn_of_mem {fresh : List (String × Symbol)} {tokens rules : Nat}
    {notice : Notice} (hMember : notice ∈ ofDefinition [] fresh tokens rules) :
    notice.level ≠ .warn := by
  rw [ofDefinition, List.map_nil, List.nil_append, List.mem_append, List.mem_map,
    List.mem_singleton] at hMember
  rcases hMember with ⟨entry, _, rfl⟩ | rfl
  · simp [level]
  · simp [level]

namespace State

variable (state : State) (language : Language) {vocabulary : Vocabulary} (rules : List String)
  (registered : Bool)

theorem length_tokens_define (vocabulary : Vocabulary)
    (hUndefined : state.catalog.isDefined language = false) :
    ((state.define language vocabulary rules registered).state.catalog.tokens language).length =
      vocabulary.lastSymbol.countTo := by
  have hLength := (state.lengths_establish language rules registered vocabulary.names).1
  rw [vocabulary.length_names] at hLength
  simp only [define, hUndefined, Bool.false_eq_true, ↓reduceIte]
  exact hLength

section Named

variable (hNamed : ∀ symbol, vocabulary.InRange symbol → (vocabulary.displayName symbol).isSome)

include hNamed

theorem level_define_ne_warn {event : Event}
    (hEvent : event ∈ (state.define language vocabulary rules registered).events) :
    event.notice.level ≠ .warn := by
  cases hDefined : state.catalog.isDefined language with
  | true =>
      rw [state.events_define_of_isDefined language vocabulary rules registered hDefined,
        List.mem_singleton] at hEvent
      rw [hEvent]
      exact nofun
  | false =>
      rw [state.events_define_of_undefined language vocabulary rules registered hDefined,
        Vocabulary.unnamed_eq_nil hNamed] at hEvent
      obtain ⟨notice, hNotice, rfl⟩ := List.mem_map.mp hEvent
      exact Notice.level_ne_warn_of_mem hNotice

variable (hRange : -1 ≤ vocabulary.lastSymbol.number)

include hRange

/-- A vocabulary without gaps is refused for a name that two symbols or two rules share. -/
theorem fault_of_answer_defineChecked {refusal : Refusal}
    (hRefused : (state.defineChecked language vocabulary rules registered).answer =
      .error refusal) :
    (∃ name first second, refusal.fault = .sharedTokenName name first second ∧
      vocabulary.InRange first ∧ vocabulary.InRange second ∧ first ≠ second ∧
      vocabulary.displayName first = vocabulary.displayName second) ∨
    ∃ name first second, refusal.fault = .sharedRuleName name first second := by
  obtain ⟨_, hCheck⟩ := (answer_defineChecked_eq_error_iff ..).mp hRefused
  rcases Naming.check_eq_error_iff.mp hCheck with hSymbols | ⟨_, hRules⟩
  · obtain ⟨name, first, second, hFault, hFirst, hSecond, hApart, hName, hName'⟩ :=
      Vocabulary.checkedNames_ne_error hRange hNamed hSymbols
    exact Or.inl ⟨name, first, second, hFault, hFirst, hSecond, hApart, hName.trans hName'.symm⟩
  · obtain ⟨name, first, second, hFault, _⟩ := Naming.exists_places_of_checkRules hRules
    exact Or.inr ⟨name, _, _, hFault⟩

/-- Two symbols of one name are the reason whenever there are such symbols. -/
theorem exists_refusal_sharedTokenName_iff :
    (∃ name first second, (state.defineChecked language vocabulary rules registered).answer =
      .error ⟨language.id, .sharedTokenName name first second⟩) ↔
    ∃ first second, vocabulary.InRange first ∧ vocabulary.InRange second ∧ first ≠ second ∧
      vocabulary.displayName first = vocabulary.displayName second := by
  constructor
  · rintro ⟨name, first, second, hRefused⟩
    rcases state.fault_of_answer_defineChecked language rules registered hNamed hRange hRefused with
      ⟨_, _, _, _, hSame⟩ | ⟨_, _, _, hRules⟩
    · exact ⟨_, _, hSame⟩
    · cases hRules
  · rintro ⟨first, second, hFirst, hSecond, hApart, hSame⟩
    obtain ⟨fault, hFault⟩ :=
      Vocabulary.exists_checkedNames_eq_error hRange hNamed hFirst hSecond hApart hSame
    obtain ⟨name, smaller, larger, rfl, _⟩ :=
      Vocabulary.checkedNames_ne_error hRange hNamed hFault
    refine ⟨name, smaller, larger, (answer_defineChecked_eq_error_iff ..).mpr ⟨rfl, ?_⟩⟩
    exact Naming.check_eq_error_iff.mpr (Or.inl hFault)

end Named

end State

namespace NameTable

/-- The last symbol of a table is one less than its longest list is long, and the greatest symbol
there is where a list goes beyond. The symbols from 0 up to it have a name, and so has the end of
the input, and nothing else has. The name is the first that the lists for display, as spelled and as
in the grammar have at the place, or the number of the place. So a definition from a table warns of
nothing and gives a slot to each symbol. A checked one is refused for no range and for no missing
name, but for a name that two symbols come to, and if there is none for one of two rules. -/
theorem name_tables_name_their_range (table : NameTable) :
    let longest := max table.literal.length (max table.symbolic.length table.display.length)
    (table.lastSymbol.number.toInt = min (longest : Int) Symbol.places - 1 ∧
      (longest < Symbol.places → (Int32.ofNat longest).toInt = longest ∧
        table.lastSymbol.number = Int32.ofNat longest - 1) ∧
      (Symbol.places ≤ longest → table.lastSymbol.number = Int32.maxValue)) ∧
    (∀ symbol, (table.displayName symbol).isSome ↔
      symbol = .endOfInput ∨ 0 ≤ symbol.number ∧ symbol.number ≤ table.lastSymbol.number) ∧
    table.displayName .endOfInput = some Symbol.endOfInputName ∧
    (∀ symbol, 0 ≤ symbol.number → symbol.number ≤ table.lastSymbol.number →
      ∃ place : Nat, (place : Int) = symbol.number.toInt ∧ ∀ name,
        table.displayName symbol = some name ↔
          Resolves place [table.display, table.literal, table.symbolic] name) ∧
    (∀ symbol, (table.literalName symbol).isSome ∨ (table.symbolicName symbol).isSome →
      (table.displayName symbol).isSome) ∧
    (∀ (state : State) language rules registered,
      let outcome := state.define language table.vocabulary rules registered
      (∀ event ∈ outcome.events, event.notice.level ≠ .warn ∧
        ∀ symbol, event.notice ≠ .unnamed symbol) ∧
      (state.catalog.isDefined language = false →
        ((outcome.state.catalog.tokens language).length : Int) =
          table.lastSymbol.number.toInt + 1)) ∧
    ∀ (state : State) language rules registered,
      let answer := (state.defineChecked language table.vocabulary rules registered).answer
      let Coincide := ∃ first second : Symbol,
        (0 ≤ first.number ∧ first.number ≤ table.lastSymbol.number) ∧
        (0 ≤ second.number ∧ second.number ≤ table.lastSymbol.number) ∧
        first ≠ second ∧ table.displayName first = table.displayName second
      (∀ refusal, answer = .error refusal → (∀ last, refusal.fault ≠ .rangeTooLow last) ∧
        ∀ symbol, refusal.fault ≠ .unnamedSymbol symbol) ∧
      ((∃ name first second,
        answer = .error ⟨language.id, .sharedTokenName name first second⟩) ↔ Coincide) ∧
      (answer = .ok () ↔ ¬Coincide ∧ rules.Nodup) := by
  have hNamed := table.isSome_displayName_of_inRange
  have hRange := table.neg_one_le_lastSymbol
  refine ⟨⟨?_, table.lastSymbol_of_lt, table.lastSymbol_of_le⟩, table.isSome_displayName_iff, ?_,
    ?_, ?_, ?_, ?_⟩
  · exact table.toInt_lastSymbol
  · exact if_pos rfl
  · intro symbol hFrom hTo
    obtain ⟨place, hPlace, rfl⟩ := (table.vocabulary.inRange_iff symbol).mp ⟨hFrom, hTo⟩
    have hPlaces := Symbol.lt_places_of_lt_countTo hPlace
    exact ⟨place, (Symbol.toInt_atPosition place hPlaces).symm,
      table.displayName_eq_some_iff hPlace⟩
  · rintro symbol (hLiteral | hSymbolic)
    · exact table.isSome_displayName_of_literalName hLiteral
    · exact table.isSome_displayName_of_symbolicName hSymbolic
  · intro state language rules registered outcome
    constructor
    · intro event hEvent
      have hLevel := state.level_define_ne_warn language rules registered hNamed hEvent
      refine ⟨hLevel, fun symbol hUnnamed => hLevel ?_⟩
      rw [hUnnamed, Notice.level]
    · intro hUndefined
      rw [state.length_tokens_define language rules registered table.vocabulary hUndefined]
      exact Symbol.countTo_eq hRange
  · intro state language rules registered answer Coincide
    refine ⟨fun refusal hRefused => ?_, ?_, ?_⟩
    · rcases state.fault_of_answer_defineChecked language rules registered hNamed hRange hRefused
        with ⟨_, _, _, hFault, _⟩ | ⟨_, _, _, hFault⟩
      · rw [hFault]
        exact ⟨fun _ => nofun, fun _ => nofun⟩
      · rw [hFault]
        exact ⟨fun _ => nofun, fun _ => nofun⟩
    · exact state.exists_refusal_sharedTokenName_iff language rules registered hNamed hRange
    · rw [State.answer_defineChecked_eq_ok_iff]
      constructor
      · intro hFit
        refine ⟨?_, hFit.rulesApart⟩
        rintro ⟨first, second, hFirst, hSecond, hApart, hSame⟩
        exact hApart (hFit.symbolsApart first second hFirst hSecond hSame)
      · rintro ⟨hNone, hRules⟩
        refine ⟨hRange, hNamed, fun first second hFirst hSecond hSame => ?_, hRules⟩
        by_contra hApart
        exact hNone ⟨first, second, hFirst, hSecond, hApart, hSame⟩

/-- The lists are of three lengths, have holes and have an empty name, which counts. The number of a
symbol without an entry may be the spelling of another one. -/
theorem name_tables_name_their_range_of_holes :
    let table : NameTable := ⟨[some "2", none, none], [none, some "B"], [none, some ""]⟩
    let base := Language.root 1 "base"
    let state := State.mk .full .empty
    table.lastSymbol = ⟨2⟩ ∧
    table.displayName ⟨1⟩ = some "" ∧ table.displayName ⟨3⟩ = none ∧
    ((state.define base table.vocabulary [] false).state.catalog.tokens base).length = 3 ∧
    ∃ name first second, (state.defineChecked base table.vocabulary ["r", "r"] true).answer =
      .error ⟨"base", .sharedTokenName name first second⟩ := by
  intro table base state
  obtain ⟨⟨_, hShort, _⟩, hSome, _, hNames, _, hDefine, hChecked⟩ :=
    table.name_tables_name_their_range
  have hNumber : table.lastSymbol.number = 2 := (hShort (by decide)).2.trans (by decide)
  have hLast : table.lastSymbol = ⟨2⟩ := congrArg Symbol.mk hNumber
  obtain ⟨place, hPlace, hEmpty⟩ := hNames ⟨1⟩ (by decide) (by rw [hLast]; decide)
  obtain rfl : place = 1 := Int.ofNat.inj hPlace
  obtain ⟨_, hLength⟩ := hDefine state base [] false
  obtain ⟨_, hShared, _⟩ := hChecked state base ["r", "r"] true
  refine ⟨hLast, (hEmpty "").mpr (.found rfl), ?_, ?_, ?_⟩
  · rw [← Option.not_isSome_iff_eq_none, hSome, hLast]
    decide
  · have hCount := hLength rfl
    rw [hLast] at hCount
    exact Int.ofNat.inj hCount
  · refine hShared.mpr ⟨⟨0⟩, ⟨2⟩, ?_, ?_, by decide, by decide⟩
    · rw [hLast]
      decide
    · rw [hLast]
      decide

end NameTable

end GrammarCatalog
