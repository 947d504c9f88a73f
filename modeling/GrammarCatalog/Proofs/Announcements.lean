import GrammarCatalog.Proofs.CheckedDefinitions
import GrammarCatalog.Proofs.FirstBearers
import GrammarCatalog.Proofs.History
import GrammarCatalog.Proofs.Trimming

/-! What definitions announce. The symbols that go by their numbers come first, although it is only
later that anything is made for them. Then comes every name that is new in the scope, with the first
symbol that bears it, and last that the lists are there. A name that the scope knows already, be it
from another dialect or from a smaller symbol, is passed over. -/
namespace GrammarCatalog

/-- How a notice reads: its level, its message and its fields. Only the want of a name is a warning,
and interning is told in more detail than the rest. -/
inductive Notice.Reads : Notice → String → String → List (String × FieldValue) → Prop where
  | unnamed (symbol : Symbol) :
      Reads (.unnamed symbol) "WARN" "vocabulary has no display name, using the symbol id"
        [("symbol", .text (toString symbol.number.toInt))]
  | interned (symbol : Symbol) (name : String) :
      Reads (.interned symbol name) "TRACE" "interning token type"
        [("symbol", .text (toString symbol.number.toInt)), ("name", .text name)]
  | defined (tokens rules : Nat) :
      Reads (.defined tokens rules) "DEBUG" "element types defined"
        [("tokens", .count tokens), ("rules", .count rules)]
  | alreadyDefined :
      Reads .alreadyDefined "DEBUG" "already defined, keeping existing element types" []

theorem Notice.reads (notice : Notice) :
    notice.Reads notice.level.text notice.message notice.fields := by
  cases notice with
  | unnamed symbol => exact .unnamed symbol
  | interned symbol name => exact .interned symbol name
  | defined tokens rules => exact .defined tokens rules
  | alreadyDefined => exact .alreadyDefined

/-- How a span reads: its name, its level and its fields. -/
inductive Span.Reads : Span → String → String → List (String × FieldValue) → Prop where
  | defining (language : String) :
      Reads ⟨.defining, language⟩ "define_language" "DEBUG" [("language", .text language)]
  | definingChecked (language : String) :
      Reads ⟨.definingChecked, language⟩ "try_define_language" "DEBUG"
        [("language", .text language)]

theorem Span.reads (span : Span) :
    span.Reads span.activity.text span.level.text span.fields := by
  obtain ⟨activity, language⟩ := span
  cases activity with
  | defining => exact .defining language
  | definingChecked => exact .definingChecked language

theorem Symbol.pairwise_upTo (last : Symbol) :
    last.upTo.Pairwise fun symbol later => symbol.number < later.number := by
  rw [upTo, List.pairwise_map]
  apply List.pairwise_lt_range.imp_of_mem
  intro place other hPlace hOther hLess
  rw [List.mem_range] at hPlace hOther
  exact (atPosition_lt_iff (lt_places_of_lt_countTo hPlace) (lt_places_of_lt_countTo hOther)).mpr
    hLess

namespace NameIndex

variable {α : Type}

/-- The first bearers keep the order in which they stand in the list. -/
theorem sublist_bearers_firsts (named : List (α × String)) :
    ((firsts named).map Prod.snd).Sublist (named.map Prod.fst) := by
  induction named with
  | nil => exact List.Sublist.refl _
  | cons entry rest ih => exact ((List.filter_sublist.map Prod.snd).trans ih).cons_cons entry.1

/-- A name stands with its first bearer and with no other. -/
theorem mem_firsts_iff (named : List (α × String)) (name : String) (bearer : α) :
    (name, bearer) ∈ firsts named ↔ named.find? (·.2 == name) = some (bearer, name) := by
  induction named with
  | nil => simp [firsts]
  | cons entry rest ih =>
      obtain ⟨first, key⟩ := entry
      by_cases hKey : name = key
      · subst hKey
        simp [firsts, eq_comm]
      · have hOther : (key == name) = false := beq_false_of_ne (Ne.symm hKey)
        simp [firsts, hOther, hKey, ih]

end NameIndex

namespace Vocabulary

variable {vocabulary : Vocabulary}

/-- The least symbol that goes by a name. -/
structure FirstBearer (vocabulary : Vocabulary) (name : String) (symbol : Symbol) : Prop where
  inRange : vocabulary.InRange symbol
  bears : vocabulary.GoesBy symbol name
  least : ∀ other, vocabulary.InRange other → vocabulary.GoesBy other name →
    symbol.number ≤ other.number

theorem map_fst_names (vocabulary : Vocabulary) :
    vocabulary.names.map Prod.fst = vocabulary.lastSymbol.upTo := by
  rw [names, List.map_map]
  exact List.map_id _

/-- The symbols come in ascending order, so the first one found with a name is the least. -/
theorem find?_names_iff (name : String) (symbol : Symbol) :
    vocabulary.names.find? (·.2 == name) = some (symbol, name) ↔
      vocabulary.FirstBearer name symbol := by
  have hOrder := vocabulary.lastSymbol.pairwise_upTo
  rw [names, List.find?_map, Option.map_eq_some_iff]
  constructor
  · rintro ⟨first, hFound, hEqual⟩
    cases hEqual
    obtain ⟨_, before, after, hSplit, hBefore⟩ := List.find?_eq_some_iff_append.mp hFound
    refine ⟨(Symbol.mem_upTo _ _).mp (by simp [hSplit]), goesBy_iff.mpr rfl, ?_⟩
    intro other hInRange hBears
    have hName := goesBy_iff.mp hBears
    have hOther := (Symbol.mem_upTo _ _).mpr hInRange
    rw [hSplit] at hOther hOrder
    rcases List.mem_append.mp hOther with hEarlier | hHere
    · have hNot := hBefore other hEarlier
      simp [hName] at hNot
    · rcases List.mem_cons.mp hHere with rfl | hLater
      · exact Int32.le_refl _
      · have hTail := (List.pairwise_append.mp hOrder).2.1
        exact Int32.le_of_lt ((List.pairwise_cons.mp hTail).1 other hLater)
  · rintro ⟨hInRange, hBears, hLeast⟩
    obtain rfl := goesBy_iff.mp hBears
    obtain ⟨before, after, hSplit⟩ := List.append_of_mem ((Symbol.mem_upTo _ _).mpr hInRange)
    refine ⟨symbol, List.find?_eq_some_iff_append.mpr ⟨by simp, before, after, hSplit, ?_⟩, rfl⟩
    intro other hEarlier
    have hSmaller : other.number < symbol.number := by
      rw [hSplit] at hOrder
      exact (List.pairwise_append.mp hOrder).2.2 other hEarlier symbol List.mem_cons_self
    have hOther : vocabulary.InRange other :=
      (Symbol.mem_upTo _ _).mp (by simp [hSplit, hEarlier])
    have hNe : vocabulary.nameOf other ≠ vocabulary.nameOf symbol := fun hName =>
      Int32.not_le.mpr hSmaller (hLeast other hOther (goesBy_iff.mpr hName))
    simpa using hNe

end Vocabulary

namespace Catalog

/-- The names of a list that have no token in a scope, each with its first bearer. -/
def newNames (catalog : Catalog) (scope : Language) (named : List (Symbol × String)) :
    List (String × Symbol) :=
  (NameIndex.firsts named).filter fun entry => (catalog.interned? scope entry.1).isNone

/-- The first name is new or is not. The others are looked at as if it had its token by then. -/
theorem newNames_cons {catalog later : Catalog} {scope : Language} {name : String}
    (hLater : ∀ other, (later.interned? scope other).isNone =
      ((catalog.interned? scope other).isNone && other != name))
    (symbol : Symbol) (rest : List (Symbol × String)) :
    catalog.newNames scope ((symbol, name) :: rest) =
      (if (catalog.interned? scope name).isSome then [] else [(name, symbol)]) ++
        later.newNames scope rest := by
  have hRest : later.newNames scope rest =
      ((NameIndex.firsts rest).filter fun entry => entry.1 != name).filter fun entry =>
        (catalog.interned? scope entry.1).isNone := by
    rw [newNames, List.filter_filter]
    simp only [hLater]
  rw [newNames, NameIndex.firsts, List.filter_cons, hRest]
  cases catalog.interned? scope name with
  | none => rfl
  | some token => rfl

/-- What there is to announce when a language is defined that was not: the symbols without a display
name and the names without a token, in the order of the symbols. -/
structure Announces (catalog : Catalog) (language : Language) (vocabulary : Vocabulary)
    (unnamed : List Symbol) (fresh : List (String × Symbol)) : Prop where
  unnamedOrder : unnamed.Pairwise fun symbol later => symbol.number < later.number
  mem_unnamed : ∀ symbol,
    symbol ∈ unnamed ↔ vocabulary.InRange symbol ∧ vocabulary.displayName symbol = none
  freshOrder : fresh.Pairwise fun entry later => entry.2.number < later.2.number
  mem_fresh : ∀ name symbol, (name, symbol) ∈ fresh ↔
    catalog.interned? language.scope name = none ∧ vocabulary.FirstBearer name symbol

theorem announces_newNames (catalog : Catalog) (language : Language) (vocabulary : Vocabulary) :
    catalog.Announces language vocabulary vocabulary.unnamed
      (catalog.newNames language.scope vocabulary.names) := by
  have hOrder := vocabulary.lastSymbol.pairwise_upTo
  refine ⟨hOrder.sublist List.filter_sublist, ?_, ?_, ?_⟩
  · intro symbol
    rw [Vocabulary.unnamed, List.mem_filter, Symbol.mem_upTo, Option.isNone_iff_eq_none]
    rfl
  · have hBearers := NameIndex.sublist_bearers_firsts vocabulary.names
    rw [vocabulary.map_fst_names] at hBearers
    exact (List.pairwise_map.mp (hOrder.sublist hBearers)).sublist List.filter_sublist
  · intro name symbol
    rw [newNames, List.mem_filter, NameIndex.mem_firsts_iff, Vocabulary.find?_names_iff,
      Option.isNone_iff_eq_none, and_comm]

end Catalog

/-- The notices of a definition, in the order in which they are given. -/
def Notice.ofDefinition (unnamed : List Symbol) (fresh : List (String × Symbol))
    (tokens rules : Nat) : List Notice :=
  unnamed.map .unnamed ++ fresh.map (fun entry => .interned entry.2 entry.1) ++
    [.defined tokens rules]

/-- A definition warns of each symbol without a name, traces each new name and ends with a notice
for debugging, whatever span it is in. -/
theorem Notice.levels_ofDefinition (unnamed : List Symbol) (fresh : List (String × Symbol))
    (tokens rules : Nat) (spans : List Span) :
    ((ofDefinition unnamed fresh tokens rules).map (Event.mk · spans)).map (·.notice.level) =
      List.replicate unnamed.length .warn ++ List.replicate fresh.length .trace ++ [.debug] := by
  simp only [ofDefinition, List.map_append, List.map_map, ← List.map_const']
  rfl

namespace State

theorem isNone_interned?_intern (state : State) (symbol : Symbol) (name : String)
    (owner : Option Language) (registered : Bool) (other : String) :
    ((state.intern symbol name owner registered).state.catalog.interned?
      (Language.scopeOf owner) other).isNone =
        ((state.catalog.interned? (Language.scopeOf owner) other).isNone && other != name) := by
  rw [interned?_intern]
  by_cases hName : other = name
  · simp [hName]
  · simp [hName]

/-- Each name that is new is announced once, by its first bearer. -/
theorem events_internAll (state : State) (owner : Option Language) (registered : Bool)
    (named : List (Symbol × String)) :
    (state.internAll owner registered named).events =
      (state.catalog.newNames (Language.scopeOf owner) named).map fun entry =>
        ⟨.interned entry.2 entry.1, []⟩ := by
  induction named generalizing state with
  | nil => rfl
  | cons entry rest ih =>
      obtain ⟨symbol, name⟩ := entry
      have hLater := state.isNone_interned?_intern symbol name owner registered
      rw [Catalog.newNames_cons hLater, List.map_append, ← ih]
      simp only [internAll, Outcome.andThen, Outcome.map, events_intern]
      split
      · rfl
      · rfl

variable (state : State) (language : Language) (vocabulary : Vocabulary) (rules : List String)
  (registered : Bool)

/-- The lists that are published are as long as the lists of names. -/
theorem lengths_establish (names : List (Symbol × String)) :
    let later := (state.establish language names rules registered).state.catalog
    (later.tokens language).length = names.length ∧
      (later.rules language).length = rules.length := by
  simp only [establish, Outcome.andThen, tokens_publish, ↓reduceIte, length_internAll, true_and]
  simp [publish, Catalog.rules, Catalog.definition?_addDefinition, Supply.length_rulesFor,
    Naming.numberedRules]

theorem events_establish_eq (names : List (Symbol × String)) :
    let outcome := state.establish language names rules registered
    outcome.events = (Notice.ofDefinition [] (state.catalog.newNames language.scope names)
      (outcome.state.catalog.tokens language).length
      (outcome.state.catalog.rules language).length).map (⟨·, []⟩) := by
  obtain ⟨hTokens, hRules⟩ := state.lengths_establish language rules registered names
  intro outcome
  simp only [outcome, hTokens, hRules, events_establish, events_internAll, Notice.ofDefinition,
    List.map_append, List.map_map, List.map_nil, List.nil_append]
  rfl

theorem events_define_of_isDefined (hDefined : state.catalog.isDefined language = true) :
    (state.define language vocabulary rules registered).events =
      [⟨.alreadyDefined, [⟨.defining, language.id⟩]⟩] := by
  rw [define, if_pos hDefined]
  rfl

/-- All that a definition announces is within its span. -/
theorem events_define_of_undefined (hUndefined : state.catalog.isDefined language = false) :
    let outcome := state.define language vocabulary rules registered
    outcome.events = (Notice.ofDefinition vocabulary.unnamed
      (state.catalog.newNames language.scope vocabulary.names)
      (outcome.state.catalog.tokens language).length
      (outcome.state.catalog.rules language).length).map (⟨·, [⟨.defining, language.id⟩]⟩) := by
  have hEvents := state.events_establish_eq language rules registered vocabulary.names
  intro outcome
  simp only [outcome, define, hUndefined, Bool.false_eq_true, ↓reduceIte, Outcome.inside,
    Outcome.preceded, hEvents, Notice.ofDefinition, List.map_append, List.map_map, List.map_nil,
    List.nil_append, List.append_assoc]
  rfl

theorem events_defineChecked_of_isDefined (hFit : Naming.Fit vocabulary rules)
    (hDefined : state.catalog.isDefined language = true) :
    (state.defineChecked language vocabulary rules registered).events =
      [⟨.alreadyDefined, [⟨.definingChecked, language.id⟩]⟩] := by
  simp only [defineChecked, Naming.check_eq_ok_iff_fit.mpr hFit, hDefined, ↓reduceIte]
  rfl

/-- A checked definition announces the same as an unchecked one, but all its symbols have names. -/
theorem events_defineChecked_of_undefined (hFit : Naming.Fit vocabulary rules)
    (hUndefined : state.catalog.isDefined language = false) :
    let outcome := state.defineChecked language vocabulary rules registered
    outcome.events = (Notice.ofDefinition []
      (state.catalog.newNames language.scope vocabulary.names)
      (outcome.state.catalog.tokens language).length
      (outcome.state.catalog.rules language).length).map
        (⟨·, [⟨.definingChecked, language.id⟩]⟩) := by
  have hEvents := state.events_establish_eq language rules registered vocabulary.names
  intro outcome
  simp only [outcome, defineChecked, Naming.check_eq_ok_iff_fit.mpr hFit, hUndefined,
    Bool.false_eq_true, ↓reduceIte, Outcome.map, Outcome.inside, hEvents, List.map_map]
  rfl

end State

end GrammarCatalog
