import GrammarCatalog.Symbol

/-! Vocabularies. A vocabulary says how far its symbols run and what they are called. It may leave
symbols without a name and give one name to several symbols; whether that is acceptable is for
those who read it. -/
namespace GrammarCatalog

/-- The symbols of a vocabulary run from 0 to `lastSymbol` inclusive. The names are asked for one
at a time and may exist for symbols outside that range. -/
structure Vocabulary where
  lastSymbol : Symbol
  displayName : Symbol → Option String

namespace Vocabulary

/-- A vocabulary that states its range and lists the names it has. -/
def ofNames (lastSymbol : Symbol) (names : List (Symbol × String)) : Vocabulary :=
  ⟨lastSymbol, fun symbol => names.lookup symbol⟩

/-- The name under which a symbol goes: its display name, or else its decimal number. -/
def nameOf (vocabulary : Vocabulary) (symbol : Symbol) : String :=
  (vocabulary.displayName symbol).getD symbol.text

/-- Every symbol of the range with its name, ascending. -/
def names (vocabulary : Vocabulary) : List (Symbol × String) :=
  vocabulary.lastSymbol.upTo.map fun symbol => (symbol, vocabulary.nameOf symbol)

/-- The symbols of the range that have no display name, ascending. -/
def unnamed (vocabulary : Vocabulary) : List Symbol :=
  vocabulary.lastSymbol.upTo.filter fun symbol => (vocabulary.displayName symbol).isNone

theorem length_names (vocabulary : Vocabulary) :
    vocabulary.names.length = vocabulary.lastSymbol.countTo := by
  simp [names, Symbol.length_upTo]

/-- A symbol goes by its display name, or by its decimal number when it has none. -/
inductive GoesBy (vocabulary : Vocabulary) (symbol : Symbol) : String → Prop where
  | displayed {name : String} (hName : vocabulary.displayName symbol = some name) :
      vocabulary.GoesBy symbol name
  | numbered (hNone : vocabulary.displayName symbol = none) :
      vocabulary.GoesBy symbol (toString symbol.number.toInt)

theorem goesBy_iff {vocabulary : Vocabulary} {symbol : Symbol} {name : String} :
    vocabulary.GoesBy symbol name ↔ vocabulary.nameOf symbol = name := by
  unfold nameOf
  constructor
  · rintro (hName | hNone)
    · rw [hName, Option.getD_some]
    · rw [hNone, Option.getD_none, Symbol.text]
  · rintro rfl
    cases hName : vocabulary.displayName symbol with
    | some name => exact .displayed hName
    | none => exact .numbered hName

/-- A list that spells the vocabulary out has the symbols from 0 to the last one, each at the place
of its number with the name that it goes by. -/
def Spells (vocabulary : Vocabulary) (names : List (Symbol × String)) : Prop :=
  ∀ (place : Nat) symbol name, names[place]? = some (symbol, name) ↔
    symbol.number.toInt = place ∧ symbol.number ≤ vocabulary.lastSymbol.number ∧
      vocabulary.GoesBy symbol name

theorem spells_names (vocabulary : Vocabulary) : vocabulary.Spells vocabulary.names := by
  intro place symbol name
  rw [names, List.getElem?_map, Symbol.getElem?_upTo, Int32.le_iff_toInt_le, goesBy_iff]
  constructor
  · split
    · next hPlace =>
      intro hEntry
      cases hEntry
      rw [Symbol.toInt_atPosition place (Symbol.lt_places_of_lt_countTo hPlace)]
      unfold Symbol.countTo at hPlace
      exact ⟨rfl, by omega, rfl⟩
    · intro hEntry
      cases hEntry
  · rintro ⟨hNumber, hLast, rfl⟩
    have hPlace : place < vocabulary.lastSymbol.countTo := by
      unfold Symbol.countTo
      omega
    have hSame := Symbol.toInt_atPosition place (Symbol.lt_places_of_lt_countTo hPlace)
    obtain rfl : symbol = .atPosition place :=
      congrArg Symbol.mk (Int32.toInt_inj.mp (hNumber.trans hSame.symm))
    rw [if_pos hPlace, Option.map_some]

end Vocabulary

end GrammarCatalog
