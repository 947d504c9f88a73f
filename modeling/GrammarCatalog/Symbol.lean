/-! The numbers that a grammar gives its token symbols. A vocabulary numbers its symbols from 0
without gaps. The end of the input is a symbol as well, and lies outside every vocabulary. -/
namespace GrammarCatalog

/-- A token symbol is a signed 32-bit number. Only the non-negative ones have a place in a list of
tokens; the others may still be asked for. -/
structure Symbol where
  number : Int32
  deriving DecidableEq

namespace Symbol

/-- The end of the input. It is negative, so no vocabulary can hold it. -/
def endOfInput : Symbol := ⟨-1⟩

/-- The slot with which every vocabulary starts and which no lexer produces. -/
def unused : Symbol := ⟨0⟩

/-- The name that the end of the input goes by, whatever the vocabulary. -/
def endOfInputName : String := "EOF"

def isEndOfInput (symbol : Symbol) : Bool := symbol == endOfInput

/-- The place of a symbol in a list that starts with symbol 0. -/
def position? (symbol : Symbol) : Option Nat :=
  if symbol.number < 0 then none else some symbol.number.toInt.toNat

/-- How many symbols have a place. It is the 31st power of 2, as numbers have 31 bits and a sign. -/
def places : Nat := 2147483648

/-- The symbol at a place. Places end where the numbers do. -/
def atPosition (place : Nat) : Symbol := ⟨Int32.ofNat place⟩

/-- How many symbols run from 0 to `last` inclusive. -/
def countTo (last : Symbol) : Nat := (last.number.toInt + 1).toNat

/-- The symbols from 0 to `last` inclusive, ascending. There are none when `last` is negative. -/
def upTo (last : Symbol) : List Symbol := (List.range last.countTo).map atPosition

instance : LE Symbol := ⟨fun a b => a.number ≤ b.number⟩

instance : DecidableLE Symbol := fun a b => inferInstanceAs (Decidable (a.number ≤ b.number))

/-- The decimal number. -/
def text (symbol : Symbol) : String := toString symbol.number.toInt

/-- The text for diagnostics, which sets the end of the input apart. -/
def description (symbol : Symbol) : String :=
  if symbol.isEndOfInput then "SymbolId::EOF" else "SymbolId(" ++ symbol.text ++ ")"

/-- A place that a vocabulary can reach is the number of the symbol there. -/
theorem toInt_atPosition (place : Nat) (hPlace : place < places) :
    (atPosition place).number.toInt = place :=
  Int32.toInt_ofNat_of_lt hPlace

/-- A place that a vocabulary can reach is found again from the symbol there. -/
theorem position?_atPosition (place : Nat) (hPlace : place < places) :
    (atPosition place).position? = some place := by
  have hInt : (Int32.ofNat place).toInt = place := Int32.toInt_ofNat_of_lt hPlace
  have hSign : ¬ Int32.ofNat place < 0 := by
    rw [Int32.lt_iff_toInt_lt, hInt]
    simp
  simp [position?, atPosition, hInt, hSign]

theorem atPosition_inj {place other : Nat} (hPlace : place < places) (hOther : other < places)
    (hEqual : atPosition place = atPosition other) : place = other := by
  have hInt := congrArg (fun symbol => symbol.number.toInt) hEqual
  simp only [toInt_atPosition place hPlace, toInt_atPosition other hOther] at hInt
  omega

/-- A symbol that has a place is the one at that place. -/
theorem atPosition_of_position? {symbol : Symbol} {place : Nat}
    (hPlace : symbol.position? = some place) : symbol = atPosition place := by
  unfold position? at hPlace
  split at hPlace
  · cases hPlace
  · next hSign =>
    cases hPlace
    rw [Int32.lt_iff_toInt_lt, Int32.toInt_zero, Int.not_lt] at hSign
    have hBound := symbol.number.toInt_lt
    have hInt := toInt_atPosition symbol.number.toInt.toNat (by unfold places; omega)
    rw [Int.toNat_of_nonneg hSign] at hInt
    exact congrArg mk (Int32.toInt_inj.mp hInt).symm

/-- Of two symbols one has the smaller number unless they are the same. -/
theorem lt_or_eq_or_gt (symbol other : Symbol) :
    symbol.number < other.number ∨ symbol = other ∨ other.number < symbol.number := by
  rw [Int32.lt_iff_toInt_lt, Int32.lt_iff_toInt_lt]
  rcases Int.lt_trichotomy symbol.number.toInt other.number.toInt with hLess | hInt | hMore
  · exact Or.inl hLess
  · exact Or.inr (Or.inl (congrArg mk (Int32.toInt_inj.mp hInt)))
  · exact Or.inr (Or.inr hMore)

theorem length_upTo (last : Symbol) : last.upTo.length = last.countTo := by
  simp [upTo]

/-- Reading the list of symbols at a place gives the symbol with that place. -/
theorem getElem?_upTo (last : Symbol) (place : Nat) :
    last.upTo[place]? = if place < last.countTo then some (atPosition place) else none := by
  by_cases hPlace : place < last.countTo <;> simp [upTo, hPlace]

theorem countTo_le_places (last : Symbol) : last.countTo ≤ places := by
  have hLast := last.number.toInt_lt
  unfold countTo places
  omega

/-- A range that is empty or not has one symbol more than its last number says. -/
theorem countTo_eq {last : Symbol} (hRange : -1 ≤ last.number) :
    (last.countTo : Int) = last.number.toInt + 1 := by
  have hInt : -1 ≤ last.number.toInt := Int32.le_iff_toInt_le.mp hRange
  unfold countTo
  omega

theorem lt_places_of_lt_countTo {last : Symbol} {place : Nat} (hPlace : place < last.countTo) :
    place < places :=
  Nat.lt_of_lt_of_le hPlace last.countTo_le_places

/-- The symbols up to the last one have the numbers from 0 to that of the last one. -/
theorem mem_upTo (last symbol : Symbol) :
    symbol ∈ last.upTo ↔ 0 ≤ symbol.number ∧ symbol.number ≤ last.number := by
  simp only [upTo, List.mem_map, List.mem_range, Int32.le_iff_toInt_le, Int32.toInt_zero]
  constructor
  · rintro ⟨place, hPlace, rfl⟩
    rw [toInt_atPosition place (lt_places_of_lt_countTo hPlace)]
    unfold countTo at hPlace
    omega
  · rintro ⟨hFrom, hTo⟩
    have hBound : symbol.number.toInt.toNat < last.countTo := by
      unfold countTo
      omega
    refine ⟨symbol.number.toInt.toNat, hBound, ?_⟩
    have hInt := toInt_atPosition _ (lt_places_of_lt_countTo hBound)
    rw [Int.toNat_of_nonneg hFrom] at hInt
    exact congrArg Symbol.mk (Int32.toInt_inj.mp hInt)

/-- Symbols are ordered as their places are. -/
theorem atPosition_lt_iff {place other : Nat} (hPlace : place < places) (hOther : other < places) :
    (atPosition place).number < (atPosition other).number ↔ place < other := by
  rw [Int32.lt_iff_toInt_lt, toInt_atPosition place hPlace, toInt_atPosition other hOther]
  omega

end Symbol

end GrammarCatalog
