import GrammarCatalog.Vocabulary

/-! Name tables. A generated parser comes with three lists of names by symbol: how a token is
spelled, what the grammar calls it, and what it is to be displayed as. Any of them may be short or
have holes. -/
namespace GrammarCatalog

/-- Three lists of names, each read at the number of the symbol. -/
structure NameTable where
  literal : List (Option String)
  symbolic : List (Option String)
  display : List (Option String)
  deriving DecidableEq

namespace NameTable

/-- The table without any symbol. -/
def empty : NameTable := ⟨[], [], []⟩

/-- The table of a grammar that only names its symbols. -/
def ofSymbolic (names : List (Option String)) : NameTable := ⟨[], names, []⟩

/-- How many symbols the longest list speaks of. Holes at the end of a list count. -/
def longest (table : NameTable) : Nat :=
  max table.literal.length (max table.symbolic.length table.display.length)

/-- The last symbol is one less than the longest list is long, so a table without entries has -1. A
length that is no number of 32 bits leaves the greatest symbol there is. -/
def lastSymbol (table : NameTable) : Symbol :=
  if table.longest < Symbol.places then ⟨Int32.ofNat table.longest - 1⟩ else ⟨Int32.maxValue⟩

/-- The entry of one list. A hole and a list that is too short both give nothing. -/
def entry (names : List (Option String)) (symbol : Symbol) : Option String :=
  symbol.position?.bind fun place => names[place]?.join

/-- How the token is spelled in the language. -/
def literalName (table : NameTable) (symbol : Symbol) : Option String :=
  entry table.literal symbol

/-- What the grammar calls the token. The end of the input always has its name. -/
def symbolicName (table : NameTable) (symbol : Symbol) : Option String :=
  if symbol.isEndOfInput then some Symbol.endOfInputName else entry table.symbolic symbol

/-- The first name found: for display, as spelled, as in the grammar, or else the decimal number.
An empty name is a name. So every symbol of the range has one, and the end of the input has its
own. -/
def displayName (table : NameTable) (symbol : Symbol) : Option String :=
  if symbol.isEndOfInput then some Symbol.endOfInputName
  else if symbol.number < 0 ∨ table.lastSymbol.number < symbol.number then none
  else some ((entry table.display symbol <|> table.literalName symbol <|>
    table.symbolicName symbol).getD symbol.text)

/-- The table read as a vocabulary. -/
def vocabulary (table : NameTable) : Vocabulary := ⟨table.lastSymbol, table.displayName⟩

/-- The last symbol is one less than the longest list is long, within the numbers there are. -/
theorem toInt_lastSymbol (table : NameTable) :
    table.lastSymbol.number.toInt = min (table.longest : Int) Symbol.places - 1 := by
  unfold lastSymbol
  split
  · next hLongest =>
    have hInt : (Int32.ofNat table.longest).toInt = table.longest :=
      Int32.toInt_ofNat_of_lt hLongest
    unfold Symbol.places at hLongest ⊢
    -- Only the least number there is would wrap around, and no length is negative.
    rw [Int32.toInt_sub, hInt, Int32.toInt_one, Int.bmod_eq_of_le (by omega) (by omega)]
    omega
  · next hLongest =>
    rw [Int32.toInt_maxValue]
    unfold Symbol.places at hLongest ⊢
    omega

end NameTable

end GrammarCatalog
