/-! Lists as they are shown: in ascending order, each entry once, in brackets; and how many entries
are left when each counts once. -/
namespace GrammarCatalog.Listing

variable {α : Type}

/-- The entries of a list in ascending order, each once however often it occurs. -/
def ascending [DecidableEq α] [LE α] [DecidableLE α] (entries : List α) : List α :=
  entries.eraseDups.mergeSort fun a b => decide (a ≤ b)

/-- How many different entries a list has. -/
def distinct [DecidableEq α] (entries : List α) : Nat := entries.eraseDups.length

/-- The texts of the entries between brackets, with a comma and a blank between two entries. -/
def bracketed (text : α → String) (entries : List α) : String :=
  "[" ++ ", ".intercalate (entries.map text) ++ "]"

end GrammarCatalog.Listing
