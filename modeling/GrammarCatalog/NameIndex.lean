/-! Indexes from names to what bears them. A name may have several bearers; the index holds the
first of them. -/
namespace GrammarCatalog

/-- One bearer for each name. -/
structure NameIndex (α : Type) where
  entries : List (String × α)
  deriving DecidableEq

namespace NameIndex

variable {α : Type}

/-- Keeps of the bearers of each name the first. -/
def firsts : List (α × String) → List (String × α)
  | [] => []
  | (bearer, name) :: rest => (name, bearer) :: (firsts rest).filter (·.1 != name)

/-- The index of named things. Of those with one name it holds the first. -/
def ofNamed (named : List (α × String)) : NameIndex α := ⟨firsts named⟩

/-- The bearer of a name. -/
def find? (index : NameIndex α) (name : String) : Option α := index.entries.lookup name

/-- The entries ordered by name. -/
def listing (index : NameIndex α) : List (String × α) :=
  index.entries.mergeSort fun a b => decide (a.1 ≤ b.1)

/-- Leaving out one name does not concern the others. -/
theorem lookup_filter_ne (entries : List (String × α)) (name other : String)
    (hOther : other ≠ name) :
    (entries.filter (·.1 != name)).lookup other = entries.lookup other := by
  induction entries with
  | nil => rfl
  | cons entry rest ih =>
    obtain ⟨key, bearer⟩ := entry
    by_cases hKey : key = name
    · subst hKey
      simpa [List.lookup_cons, beq_false_of_ne hOther] using ih
    · simp [hKey, List.lookup_cons, ih]

/-- The index answers with the first bearer of the name. -/
theorem find?_ofNamed (named : List (α × String)) (name : String) :
    (ofNamed named).find? name = (named.find? (·.2 == name)).map Prod.fst := by
  induction named with
  | nil => rfl
  | cons entry rest ih =>
    obtain ⟨bearer, key⟩ := entry
    simp only [ofNamed, find?] at ih
    by_cases hKey : name = key
    · subst hKey
      simp [ofNamed, find?, firsts]
    · have hBack : (key == name) = false := beq_false_of_ne (Ne.symm hKey)
      simp only [ofNamed, find?, firsts, List.lookup_cons, beq_false_of_ne hKey,
        List.find?_cons, hBack, ← ih]
      exact lookup_filter_ne _ _ _ hKey

end NameIndex

end GrammarCatalog
