import GrammarCatalog.NameIndex
import Mathlib.Data.List.Nodup
import Mathlib.Order.Nat

/-! Indexes lead to the first bearers. Where things are numbered by their places in a list of names,
the index has one entry for each name, and the entry holds the number of the least place at which
the name stands. Tokens and rules are numbered in this way. -/
namespace GrammarCatalog.NameIndex

variable {α : Type}

/-- An index of a list of names. Every name of the list has one entry, nothing else has any, and a
name leads to the number of the least place where it stands. -/
structure LeadsToFirst (index : NameIndex α) (names : List String) (number : Nat → α) : Prop where
  once : (index.entries.map Prod.fst).Nodup
  keys : ∀ name, name ∈ index.entries.map Prod.fst ↔ name ∈ names
  least : ∀ name place, IsLeast {place : Nat | names[place]? = some name} place →
    index.find? name = some (number place)

/-- A name of a list has a least place there. -/
theorem exists_isLeast {names : List String} {name : String} (hName : name ∈ names) :
    ∃ place, IsLeast {place : Nat | names[place]? = some name} place := by
  have hSome := List.mem_iff_getElem?.mp hName
  exact ⟨Nat.find hSome, Nat.isLeast_find hSome⟩

theorem LeadsToFirst.find?_eq_none {index : NameIndex α} {names : List String}
    {number : Nat → α} (hLeads : index.LeadsToFirst names number) {name : String}
    (hOther : name ∉ names) : index.find? name = none := by
  apply List.lookup_eq_none_iff.mpr
  intro entry hEntry
  have hKey : name ≠ entry.1 := fun hEqual =>
    hOther ((hLeads.keys name).mp (hEqual ▸ List.mem_map_of_mem hEntry))
  simpa using hKey

theorem mem_keys_firsts (named : List (α × String)) (name : String) :
    name ∈ (firsts named).map Prod.fst ↔ name ∈ named.map Prod.snd := by
  induction named with
  | nil => rfl
  | cons entry rest ih =>
      obtain ⟨bearer, first⟩ := entry
      simp only [firsts, List.map_cons, List.mem_cons, ← ih, List.mem_map, List.mem_filter]
      by_cases hName : name = first
      · simp [hName]
      · simp only [hName, false_or]
        constructor
        · rintro ⟨other, ⟨hOther, _⟩, hEqual⟩
          exact ⟨other, hOther, hEqual⟩
        · rintro ⟨other, hOther, rfl⟩
          exact ⟨other, ⟨hOther, by simpa using hName⟩, rfl⟩

theorem nodup_keys_firsts (named : List (α × String)) :
    ((firsts named).map Prod.fst).Nodup := by
  induction named with
  | nil => exact List.nodup_nil
  | cons entry rest ih =>
      obtain ⟨bearer, first⟩ := entry
      rw [firsts, List.map_cons, List.nodup_cons]
      constructor
      · rw [List.mem_map]
        rintro ⟨other, hOther, hEqual⟩
        simp [hEqual] at hOther
      · exact ih.sublist (List.filter_sublist.map _)

section Numbered

variable {named : List (α × String)} {names : List String} {number : Nat → α}
  (hNumbered : ∀ place : Nat,
    named[place]? = names[place]?.map fun name => (number place, name))

include hNumbered

theorem find?_ofNamed_of_isLeast {name : String} {place : Nat}
    (hFirst : IsLeast {place : Nat | names[place]? = some name} place) :
    (ofNamed named).find? name = some (number place) := by
  have hNamed : named[place]? = some (number place, name) := by
    rw [hNumbered, hFirst.1, Option.map_some]
  obtain ⟨hBound, hEntry⟩ := List.getElem?_eq_some_iff.mp hNamed
  have hFind : named.find? (·.2 == name) = some (number place, name) := by
    apply List.find?_eq_some_iff_getElem.mpr
    refine ⟨beq_self_eq_true name, place, hBound, hEntry, ?_⟩
    intro earlier hEarlier
    have hOther := hNumbered earlier
    rw [List.getElem?_eq_getElem (Nat.lt_trans hEarlier hBound), eq_comm,
      Option.map_eq_some_iff] at hOther
    obtain ⟨other, hPlace, hEqual⟩ := hOther
    -- The least place of the name lies beyond this one, so another name stands here.
    have hNe : other ≠ name := fun hSame =>
      Nat.not_le_of_lt hEarlier (hFirst.2 (hSame ▸ hPlace))
    rw [← hEqual]
    simpa using hNe
  rw [find?_ofNamed, hFind, Option.map_some]

/-- The index of numbered things leads to the first bearers. -/
theorem leadsToFirst_ofNamed : (ofNamed named).LeadsToFirst names number := by
  have hNames : named.map Prod.snd = names := by
    apply List.ext_getElem?
    intro place
    rw [List.getElem?_map, hNumbered, Option.map_map]
    exact Option.map_id_apply
  refine ⟨nodup_keys_firsts named, ?_, ?_⟩
  · intro name
    rw [← hNames]
    exact mem_keys_firsts named name
  · intro name place hFirst
    exact find?_ofNamed_of_isLeast hNumbered hFirst

end Numbered

end GrammarCatalog.NameIndex
