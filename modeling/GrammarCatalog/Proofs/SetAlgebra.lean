import GrammarCatalog.Proofs.Collecting

/-! The algebra of token sets. What is a member of a set that is made from others follows from what
the members of these are, whatever their order. Sets that list no token twice are counted as finite
sets are, and are the same exactly when they have the same members. -/
namespace GrammarCatalog.TokenSet

theorem contains_insert (set : TokenSet) (token other : TokenElement) :
    (set.insert token).contains other = (set.contains other || other == token) := by
  rw [Bool.eq_iff_iff, contains_iff, mem_insert, Bool.or_eq_true, contains_iff, beq_iff_eq]

theorem contains_extend (set : TokenSet) (tokens : List TokenElement) (other : TokenElement) :
    (set.extend tokens).contains other = (set.contains other || tokens.contains other) := by
  rw [Bool.eq_iff_iff, contains_iff, mem_extend, Bool.or_eq_true, contains_iff,
    List.contains_iff_mem]

theorem contains_ofList (tokens : List TokenElement) (token : TokenElement) :
    (ofList tokens).contains token = tokens.contains token :=
  empty.contains_extend tokens token

section Operands

variable (left right : TokenSet)

theorem contains_union (token : TokenElement) :
    (left.union right).contains token = (left.contains token || right.contains token) :=
  left.contains_extend right.members token

theorem mem_inter (token : TokenElement) :
    token ∈ (left.inter right).members ↔ token ∈ left.members ∧ token ∈ right.members := by
  rw [inter, List.mem_filter, contains_iff]

theorem mem_diff (token : TokenElement) :
    token ∈ (left.diff right).members ↔ token ∈ left.members ∧ token ∉ right.members := by
  rw [diff, List.mem_filter, Bool.not_eq_true', ← Bool.not_eq_true, contains_iff]

theorem contains_inter (token : TokenElement) :
    (left.inter right).contains token = (left.contains token && right.contains token) := by
  rw [Bool.eq_iff_iff, contains_iff, mem_inter, Bool.and_eq_true, contains_iff, contains_iff]

theorem contains_diff (token : TokenElement) :
    (left.diff right).contains token = (left.contains token && !right.contains token) := by
  rw [Bool.eq_iff_iff, contains_iff, mem_diff, Bool.and_eq_true, contains_iff, Bool.not_eq_true',
    ← Bool.not_eq_true, contains_iff]

end Operands

section Counting

variable {left right : TokenSet}

theorem nodup_inter (hLeft : left.members.Nodup) (right : TokenSet) :
    (left.inter right).members.Nodup :=
  hLeft.filter _

theorem nodup_diff (hLeft : left.members.Nodup) (right : TokenSet) :
    (left.diff right).members.Nodup :=
  hLeft.filter _

theorem size_eq_card (hLeft : left.members.Nodup) : left.size = left.members.toFinset.card :=
  (List.toFinset_card_of_nodup hLeft).symm

theorem toFinset_union (left right : TokenSet) : (left.union right).members.toFinset =
    left.members.toFinset ∪ right.members.toFinset := by
  ext token
  simp [union, mem_extend]

theorem toFinset_inter (left right : TokenSet) : (left.inter right).members.toFinset =
    left.members.toFinset ∩ right.members.toFinset := by
  ext token
  simp [mem_inter]

theorem toFinset_diff (left right : TokenSet) : (left.diff right).members.toFinset =
    left.members.toFinset \ right.members.toFinset := by
  ext token
  simp [mem_diff]

/-- What two sets have in common counts twice in their sizes and once in the union. -/
theorem size_union_add_size_inter (hLeft : left.members.Nodup) (hRight : right.members.Nodup) :
    (left.union right).size + (left.inter right).size = left.size + right.size := by
  rw [size_eq_card (nodup_union hLeft right), size_eq_card (nodup_inter hLeft right),
    size_eq_card hLeft, size_eq_card hRight, toFinset_union, toFinset_inter]
  exact Finset.card_union_add_card_inter _ _

theorem size_diff_add_size_inter (hLeft : left.members.Nodup) :
    (left.diff right).size + (left.inter right).size = left.size := by
  rw [size_eq_card (nodup_diff hLeft right), size_eq_card (nodup_inter hLeft right),
    size_eq_card hLeft, toFinset_diff, toFinset_inter]
  exact Finset.card_sdiff_add_card_inter _ _

/-- Sets of one size are the same as soon as one is included in the other, which is all that is
compared. -/
theorem perm_of_sameAs (hLeft : left.members.Nodup) (hSame : left.sameAs right = true) :
    left.members.Perm right.members := by
  rw [sameAs, Bool.and_eq_true, beq_iff_eq, List.all_eq_true] at hSame
  obtain ⟨hSize, hIncluded⟩ := hSame
  have hSubset : left.members ⊆ right.members := by
    intro token hToken
    exact (contains_iff right token).mp (hIncluded token hToken)
  exact (List.subperm_of_subset hLeft hSubset).perm_of_length_le (Nat.le_of_eq hSize.symm)

theorem sameAs_iff (hLeft : left.members.Nodup) (hRight : right.members.Nodup) :
    left.sameAs right = true ↔ ∀ token, left.contains token = right.contains token := by
  constructor
  · intro hSame token
    rw [Bool.eq_iff_iff, contains_iff, contains_iff]
    exact (perm_of_sameAs hLeft hSame).mem_iff
  · intro hSame
    apply sameAs_of_mem_iff hLeft hRight
    intro token
    rw [← contains_iff, ← contains_iff, hSame]

end Counting

end GrammarCatalog.TokenSet
