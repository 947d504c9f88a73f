import GrammarCatalog.Proofs.SetAlgebra
import GrammarCatalog.TokenSet.Shelf

/-! What is on a shelf. A step touches at most one set that is there, which gets the tokens that the
step adds to it, and may put one set behind the others. So every set is one of listed tokens or of
members of others, and lists no token twice. -/
namespace GrammarCatalog.TokenSet

/-- The instances that are members, by their serial numbers. -/
def instances (set : TokenSet) : Finset Nat := (set.members.map TokenElement.serial).toFinset

/-- A set that lists no token twice and has no members but tokens at hand. -/
structure Within (tokens : List TokenElement) (set : TokenSet) : Prop where
  nodup : set.members.Nodup
  subset : ∀ token ∈ set.members, token ∈ tokens

section Within

variable {tokens : List TokenElement} {set left right : TokenSet}

theorem Within.extend (hSet : set.Within tokens) {more : List TokenElement}
    (hMore : ∀ token ∈ more, token ∈ tokens) : (set.extend more).Within tokens := by
  refine ⟨nodup_extend more set hSet.nodup, ?_⟩
  intro token hToken
  rcases (mem_extend more set token).mp hToken with hOld | hNew
  · exact hSet.subset token hOld
  · exact hMore token hNew

theorem Within.mono (hSet : set.Within tokens) {others : List TokenElement}
    (hSubset : tokens ⊆ others) : set.Within others :=
  ⟨hSet.nodup, fun token hToken => hSubset (hSet.subset token hToken)⟩

theorem within_empty : empty.Within tokens := ⟨List.nodup_nil, nofun⟩

theorem Within.of_sublist (hSet : set.Within tokens) (hSublist : left.members.Sublist set.members) :
    left.Within tokens :=
  ⟨hSet.nodup.sublist hSublist, fun token hToken => hSet.subset token (hSublist.subset hToken)⟩

variable (hApart : ∀ token ∈ tokens, ∀ other ∈ tokens, token.serial = other.serial → token = other)

include hApart

/-- Each member is another instance. -/
theorem Within.nodup_serials (hSet : set.Within tokens) :
    (set.members.map TokenElement.serial).Nodup := by
  apply hSet.nodup.map_on
  intro token hToken other hOther
  exact hApart token (hSet.subset token hToken) other (hSet.subset other hOther)

theorem Within.size_eq_card_instances (hSet : set.Within tokens) :
    set.size = set.instances.card := by
  rw [instances, List.toFinset_card_of_nodup (hSet.nodup_serials hApart), List.length_map, size]

/-- A token at hand is a member when its instance is. -/
theorem Within.contains_iff_mem_instances (hSet : set.Within tokens) {token : TokenElement}
    (hToken : token ∈ tokens) : set.contains token = true ↔ token.serial ∈ set.instances := by
  rw [contains_iff, instances, List.mem_toFinset, List.mem_map]
  constructor
  · intro hMember
    exact ⟨token, hMember, rfl⟩
  · rintro ⟨member, hMember, hSerial⟩
    rw [← hApart member (hSet.subset member hMember) token hToken hSerial]
    exact hMember

theorem Within.instances_eq_iff (hLeft : left.Within tokens) (hRight : right.Within tokens) :
    left.instances = right.instances ↔ ∀ token, left.contains token = right.contains token := by
  constructor
  · intro hSame token
    by_cases hToken : token ∈ tokens
    · rw [Bool.eq_iff_iff, hLeft.contains_iff_mem_instances hApart hToken, hSame,
        ← hRight.contains_iff_mem_instances hApart hToken]
    · rw [Bool.eq_iff_iff, contains_iff, contains_iff]
      exact iff_of_false (mt (hLeft.subset token) hToken) (mt (hRight.subset token) hToken)
  · intro hSame
    have hPerm : left.members.Perm right.members := by
      rw [List.perm_ext_iff_of_nodup hLeft.nodup hRight.nodup]
      intro token
      rw [← contains_iff, ← contains_iff, hSame]
    exact List.toFinset_eq_of_perm _ _ (hPerm.map TokenElement.serial)

end Within

/-- The tokens that a recipe names. -/
def Recipe.tokens : Recipe → List TokenElement
  | .listed tokens => tokens
  | _ => []

namespace Shelf

/-- The tokens that a step names. -/
def Step.tokens : Step → List TokenElement
  | .make recipe => recipe.tokens
  | .insert _ token => [token]
  | .extend _ tokens => tokens

/-- The tokens that a step adds to the set with a number. -/
def Step.adds (number : Nat) : Step → List TokenElement
  | .make _ => []
  | .insert other token => if other = number then [token] else []
  | .extend other tokens => if other = number then tokens else []

/-- Only tokens that a step names are added by it. -/
theorem Step.adds_subset (step : Step) (number : Nat) : step.adds number ⊆ step.tokens := by
  cases step with
  | make recipe => exact List.nil_subset _
  | insert other token =>
      rw [adds]
      split
      · exact List.Subset.refl _
      · exact List.nil_subset _
  | extend other tokens =>
      rw [adds]
      split
      · exact List.Subset.refl _
      · exact List.nil_subset _

/-- The shelf after a step. One that speaks of a number not handed out does nothing. -/
def next (shelf : Shelf) (step : Step) : Shelf := ((shelf.take? step).map Prod.snd).getD shelf

variable {shelf : Shelf} {number : Nat} {set : TokenSet} {recipe : Recipe}

theorem take?_insert (hSet : shelf.set? number = some set) (token : TokenElement) :
    shelf.take? (.insert number token) =
      some (.inserted (!set.contains token), ⟨shelf.sets.set number (set.insert token)⟩) := by
  simp [take?, hSet]

theorem take?_extend (hSet : shelf.set? number = some set) (tokens : List TokenElement) :
    shelf.take? (.extend number tokens) =
      some (.extended (set.extend tokens).size, ⟨shelf.sets.set number (set.extend tokens)⟩) := by
  simp [take?, hSet]

theorem set?_set (hSet : shelf.set? number = some set) (later : TokenSet) :
    (Shelf.mk (shelf.sets.set number later)).set? number = some later := by
  obtain ⟨hBound, _⟩ := List.getElem?_eq_some_iff.mp hSet
  exact List.getElem?_set_self hBound

/-- As far as the shelf goes, to insert a token is to extend by it alone. -/
theorem next_insert (shelf : Shelf) (number : Nat) (token : TokenElement) :
    shelf.next (.insert number token) = shelf.next (.extend number [token]) := by
  cases hSet : shelf.set? number with
  | none => simp [next, take?, hSet]
  | some set =>
      rw [next, next, take?_insert hSet, take?_extend hSet]
      rfl

theorem next_extend (shelf : Shelf) (number : Nat) (tokens : List TokenElement) :
    shelf.next (.extend number tokens) = ⟨shelf.sets.modify number (·.extend tokens)⟩ := by
  cases hSet : shelf.set? number with
  | none =>
      have hAbsent : shelf.sets[number]? = none := hSet
      simp [next, take?, hSet, List.modify_eq_set_getElem?, hAbsent]
  | some set =>
      have hPresent : shelf.sets[number]? = some set := hSet
      simp [next, take?_extend hSet, List.modify_eq_set_getElem?, hPresent]

theorem take?_make (hBuild : shelf.build? recipe = some set) :
    shelf.take? (.make recipe) =
      some (.made shelf.sets.length set, ⟨shelf.sets ++ [set]⟩) := by
  simp [take?, hBuild]

theorem next_make (hBuild : shelf.build? recipe = some set) :
    shelf.next (.make recipe) = ⟨shelf.sets ++ [set]⟩ := by
  rw [next, take?_make hBuild]
  rfl

/-- The set that a step makes, if it makes one. -/
def made? (shelf : Shelf) : Step → Option TokenSet
  | .make recipe => shelf.build? recipe
  | _ => none

/-- A set that is there gets what the step adds to it and keeps its number. The number after the last
one goes to the set that the step makes. -/
theorem set?_next (shelf : Shelf) (step : Step) (number : Nat) :
    (shelf.next step).set? number =
      match shelf.set? number with
      | some set => some (set.extend (step.adds number))
      | none => if number = shelf.sets.length then shelf.made? step else none := by
  have hExtend : ∀ other tokens, (shelf.next (.extend other tokens)).set? number =
      (shelf.set? number).map (·.extend (if other = number then tokens else [])) := by
    intro other tokens
    rw [next_extend, set?, List.getElem?_modify]
    split
    · rfl
    · rfl
  cases step with
  | make recipe =>
      cases hBuild : shelf.build? recipe with
      | none =>
          have hSame : shelf.next (.make recipe) = shelf := by simp [next, take?, hBuild]
          rw [hSame]
          cases shelf.set? number with
          | none => simp [made?, hBuild]
          | some set => rfl
      | some new =>
          rw [next_make hBuild, made?, hBuild]
          cases hSet : shelf.set? number with
          | none =>
              have hBound : shelf.sets.length ≤ number := List.getElem?_eq_none_iff.mp hSet
              have hLast : number - shelf.sets.length = 0 ↔ number = shelf.sets.length := by omega
              simp only [set?, List.getElem?_append_right hBound, List.getElem?_singleton, hLast]
          | some set =>
              obtain ⟨hBound, _⟩ := List.getElem?_eq_some_iff.mp hSet
              exact (List.getElem?_append_left hBound).trans hSet
  | insert other token =>
      rw [next_insert, hExtend]
      cases shelf.set? number with
      | none => simp [made?]
      | some set => rfl
  | extend other tokens =>
      rw [hExtend]
      cases shelf.set? number with
      | none => simp [made?]
      | some set => rfl

/-- A set that is made of two others is made of two that are there. -/
theorem exists_operands (make : TokenSet → TokenSet → TokenSet) {left right : Nat}
    (hBuild : (do pure (make (← shelf.set? left) (← shelf.set? right))) = some set) :
    ∃ first second, shelf.set? left = some first ∧ shelf.set? right = some second ∧
      set = make first second := by
  obtain ⟨first, hFirst, hRest⟩ := Option.bind_eq_some_iff.mp hBuild
  obtain ⟨second, hSecond, hMake⟩ := Option.bind_eq_some_iff.mp hRest
  exact ⟨first, second, hFirst, hSecond, (Option.some.inj hMake).symm⟩

/-- What a recipe builds: the set of the listed tokens, the set with a number as it is, or what the
operation makes of the two sets with the numbers. -/
inductive Builds (shelf : Shelf) : Recipe → TokenSet → Prop where
  | listed (tokens : List TokenElement) : Builds shelf (.listed tokens) (.ofList tokens)
  | copy {number : Nat} {set : TokenSet} (hSet : shelf.set? number = some set) :
      Builds shelf (.copy number) set
  | union {left right : Nat} {first second : TokenSet} (hFirst : shelf.set? left = some first)
      (hSecond : shelf.set? right = some second) :
      Builds shelf (.union left right) (first.union second)
  | inter {left right : Nat} {first second : TokenSet} (hFirst : shelf.set? left = some first)
      (hSecond : shelf.set? right = some second) :
      Builds shelf (.inter left right) (first.inter second)
  | diff {left right : Nat} {first second : TokenSet} (hFirst : shelf.set? left = some first)
      (hSecond : shelf.set? right = some second) :
      Builds shelf (.diff left right) (first.diff second)

theorem build?_eq_some_iff : shelf.build? recipe = some set ↔ shelf.Builds recipe set := by
  constructor
  · intro hBuild
    cases recipe with
    | listed tokens =>
        cases hBuild
        exact .listed tokens
    | copy source => exact .copy hBuild
    | union left right =>
        obtain ⟨first, second, hFirst, hSecond, rfl⟩ := exists_operands union hBuild
        exact .union hFirst hSecond
    | inter left right =>
        obtain ⟨first, second, hFirst, hSecond, rfl⟩ := exists_operands inter hBuild
        exact .inter hFirst hSecond
    | diff left right =>
        obtain ⟨first, second, hFirst, hSecond, rfl⟩ := exists_operands diff hBuild
        exact .diff hFirst hSecond
  · intro hBuilds
    cases hBuilds with
    | listed tokens => rfl
    | copy hSet => exact hSet
    | union hFirst hSecond => simp [build?, hFirst, hSecond]
    | inter hFirst hSecond => simp [build?, hFirst, hSecond]
    | diff hFirst hSecond => simp [build?, hFirst, hSecond]

section Within

variable {tokens : List TokenElement}
  (hWithin : ∀ number set, shelf.set? number = some set → set.Within tokens)

include hWithin

/-- What is built of listed tokens at hand or of sets on the shelf lists no token twice. -/
theorem within_build? (hNamed : ∀ token ∈ recipe.tokens, token ∈ tokens)
    (hBuild : shelf.build? recipe = some set) : set.Within tokens := by
  cases build?_eq_some_iff.mp hBuild with
  | listed => exact within_empty.extend hNamed
  | copy hSet => exact hWithin _ _ hSet
  | union hFirst hSecond => exact (hWithin _ _ hFirst).extend (hWithin _ _ hSecond).subset
  | inter hFirst => exact (hWithin _ _ hFirst).of_sublist List.filter_sublist
  | diff hFirst => exact (hWithin _ _ hFirst).of_sublist List.filter_sublist

theorem within_next {step : Step} (hNamed : ∀ token ∈ step.tokens, token ∈ tokens)
    (hSet : (shelf.next step).set? number = some set) : set.Within tokens := by
  have hAdds : ∀ token ∈ step.adds number, token ∈ tokens := by
    intro token hToken
    exact hNamed token (step.adds_subset number hToken)
  rw [set?_next] at hSet
  split at hSet
  · next old hOld =>
    cases hSet
    exact (hWithin number old hOld).extend hAdds
  · split at hSet
    · cases step with
      | make recipe => exact within_build? hWithin hNamed hSet
      | insert => cases hSet
      | extend => cases hSet
    · cases hSet

end Within

end Shelf

end GrammarCatalog.TokenSet
