import GrammarCatalog.Proofs.Identity
import GrammarCatalog.Proofs.Shelves

/-! Clients of the catalogues. A client gets tokens from catalogues or makes them, and builds sets
of the tokens that it has. However the sets came about, each of them is a set of instances: tokens
that agree in symbol and name count apart, and a token counts once. -/
namespace GrammarCatalog

def Answer.tokenSets : Answer → List TokenSet
  | .tokenSet set => [set]
  | _ => []

namespace World

/-- The tokens that a move hands out. -/
def given (world : World) : Move → List TokenElement
  | .call number call => (world.take number call).1.tokenElements
  | .token symbol name owner registered => [(world.token symbol name owner registered).1]
  | _ => []

/-- The sets that a move hands out. -/
def givenSets (world : World) : Move → List TokenSet
  | .call number call => (world.take number call).1.tokenSets
  | _ => []

/-- A token that is at hand or that a catalogue keeps. -/
def Around (world : World) (tokens : List TokenElement) (token : TokenElement) : Prop :=
  token ∈ tokens ∨ ∃ key, world.tokenAt? key = some token

/-- The serial numbers of the tokens around are issued, and none of them twice. -/
structure Numbered (world : World) (tokens : List TokenElement) : Prop where
  below : ∀ token, world.Around tokens token → token.serial < world.supply.tokens
  apart : ∀ token other, world.Around tokens token → world.Around tokens other →
    token.serial = other.serial → token = other

section Numbered

variable {world later : World} {tokens others : List TokenElement}

theorem Numbered.mono (hNumbered : world.Numbered tokens)
    (hSupply : world.supply.tokens ≤ later.supply.tokens)
    (hAround : ∀ token, later.Around others token → world.Around tokens token) :
    later.Numbered others := by
  constructor
  · intro token hToken
    exact Nat.lt_of_lt_of_le (hNumbered.below token (hAround token hToken)) hSupply
  · intro token other hToken hOther
    exact hNumbered.apart token other (hAround token hToken) (hAround other hOther)

/-- One more token is told apart from those around when it has the next number. -/
theorem Numbered.add (hNumbered : world.Numbered tokens) (new : TokenElement)
    (hNew : new.serial = world.supply.tokens) (hSupply : new.serial < later.supply.tokens)
    (hAround : ∀ token, later.Around others token → world.Around tokens token ∨ token = new) :
    later.Numbered others := by
  have hApart : ∀ token, world.Around tokens token → token.serial ≠ new.serial := by
    intro token hToken
    have hBelow := hNumbered.below token hToken
    omega
  constructor
  · intro token hToken
    rcases hAround token hToken with hOld | rfl
    · have hBelow := hNumbered.below token hOld
      omega
    · exact hSupply
  · intro token other hToken hOther hSerial
    rcases hAround token hToken with hOld | rfl
    · rcases hAround other hOther with hOld' | rfl
      · exact hNumbered.apart token other hOld hOld' hSerial
      · exact absurd hSerial (hApart token hOld)
    · rcases hAround other hOther with hOld' | rfl
      · exact absurd hSerial.symm (hApart other hOld')
      · rfl

theorem numbered_of_adds {number : Nat} {state : State}
    (hAdds : State.Adds (world.stateOf number) state) (hNumbered : world.Numbered tokens) :
    (world.withState number state).Numbered tokens := by
  cases hAdds with
  | token added symbol name owner registered =>
      apply hNumbered.add (world.supply.token symbol name owner registered).1 rfl
        (Nat.lt_succ_self _)
      rintro token (hHeld | ⟨⟨other, key⟩, hKept⟩)
      · exact Or.inl (Or.inl hHeld)
      · rw [tokenAt?, catalogs_withState] at hKept
        split at hKept
        · rw [Catalog.tokenAt?_addToken] at hKept
          split at hKept
          · exact Or.inr (Option.some.inj hKept).symm
          · exact Or.inl (Or.inr ⟨(number, key), hKept⟩)
        · exact Or.inl (Or.inr ⟨(other, key), hKept⟩)
  | definition language blueprint listed =>
      refine hNumbered.mono (Nat.le_refl _) ?_
      rintro token (hHeld | ⟨⟨other, key⟩, hKept⟩)
      · exact Or.inl hHeld
      · rw [tokenAt?, catalogs_withState] at hKept
        split at hKept
        · rw [Catalog.tokenAt?_addDefinition] at hKept
          exact Or.inr ⟨(number, key), hKept⟩
        · exact Or.inr ⟨(other, key), hKept⟩

/-- Tokens that a catalogue hands out are kept there, so it is in the catalogues that they are
numbered. A token that is made outside of them gets the next number. -/
theorem numbered_next (hSound : world.Sound) (hNumbered : world.Numbered tokens) (move : Move) :
    (world.next move).Numbered (tokens ++ world.given move) := by
  cases move with
  | call number call =>
      have hGrown : (world.next (.call number call)).Numbered tokens :=
        withState_keeps (Numbered · tokens) (fun _ _ _ hAdds => numbered_of_adds hAdds)
          (State.grows_take _ call) hNumbered
      apply hGrown.mono (Nat.le_refl _)
      rintro token (hHeld | hKept)
      · rcases List.mem_append.mp hHeld with hOld | hGiven
        · exact Or.inl hOld
        · obtain ⟨key, hHandsOut⟩ := exists_handsOut world number call token hGiven
          exact Or.inr ⟨key, tokenAt?_of_handsOut hSound hHandsOut⟩
      · exact Or.inr hKept
  | token symbol name owner registered =>
      apply hNumbered.add (world.token symbol name owner registered).1 rfl
        (Nat.lt_succ_self _)
      rintro token (hHeld | hKept)
      · rcases List.mem_append.mp hHeld with hOld | hGiven
        · exact Or.inl (Or.inl hOld)
        · exact Or.inr (List.mem_singleton.mp hGiven)
      · exact Or.inl (Or.inr hKept)
  | _ =>
      refine hNumbered.mono (Nat.le_refl _) ?_
      rintro token (hHeld | hKept)
      · exact Or.inl (by simpa [given] using hHeld)
      · exact Or.inr hKept

end Numbered

/-- A set that a catalogue hands out lists no token twice, and with it its tokens are handed out. -/
theorem within_givenSets (world : World) (move : Move) {set : TokenSet}
    (hSet : set ∈ world.givenSets move) : set.Within (world.given move) := by
  cases move with
  | call number call =>
      cases call with
      | tokenSet language symbols =>
          obtain rfl := List.mem_singleton.mp hSet
          exact ⟨State.nodup_tokenSet _ language symbols, fun _ hToken => hToken⟩
      | defineChecked language vocabulary rules registered =>
          simp only [givenSets, take, State.take, Outcome.map] at hSet
          split at hSet
          · cases hSet
          · cases hSet
      | _ => cases hSet
  | _ => cases hSet

end World

/-- A world, the tokens that a client has got there, and the sets that it has built. -/
structure Client where
  world : World
  tokens : List TokenElement
  shelf : TokenSet.Shelf

namespace Client

/-- Before anything happens there is nothing at hand. -/
def start : Client := ⟨.empty, [], .empty⟩

/-- What may happen: a move in the world, which hands out tokens and sets, or a step on the shelf. -/
inductive Act where
  | move (move : World.Move)
  | shelve (step : TokenSet.Shelf.Step)

/-- An act that inserts into the set with a number or extends it. -/
inductive Act.Touches (number : Nat) : Act → Prop where
  | insert (token : TokenElement) : Touches number (.shelve (.insert number token))
  | extend (tokens : List TokenElement) : Touches number (.shelve (.extend number tokens))

/-- A set that is handed out goes to the shelf. A step is taken when the tokens that it names are at
hand. -/
def next (client : Client) : Act → Client
  | .move move =>
    ⟨client.world.next move, client.tokens ++ client.world.given move,
      ⟨client.shelf.sets ++ client.world.givenSets move⟩⟩
  | .shelve step =>
    if ∀ token ∈ step.tokens, token ∈ client.tokens then
      { client with shelf := client.shelf.next step }
    else client

def run (client : Client) (acts : List Act) : Client := acts.foldl next client

/-- The client after some acts. -/
def after (acts : List Act) : Client := start.run acts

/-- The tokens that an act adds to the set with a number. -/
def adds (client : Client) (number : Nat) : Act → List TokenElement
  | .move _ => []
  | .shelve step =>
    if ∀ token ∈ step.tokens, token ∈ client.tokens then step.adds number else []

/-- The tokens that are added to the set with a number while acts happen. -/
def added (client : Client) (number : Nat) : List Act → List TokenElement
  | [] => []
  | act :: rest => client.adds number act ++ (client.next act).added number rest

/-- The tokens are told apart by serial numbers, and the sets are sets of such tokens. -/
structure Sound (client : Client) : Prop where
  world : client.world.Sound
  tokens : client.world.Numbered client.tokens
  sets : ∀ number set, client.shelf.set? number = some set → set.Within client.tokens

theorem sound_start : start.Sound := by
  have hNothing : ∀ token, ¬World.empty.Around [] token := by
    rintro token (hHeld | ⟨⟨number, key⟩, hKept⟩)
    · cases hHeld
    · cases key <;> cases hKept
  refine ⟨World.sound_empty, ⟨?_, ?_⟩, nofun⟩
  · intro token hToken
    exact absurd hToken (hNothing token)
  · intro token other hToken
    exact absurd hToken (hNothing token)

theorem sound_next (client : Client) (act : Act) (hSound : client.Sound) :
    (client.next act).Sound := by
  cases act with
  | move move =>
      refine ⟨World.sound_next _ move hSound.world,
        World.numbered_next hSound.world hSound.tokens move, ?_⟩
      intro number set hSet
      rcases List.mem_append.mp (List.mem_of_getElem? hSet) with hOld | hGiven
      · obtain ⟨place, hPlace⟩ := List.mem_iff_getElem?.mp hOld
        exact (hSound.sets place set hPlace).mono (List.subset_append_left _ _)
      · exact (client.world.within_givenSets move hGiven).mono (List.subset_append_right _ _)
  | shelve step =>
      rw [next]
      split
      · next hNamed =>
        refine ⟨hSound.world, hSound.tokens, ?_⟩
        intro number set hSet
        exact TokenSet.Shelf.within_next hSound.sets hNamed hSet
      · exact hSound

theorem sound_run (client : Client) (acts : List Act) (hSound : client.Sound) :
    (client.run acts).Sound := by
  induction acts generalizing client with
  | nil => exact hSound
  | cons act rest ih => exact ih _ (client.sound_next act hSound)

theorem sound_after (acts : List Act) : (after acts).Sound := start.sound_run acts sound_start

variable {client : Client} {number : Nat} {set : TokenSet}

theorem Sound.within_of_mem (hSound : client.Sound) (hSet : set ∈ client.shelf.sets) :
    set.Within client.tokens := by
  obtain ⟨number, hNumber⟩ := List.mem_iff_getElem?.mp hSet
  exact hSound.sets number set hNumber

theorem set?_next (hSet : client.shelf.set? number = some set) (act : Act) :
    (client.next act).shelf.set? number = some (set.extend (client.adds number act)) := by
  cases act with
  | move move =>
      obtain ⟨hBound, _⟩ := List.getElem?_eq_some_iff.mp hSet
      exact (List.getElem?_append_left hBound).trans hSet
  | shelve step =>
      rw [next, adds]
      split
      · rw [TokenSet.Shelf.set?_next, hSet]
      · exact hSet

/-- All that happens to a set is that tokens are added to it by its number. -/
theorem set?_run (hSet : client.shelf.set? number = some set) (acts : List Act) :
    (client.run acts).shelf.set? number = some (set.extend (client.added number acts)) := by
  induction acts generalizing client set with
  | nil => exact hSet
  | cons act rest ih =>
      rw [added, TokenSet.extend, List.foldl_append]
      exact ih (set?_next hSet act)

theorem adds_eq_nil (client : Client) {act : Act} (hOther : ¬act.Touches number) :
    client.adds number act = [] := by
  cases act with
  | move => rfl
  | shelve step =>
      have hNone : step.adds number = [] := by
        cases step with
        | make recipe => rfl
        | insert other token =>
            apply if_neg
            rintro rfl
            exact hOther (.insert token)
        | extend other tokens =>
            apply if_neg
            rintro rfl
            exact hOther (.extend tokens)
      rw [adds, hNone, ite_self]

theorem added_eq_nil (client : Client) {acts : List Act}
    (hOthers : ∀ act ∈ acts, ¬act.Touches number) : client.added number acts = [] := by
  induction acts generalizing client with
  | nil => rfl
  | cons act rest ih =>
      rw [List.forall_mem_cons] at hOthers
      rw [added, client.adds_eq_nil hOthers.1, ih _ hOthers.2, List.append_nil]

/-- Whatever a client does, its sets are sets of instances. The tokens at hand are told apart by
serial numbers, be they alike in all that they show or from different catalogues. Each set lists its
members once, and what it contains is a matter of the instance. Unions, intersections and
differences contain what those of sets do and are counted as those are. Sets are the same exactly
when they have the same members. A set is made of the listed tokens, as a copy, or by one of these
operations from the sets with the given numbers, and goes by a new number. From then on it changes
by the tokens that are inserted into it or extend it, and by nothing else, so a copy and its source
do not follow one another. -/
theorem token_sets_are_sets_of_instances (acts : List Act) :
    let client := after acts
    (∀ token ∈ client.tokens, ∀ other ∈ client.tokens,
      token.serial = other.serial → token = other) ∧
    (∀ set ∈ client.shelf.sets,
      set.members.Nodup ∧ set.size = set.instances.card ∧
      (∀ token, set.contains token = true → token ∈ client.tokens) ∧
      ∀ token ∈ client.tokens, (set.contains token = true ↔ token.serial ∈ set.instances)) ∧
    (∀ left ∈ client.shelf.sets, ∀ right ∈ client.shelf.sets,
      (∀ token, (left.union right).contains token = (left.contains token || right.contains token) ∧
        (left.inter right).contains token = (left.contains token && right.contains token) ∧
        (left.diff right).contains token = (left.contains token && !right.contains token)) ∧
      (left.union right).size + (left.inter right).size = left.size + right.size ∧
      (left.diff right).size + (left.inter right).size = left.size ∧
      (left.sameAs right = true ↔ ∀ token, left.contains token = right.contains token) ∧
      (left.sameAs right = true ↔ left.instances = right.instances)) ∧
    (∀ recipe set, client.shelf.build? recipe = some set ↔ client.shelf.Builds recipe set) ∧
    (∀ recipe set, client.shelf.build? recipe = some set →
      (∃ later, client.shelf.take? (.make recipe) =
        some (.made client.shelf.sets.length set, later)) ∧
      ((∀ token ∈ recipe.tokens, token ∈ client.tokens) →
        (client.next (.shelve (.make recipe))).shelf.set? client.shelf.sets.length = some set)) ∧
    (∀ tokens token, (TokenSet.ofList tokens).contains token = tokens.contains token) ∧
    ∀ number set, client.shelf.set? number = some set →
      (∀ token, ∃ later,
        client.shelf.take? (.insert number token) = some (.inserted (!set.contains token), later) ∧
        later.set? number = some (set.insert token) ∧
        ∀ other, (set.insert token).contains other = (set.contains other || other == token)) ∧
      (∀ tokens, ∃ later,
        client.shelf.take? (.extend number tokens) =
          some (.extended (set.extend tokens).size, later) ∧
        later.set? number = some (set.extend tokens) ∧
        ∀ other, (set.extend tokens).contains other =
          (set.contains other || tokens.contains other)) ∧
      (∀ later, (client.run later).shelf.set? number =
        some (set.extend (client.added number later))) ∧
      ∀ later, (∀ act ∈ later, ¬act.Touches number) →
        (client.run later).shelf.set? number = some set := by
  intro client
  have hSound := sound_after acts
  have hApart : ∀ token ∈ client.tokens, ∀ other ∈ client.tokens,
      token.serial = other.serial → token = other := by
    intro token hToken other hOther
    exact hSound.tokens.apart token other (Or.inl hToken) (Or.inl hOther)
  refine ⟨hApart, ?_, ?_, fun _ _ => TokenSet.Shelf.build?_eq_some_iff, ?_,
    TokenSet.contains_ofList, ?_⟩
  · intro set hSet
    have hOwn := hSound.within_of_mem hSet
    refine ⟨hOwn.nodup, hOwn.size_eq_card_instances hApart, ?_, ?_⟩
    · intro token hToken
      exact hOwn.subset token ((set.contains_iff token).mp hToken)
    · intro token hToken
      exact hOwn.contains_iff_mem_instances hApart hToken
  · intro left hLeft right hRight
    have hFirst := hSound.within_of_mem hLeft
    have hSecond := hSound.within_of_mem hRight
    have hSame := TokenSet.sameAs_iff hFirst.nodup hSecond.nodup
    refine ⟨?_, ?_, ?_, hSame, ?_⟩
    · intro token
      exact ⟨left.contains_union right token, left.contains_inter right token,
        left.contains_diff right token⟩
    · exact TokenSet.size_union_add_size_inter hFirst.nodup hSecond.nodup
    · exact TokenSet.size_diff_add_size_inter hFirst.nodup
    · rw [hSame, hFirst.instances_eq_iff hApart hSecond]
  · intro recipe set hBuild
    refine ⟨⟨_, TokenSet.Shelf.take?_make hBuild⟩, fun hNamed => ?_⟩
    have hStep : (∀ token ∈ (TokenSet.Shelf.Step.make recipe).tokens, token ∈ client.tokens) :=
      hNamed
    rw [next, if_pos hStep, TokenSet.Shelf.next_make hBuild]
    exact List.getElem?_concat_length
  · intro number set hSet
    refine ⟨?_, ?_, set?_run hSet, ?_⟩
    · intro token
      exact ⟨_, TokenSet.Shelf.take?_insert hSet token, TokenSet.Shelf.set?_set hSet _,
        set.contains_insert token⟩
    · intro tokens
      exact ⟨_, TokenSet.Shelf.take?_extend hSet tokens, TokenSet.Shelf.set?_set hSet _,
        set.contains_extend tokens⟩
    · intro later hOthers
      rw [set?_run hSet, client.added_eq_nil hOthers]
      rfl

/-- Two tokens that show the same are two members, and one that is listed again is not. The token of
the same name from a catalogue goes to the copy and not to its source. A third set has one of the
two tokens and that of the catalogue. -/
theorem token_sets_are_sets_of_instances_of_equal_names :
    let alike := World.Move.token ⟨1⟩ "A" none false
    let first : TokenElement := ⟨0, ⟨1⟩, "A", none, false⟩
    let second : TokenElement := ⟨1, ⟨1⟩, "A", none, false⟩
    let third : TokenElement := ⟨2, ⟨1⟩, "A", none, false⟩
    let client := after [.move alike, .move alike, .move (.call 1 (.intern ⟨1⟩ "A" none false)),
      .shelve (.make (.listed [first, second, first])), .shelve (.make (.copy 0)),
      .shelve (.make (.listed [third, second]))]
    let later := client.run [.shelve (.insert 1 third)]
    let made := fun recipe => (client.next (.shelve (.make recipe))).shelf.set? 3
    ∃ source copy, later.shelf.set? 0 = some source ∧ later.shelf.set? 1 = some copy ∧
      source.size = 2 ∧ source.contains third = false ∧ copy.contains third = true ∧
      made (.union 0 2) = some ⟨[first, second, third]⟩ ∧ made (.inter 0 2) = some ⟨[second]⟩ ∧
      made (.diff 0 2) = some ⟨[first]⟩ ∧ made (.diff 2 0) = some ⟨[third]⟩ := by
  intro alike first second third client later made
  let pair : TokenSet := ⟨[first, second]⟩
  let other : TokenSet := ⟨[third, second]⟩
  obtain ⟨_, hSets, _, hBuilds, hMade, _, hGoes⟩ := token_sets_are_sets_of_instances
    [.move alike, .move alike, .move (.call 1 (.intern ⟨1⟩ "A" none false)),
      .shelve (.make (.listed [first, second, first])), .shelve (.make (.copy 0)),
      .shelve (.make (.listed [third, second]))]
  obtain ⟨_, _, _, hStays⟩ := hGoes 0 pair rfl
  obtain ⟨_, hExtend, hCopy, _⟩ := hGoes 1 pair rfl
  obtain ⟨_, _, _, hContains⟩ := hExtend [third]
  have hSource : ∀ act ∈ [Act.shelve (.insert 1 third)], ¬act.Touches 0 := by
    intro act hAct hTouches
    cases hAct with
    | head => cases hTouches
    | tail _ hRest => cases hRest
  have hSize := (hSets pair List.mem_cons_self).2.1
  have hFirst : client.shelf.set? 0 = some pair := rfl
  have hThird : client.shelf.set? 2 = some other := rfl
  refine ⟨pair, pair.extend [third], hStays _ hSource, hCopy [.shelve (.insert 1 third)],
    hSize.trans rfl, rfl, ?_, ?_, ?_, ?_, ?_⟩
  · rw [hContains]
    rfl
  · exact (hMade (.union 0 2) _ ((hBuilds _ _).mpr (.union hFirst hThird))).2 nofun
  · exact (hMade (.inter 0 2) _ ((hBuilds _ _).mpr (.inter hFirst hThird))).2 nofun
  · exact (hMade (.diff 0 2) _ ((hBuilds _ _).mpr (.diff hFirst hThird))).2 nofun
  · exact (hMade (.diff 2 0) _ ((hBuilds _ _).mpr (.diff hThird hFirst))).2 nofun

end Client

end GrammarCatalog
