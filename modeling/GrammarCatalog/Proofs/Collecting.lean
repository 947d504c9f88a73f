import GrammarCatalog.Listing
import GrammarCatalog.Proofs.Answers
import GrammarCatalog.Proofs.Membership
import Mathlib.Data.Finset.Card
import Mathlib.Data.Finset.Dedup

/-! Collecting tokens. A set is made in one call, which reads the list of the language once, while
asking for each of its symbols in turn reads it over and over. The two come to the same, and asking
for tokens never changes what is answered to those who ask for tokens later. -/
namespace GrammarCatalog

namespace Listing

variable {α : Type} [DecidableEq α]

/-- Induction as repeats are erased: the first entry goes, and with it all that equal it. -/
theorem eraseDups_induction {holds : List α → Prop} (hNil : holds [])
    (hCons : ∀ first rest, holds (rest.filter fun entry => !entry == first) →
      holds (first :: rest)) (entries : List α) : holds entries := by
  induction hLength : entries.length using Nat.strong_induction_on generalizing entries with
  | _ length ih =>
    cases entries with
    | nil => exact hNil
    | cons first rest =>
        apply hCons
        apply ih _ _ _ rfl
        rw [← hLength, List.length_cons]
        exact Nat.lt_succ_of_le (List.length_filter_le _ _)

theorem nodup_eraseDups (entries : List α) : entries.eraseDups.Nodup := by
  induction entries using eraseDups_induction with
  | hNil => exact List.nodup_nil
  | hCons first rest ih =>
      rw [List.eraseDups_cons, List.nodup_cons]
      exact ⟨by simp, ih⟩

/-- What tells the entries of a list apart may be applied before repeats are erased or after. -/
theorem eraseDups_map {β : Type} [DecidableEq β] {f : α → β} {entries : List α}
    (hApart : ∀ entry ∈ entries, ∀ other ∈ entries, f entry = f other → entry = other) :
    (entries.map f).eraseDups = entries.eraseDups.map f := by
  induction entries using eraseDups_induction with
  | hNil => rfl
  | hCons first rest ih =>
      have hOthers : (rest.map f).filter (fun shown => !shown == f first) =
          (rest.filter fun entry => !entry == first).map f := by
        rw [List.filter_map]
        congr 1
        apply List.filter_congr
        intro entry hEntry
        have hFirst := hApart entry (List.mem_cons_of_mem _ hEntry) first List.mem_cons_self
        simpa using Iff.intro hFirst (congrArg f)
      have hRest := ih fun entry hEntry other hOther =>
        hApart entry (List.mem_cons_of_mem _ (List.mem_of_mem_filter hEntry)) other
          (List.mem_cons_of_mem _ (List.mem_of_mem_filter hOther))
      rw [List.map_cons, List.eraseDups_cons, List.eraseDups_cons, hOthers, hRest, List.map_cons]

theorem distinct_map {β : Type} [DecidableEq β] {f : α → β} {entries : List α}
    (hApart : ∀ entry ∈ entries, ∀ other ∈ entries, f entry = f other → entry = other) :
    distinct (entries.map f) = distinct entries := by
  rw [distinct, eraseDups_map hApart, List.length_map, distinct]

/-- The number of different entries of a list is the size of the set of its entries. -/
theorem distinct_eq_card (entries : List α) : distinct entries = entries.toFinset.card := by
  have hSame : entries.eraseDups.toFinset = entries.toFinset := by
    ext entry
    rw [List.mem_toFinset, List.mem_toFinset, List.mem_eraseDups]
  rw [distinct, ← List.toFinset_card_of_nodup (nodup_eraseDups entries), hSame]

end Listing

namespace TokenSet

/-- A set that takes tokens one by one lists the new ones in their order. -/
theorem members_extend (set : TokenSet) (tokens : List TokenElement) :
    (set.extend tokens).members =
      set.members ++ (tokens.filter fun token => !set.contains token).eraseDups := by
  induction tokens generalizing set with
  | nil => exact (List.append_nil _).symm
  | cons token rest ih =>
      have hRest : set.extend (token :: rest) = (set.insert token).extend rest := rfl
      rw [hRest, ih]
      cases hMember : set.contains token with
      | true => simp [insert, hMember]
      | false =>
          have hInsert : set.insert token = ⟨set.members ++ [token]⟩ := by
            rw [insert, hMember, if_neg Bool.false_ne_true]
          have hOthers : (rest.filter fun other => !(set.insert token).contains other) =
              (rest.filter fun other => !set.contains other).filter fun other =>
                !other == token := by
            rw [List.filter_filter, hInsert]
            apply List.filter_congr
            intro other _
            rw [Bool.eq_iff_iff]
            simp [contains, and_comm]
          rw [hOthers, hInsert, List.append_assoc, List.filter_cons_of_pos (by rw [hMember]; rfl),
            List.eraseDups_cons]
          rfl

theorem members_ofList (tokens : List TokenElement) :
    (ofList tokens).members = tokens.eraseDups := by
  rw [ofList, members_extend]
  simp [empty, contains]

theorem mem_ofList (tokens : List TokenElement) (token : TokenElement) :
    token ∈ (ofList tokens).members ↔ token ∈ tokens := by
  rw [members_ofList, List.mem_eraseDups]

theorem nodup_ofList (tokens : List TokenElement) : (ofList tokens).members.Nodup := by
  rw [members_ofList]
  exact Listing.nodup_eraseDups tokens

theorem size_ofList (tokens : List TokenElement) :
    (ofList tokens).size = Listing.distinct tokens := by
  rw [size, members_ofList, Listing.distinct]

theorem nodup_union {left : TokenSet} (hNodup : left.members.Nodup) (right : TokenSet) :
    (left.union right).members.Nodup :=
  nodup_extend right.members left hNodup

/-- Sets that list no token twice are the same when they have the same members. -/
theorem sameAs_of_mem_iff {left right : TokenSet} (hLeft : left.members.Nodup)
    (hRight : right.members.Nodup)
    (hSame : ∀ token, token ∈ left.members ↔ token ∈ right.members) :
    left.sameAs right = true := by
  have hSize := ((List.perm_ext_iff_of_nodup hLeft hRight).mpr hSame).length_eq
  rw [sameAs, Bool.and_eq_true, beq_iff_eq, List.all_eq_true]
  refine ⟨hSize, ?_⟩
  intro token hToken
  exact (contains_iff right token).mpr ((hSame token).mp hToken)

end TokenSet

namespace State

variable (state : State) (language : Language)

theorem tokens_endToken (other : Language) :
    (state.endToken language).state.catalog.tokens other = state.catalog.tokens other := by
  have hSame := state.definition?_meet (.ending language) other fun _ => Demand.noConfusion
  exact (Catalog.tables_eq hSame).2.1

/-- The tokens of the symbols are the same before and after the end of the input is asked for. -/
theorem answer_token?_endToken (symbol : Symbol) :
    ((state.endToken language).state.token? language symbol).answer =
      (state.token? language symbol).answer := by
  unfold token?
  split
  · rw [endToken_again]
    rfl
  · simp only [Outcome.silent, Catalog.listedToken?, tokens_endToken]

theorem answer_tokenSet (symbols : List Symbol) :
    (state.tokenSet language symbols).answer =
      .ofList (symbols.filterMap fun symbol => (state.token? language symbol).answer) := by
  have hSought : state.sought? language (state.catalog.tokens language) =
      fun symbol => (state.token? language symbol).answer := by
    funext symbol
    unfold sought? token?
    split
    · rfl
    · rfl
  rw [tokenSet, answer_collect, hSought, TokenSet.ofList]

theorem nodup_tokenSet (symbols : List Symbol) :
    (state.tokenSet language symbols).answer.members.Nodup := by
  rw [answer_tokenSet]
  exact TokenSet.nodup_ofList _

/-- The members of a set are the tokens of its symbols. -/
theorem mem_tokenSet_iff_token? (symbols : List Symbol) (token : TokenElement) :
    token ∈ (state.tokenSet language symbols).answer.members ↔
      ∃ symbol ∈ symbols, (state.token? language symbol).answer = some token := by
  rw [answer_tokenSet, TokenSet.mem_ofList, List.mem_filterMap]

/-- Sets that are asked for one after another are what each of them would be if it came first. -/
theorem answer_takeAll_tokenSet (lists : List (List Symbol)) :
    (state.takeAll (lists.map (.tokenSet language))).answer =
      lists.map fun symbols => .tokenSet (state.tokenSet language symbols).answer := by
  induction lists generalizing state with
  | nil => rfl
  | cons symbols rest ih =>
      -- All that the first set may have left behind is the end of the input.
      have hAgain : ∀ others,
          ((state.tokenSet language symbols).state.tokenSet language others).answer =
            (state.tokenSet language others).answer := by
        intro others
        have hState : (state.tokenSet language symbols).state =
            if symbols.any Symbol.isEndOfInput then (state.endToken language).state else state :=
          state_collect _ _ _ _ _
        rw [hState]
        split
        · simp only [answer_tokenSet, answer_token?_endToken]
        · rfl
      have hRest := ih (state.tokenSet language symbols).state
      simp only [hAgain] at hRest
      exact congrArg (Answer.tokenSet (state.tokenSet language symbols).answer :: ·) hRest

/-- A set depends on the symbols that occur, not on their order or number. -/
theorem sameAs_tokenSet {symbols others : List Symbol}
    (hSame : ∀ symbol, symbol ∈ symbols ↔ symbol ∈ others) :
    (state.tokenSet language symbols).answer.sameAs (state.tokenSet language others).answer =
      true := by
  apply TokenSet.sameAs_of_mem_iff (state.nodup_tokenSet _ _) (state.nodup_tokenSet _ _)
  intro token
  simp only [mem_tokenSet_iff_token?, hSame]

theorem sameAs_tokenSet_append (left right : List Symbol) :
    (state.tokenSet language (left ++ right)).answer.sameAs
      ((state.tokenSet language left).answer.union (state.tokenSet language right).answer) =
        true := by
  apply TokenSet.sameAs_of_mem_iff (state.nodup_tokenSet _ _)
    (TokenSet.nodup_union (state.nodup_tokenSet _ _) _)
  intro token
  rw [TokenSet.union, TokenSet.mem_extend]
  simp only [mem_tokenSet_iff_token?, List.mem_append, or_and_right, exists_or]

/-- To collect the tokens of symbols is to ask for each of them and to insert what is answered. -/
theorem collect_eq (set : TokenSet) (symbols : List Symbol) :
    state.collect language (state.catalog.tokens language) set symbols =
      (state.takeAll (symbols.map (.token language))).map fun answers =>
        set.extend (answers.flatMap Answer.tokenElements) := by
  induction symbols generalizing state set with
  | nil => rfl
  | cons symbol rest ih =>
      rw [List.map_cons, takeAll, take, collect]
      cases hEnd : symbol.isEndOfInput with
      | true =>
          have hRest := ih (state.endToken language).state
            (set.insert (state.endToken language).answer)
          rw [tokens_endToken] at hRest
          simp only [token?, hEnd, ↓reduceIte, Outcome.andThen, Outcome.map, hRest]
          rfl
      | false =>
          rw [token?_of_not_end state language hEnd]
          cases hListed : state.catalog.listedToken? language symbol with
          | some token =>
              rw [Catalog.listedToken?] at hListed
              simp only [hListed, Bool.false_eq_true, ↓reduceIte, ih]
              rfl
          | none =>
              rw [Catalog.listedToken?] at hListed
              simp only [hListed, Bool.false_eq_true, ↓reduceIte, ih]
              rfl

end State

end GrammarCatalog
