import GrammarCatalog.Element

/-! Sets of token elements. Membership is sameness of the instance: two tokens that agree in symbol
and name may both be members. A set lists its members in the order in which they came; nothing that
a set answers depends on that order. -/
namespace GrammarCatalog

/-- A set of tokens. It is built by the operations below, which list no token twice. -/
structure TokenSet where
  members : List TokenElement

namespace TokenSet

def empty : TokenSet := ⟨[]⟩

def contains (set : TokenSet) (token : TokenElement) : Bool := set.members.contains token

def size (set : TokenSet) : Nat := set.members.length

def isEmpty (set : TokenSet) : Bool := set.members.isEmpty

/-- Adds a token unless it is a member already. -/
def insert (set : TokenSet) (token : TokenElement) : TokenSet :=
  if set.contains token then set else ⟨set.members ++ [token]⟩

/-- Adds every token of a list. -/
def extend (set : TokenSet) (tokens : List TokenElement) : TokenSet := tokens.foldl insert set

/-- The set of the tokens of a list. -/
def ofList (tokens : List TokenElement) : TokenSet := empty.extend tokens

/-- The tokens that are in either set. -/
def union (left right : TokenSet) : TokenSet := left.extend right.members

/-- The tokens that are in both sets. -/
def inter (left right : TokenSet) : TokenSet := ⟨left.members.filter right.contains⟩

/-- The tokens that are in the first set alone. -/
def diff (left right : TokenSet) : TokenSet :=
  ⟨left.members.filter fun token => !right.contains token⟩

/-- Whether two sets have the same members. As no set lists a token twice, it is enough that they
are equally large and that one is included in the other. -/
def sameAs (left right : TokenSet) : Bool :=
  left.size == right.size && left.members.all right.contains

/-- The symbols of all members in ascending order. A symbol occurs once for each member that has
it. -/
def symbols (set : TokenSet) : List Symbol :=
  (set.members.map TokenElement.symbol).mergeSort fun a b => decide (a ≤ b)

/-- The names of all members in the order of their characters. A name occurs once for each member
that bears it. -/
def names (set : TokenSet) : List String :=
  (set.members.map TokenElement.name).mergeSort fun a b => decide (a ≤ b)

theorem contains_iff (set : TokenSet) (token : TokenElement) :
    set.contains token = true ↔ token ∈ set.members := by
  simp [contains]

/-- Inserting adds the token and nothing else. -/
theorem mem_insert (set : TokenSet) (token other : TokenElement) :
    other ∈ (set.insert token).members ↔ other ∈ set.members ∨ other = token := by
  unfold insert
  split
  · next hMember =>
    rw [contains_iff] at hMember
    constructor
    · exact Or.inl
    · rintro (hOther | rfl)
      · exact hOther
      · exact hMember
  · simp

theorem nodup_insert (set : TokenSet) (token : TokenElement) (hNodup : set.members.Nodup) :
    (set.insert token).members.Nodup := by
  unfold insert
  split
  · exact hNodup
  · next hNew =>
    rw [contains_iff] at hNew
    rw [List.nodup_append]
    refine ⟨hNodup, by simp, ?_⟩
    intro a hMember b hToken hEqual
    rw [List.mem_singleton] at hToken
    exact hNew (hToken ▸ hEqual ▸ hMember)

/-- Extending adds the listed tokens and nothing else. -/
theorem mem_extend (tokens : List TokenElement) (set : TokenSet) (other : TokenElement) :
    other ∈ (set.extend tokens).members ↔ other ∈ set.members ∨ other ∈ tokens := by
  induction tokens generalizing set with
  | nil => simp [extend]
  | cons token rest ih =>
    have hStep : set.extend (token :: rest) = (set.insert token).extend rest := rfl
    rw [hStep, ih, mem_insert, List.mem_cons, or_assoc]

theorem nodup_extend (tokens : List TokenElement) (set : TokenSet)
    (hNodup : set.members.Nodup) : (set.extend tokens).members.Nodup := by
  induction tokens generalizing set with
  | nil => exact hNodup
  | cons token rest ih => exact ih _ (nodup_insert set token hNodup)

end TokenSet

end GrammarCatalog
