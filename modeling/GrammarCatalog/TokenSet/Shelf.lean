import GrammarCatalog.TokenSet.Basic

/-! Numbered token sets. Each set that is made goes to the end of the shelf and is known by its
place from then on. A set on the shelf changes only by a step that inserts into it or extends it;
the sets that were made from it do not follow. -/
namespace GrammarCatalog.TokenSet

/-- The sets made so far. The number of a set is its place. -/
structure Shelf where
  sets : List TokenSet

/-- How a set is made. -/
inductive Recipe where
  /-- The set of the listed tokens. -/
  | listed (tokens : List TokenElement)
  /-- The same members as the numbered set. -/
  | copy (set : Nat)
  | union (left right : Nat)
  | inter (left right : Nat)
  | diff (left right : Nat)

namespace Shelf

/-- What may be done to the shelf. -/
inductive Step where
  | make (recipe : Recipe)
  | insert (set : Nat) (token : TokenElement)
  | extend (set : Nat) (tokens : List TokenElement)

/-- What a step tells. -/
inductive Reply where
  /-- The new set and its number. -/
  | made (number : Nat) (set : TokenSet)
  /-- Whether the token was new in the set. -/
  | inserted (new : Bool)
  /-- The size of the set after the extension. -/
  | extended (size : Nat)

def empty : Shelf := ⟨[]⟩

def set? (shelf : Shelf) (number : Nat) : Option TokenSet := shelf.sets[number]?

/-- The set that a recipe describes, unless it speaks of a number not handed out yet. -/
def build? (shelf : Shelf) : Recipe → Option TokenSet
  | .listed tokens => some (ofList tokens)
  | .copy number => shelf.set? number
  | .union left right => do pure ((← shelf.set? left).union (← shelf.set? right))
  | .inter left right => do pure ((← shelf.set? left).inter (← shelf.set? right))
  | .diff left right => do pure ((← shelf.set? left).diff (← shelf.set? right))

/-- Takes a step, unless it speaks of a number not handed out yet. -/
def take? (shelf : Shelf) : Step → Option (Reply × Shelf)
  | .make recipe => do
    let set ← shelf.build? recipe
    pure (.made shelf.sets.length set, ⟨shelf.sets ++ [set]⟩)
  | .insert number token => do
    let set ← shelf.set? number
    pure (.inserted (!set.contains token), ⟨shelf.sets.set number (set.insert token)⟩)
  | .extend number tokens => do
    let set := (← shelf.set? number).extend tokens
    pure (.extended set.size, ⟨shelf.sets.set number set⟩)

end Shelf

end GrammarCatalog.TokenSet
