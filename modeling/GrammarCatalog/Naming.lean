import GrammarCatalog.Fault
import GrammarCatalog.Vocabulary

/-! When the names of a grammar are fit for use. Every symbol of the range has a display name, no
two symbols share one, and no two rules share one. The check stops at the first symbol that
offends; rules are looked at only when no symbol does. -/
namespace GrammarCatalog

/-- Two things that bear one name, the earlier first. -/
structure Clash (α : Type) where
  name : String
  first : α
  second : α
  deriving DecidableEq

namespace Naming

variable {α : Type}

/-- Looks for the first thing that bears the name of one seen before. Each name is seen at most
once, so the other bearer is the only one. -/
def clashAfter (seen : List (String × α)) : List (α × String) → Option (Clash α)
  | [] => none
  | (bearer, name) :: rest =>
    match seen.lookup name with
    | some first => some ⟨name, first, bearer⟩
    | none => clashAfter ((name, bearer) :: seen) rest

/-- The first clash in a list of named things. -/
def firstClash? (named : List (α × String)) : Option (Clash α) := clashAfter [] named

theorem clashAfter_eq_none_iff (seen : List (String × α)) (named : List (α × String)) :
    clashAfter seen named = none ↔
      (named.map Prod.snd).Nodup ∧ ∀ name ∈ named.map Prod.snd, seen.lookup name = none := by
  induction named generalizing seen with
  | nil => simp [clashAfter]
  | cons entry rest ih =>
    obtain ⟨bearer, name⟩ := entry
    cases hSeen : seen.lookup name with
    | some first =>
      simp only [clashAfter, hSeen, reduceCtorEq, false_iff]
      rintro ⟨_, hAll⟩
      simpa [hSeen] using hAll name (by simp)
    | none =>
      simp only [clashAfter, hSeen, ih, List.map_cons, List.nodup_cons, List.mem_cons]
      constructor
      · rintro ⟨hNodup, hRest⟩
        have hNew : name ∉ rest.map Prod.snd := fun hName => by
          simpa using hRest name hName
        refine ⟨⟨hNew, hNodup⟩, ?_⟩
        rintro other (rfl | hOther)
        · exact hSeen
        · have hNe : other ≠ name := fun hEqual => hNew (hEqual ▸ hOther)
          simpa [List.lookup_cons, beq_false_of_ne hNe] using hRest other hOther
      · rintro ⟨⟨hNew, hNodup⟩, hAll⟩
        refine ⟨hNodup, fun other hOther => ?_⟩
        have hNe : other ≠ name := fun hEqual => hNew (hEqual ▸ hOther)
        simpa [List.lookup_cons, beq_false_of_ne hNe] using hAll other (Or.inr hOther)

/-- There is no clash exactly when the names are pairwise different. -/
theorem firstClash?_eq_none_iff (named : List (α × String)) :
    firstClash? named = none ↔ (named.map Prod.snd).Nodup := by
  simp [firstClash?, clashAfter_eq_none_iff]

end Naming

namespace Vocabulary

/-- Reads the display names of `count` symbols from a place on. It ends at the first symbol that
has none and tells which, so a vast range with few names is never run through. -/
def readNames (vocabulary : Vocabulary) (place : Nat) :
    (count : Nat) → List (Symbol × String) × Option Symbol
  | 0 => ([], none)
  | count + 1 =>
    let symbol := Symbol.atPosition place
    match vocabulary.displayName symbol with
    | none => ([], some symbol)
    | some name =>
      let others := vocabulary.readNames (place + 1) count
      ((symbol, name) :: others.1, others.2)

/-- When no symbol is unnamed, the names read are the display names. -/
theorem readNames_of_complete (vocabulary : Vocabulary) (place count : Nat)
    (hComplete : (vocabulary.readNames place count).2 = none) :
    (vocabulary.readNames place count).1 =
      (List.range' place count).map fun place =>
        (Symbol.atPosition place, vocabulary.nameOf (Symbol.atPosition place)) := by
  induction count generalizing place with
  | zero => rfl
  | succ count ih =>
      unfold readNames at hComplete ⊢
      cases hName : vocabulary.displayName (Symbol.atPosition place) with
      | none => simp [hName] at hComplete
      | some name =>
          simp only [hName] at hComplete ⊢
          rw [ih (place + 1) hComplete, List.range'_succ, List.map_cons, nameOf, hName,
            Option.getD_some]

/-- The symbols with their names, provided that they are fit for use. A clash among the symbols
before the first unnamed one comes before it, and so is the one reported. -/
def checkedNames (vocabulary : Vocabulary) : Except Fault (List (Symbol × String)) :=
  if vocabulary.lastSymbol.number < Symbol.endOfInput.number then
    .error (.rangeTooLow vocabulary.lastSymbol)
  else
    let read := vocabulary.readNames 0 vocabulary.lastSymbol.countTo
    match Naming.firstClash? read.1, read.2 with
    | some clash, _ => .error (.sharedTokenName clash.name clash.first clash.second)
    | none, some symbol => .error (.unnamedSymbol symbol)
    | none, none => .ok read.1

/-- Names that are fit for use are the display names. -/
theorem names_of_checkedNames {vocabulary : Vocabulary} {names : List (Symbol × String)}
    (hChecked : vocabulary.checkedNames = .ok names) : names = vocabulary.names := by
  unfold checkedNames at hChecked
  split at hChecked
  · cases hChecked
  · dsimp only at hChecked
    split at hChecked
    · cases hChecked
    · cases hChecked
    · next hComplete =>
      cases hChecked
      rw [readNames_of_complete _ _ _ hComplete, ← List.range_eq_range', Vocabulary.names,
        Symbol.upTo, List.map_map]
      rfl

end Vocabulary

namespace Naming

/-- The rules of a grammar with their numbers. -/
def numberedRules (names : List String) : List (RuleNumber × String) :=
  names.zipIdx.map fun (name, place) => (RuleNumber.atPosition place, name)

/-- Refuses the first rule that bears the name of an earlier one. -/
def checkRules (names : List String) : Except Fault Unit :=
  match firstClash? (numberedRules names) with
  | some clash => .error (.sharedRuleName clash.name clash.first clash.second)
  | none => .ok ()

/-- The names of the symbols when both the vocabulary and the rules are fit for use. -/
def check (vocabulary : Vocabulary) (rules : List String) :
    Except Fault (List (Symbol × String)) := do
  let names ← vocabulary.checkedNames
  checkRules rules
  pure names

theorem names_of_check {vocabulary : Vocabulary} {rules : List String}
    {names : List (Symbol × String)} (hCheck : check vocabulary rules = .ok names) :
    names = vocabulary.names := by
  unfold check at hCheck
  cases hNames : vocabulary.checkedNames with
  | error fault =>
      rw [hNames] at hCheck
      cases hCheck
  | ok read =>
      rw [hNames] at hCheck
      cases hRules : checkRules rules with
      | error fault =>
          rw [hRules] at hCheck
          cases hCheck
      | ok =>
          rw [hRules] at hCheck
          cases hCheck
          exact Vocabulary.names_of_checkedNames hNames

end Naming

end GrammarCatalog
