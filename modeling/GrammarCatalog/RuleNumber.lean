/-! The numbers of parser rules. A rule has no number of its own: it is known by its place in the
grammar's list of rules. -/
namespace GrammarCatalog

/-- The place of a rule in its grammar's list of rules, an unsigned 32-bit number. -/
structure RuleNumber where
  number : UInt32
  deriving DecidableEq

namespace RuleNumber

def position (rule : RuleNumber) : Nat := rule.number.toNat

/-- How many rules have a number. It is the 32nd power of 2, as numbers have 32 bits. -/
def places : Nat := 4294967296

/-- The number of the rule at a place. Places end where the numbers do. -/
def atPosition (place : Nat) : RuleNumber := ⟨UInt32.ofNat place⟩

instance : LE RuleNumber := ⟨fun a b => a.number ≤ b.number⟩

instance : DecidableLE RuleNumber := fun a b => inferInstanceAs (Decidable (a.number ≤ b.number))

/-- The decimal number. -/
def text (rule : RuleNumber) : String := toString rule.position

/-- The text for diagnostics. -/
def description (rule : RuleNumber) : String := "RuleIndex(" ++ rule.text ++ ")"

/-- A place that a list of rules can reach is found again from the number there. -/
theorem position_atPosition (place : Nat) (hPlace : place < places) :
    (atPosition place).position = place := by
  unfold places at hPlace
  simpa [position, atPosition] using hPlace

theorem atPosition_inj {place other : Nat} (hPlace : place < places) (hOther : other < places)
    (hEqual : atPosition place = atPosition other) : place = other := by
  rw [← position_atPosition place hPlace, hEqual, position_atPosition other hOther]

theorem atPosition_position (rule : RuleNumber) : atPosition rule.position = rule :=
  congrArg mk (UInt32.ofNat_toNat)

end RuleNumber

end GrammarCatalog
