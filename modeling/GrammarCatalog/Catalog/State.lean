import GrammarCatalog.Catalog.Basic
import GrammarCatalog.Event
import GrammarCatalog.Supply

/-! A catalogue at work. It draws its instances from a supply that it shares with whatever else
makes instances, and each of its operations has an outcome: an answer, the events on the way to it,
and the state afterwards. -/
namespace GrammarCatalog

/-- A catalogue and the supply from which it draws. -/
structure State where
  supply : Supply
  catalog : Catalog
  deriving DecidableEq

/-- What comes of an operation. The events are in the order in which they happened. -/
structure Outcome (α : Type) where
  answer : α
  events : List Event
  state : State

namespace Outcome

variable {α β : Type}

/-- An answer that nothing is logged for and that leaves the state alone. -/
def silent (answer : α) (state : State) : Outcome α := ⟨answer, [], state⟩

/-- Goes on with the answer in the state reached. The events of both follow one another. -/
def andThen (outcome : Outcome α) (next : α → State → Outcome β) : Outcome β :=
  let later := next outcome.answer outcome.state
  ⟨later.answer, outcome.events ++ later.events, later.state⟩

def map (f : α → β) (outcome : Outcome α) : Outcome β :=
  ⟨f outcome.answer, outcome.events, outcome.state⟩

/-- Notices that come before the events of an outcome, outside any span so far. -/
def preceded (notices : List Notice) (outcome : Outcome α) : Outcome α :=
  { outcome with events := notices.map (⟨·, []⟩) ++ outcome.events }

/-- The same outcome with all its events inside a span. -/
def inside (span : Span) (outcome : Outcome α) : Outcome α :=
  { outcome with events := outcome.events.map (Event.inside span) }

end Outcome

end GrammarCatalog
