import GrammarCatalog.Language
import GrammarCatalog.Symbol

/-! What is logged. A notice says what happened; the spans around it say during which activity. A
notice that concerns a symbol shows it by its text. -/
namespace GrammarCatalog

inductive Level where
  | trace
  | debug
  | warn
  deriving DecidableEq

def Level.text : Level → String
  | .trace => "TRACE"
  | .debug => "DEBUG"
  | .warn => "WARN"

/-- The value of a field: a text or a count. -/
inductive FieldValue where
  | text (text : String)
  | count (count : Nat)
  deriving DecidableEq

/-- Something that the catalogue makes known. -/
inductive Notice where
  /-- A symbol had no display name and goes by its number. -/
  | unnamed (symbol : Symbol)
  /-- A name was new in its scope and got its token. -/
  | interned (symbol : Symbol) (name : String)
  /-- A language got its lists, of these lengths. -/
  | defined (tokens rules : Nat)
  /-- A language was defined before and kept what it had. -/
  | alreadyDefined
  deriving DecidableEq

namespace Notice

def level : Notice → Level
  | unnamed _ => .warn
  | interned .. => .trace
  | defined .. => .debug
  | alreadyDefined => .debug

def message : Notice → String
  | unnamed _ => "vocabulary has no display name, using the symbol id"
  | interned .. => "interning token type"
  | defined .. => "element types defined"
  | alreadyDefined => "already defined, keeping existing element types"

def fields : Notice → List (String × FieldValue)
  | unnamed symbol => [("symbol", .text symbol.text)]
  | interned symbol name => [("symbol", .text symbol.text), ("name", .text name)]
  | defined tokens rules => [("tokens", .count tokens), ("rules", .count rules)]
  | alreadyDefined => []

end Notice

/-- The activities that are logged as spans. -/
inductive Activity where
  | defining
  | definingChecked
  deriving DecidableEq

def Activity.text : Activity → String
  | .defining => "define_language"
  | .definingChecked => "try_define_language"

/-- An activity on the language with the given id. -/
structure Span where
  activity : Activity
  language : String
  deriving DecidableEq

namespace Span

/-- Every span has the same level. -/
def level (_ : Span) : Level := .debug

def fields (span : Span) : List (String × FieldValue) := [("language", .text span.language)]

end Span

/-- A notice within its spans, the outermost first. -/
structure Event where
  notice : Notice
  spans : List Span
  deriving DecidableEq

/-- The same event within one more span around it. -/
def Event.inside (span : Span) (event : Event) : Event :=
  { event with spans := span :: event.spans }

end GrammarCatalog
