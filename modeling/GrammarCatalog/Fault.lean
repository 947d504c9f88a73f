import GrammarCatalog.RuleNumber
import GrammarCatalog.Symbol

/-! Why a definition is refused. A fault speaks of the vocabulary or of the rules alone; a refusal
adds the language that was to be defined. -/
namespace GrammarCatalog

inductive Fault where
  /-- The range of symbols ends below -1, where not even an empty one does. -/
  | rangeTooLow (last : Symbol)
  /-- A symbol of the range has no display name. -/
  | unnamedSymbol (symbol : Symbol)
  /-- Two symbols share a display name, so the name would be ambiguous. -/
  | sharedTokenName (name : String) (first second : Symbol)
  /-- Two rules share a name. -/
  | sharedRuleName (name : String) (first second : RuleNumber)
  deriving DecidableEq

/-- The refusal to define the language with the given id. -/
structure Refusal where
  language : String
  fault : Fault
  deriving DecidableEq

/-- The wording, which quotes ids and names as they are. -/
def Refusal.message (refusal : Refusal) : String :=
  let language := "`" ++ refusal.language ++ "`"
  match refusal.fault with
  | .rangeTooLow last =>
    "vocabulary for " ++ language ++ " reports max symbol id " ++ last.text ++ ", below -1"
  | .unnamedSymbol symbol =>
    "vocabulary for " ++ language ++ " has no display name for symbol " ++ symbol.text
  | .sharedTokenName name first second =>
    "vocabulary for " ++ language ++ " names both symbol " ++ first.text ++ " and symbol " ++
      second.text ++ " `" ++ name ++ "`"
  | .sharedRuleName name first second =>
    "rules " ++ first.text ++ " and " ++ second.text ++ " of " ++ language ++
      " are both named `" ++ name ++ "`"

end GrammarCatalog
