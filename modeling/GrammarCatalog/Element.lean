import GrammarCatalog.Language
import GrammarCatalog.RuleNumber
import GrammarCatalog.Symbol

/-! The elements that editors and tree builders attach to tokens and to parser rules. Elements are
told apart as instances and not by content. The serial number is issued when an instance is made,
so equality of elements is sameness of the instance. -/
namespace GrammarCatalog

/-- The element of a token symbol. Without an owner it belongs to any language. -/
structure TokenElement where
  serial : Nat
  symbol : Symbol
  name : String
  owner : Option Language
  registered : Bool
  deriving DecidableEq

namespace TokenElement

def isEndOfInput (token : TokenElement) : Bool := token.symbol.isEndOfInput

/-- The name alone. -/
def text (token : TokenElement) : String := token.name

/-- The text for diagnostics. -/
def description (token : TokenElement) : String :=
  "TokenElementType(" ++ token.name ++ ", " ++ token.symbol.text ++ ")"

end TokenElement

/-- The element of a parser rule. It always has an owner. -/
structure RuleElement where
  serial : Nat
  rule : RuleNumber
  name : String
  owner : Language
  registered : Bool
  deriving DecidableEq

namespace RuleElement

/-- The name alone. -/
def text (rule : RuleElement) : String := rule.name

/-- The text for diagnostics. -/
def description (element : RuleElement) : String :=
  "RuleElementType(" ++ element.name ++ ", " ++ element.rule.text ++ ")"

end RuleElement

end GrammarCatalog
