import GrammarCatalog.Element
import GrammarCatalog.NameIndex

/-! What a catalogue holds. Entries are only ever added, each in front of the older ones, and none
is ever changed or taken away. Looking up finds the newest entry of a key. Since no operation adds
a second entry under one key, that is the only one. -/
namespace GrammarCatalog

/-- A table as it was published. The number tells apart the tables of two publications, even when
they say the same. -/
structure Published (α : Type) where
  publication : Nat
  content : α
  deriving DecidableEq

/-- All that is published for a language when it is defined. -/
structure Definition where
  /-- The token of each symbol, by the number of the symbol. -/
  tokens : Published (List TokenElement)
  /-- The element of each rule, by the number of the rule. -/
  rules : Published (List RuleElement)
  /-- The first symbol that bears a name. -/
  symbolOf : Published (NameIndex Symbol)
  /-- The first rule that bears a name. -/
  ruleOf : Published (NameIndex RuleNumber)
  deriving DecidableEq

structure Catalog where
  /-- The defined languages. -/
  definitions : List (Language × Definition)
  /-- The token of each name in each scope. -/
  interned : List ((Language × String) × TokenElement)
  /-- The end of the input of each language. It belongs to exactly that language. -/
  ends : List (Language × TokenElement)
  deriving DecidableEq

namespace Catalog

def empty : Catalog := ⟨[], [], []⟩

def definition? (catalog : Catalog) (language : Language) : Option Definition :=
  catalog.definitions.lookup language

def interned? (catalog : Catalog) (scope : Language) (name : String) : Option TokenElement :=
  catalog.interned.lookup (scope, name)

def end? (catalog : Catalog) (language : Language) : Option TokenElement :=
  catalog.ends.lookup language

def isDefined (catalog : Catalog) (language : Language) : Bool :=
  (catalog.definition? language).isSome

/-- Adds the definition of a language. -/
def addDefinition (catalog : Catalog) (language : Language) (definition : Definition) : Catalog :=
  { catalog with definitions := (language, definition) :: catalog.definitions }

/-- Adds the token of a name in a scope. -/
def addInterned (catalog : Catalog) (scope : Language) (name : String) (token : TokenElement) :
    Catalog :=
  { catalog with interned := ((scope, name), token) :: catalog.interned }

/-- Adds the end of the input of a language. -/
def addEnd (catalog : Catalog) (language : Language) (token : TokenElement) : Catalog :=
  { catalog with ends := (language, token) :: catalog.ends }

/-- The defined languages, each once. They are a set: no meaning lies in the order of the list. -/
def definedLanguages (catalog : Catalog) : List Language :=
  (catalog.definitions.map Prod.fst).reverse

def languageCount (catalog : Catalog) : Nat := catalog.definitions.length

/-- The tokens of a language by the number of the symbol. A language that is not defined has none,
as has one without symbols. -/
def tokens (catalog : Catalog) (language : Language) : List TokenElement :=
  match catalog.definition? language with
  | some definition => definition.tokens.content
  | none => []

/-- The rules of a language by their numbers. A language that is not defined has none. -/
def rules (catalog : Catalog) (language : Language) : List RuleElement :=
  match catalog.definition? language with
  | some definition => definition.rules.content
  | none => []

/-- The index of the token names of a defined language. -/
def tokenNames? (catalog : Catalog) (language : Language) : Option (NameIndex Symbol) :=
  (catalog.definition? language).map (·.symbolOf.content)

/-- The index of the rule names of a defined language. -/
def ruleNames? (catalog : Catalog) (language : Language) : Option (NameIndex RuleNumber) :=
  (catalog.definition? language).map (·.ruleOf.content)

/-- The listed token of a symbol. The end of the input is never listed. -/
def listedToken? (catalog : Catalog) (language : Language) (symbol : Symbol) :
    Option TokenElement :=
  symbol.position?.bind fun place => (catalog.tokens language)[place]?

/-- The listed token at the first symbol that bears a name. -/
def tokenByName? (catalog : Catalog) (language : Language) (name : String) :
    Option TokenElement := do
  catalog.listedToken? language (← (← catalog.tokenNames? language).find? name)

/-- The element of a rule. -/
def rule? (catalog : Catalog) (language : Language) (rule : RuleNumber) : Option RuleElement :=
  (catalog.rules language)[rule.position]?

/-- The element of the first rule that bears a name. -/
def ruleByName? (catalog : Catalog) (language : Language) (name : String) :
    Option RuleElement := do
  catalog.rule? language (← (← catalog.ruleNames? language).find? name)

/-- The languages that are listed are those that have a definition. -/
theorem mem_definedLanguages (catalog : Catalog) (language : Language) :
    language ∈ catalog.definedLanguages ↔ catalog.isDefined language = true := by
  simp [definedLanguages, isDefined, definition?, List.lookup_isSome_iff]

theorem definition?_addDefinition (catalog : Catalog) (language other : Language)
    (definition : Definition) :
    (catalog.addDefinition language definition).definition? other =
      if other = language then some definition else catalog.definition? other := by
  by_cases hOther : other = language
  · simp [addDefinition, definition?, hOther]
  · simp [addDefinition, definition?, List.lookup_cons, beq_false_of_ne hOther, hOther]

theorem interned?_addInterned (catalog : Catalog) (scope other : Language) (name name' : String)
    (token : TokenElement) :
    (catalog.addInterned scope name token).interned? other name' =
      if (other, name') = (scope, name) then some token else catalog.interned? other name' := by
  by_cases hOther : (other, name') = (scope, name)
  · simp [addInterned, interned?, hOther]
  · simp [addInterned, interned?, List.lookup_cons, beq_false_of_ne hOther, hOther]

theorem end?_addEnd (catalog : Catalog) (language other : Language) (token : TokenElement) :
    (catalog.addEnd language token).end? other =
      if other = language then some token else catalog.end? other := by
  by_cases hOther : other = language
  · simp [addEnd, end?, hOther]
  · simp [addEnd, end?, List.lookup_cons, beq_false_of_ne hOther, hOther]

end Catalog

end GrammarCatalog
