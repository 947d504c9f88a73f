/-! Languages and the scopes in which they share their tokens. A dialect shares tokens with the
language that it directly derives from. The chain of bases is not followed any further. -/
namespace GrammarCatalog

/-- A language is a root or a dialect of another language. The serial number is issued when a
language is made, so two languages made apart differ even under one id, and a language that is
passed on stays equal to itself. -/
inductive Language where
  | root (serial : Nat) (id : String)
  | dialect (serial : Nat) (id : String) (base : Language)
  deriving DecidableEq

namespace Language

/-- The language of elements that belong to no language in particular. Serial number 0 is kept
for it. -/
def any : Language := root 0 "any"

def id : Language → String
  | root _ id => id
  | dialect _ id _ => id

/-- The language that this one directly derives from. -/
def base? : Language → Option Language
  | root .. => none
  | dialect _ _ base => some base

/-- The scope in which the tokens of a language are shared. This is one step along the chain of
bases: a dialect of a dialect has the dialect as its scope, not the root. -/
def scope (language : Language) : Language := language.base?.getD language

/-- The scope of tokens that may belong to no language. -/
def scopeOf (owner : Option Language) : Language := (owner.getD any).scope

/-- The id. -/
def text (language : Language) : String := language.id

/-- The text for diagnostics, which shows the base by its id. -/
def description (language : Language) : String :=
  match language.base? with
  | some base => "Language(" ++ language.id ++ " : " ++ base.id ++ ")"
  | none => "Language(" ++ language.id ++ ")"

theorem scope_dialect (serial : Nat) (id : String) (base : Language) :
    (dialect serial id base).scope = base := rfl

/-- Only a root is its own scope, as no dialect is its own base. -/
theorem scope_eq_self_iff (language : Language) :
    language.scope = language ↔ language.base? = none := by
  cases language with
  | root serial id => simp [scope, base?]
  | dialect serial id base =>
      simp only [scope_dialect, base?, reduceCtorEq, iff_false]
      intro hEqual
      have hSize := congrArg sizeOf hEqual
      simp only [dialect.sizeOf_spec] at hSize
      omega

end Language

end GrammarCatalog
