import GrammarCatalog.Element

/-! The supply of serial numbers. Whatever is to be told apart as an instance gets its number here,
and no number is issued twice. Each kind counts on its own: how many rules were made has no
influence on the number of the next token. -/
namespace GrammarCatalog

/-- The next serial number of each kind. -/
structure Supply where
  languages : Nat
  tokens : Nat
  rules : Nat
  publications : Nat
  deriving DecidableEq

namespace Supply

/-- Nothing is issued yet. Number 0 of the languages belongs to `Language.any`. -/
def full : Supply := ⟨1, 0, 0, 0⟩

/-- Makes a root language. -/
def root (supply : Supply) (id : String) : Language × Supply :=
  (.root supply.languages id, { supply with languages := supply.languages + 1 })

/-- Makes a dialect of a language. -/
def dialect (supply : Supply) (id : String) (base : Language) : Language × Supply :=
  (.dialect supply.languages id base, { supply with languages := supply.languages + 1 })

/-- Makes a token element, different from every other one even when all it shows is the same. -/
def token (supply : Supply) (symbol : Symbol) (name : String) (owner : Option Language)
    (registered : Bool) : TokenElement × Supply :=
  (⟨supply.tokens, symbol, name, owner, registered⟩, { supply with tokens := supply.tokens + 1 })

/-- Makes a rule element, different from every other one. -/
def rule (supply : Supply) (rule : RuleNumber) (name : String) (owner : Language)
    (registered : Bool) : RuleElement × Supply :=
  (⟨supply.rules, rule, name, owner, registered⟩, { supply with rules := supply.rules + 1 })

/-- Makes one rule element for each numbered name, in their order. Equal names get elements of
their own. -/
def rulesFor (supply : Supply) (owner : Language) (registered : Bool) :
    List (RuleNumber × String) → List RuleElement × Supply
  | [] => ([], supply)
  | (rule, name) :: rest =>
    let first := supply.rule rule name owner registered
    let others := first.2.rulesFor owner registered rest
    (first.1 :: others.1, others.2)

/-- The number of a publication. -/
def publication (supply : Supply) : Nat × Supply :=
  (supply.publications, { supply with publications := supply.publications + 1 })

/-- The rules get the serial numbers from the next one on, each by its place in the list. -/
theorem getElem?_rulesFor (supply : Supply) (owner : Language) (registered : Bool)
    (named : List (RuleNumber × String)) (place : Nat) :
    (supply.rulesFor owner registered named).1[place]? =
      named[place]?.map fun (rule, name) =>
        ⟨supply.rules + place, rule, name, owner, registered⟩ := by
  induction named generalizing supply place with
  | nil => rfl
  | cons entry rest ih =>
      cases place with
      | zero => rfl
      | succ place =>
          have hNext : (supply.rule entry.1 entry.2 owner registered).2.rules + place =
              supply.rules + (place + 1) := by
            simp only [rule]
            omega
          simp only [rulesFor, List.getElem?_cons_succ, ih, hNext]

theorem length_rulesFor (supply : Supply) (owner : Language) (registered : Bool)
    (named : List (RuleNumber × String)) :
    (supply.rulesFor owner registered named).1.length = named.length := by
  induction named generalizing supply with
  | nil => rfl
  | cons entry rest ih => exact congrArg (· + 1) (ih _)

theorem supply_rulesFor (supply : Supply) (owner : Language) (registered : Bool)
    (named : List (RuleNumber × String)) :
    (supply.rulesFor owner registered named).2 =
      { supply with rules := supply.rules + named.length } := by
  induction named generalizing supply with
  | nil => rfl
  | cons entry rest ih =>
      simp only [rulesFor, ih, rule, List.length_cons, Supply.mk.injEq, true_and,
        and_true]
      omega

end Supply

end GrammarCatalog
