import GrammarCatalog.Catalog.Call

/-! Several catalogues side by side. They share the supply and nothing else. There is no making of
a catalogue: each number has one, which is empty until a call goes to it. -/
namespace GrammarCatalog

/-- The catalogues by their numbers, and the supply from which all instances come. -/
structure World where
  supply : Supply
  catalogs : Nat → Catalog

namespace World

def empty : World := ⟨.full, fun _ => .empty⟩

/-- A catalogue with the supply that all share. -/
def stateOf (world : World) (number : Nat) : State := ⟨world.supply, world.catalogs number⟩

/-- The world in which one catalogue and the supply have moved on. -/
def withState (world : World) (number : Nat) (state : State) : World :=
  { supply := state.supply
    catalogs := fun other => if other = number then state.catalog else world.catalogs other }

/-- Takes a call to the catalogue with the given number. -/
def take (world : World) (number : Nat) (call : Call) : Answer × List Event × World :=
  let outcome := (world.stateOf number).take call
  (outcome.answer, outcome.events, world.withState number outcome.state)

/-- Takes the calls of several threads to one catalogue, each thread as a whole before the next.
This is one of the orders in which the calls of threads at work together may come. -/
def takeThreads (world : World) (number : Nat) (threads : List (List Call)) :
    List (List Answer) × World :=
  match threads with
  | [] => ([], world)
  | thread :: rest =>
    let outcome := (world.stateOf number).takeAll thread
    let later := (world.withState number outcome.state).takeThreads number rest
    (outcome.answer :: later.1, later.2)

/-- Makes a root language. -/
def root (world : World) (id : String) : Language × World :=
  let (language, supply) := world.supply.root id
  (language, { world with supply := supply })

/-- Makes a dialect. -/
def dialect (world : World) (id : String) (base : Language) : Language × World :=
  let (language, supply) := world.supply.dialect id base
  (language, { world with supply := supply })

/-- Makes a token that no catalogue holds. -/
def token (world : World) (symbol : Symbol) (name : String) (owner : Option Language)
    (registered : Bool) : TokenElement × World :=
  let (token, supply) := world.supply.token symbol name owner registered
  (token, { world with supply := supply })

/-- Makes a rule that no catalogue holds. -/
def rule (world : World) (rule : RuleNumber) (name : String) (owner : Language)
    (registered : Bool) : RuleElement × World :=
  let (element, supply) := world.supply.rule rule name owner registered
  (element, { world with supply := supply })

/-- Which of the four tables of two languages, each in its catalogue, are the same publication:
tokens, rules, token names, rule names. Unless both are defined there is nothing to compare. -/
def samePublications? (world : World) (number : Nat) (language : Language) (number' : Nat)
    (language' : Language) : Option (List Bool) := do
  let left ← (world.catalogs number).definition? language
  let right ← (world.catalogs number').definition? language'
  pure [left.tokens = right.tokens, left.rules = right.rules, left.symbolOf = right.symbolOf,
    left.ruleOf = right.ruleOf]

end World

end GrammarCatalog
