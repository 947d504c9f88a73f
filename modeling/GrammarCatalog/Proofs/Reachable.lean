import GrammarCatalog.Proofs.Demand
import GrammarCatalog.World

/-! The worlds that can be reached. Whatever happens, no serial number is issued twice: neither
within a catalogue nor in two of them. The argument is the same for tokens and for rules, so it is
made once for anything that is kept under keys and numbered from a supply. -/
namespace GrammarCatalog

/-- What is kept under keys has serial numbers below the next one, and each number has one key. -/
structure Issued {Key : Type} (serial? : Key → Option Nat) (next : Nat) : Prop where
  below : ∀ {key serial}, serial? key = some serial → serial < next
  apart : ∀ {key key' serial}, serial? key = some serial → serial? key' = some serial → key = key'

namespace Issued

variable {Key : Type} {old new : Key → Option Nat} {next next' : Nat}

theorem mono (hIssued : Issued old next) (hLe : next ≤ next') : Issued old next' :=
  ⟨fun hSerial => Nat.lt_of_lt_of_le (hIssued.below hSerial) hLe, hIssued.apart⟩

/-- Additions are harmless when their numbers are new and differ among themselves. -/
theorem extend (hIssued : Issued old next) (hLe : next ≤ next') (added : Key → Nat → Prop)
    (hNew : ∀ key serial, new key = some serial → old key = some serial ∨ added key serial)
    (hFresh : ∀ key serial, added key serial → next ≤ serial ∧ serial < next')
    (hOnce : ∀ key key' serial, added key serial → added key' serial → key = key') :
    Issued new next' := by
  constructor
  · intro key serial hSerial
    rcases hNew key serial hSerial with hOld | hAdded
    · exact Nat.lt_of_lt_of_le (hIssued.below hOld) hLe
    · exact (hFresh key serial hAdded).2
  · intro key key' serial hSerial hSerial'
    rcases hNew key serial hSerial with hOld | hAdded
    · rcases hNew key' serial hSerial' with hOld' | hAdded'
      · exact hIssued.apart hOld hOld'
      · have hBelow := hIssued.below hOld
        have hAbove := (hFresh key' serial hAdded').1
        omega
    · rcases hNew key' serial hSerial' with hOld' | hAdded'
      · have hBelow := hIssued.below hOld'
        have hAbove := (hFresh key serial hAdded).1
        omega
      · exact hOnce key key' serial hAdded hAdded'

end Issued

namespace World

/-- What may happen in a world: a call to a catalogue, or the making of a language or of an element
that no catalogue holds. -/
inductive Move where
  | call (number : Nat) (call : Call)
  | root (id : String)
  | dialect (id : String) (base : Language)
  | token (symbol : Symbol) (name : String) (owner : Option Language) (registered : Bool)
  | rule (rule : RuleNumber) (name : String) (owner : Language) (registered : Bool)

def next (world : World) : Move → World
  | .call number call => (world.take number call).2.2
  | .root id => (world.root id).2
  | .dialect id base => (world.dialect id base).2
  | .token symbol name owner registered => (world.token symbol name owner registered).2
  | .rule number name owner registered => (world.rule number name owner registered).2

def run (world : World) (moves : List Move) : World := moves.foldl next world

/-- The world after some moves, the empty one being the first. -/
def after (moves : List Move) : World := empty.run moves

theorem after_append (moves later : List Move) : after (moves ++ later) = (after moves).run later :=
  List.foldl_append

/-- A run passes through every moment: it comes to the move, makes it and goes on from there. -/
theorem after_eq_run_next {moves : List Move} {moment : Nat} {move : Move}
    (hMove : moves[moment]? = some move) :
    after moves = ((after (moves.take moment)).next move).run (moves.drop (moment + 1)) := by
  obtain ⟨hMoment, hAt⟩ := List.getElem?_eq_some_iff.mp hMove
  have hSplit : moves = moves.take moment ++ (move :: moves.drop (moment + 1)) := by
    rw [← hAt, ← List.drop_eq_getElem_cons hMoment, List.take_append_drop]
  calc
    after moves = after (moves.take moment ++ (move :: moves.drop (moment + 1))) :=
      congrArg after hSplit
    _ = (after (moves.take moment)).run (move :: moves.drop (moment + 1)) := after_append _ _

/-- Induction over what happens keeps a fact about worlds. -/
theorem run_keeps (kept : World → Prop) (hNext : ∀ world move, kept world → kept (world.next move))
    (world : World) (moves : List Move) (hStart : kept world) : kept (world.run moves) := by
  induction moves generalizing world with
  | nil => exact hStart
  | cons move rest ih => exact ih _ (hNext world move hStart)

theorem catalogs_withState (world : World) (number other : Nat) (state : State) :
    (world.withState number state).catalogs other =
      if other = number then state.catalog else world.catalogs other := rfl

theorem stateOf_withState (world : World) (number : Nat) (state : State) :
    (world.withState number state).stateOf number = state := by
  simp only [stateOf, withState, ↓reduceIte]

theorem withState_stateOf (world : World) (number : Nat) :
    world.withState number (world.stateOf number) = world := by
  have hCatalogs : (fun other => if other = number then world.catalogs number
      else world.catalogs other) = world.catalogs := by
    funext other
    split
    · next hOther => rw [hOther]
    · rfl
  simp only [withState, stateOf, hCatalogs]

theorem withState_withState (world : World) (number : Nat) (first second : State) :
    (world.withState number first).withState number second = world.withState number second := by
  simp only [withState, mk.injEq, true_and]
  funext other
  split
  · rfl
  · rfl

/-- A fact about worlds that each addition keeps is kept by the growth of one catalogue. -/
theorem withState_keeps (kept : World → Prop)
    (hAdds : ∀ world number state, State.Adds (world.stateOf number) state → kept world →
      kept (world.withState number state))
    {world : World} {number : Nat} {state : State}
    (hGrows : State.Grows (world.stateOf number) state) (hStart : kept world) :
    kept (world.withState number state) := by
  apply hGrows.keeps (fun state => kept (world.withState number state))
  · intro before after hStep hKept
    rw [← withState_withState world number before after]
    apply hAdds _ _ _ _ hKept
    rw [stateOf_withState]
    exact hStep
  · rw [withState_stateOf]
    exact hStart

/-- The serial number of the token that a catalogue keeps under a key. -/
def tokenSerial? (world : World) (key : Nat × TokenKey) : Option Nat :=
  ((world.catalogs key.1).tokenAt? key.2).map TokenElement.serial

/-- The serial number of the rule at a place in the list of a language. -/
def ruleSerial? (world : World) (key : Nat × Language × Nat) : Option Nat :=
  ((world.catalogs key.1).ruleAt? key.2).map RuleElement.serial

/-- Each catalogue is sound by itself, and no instance is kept in two places. -/
structure Sound (world : World) : Prop where
  catalogs : ∀ number, (world.catalogs number).Sound
  tokens : Issued world.tokenSerial? world.supply.tokens
  rules : Issued world.ruleSerial? world.supply.rules

theorem sound_empty : empty.Sound := by
  refine ⟨fun _ => Catalog.sound_empty, ⟨?_, ?_⟩, ⟨?_, ?_⟩⟩
  · intro key serial hSerial
    rcases key with ⟨number, key⟩
    cases key <;> cases hSerial
  · intro key key' serial hSerial
    rcases key with ⟨number, key⟩
    cases key <;> cases hSerial
  · intro key serial hSerial
    cases hSerial
  · intro key key' serial hSerial
    cases hSerial

variable {world : World} {number : Nat}

theorem tokens_issued_of_adds {state : State} (hAdds : State.Adds (world.stateOf number) state)
    (hIssued : Issued world.tokenSerial? world.supply.tokens) :
    Issued (world.withState number state).tokenSerial? state.supply.tokens := by
  cases hAdds with
  | token added symbol name owner registered hNew hFits =>
      apply hIssued.extend (Nat.le_succ _)
        fun key serial => key = (number, added) ∧ serial = world.supply.tokens
      · intro key serial hSerial
        rcases key with ⟨other, key⟩
        simp only [tokenSerial?, catalogs_withState] at hSerial
        split at hSerial
        · next hOther =>
          rw [Catalog.tokenAt?_addToken] at hSerial
          split at hSerial
          · next hKey =>
            cases hSerial
            exact Or.inr ⟨by rw [hOther, hKey], rfl⟩
          · rw [← hOther] at hSerial
            exact Or.inl hSerial
        · exact Or.inl hSerial
      · intro key serial hAdded
        rw [hAdded.2]
        exact ⟨Nat.le_refl _, Nat.lt_succ_self _⟩
      · intro key key' serial hAdded hAdded'
        rw [hAdded.1, hAdded'.1]
  | definition language blueprint tokens hNew hTokens =>
      apply hIssued.extend (Nat.le_refl _) fun _ _ => False
      · intro key serial hSerial
        rcases key with ⟨other, key⟩
        simp only [tokenSerial?, catalogs_withState] at hSerial
        split at hSerial
        · next hOther =>
          rw [Catalog.tokenAt?_addDefinition, ← hOther] at hSerial
          exact Or.inl hSerial
        · exact Or.inl hSerial
      · intro key serial hAdded
        exact hAdded.elim
      · intro key key' serial hAdded
        exact hAdded.elim

theorem rules_issued_of_adds {state : State} (hAdds : State.Adds (world.stateOf number) state)
    (hIssued : Issued world.ruleSerial? world.supply.rules) :
    Issued (world.withState number state).ruleSerial? state.supply.rules := by
  cases hAdds with
  | token added symbol name owner registered hNew hFits =>
      apply hIssued.extend (Nat.le_refl _) fun _ _ => False
      · intro key serial hSerial
        rcases key with ⟨other, language, place⟩
        simp only [ruleSerial?, Catalog.ruleAt?, catalogs_withState] at hSerial
        split at hSerial
        · next hOther =>
          rw [Catalog.rules_addToken, ← hOther] at hSerial
          exact Or.inl hSerial
        · exact Or.inl hSerial
      · intro key serial hAdded
        exact hAdded.elim
      · intro key key' serial hAdded
        exact hAdded.elim
  | definition added blueprint tokens hNew hTokens =>
      apply hIssued.extend (Nat.le_add_right _ _) fun key serial =>
        key.1 = number ∧ key.2.1 = added ∧ serial = world.supply.rules + key.2.2 ∧
          key.2.2 < (Naming.numberedRules blueprint.rules).length
      · intro key serial hSerial
        rcases key with ⟨other, language, place⟩
        simp only [ruleSerial?, Catalog.ruleAt?, catalogs_withState] at hSerial
        split at hSerial
        · next hOther =>
          rw [State.rules_addPublished] at hSerial
          split at hSerial
          · next hLanguage =>
            rw [Supply.getElem?_rulesFor] at hSerial
            simp only [Option.map_map, Option.map_eq_some_iff, List.getElem?_eq_some_iff] at hSerial
            obtain ⟨entry, ⟨hPlace, _⟩, rfl⟩ := hSerial
            exact Or.inr ⟨hOther, hLanguage, rfl, hPlace⟩
          · rw [← hOther] at hSerial
            exact Or.inl hSerial
        · exact Or.inl hSerial
      · intro key serial hAdded
        rcases hAdded with ⟨_, _, hSerial, hPlace⟩
        rw [hSerial]
        exact ⟨Nat.le_add_right _ _, Nat.add_lt_add_left hPlace _⟩
      · intro key key' serial hAdded hAdded'
        rcases key with ⟨other, language, place⟩
        rcases key' with ⟨other', language', place'⟩
        rcases hAdded with ⟨hOther, hLanguage, hSerial, _⟩
        rcases hAdded' with ⟨hOther', hLanguage', hSerial', _⟩
        dsimp only at hOther hLanguage hSerial hOther' hLanguage' hSerial'
        have hPlace : place = place' := by omega
        rw [hOther, hLanguage, hOther', hLanguage', hPlace]

theorem Sound.withState_of_grows (hSound : world.Sound) {state : State}
    (hGrows : State.Grows (world.stateOf number) state) : (world.withState number state).Sound := by
  apply withState_keeps Sound _ hGrows hSound
  intro world number state hAdds hSound
  refine ⟨?_, tokens_issued_of_adds hAdds hSound.tokens, rules_issued_of_adds hAdds hSound.rules⟩
  intro other
  rw [catalogs_withState]
  split
  · exact State.sound_of_adds hAdds (hSound.catalogs number)
  · exact hSound.catalogs other

/-- Making a language or an element leaves the catalogues alone and may use up serial numbers. -/
theorem Sound.withSupply (hSound : world.Sound) {supply : Supply}
    (hTokens : world.supply.tokens ≤ supply.tokens) (hRules : world.supply.rules ≤ supply.rules) :
    ({ world with supply := supply } : World).Sound :=
  ⟨hSound.catalogs, hSound.tokens.mono hTokens, hSound.rules.mono hRules⟩

theorem sound_next (world : World) (move : Move) (hSound : world.Sound) :
    (world.next move).Sound := by
  cases move with
  | call number call => exact hSound.withState_of_grows (State.grows_take _ call)
  | root id => exact hSound.withSupply (Nat.le_refl _) (Nat.le_refl _)
  | dialect id base => exact hSound.withSupply (Nat.le_refl _) (Nat.le_refl _)
  | token symbol name owner registered =>
      exact hSound.withSupply (Nat.le_succ _) (Nat.le_refl _)
  | rule number name owner registered =>
      exact hSound.withSupply (Nat.le_refl _) (Nat.le_succ _)

theorem sound_run (world : World) (moves : List Move) (hSound : world.Sound) :
    (world.run moves).Sound :=
  run_keeps Sound sound_next world moves hSound

theorem sound_after (moves : List Move) : (after moves).Sound :=
  sound_run empty moves sound_empty

/-- A token is known by its serial number, and the number by the one key under which it is kept. -/
theorem Sound.eq_of_serial_eq (hSound : world.Sound) (key key' : Nat × TokenKey)
    {token token' : TokenElement}
    (hToken : (world.catalogs key.1).tokenAt? key.2 = some token)
    (hToken' : (world.catalogs key'.1).tokenAt? key'.2 = some token')
    (hSerial : token.serial = token'.serial) : key = key' := by
  have hFirst : world.tokenSerial? key = some token.serial := by
    rw [tokenSerial?, hToken, Option.map_some]
  have hSecond : world.tokenSerial? key' = some token.serial := by
    rw [tokenSerial?, hToken', Option.map_some, hSerial]
  exact hSound.tokens.apart hFirst hSecond

/-- The token that a catalogue of the world keeps under a key. -/
def tokenAt? (world : World) (key : Nat × TokenKey) : Option TokenElement :=
  (world.catalogs key.1).tokenAt? key.2

def ruleAt? (world : World) (key : Nat × Language × Nat) : Option RuleElement :=
  (world.catalogs key.1).ruleAt? key.2

theorem Sound.tokenKey_eq {world : World} (hSound : world.Sound) (key key' : Nat × TokenKey)
    (token : TokenElement) (hToken : world.tokenAt? key = some token)
    (hToken' : world.tokenAt? key' = some token) : key = key' :=
  hSound.eq_of_serial_eq key key' hToken hToken' rfl

theorem Sound.ruleKey_eq {world : World} (hSound : world.Sound) (key key' : Nat × Language × Nat)
    (rule : RuleElement) (hRule : world.ruleAt? key = some rule)
    (hRule' : world.ruleAt? key' = some rule) : key = key' := by
  have hSerial : world.ruleSerial? key = some rule.serial :=
    congrArg (Option.map RuleElement.serial) hRule
  have hSerial' : world.ruleSerial? key' = some rule.serial :=
    congrArg (Option.map RuleElement.serial) hRule'
  exact hSound.rules.apart hSerial hSerial'

/-- A token that a catalogue keeps is kept whatever happens. -/
theorem tokenAt?_next (world : World) (move : Move) (key : TokenKey) {token : TokenElement}
    (hToken : (world.catalogs number).tokenAt? key = some token) :
    ((world.next move).catalogs number).tokenAt? key = some token := by
  cases move with
  | call other call =>
      simp only [next, take, catalogs_withState]
      split
      · next hNumber =>
        rw [hNumber] at hToken
        exact State.tokenAt?_of_grows (State.grows_take (world.stateOf other) call) _ hToken
      · exact hToken
  | _ => exact hToken

theorem tokenAt?_run (world : World) (moves : List Move) (key : TokenKey) {token : TokenElement}
    (hToken : (world.catalogs number).tokenAt? key = some token) :
    ((world.run moves).catalogs number).tokenAt? key = some token :=
  run_keeps (fun world => (world.catalogs number).tokenAt? key = some token)
    (fun world move => tokenAt?_next world move key) world moves hToken

/-- A language that is defined keeps its definition whatever happens. -/
theorem definition?_next (world : World) (move : Move) {language : Language}
    {definition : Definition}
    (hDefinition : (world.catalogs number).definition? language = some definition) :
    ((world.next move).catalogs number).definition? language = some definition := by
  cases move with
  | call other call =>
      simp only [next, take, catalogs_withState]
      split
      · next hNumber =>
        rw [hNumber] at hDefinition
        exact State.definition?_of_grows (State.grows_take (world.stateOf other) call) hDefinition
      · exact hDefinition
  | _ => exact hDefinition

theorem definition?_run (world : World) (moves : List Move) {language : Language}
    {definition : Definition}
    (hDefinition : (world.catalogs number).definition? language = some definition) :
    ((world.run moves).catalogs number).definition? language = some definition :=
  run_keeps (fun world => (world.catalogs number).definition? language = some definition)
    (fun world move => definition?_next world move) world moves hDefinition

/-- What is kept at some moment of a run is kept in the end. -/
theorem tokenAt?_after_append (moves later : List Move) (key : Nat × TokenKey)
    (token : TokenElement) (hToken : (after moves).tokenAt? key = some token) :
    (after (moves ++ later)).tokenAt? key = some token := by
  rw [after_append]
  exact tokenAt?_run _ later key.2 hToken

theorem ruleAt?_after_append (moves later : List Move) (key : Nat × Language × Nat)
    (rule : RuleElement) (hRule : (after moves).ruleAt? key = some rule) :
    (after (moves ++ later)).ruleAt? key = some rule := by
  rw [after_append]
  exact Catalog.ruleAt?_of_definition? (fun _ => definition?_run _ later) hRule

/-- What is answered to one who interns a name is kept for the name from then on. -/
theorem interned?_next_intern (world : World) (number : Nat) (symbol : Symbol) (name : String)
    (owner : Option Language) (registered : Bool) :
    ((world.next (.call number (.intern symbol name owner registered))).catalogs
      number).interned? (Language.scopeOf owner) name =
        some ((world.stateOf number).intern symbol name owner registered).answer := by
  simp only [next, take, catalogs_withState, ↓reduceIte]
  exact State.answer_intern (world.stateOf number) symbol name owner registered

theorem stateOf_run_calls (world : World) (number : Nat) (calls : List Call) :
    (world.run (calls.map (.call number))).stateOf number =
      ((world.stateOf number).takeAll calls).state := by
  induction calls generalizing world with
  | nil => rfl
  | cons call rest ih =>
      have hFirst : (world.next (.call number call)).stateOf number =
          ((world.stateOf number).take call).state := stateOf_withState world number _
      have hRest := ih (world.next (.call number call))
      rw [hFirst] at hRest
      exact hRest

end World

namespace State

/-- The state of some catalogue in some world that can be reached. -/
def Reachable (state : State) : Prop :=
  ∃ moves number, state = (World.after moves).stateOf number

theorem Reachable.takeAll {state : State} (hReachable : state.Reachable) (calls : List Call) :
    (state.takeAll calls).state.Reachable := by
  obtain ⟨moves, number, rfl⟩ := hReachable
  refine ⟨moves ++ calls.map (.call number), number, ?_⟩
  rw [World.after_append, World.stateOf_run_calls]

theorem Reachable.sound {state : State} (hReachable : state.Reachable) : state.catalog.Sound := by
  obtain ⟨moves, number, rfl⟩ := hReachable
  exact (World.sound_after moves).catalogs number

/-- In a state that can be reached, an instance is kept in one place only. -/
theorem Reachable.tokenKey_eq {state : State} (hReachable : state.Reachable) {key key' : TokenKey}
    {token : TokenElement} (hToken : state.catalog.tokenAt? key = some token)
    (hToken' : state.catalog.tokenAt? key' = some token) : key = key' := by
  obtain ⟨moves, number, rfl⟩ := hReachable
  have hKey := (World.sound_after moves).tokenKey_eq (number, key) (number, key') token
    hToken hToken'
  exact congrArg Prod.snd hKey

theorem Reachable.ruleKey_eq {state : State} (hReachable : state.Reachable)
    {key key' : Language × Nat} {rule : RuleElement}
    (hRule : state.catalog.ruleAt? key = some rule)
    (hRule' : state.catalog.ruleAt? key' = some rule) : key = key' := by
  obtain ⟨moves, number, rfl⟩ := hReachable
  have hKey := (World.sound_after moves).ruleKey_eq (number, key) (number, key') rule hRule hRule'
  exact congrArg Prod.snd hKey

end State

end GrammarCatalog
