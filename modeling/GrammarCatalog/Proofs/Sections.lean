import GrammarCatalog.Proofs.Requests

/-! Calls in sections. The lock of a table covers a section, so nothing interrupts it; between two
sections of a call others may be at work. Asking for a token takes a look and, where the token is
missing, a second look that may make it. A definition changes the tables in two sections, and so it
holds a lock of its own from its first section to its last. -/
namespace GrammarCatalog

/-- A stretch of work that no other thread interrupts. -/
inductive Section where
  /-- The names are refused, without a look at any table. -/
  | refuse
  /-- A token is looked up. -/
  | read
  /-- A token is looked up once more, and made if it is still missing. -/
  | write
  /-- The lock of the definitions is taken, which has to wait while another thread holds it. -/
  | acquire
  /-- It is looked up whether the language is defined. -/
  | check
  /-- The names of the language are interned. -/
  | intern
  /-- The tables of the language are published, all in one. -/
  | publish (language : Language)
  /-- The lock of the definitions is given back. -/
  | release
  deriving DecidableEq

/-- Where a thread stands within its call. -/
inductive Stage where
  /-- Before the first section. -/
  | ready
  /-- The token was not found. -/
  | missed
  /-- The lock is taken. -/
  | locked
  /-- The lock is taken, and the language is known to be undefined. -/
  | cleared
  /-- The lock is taken, and the tokens of the language are at hand. -/
  | named (tokens : List TokenElement)
  /-- The lock is taken, and nothing else is left to do. -/
  | leaving

/-- A thread holds the lock of the definitions from its first section to its last. -/
def Stage.holds : Stage → Bool
  | ready | missed => false
  | locked | cleared | named _ | leaving => true

/-- How a call stands after a section. -/
inductive Progress where
  | goesOn (stage : Stage)
  | answers (answer : Answer)

/-- An answered call makes way for the next one. -/
def Progress.stage : Progress → Stage
  | goesOn stage => stage
  | answers _ => .ready

/-- What comes of a section. -/
structure Effect where
  taken : Section
  state : State
  progress : Progress

namespace Opening

/-- The section that comes next in a call. -/
def next? (opening : Opening) (stage : Stage) (state : State) : Option Effect :=
  match opening, stage with
  | .refuse refusal, .ready => some ⟨.refuse, state, .answers (.refused refusal)⟩
  | .ask request, .ready =>
    match state.catalog.tokenAt? request.key with
    | some token => some ⟨.read, state, .answers (.token (some token))⟩
    | none => some ⟨.read, state, .goesOn .missed⟩
  | .ask request, .missed =>
    let outcome := state.grant request
    some ⟨.write, outcome.state, .answers (.token (some outcome.answer))⟩
  | .define _ _, .ready => some ⟨.acquire, state, .goesOn .locked⟩
  | .define language _, .locked =>
    if state.catalog.isDefined language then some ⟨.check, state, .goesOn .leaving⟩
    else some ⟨.check, state, .goesOn .cleared⟩
  | .define language blueprint, .cleared =>
    let outcome := state.internAll (some language) blueprint.registered blueprint.names
    some ⟨.intern, outcome.state, .goesOn (.named outcome.answer)⟩
  | .define language blueprint, .named tokens =>
    let outcome :=
      state.publish language blueprint.names tokens blueprint.rules blueprint.registered
    some ⟨.publish language, outcome.state, .goesOn .leaving⟩
  | .define _ _, .leaving => some ⟨.release, state, .answers .done⟩
  | _, _ => none

/-- The ways in which a section may go. -/
inductive Turn : Opening → Stage → State → Effect → Prop where
  | refuse (refusal : Refusal) (state : State) :
      Turn (.refuse refusal) .ready state ⟨.refuse, state, .answers (.refused refusal)⟩
  | hit (request : Request) (state : State) (token : TokenElement)
      (hKept : state.catalog.tokenAt? request.key = some token) :
      Turn (.ask request) .ready state ⟨.read, state, .answers (.token (some token))⟩
  | miss (request : Request) (state : State) :
      Turn (.ask request) .ready state ⟨.read, state, .goesOn .missed⟩
  | write (request : Request) (state : State) :
      Turn (.ask request) .missed state ⟨.write, (state.grant request).state,
        .answers (.token (some (state.grant request).answer))⟩
  | acquire (language : Language) (blueprint : Blueprint) (state : State) :
      Turn (.define language blueprint) .ready state ⟨.acquire, state, .goesOn .locked⟩
  | refrain (language : Language) (blueprint : Blueprint) (state : State)
      (hDefined : state.catalog.isDefined language = true) :
      Turn (.define language blueprint) .locked state ⟨.check, state, .goesOn .leaving⟩
  | proceed (language : Language) (blueprint : Blueprint) (state : State)
      (hNew : state.catalog.definition? language = none) :
      Turn (.define language blueprint) .locked state ⟨.check, state, .goesOn .cleared⟩
  | intern (language : Language) (blueprint : Blueprint) (state : State) :
      Turn (.define language blueprint) .cleared state ⟨.intern,
        (state.internAll (some language) blueprint.registered blueprint.names).state,
        .goesOn (.named
          (state.internAll (some language) blueprint.registered blueprint.names).answer)⟩
  | publish (language : Language) (blueprint : Blueprint) (state : State)
      (tokens : List TokenElement) :
      Turn (.define language blueprint) (.named tokens) state ⟨.publish language,
        (state.publish language blueprint.names tokens blueprint.rules
          blueprint.registered).state, .goesOn .leaving⟩
  | release (language : Language) (blueprint : Blueprint) (state : State) :
      Turn (.define language blueprint) .leaving state ⟨.release, state, .answers .done⟩

theorem turn_of_next? {opening : Opening} {stage : Stage} {state : State} {effect : Effect}
    (hNext : opening.next? stage state = some effect) : Turn opening stage state effect := by
  unfold next? at hNext
  split at hNext
  · cases hNext
    exact .refuse _ _
  · split at hNext
    · next hKept =>
      cases hNext
      exact .hit _ _ _ hKept
    · cases hNext
      exact .miss _ _
  · cases hNext
    exact .write _ _
  · cases hNext
    exact .acquire _ _ _
  · split at hNext
    · next hDefined =>
      cases hNext
      exact .refrain _ _ _ hDefined
    · next hUndefined =>
      cases hNext
      exact .proceed _ _ _ (State.definition?_of_not_isDefined hUndefined)
  · cases hNext
    exact .intern _ _ _
  · cases hNext
    exact .publish _ _ _ _
  · cases hNext
    exact .release _ _ _
  · cases hNext

/-- Only a publication touches the definitions. -/
theorem Turn.definitions {opening : Opening} {stage : Stage} {state : State} {effect : Effect}
    (hTurn : Turn opening stage state effect)
    (hOther : ∀ language, effect.taken ≠ .publish language) :
    effect.state.catalog.definitions = state.catalog.definitions := by
  cases hTurn with
  | write request =>
      cases request with
      | name mention => exact (State.definitions_intern _ _ _ _ _).1
      | ending language =>
          dsimp only
          unfold State.grant State.endToken
          dsimp only
          split
          · rfl
          · rfl
  | intern => exact (State.definitions_internAll _ _ _ _).1
  | publish => exact absurd rfl (hOther _)
  | _ => rfl

end Opening

/-- Who holds the lock of the definitions after a section of a thread, unless the section has to
wait. -/
def Section.holder? (number : Nat) (holder : Option Nat) : Section → Option (Option Nat)
  | acquire => if holder.isNone then some (some number) else none
  | release => some none
  | _ => some holder

/-- Only the taking of the lock has to wait, and only while somebody holds it. -/
theorem Section.isSome_holder? {taken : Section} {number : Nat} {holder : Option Nat}
    (hFree : taken ≠ .acquire ∨ holder = none) : (taken.holder? number holder).isSome := by
  cases taken with
  | acquire =>
      rcases hFree with hOther | hNone
      · exact absurd rfl hOther
      · rw [hNone]
        rfl
  | _ => rfl

/-- Whoever holds the lock does not take it once more. -/
theorem Opening.Turn.ne_acquire {opening : Opening} {stage : Stage} {state : State}
    {effect : Effect} (hTurn : opening.Turn stage state effect) (hHolds : stage.holds = true) :
    effect.taken ≠ .acquire := by
  cases hTurn with
  | acquire => cases hHolds
  | _ => exact fun hTaken => by cases hTaken

/-- The lock goes with the stages that hold it, and concerns no other thread. -/
theorem Opening.Turn.holder {opening : Opening} {stage : Stage} {state : State} {effect : Effect}
    (hTurn : opening.Turn stage state effect) {number : Nat} {holder later : Option Nat}
    (hOwn : holder = some number ↔ stage.holds = true)
    (hHolder : effect.taken.holder? number holder = some later) :
    (later = some number ↔ effect.progress.stage.holds = true) ∧
      ∀ other ≠ number, (later = some other ↔ holder = some other) := by
  cases hTurn with
  | acquire =>
      simp only [Section.holder?, Option.isNone_iff_eq_none, Option.ite_none_right_eq_some,
        Option.some.injEq] at hHolder
      obtain ⟨rfl, rfl⟩ := hHolder
      refine ⟨by simp [Progress.stage, Stage.holds], ?_⟩
      intro other hOther
      simp [Ne.symm hOther]
  | release =>
      have hHeld : holder = some number := hOwn.mpr rfl
      cases hHolder
      subst hHeld
      refine ⟨by simp [Progress.stage, Stage.holds], ?_⟩
      intro other hOther
      simp [Ne.symm hOther]
  | _ =>
      cases hHolder
      exact ⟨hOwn, fun _ _ => Iff.rfl⟩

end GrammarCatalog
