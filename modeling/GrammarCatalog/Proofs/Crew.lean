import GrammarCatalog.Proofs.Sections
import Mathlib.Logic.Function.Basic

/-! Threads that take turns on one catalogue. Each works through its calls section by section, and a
turn is one section. Only the lock of the definitions makes a thread wait. It has one holder at a
time, so a language that its holder found undefined stays so until the holder publishes it, and no
language is published twice. -/
namespace GrammarCatalog

/-- A thread with the calls that it still has to finish and the answers that it has been given. -/
structure Thread where
  calls : List Call
  stage : Stage
  answers : List Answer

namespace Thread

def opening? (thread : Thread) : Option Opening := thread.calls.head?.bind Call.opening?

def goOn (thread : Thread) : Progress → Thread
  | .goesOn stage => { thread with stage := stage }
  | .answers answer => ⟨thread.calls.tail, .ready, thread.answers ++ [answer]⟩

theorem stage_goOn (thread : Thread) (progress : Progress) :
    (thread.goOn progress).stage = progress.stage := by
  cases progress <;> rfl

/-- The thread is where its call may have brought it. Once it knows that its language is undefined,
the language stays so until the thread publishes it. -/
def Fits (thread : Thread) (state : State) : Prop :=
  match thread.stage with
  | .ready => True
  | .missed => ∃ request, thread.opening? = some (.ask request)
  | .locked | .leaving => ∃ language blueprint, thread.opening? = some (.define language blueprint)
  | .cleared | .named _ => ∃ language blueprint,
      thread.opening? = some (.define language blueprint) ∧
        state.catalog.definition? language = none

/-- Whoever is within a call has one before it. -/
theorem Fits.exists_opening {thread : Thread} {state : State} (hFits : thread.Fits state)
    (hStage : thread.stage ≠ .ready) : ∃ opening, thread.opening? = some opening := by
  unfold Fits at hFits
  split at hFits
  · next hReady => exact absurd hReady hStage
  · obtain ⟨request, hOpening⟩ := hFits
    exact ⟨_, hOpening⟩
  · obtain ⟨language, blueprint, hOpening⟩ := hFits
    exact ⟨_, hOpening⟩
  · obtain ⟨language, blueprint, hOpening⟩ := hFits
    exact ⟨_, hOpening⟩
  · obtain ⟨language, blueprint, hOpening, _⟩ := hFits
    exact ⟨_, hOpening⟩
  · obtain ⟨language, blueprint, hOpening, _⟩ := hFits
    exact ⟨_, hOpening⟩

/-- Whoever has a call before it has a section before it. -/
theorem Fits.exists_next {thread : Thread} {state : State} (hFits : thread.Fits state)
    {opening : Opening} (hOpening : thread.opening? = some opening) :
    ∃ effect, opening.next? thread.stage state = some effect := by
  unfold Fits at hFits
  rw [hOpening] at hFits
  cases hStage : thread.stage with
  | ready =>
      cases opening with
      | ask request =>
          rw [Opening.next?]
          split
          · exact ⟨_, rfl⟩
          · exact ⟨_, rfl⟩
      | _ => exact ⟨_, rfl⟩
  | missed =>
      rw [hStage] at hFits
      obtain ⟨request, hSame⟩ := hFits
      cases hSame
      exact ⟨_, rfl⟩
  | locked =>
      rw [hStage] at hFits
      obtain ⟨language, blueprint, hSame⟩ := hFits
      cases hSame
      rw [Opening.next?]
      split
      · exact ⟨_, rfl⟩
      · exact ⟨_, rfl⟩
  | leaving =>
      rw [hStage] at hFits
      obtain ⟨language, blueprint, hSame⟩ := hFits
      cases hSame
      exact ⟨_, rfl⟩
  | _ =>
      rw [hStage] at hFits
      obtain ⟨language, blueprint, hSame, _⟩ := hFits
      cases hSame
      exact ⟨_, rfl⟩

theorem Fits.of_definitions_eq {thread : Thread} {state later : State} (hFits : thread.Fits state)
    (hSame : later.catalog.definitions = state.catalog.definitions) : thread.Fits later := by
  unfold Fits Catalog.definition? at hFits ⊢
  rw [hSame]
  exact hFits

/-- The language that the thread is about to name or to publish is undefined. -/
theorem Fits.definition?_eq_none {thread : Thread} {state : State} (hFits : thread.Fits state)
    (hStage : thread.stage = .cleared ∨ ∃ tokens, thread.stage = .named tokens)
    {language : Language} {blueprint : Blueprint}
    (hOpening : thread.opening? = some (.define language blueprint)) :
    state.catalog.definition? language = none := by
  rcases hStage with hStage | ⟨tokens, hStage⟩
  all_goals
    simp only [Fits, hStage, hOpening, Option.some.injEq, Opening.define.injEq] at hFits
    obtain ⟨_, _, ⟨rfl, rfl⟩, hNew⟩ := hFits
    exact hNew

/-- What a thread without the lock knows does not depend on the state. -/
theorem Fits.of_not_holds {thread : Thread} {state : State} (hFits : thread.Fits state)
    (hFree : thread.stage.holds = false) (later : State) : thread.Fits later := by
  unfold Fits at hFits ⊢
  cases hStage : thread.stage with
  | ready => trivial
  | missed =>
      rw [hStage] at hFits
      exact hFits
  | _ =>
      rw [hStage] at hFree
      cases hFree

end Thread

/-- Threads at work on one catalogue. The lock of the definitions has at most one holder. -/
structure Crew where
  state : State
  holder : Option Nat
  threads : Nat → Thread

namespace Crew

/-- Every thread has its calls before it, and nobody holds the lock. -/
def gather (state : State) (threads : List (List Call)) : Crew :=
  ⟨state, none, fun number => ⟨threads.getD number [], .ready, []⟩⟩

/-- A thread takes its turn, unless it has nothing to do or has to wait. -/
def step? (crew : Crew) (number : Nat) : Option (Section × Crew) := do
  let opening ← (crew.threads number).opening?
  let effect ← opening.next? (crew.threads number).stage crew.state
  let holder ← effect.taken.holder? number crew.holder
  pure (effect.taken, ⟨effect.state, holder,
    Function.update crew.threads number ((crew.threads number).goOn effect.progress)⟩)

/-- The threads take their turns in the given order, which is possible when nobody whose turn it is
has to wait. The sections are told in that order. -/
def run? (crew : Crew) : List Nat → Option (List Section × Crew)
  | [] => some ([], crew)
  | number :: rest => do
    let first ← crew.step? number
    let others ← first.2.run? rest
    pure (first.1 :: others.1, others.2)

/-- All calls have been answered. -/
def IsDone (crew : Crew) : Prop := ∀ number, (crew.threads number).calls = []

theorem exists_turn_of_step? {crew next : Crew} {number : Nat} {taken : Section}
    (hStep : crew.step? number = some (taken, next)) :
    ∃ opening stage effect holder, (crew.threads number).opening? = some opening ∧
      (crew.threads number).stage = stage ∧ opening.Turn stage crew.state effect ∧
      effect.taken = taken ∧ effect.taken.holder? number crew.holder = some holder ∧
      next = ⟨effect.state, holder,
        Function.update crew.threads number ((crew.threads number).goOn effect.progress)⟩ := by
  simp only [step?, Option.bind_eq_bind, Option.bind_eq_some_iff, Option.pure_def,
    Option.some.injEq, Prod.mk.injEq] at hStep
  obtain ⟨opening, hOpening, effect, hNext, holder, hHolder, hTaken, rfl⟩ := hStep
  exact ⟨opening, _, effect, holder, hOpening, rfl, Opening.turn_of_next? hNext, hTaken, hHolder,
    rfl⟩

/-- Exactly the holder of the lock is between its sections under that lock, every thread is where
its call may have brought it, and every call has an opening. -/
structure Orderly (crew : Crew) : Prop where
  holder : ∀ number, crew.holder = some number ↔ (crew.threads number).stage.holds = true
  fits : ∀ number, (crew.threads number).Fits crew.state
  openable : ∀ number, ∀ call ∈ (crew.threads number).calls, call.opening?.isSome

theorem orderly_gather (state : State) (threads : List (List Call))
    (hCalls : ∀ call ∈ threads.flatten, call.opening?.isSome) : (gather state threads).Orderly := by
  refine ⟨?_, fun _ => trivial, ?_⟩
  · intro number
    simp [gather, Stage.holds]
  · intro number call hCall
    apply hCalls
    simp only [gather, List.getD_eq_getElem?_getD] at hCall
    cases hNumber : threads[number]? with
    | none =>
        rw [hNumber] at hCall
        cases hCall
    | some thread =>
        rw [hNumber] at hCall
        exact List.mem_flatten.mpr ⟨thread, List.mem_of_getElem? hNumber, hCall⟩

variable {crew next last : Crew} {number : Nat} {taken : Section}

/-- A publication is of a language that was undefined; no other section touches the definitions. -/
theorem Orderly.definition?_step (hOrderly : crew.Orderly)
    (hStep : crew.step? number = some (taken, next)) (language : Language) :
    (taken = .publish language → crew.state.catalog.definition? language = none ∧
      next.state.catalog.isDefined language = true) ∧
    (taken ≠ .publish language →
      next.state.catalog.definition? language = crew.state.catalog.definition? language) := by
  obtain ⟨opening, stage, effect, holder, hOpening, hStage, hTurn, rfl, _, rfl⟩ :=
    exists_turn_of_step? hStep
  by_cases hPublish : ∃ other, effect.taken = .publish other
  · cases hTurn with
    | publish other blueprint state tokens =>
        have hNew := (hOrderly.fits number).definition?_eq_none (Or.inr ⟨tokens, hStage⟩) hOpening
        simp only [State.state_publish, Catalog.isDefined, Catalog.definition?_addDefinition,
          Section.publish.injEq]
        constructor
        · rintro rfl
          exact ⟨hNew, by simp⟩
        · intro hOther
          have hNe : language ≠ other := fun hSame => hOther (by rw [hSame])
          rw [if_neg hNe]
    | _ => simp at hPublish
  · have hOther : ∀ language, effect.taken ≠ .publish language := fun language hTaken =>
      hPublish ⟨language, hTaken⟩
    refine ⟨fun hTaken => absurd hTaken (hOther language), fun _ => ?_⟩
    rw [Catalog.definition?, hTurn.definitions hOther]
    rfl

/-- The thread that took its turn is where its call has brought it. -/
theorem Orderly.fits_goOn (hOrderly : crew.Orderly) {opening : Opening} {stage : Stage}
    {effect : Effect} (hOpening : (crew.threads number).opening? = some opening)
    (hStage : (crew.threads number).stage = stage)
    (hTurn : opening.Turn stage crew.state effect) :
    ((crew.threads number).goOn effect.progress).Fits effect.state := by
  have hKept : ∀ stage, ({ crew.threads number with stage := stage } : Thread).opening? =
      some opening := fun _ => hOpening
  cases hTurn with
  | refuse => trivial
  | hit => trivial
  | write => trivial
  | release => trivial
  | miss request => exact ⟨request, hKept _⟩
  | acquire language blueprint => exact ⟨language, blueprint, hKept _⟩
  | refrain language blueprint => exact ⟨language, blueprint, hKept _⟩
  | proceed language blueprint _ hNew => exact ⟨language, blueprint, hKept _, hNew⟩
  | intern language blueprint =>
      refine ⟨language, blueprint, hKept _, ?_⟩
      rw [Catalog.definition?, (State.definitions_internAll _ _ _ _).1]
      exact (hOrderly.fits number).definition?_eq_none (Or.inl hStage) hOpening
  | publish language blueprint => exact ⟨language, blueprint, hKept _⟩

/-- A thread whose turn it was not knows what it knew. -/
theorem Orderly.fits_other (hOrderly : crew.Orderly) {opening : Opening} {stage : Stage}
    {effect : Effect} (hStage : (crew.threads number).stage = stage)
    (hTurn : opening.Turn stage crew.state effect) {other : Nat} (hOther : other ≠ number) :
    (crew.threads other).Fits effect.state := by
  have hFits := hOrderly.fits other
  cases hTurn with
  | publish =>
      -- The publisher holds the lock, so the other thread does not.
      apply hFits.of_not_holds
      have hHolder : crew.holder = some number := by
        rw [hOrderly.holder, hStage]
        rfl
      rw [Bool.eq_false_iff, ne_eq, ← hOrderly.holder, hHolder]
      intro hSame
      exact hOther (Option.some.inj hSame).symm
  | write => exact hFits.of_definitions_eq (Opening.Turn.definitions (.write _ _) (by simp))
  | intern => exact hFits.of_definitions_eq (Opening.Turn.definitions (.intern _ _ _) (by simp))
  | _ => exact hFits

/-- A turn leaves the crew in order. -/
theorem Orderly.step (hOrderly : crew.Orderly) (hStep : crew.step? number = some (taken, next)) :
    next.Orderly := by
  obtain ⟨opening, stage, effect, holder, hOpening, hStage, hTurn, _, hHolder, rfl⟩ :=
    exists_turn_of_step? hStep
  refine ⟨?_, ?_, ?_⟩
  · have hOwn := hOrderly.holder number
    rw [hStage] at hOwn
    obtain ⟨hLater, hOthers⟩ := hTurn.holder hOwn hHolder
    intro other
    by_cases hOther : other = number
    · subst hOther
      simp only [Function.update_self, Thread.stage_goOn]
      exact hLater
    · simp only [Function.update_of_ne hOther]
      exact (hOthers other hOther).trans (hOrderly.holder other)
  · intro other
    by_cases hOther : other = number
    · subst hOther
      simp only [Function.update_self]
      exact hOrderly.fits_goOn hOpening hStage hTurn
    · simp only [Function.update_of_ne hOther]
      exact hOrderly.fits_other hStage hTurn hOther
  · intro other call hCall
    by_cases hOther : other = number
    · subst hOther
      apply hOrderly.openable other
      simp only [Function.update_self] at hCall
      cases hProgress : effect.progress with
      | goesOn stage =>
          rw [hProgress] at hCall
          exact hCall
      | answers answer =>
          rw [hProgress] at hCall
          exact List.mem_of_mem_tail hCall
    · simp only [Function.update_of_ne hOther] at hCall
      exact hOrderly.openable other call hCall

/-- A thread with a call before it can take its turn if it holds the lock, or if nobody does. -/
theorem Orderly.isSome_step? (hOrderly : crew.Orderly) {opening : Opening}
    (hOpening : (crew.threads number).opening? = some opening)
    (hHolder : crew.holder = some number ∨ crew.holder = none) :
    (crew.step? number).isSome := by
  obtain ⟨effect, hNext⟩ := (hOrderly.fits number).exists_next hOpening
  have hTurn := Opening.turn_of_next? hNext
  have hTaken : (effect.taken.holder? number crew.holder).isSome := by
    rcases hHolder with hHeld | hFree
    · have hOther := hTurn.ne_acquire ((hOrderly.holder number).mp hHeld)
      exact Section.isSome_holder? (Or.inl hOther)
    · exact Section.isSome_holder? (Or.inr hFree)
  obtain ⟨holder, hTaken⟩ := Option.isSome_iff_exists.mp hTaken
  simp [step?, hOpening, hNext, hTaken]

/-- Nobody waits for good: while calls are left, some thread can take its turn. It is the holder of
the lock if there is one, and else any thread with a call. -/
theorem Orderly.exists_isSome_step? (hOrderly : crew.Orderly) (hLeft : ¬crew.IsDone) :
    ∃ number, (crew.step? number).isSome := by
  cases hHolder : crew.holder with
  | some number =>
      have hWithin : (crew.threads number).stage ≠ .ready := by
        intro hReady
        have hHolds := (hOrderly.holder number).mp hHolder
        rw [hReady] at hHolds
        cases hHolds
      obtain ⟨opening, hOpening⟩ := (hOrderly.fits number).exists_opening hWithin
      exact ⟨number, hOrderly.isSome_step? hOpening (Or.inl hHolder)⟩
  | none =>
      obtain ⟨number, hCalls⟩ := not_forall.mp hLeft
      obtain ⟨call, rest, hCalls⟩ := List.exists_cons_of_ne_nil hCalls
      have hOpenable := hOrderly.openable number call (by rw [hCalls]; exact List.mem_cons_self)
      obtain ⟨opening, hOpening⟩ := Option.isSome_iff_exists.mp hOpenable
      have hFirst : (crew.threads number).opening? = some opening := by
        rw [Thread.opening?, hCalls]
        exact hOpening
      exact ⟨number, hOrderly.isSome_step? hFirst (Or.inr hHolder)⟩

/-- A run starts with the first turn and goes on from there. -/
theorem run?_cons {schedule : List Nat} {sections : List Section}
    (hRun : crew.run? (number :: schedule) = some (sections, last)) :
    ∃ taken next later, crew.step? number = some (taken, next) ∧
      next.run? schedule = some (later, last) ∧ sections = taken :: later := by
  simp only [run?, Option.bind_eq_bind, Option.bind_eq_some_iff, Option.pure_def,
    Option.some.injEq, Prod.mk.injEq] at hRun
  obtain ⟨⟨taken, next⟩, hStep, ⟨later, _⟩, hRest, hSections, rfl⟩ := hRun
  exact ⟨taken, next, later, hStep, hRest, hSections.symm⟩

/-- What a turn keeps is kept by a run of turns. -/
theorem run?_keeps (kept : Crew → Prop) {schedule : List Nat} {sections : List Section}
    (hTurn : ∀ crew number taken next, crew.step? number = some (taken, next) → kept crew →
      kept next)
    (hRun : crew.run? schedule = some (sections, last)) (hStart : kept crew) : kept last := by
  induction schedule generalizing crew sections with
  | nil =>
      cases hRun
      exact hStart
  | cons number rest ih =>
      obtain ⟨taken, next, later, hStep, hRest, _⟩ := run?_cons hRun
      exact ih hRest (hTurn _ _ _ _ hStep hStart)

theorem Orderly.run (hOrderly : crew.Orderly) {schedule : List Nat} {sections : List Section}
    (hRun : crew.run? schedule = some (sections, last)) : last.Orderly :=
  run?_keeps Orderly (fun _ _ _ _ hStep hOrderly => hOrderly.step hStep) hRun hOrderly

/-- A run comes through each of its moments. -/
theorem exists_run?_take {schedule : List Nat} {sections : List Section}
    (hRun : crew.run? schedule = some (sections, last)) (moment : Nat) :
    ∃ earlier meanwhile later, crew.run? (schedule.take moment) = some (earlier, meanwhile) ∧
      meanwhile.run? (schedule.drop moment) = some (later, last) := by
  induction schedule generalizing crew sections moment with
  | nil =>
      rw [List.take_nil, List.drop_nil]
      exact ⟨[], crew, sections, rfl, hRun⟩
  | cons number rest ih =>
      cases moment with
      | zero => exact ⟨[], crew, sections, rfl, hRun⟩
      | succ moment =>
          obtain ⟨taken, next, others, hStep, hRest, _⟩ := run?_cons hRun
          obtain ⟨earlier, meanwhile, later, hFirst, hLast⟩ := ih hRest moment
          refine ⟨taken :: earlier, meanwhile, later, ?_, hLast⟩
          simp [run?, hStep, hFirst]

/-- A language that is defined keeps its tables. -/
theorem Orderly.definition?_run (hOrderly : crew.Orderly) {schedule : List Nat}
    {sections : List Section} (hRun : crew.run? schedule = some (sections, last))
    {language : Language} {definition : Definition}
    (hDefinition : crew.state.catalog.definition? language = some definition) :
    last.state.catalog.definition? language = some definition := by
  have hKept := run?_keeps
    (fun crew => crew.Orderly ∧ crew.state.catalog.definition? language = some definition)
    (fun crew number taken next hStep hKept => ?_) hRun ⟨hOrderly, hDefinition⟩
  · exact hKept.2
  · obtain ⟨hPublished, hOther⟩ := hKept.1.definition?_step hStep language
    refine ⟨hKept.1.step hStep, ?_⟩
    rw [hOther, hKept.2]
    intro hTaken
    rw [(hPublished hTaken).1] at hKept
    cases hKept.2

/-- A language is published at most once, and not at all if it was defined before. -/
theorem Orderly.count_publish_le (hOrderly : crew.Orderly) {schedule : List Nat}
    {sections : List Section} (hRun : crew.run? schedule = some (sections, last))
    (language : Language) :
    (crew.state.catalog.isDefined language).toNat + sections.count (.publish language) ≤ 1 := by
  induction schedule generalizing crew sections with
  | nil =>
      cases hRun
      simpa using Bool.toNat_le _
  | cons number rest ih =>
      obtain ⟨taken, next, later, hStep, hRest, rfl⟩ := run?_cons hRun
      have hLater := ih (hOrderly.step hStep) hRest
      obtain ⟨hPublished, hOther⟩ := hOrderly.definition?_step hStep language
      rw [List.count_cons]
      by_cases hTaken : taken = .publish language
      · obtain ⟨hNew, hDefined⟩ := hPublished hTaken
        rw [hDefined] at hLater
        simp only [Catalog.isDefined, hNew, hTaken, Option.isSome_none, Bool.toNat_false,
          beq_self_eq_true, ↓reduceIte, Bool.toNat_true] at hLater ⊢
        omega
      · have hSame : next.state.catalog.isDefined language =
            crew.state.catalog.isDefined language := by
          rw [Catalog.isDefined, hOther hTaken]
          rfl
        rw [hSame] at hLater
        simpa [hTaken] using hLater

end Crew

end GrammarCatalog
