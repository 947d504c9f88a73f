import GrammarCatalog.Proofs.Crew
import GrammarCatalog.Proofs.Interleaving

/-! Sections act as whole calls. The calls of threads that take turns section by section come to
what the same calls come to one at a time, in an order that keeps the order of each thread. A
request counts when it finds its token or makes it. A definition counts when it finds its language
defined or when it interns the names; from then on its tables are as good as published, for until
they are nobody but a reader of the tables can tell the difference. -/
namespace GrammarCatalog

theorem threadAnswers_concat {order : List (Nat × Call)} {answers : List Answer}
    (hLength : answers.length = order.length) (entry : Nat × Call) (answer : Answer)
    (number : Nat) :
    threadAnswers (order ++ [entry]) (answers ++ [answer]) number =
      if entry.1 = number then threadAnswers order answers number ++ [answer]
      else threadAnswers order answers number := by
  unfold threadAnswers
  rw [List.zip_append hLength.symm, List.filter_append, List.map_append]
  by_cases hOwn : entry.1 = number
  · simp [hOwn]
  · simp [hOwn]

namespace State

/-- The rules that are published do not depend on how many tokens there are. -/
theorem published_token (state : State) (catalog : Catalog) (symbol : Symbol) (name : String)
    (owner : Option Language) (registered : Bool) (language : Language) (blueprint : Blueprint)
    (tokens : List TokenElement) :
    (State.mk (state.supply.token symbol name owner registered).2 catalog).published language
      blueprint tokens = state.published language blueprint tokens := by
  have hRules : ((state.supply.token symbol name owner registered).2.rulesFor language
      blueprint.registered (Naming.numberedRules blueprint.rules)).1 =
      (state.supply.rulesFor language blueprint.registered
        (Naming.numberedRules blueprint.rules)).1 := by
    apply List.ext_getElem?
    intro place
    rw [Supply.getElem?_rulesFor, Supply.getElem?_rulesFor]
    rfl
  rw [published, published, hRules]
  rfl

/-- A request commutes with a publication. -/
theorem grant_publish (state : State) (request : Request) (language : Language)
    (blueprint : Blueprint) (tokens : List TokenElement) :
    ((state.publish language blueprint.names tokens blueprint.rules
      blueprint.registered).state.grant request).answer = (state.grant request).answer ∧
    ((state.publish language blueprint.names tokens blueprint.rules
      blueprint.registered).state.grant request).state =
      ((state.grant request).state.publish language blueprint.names tokens blueprint.rules
        blueprint.registered).state := by
  simp only [state_publish]
  cases hToken : state.catalog.tokenAt? request.key with
  | some token =>
      rw [grant_of_kept _ _ token hToken, grant_of_kept _ _ token]
      · exact ⟨rfl, rfl⟩
      · rw [Catalog.tokenAt?_addDefinition, hToken]
  | none =>
      obtain ⟨hAnswer, hState⟩ := state.grant_of_missing request hToken
      obtain ⟨hAnswer', hState'⟩ := grant_of_missing ⟨state.supplyAfter blueprint,
        state.catalog.addDefinition language (state.published language blueprint tokens)⟩ request
        (by rw [Catalog.tokenAt?_addDefinition, hToken])
      rw [hAnswer, hAnswer', hState, hState', published_token]
      refine ⟨rfl, ?_⟩
      rw [State.mk.injEq]
      refine ⟨rfl, ?_⟩
      cases request <;> rfl

end State

/-- From this stage on the call counts as taken, although it may still have sections to go. -/
def Stage.counts : Stage → Bool
  | named _ | leaving => true
  | _ => false

namespace Progress

/-- An answered call counts. -/
def counts : Progress → Bool
  | goesOn stage => stage.counts
  | answers _ => true

/-- The answer that is given, or that will be given to a call that counts. -/
def answer : Progress → Answer
  | goesOn _ => .done
  | answers answer => answer

end Progress

namespace Thread

/-- The calls that do not count yet. -/
def ahead (thread : Thread) : List Call :=
  if thread.stage.counts then thread.calls.tail else thread.calls

/-- The answers to the calls that count. -/
def told (thread : Thread) : List Answer :=
  if thread.stage.counts then thread.answers ++ [.done] else thread.answers

section GoOn

variable {thread : Thread} {progress : Progress}

theorem goOn_counting {call : Call} {rest : List Call} (hCalls : thread.calls = call :: rest)
    (hBefore : thread.stage.counts = false) (hAfter : progress.counts = true) :
    thread.ahead = call :: (thread.goOn progress).ahead ∧
      (thread.goOn progress).told = thread.told ++ [progress.answer] := by
  cases progress with
  | goesOn stage =>
      have hStage : stage.counts = true := hAfter
      simp [ahead, told, goOn, hBefore, hStage, hCalls, Progress.answer]
  | answers answer =>
      have hReady : Stage.ready.counts = false := rfl
      simp [ahead, told, goOn, hBefore, hReady, hCalls, Progress.answer]

theorem goOn_waiting (hBefore : thread.stage.counts = false) (hAfter : progress.counts = false) :
    (thread.goOn progress).ahead = thread.ahead ∧ (thread.goOn progress).told = thread.told := by
  cases progress with
  | goesOn stage =>
      have hStage : stage.counts = false := hAfter
      simp [ahead, told, goOn, hBefore, hStage]
  | answers answer => cases hAfter

theorem goOn_counted (hBefore : thread.stage.counts = true) (hAfter : progress.counts = true)
    (hDone : progress.answer = .done) :
    (thread.goOn progress).ahead = thread.ahead ∧ (thread.goOn progress).told = thread.told := by
  cases progress with
  | goesOn stage =>
      have hStage : stage.counts = true := hAfter
      simp [ahead, told, goOn, hBefore, hStage]
  | answers answer =>
      have hAnswer : answer = .done := hDone
      have hReady : Stage.ready.counts = false := rfl
      simp [ahead, told, goOn, hBefore, hReady, hAnswer]

end GoOn

/-- The state in which the tables that the thread has at hand are published. -/
def settle (thread : Thread) (state : State) : State :=
  match thread.stage, thread.opening? with
  | .named tokens, some (.define language blueprint) =>
    (state.publish language blueprint.names tokens blueprint.rules blueprint.registered).state
  | _, _ => state

theorem settle_of_named {thread : Thread} {tokens : List TokenElement} {language : Language}
    {blueprint : Blueprint} (hStage : thread.stage = .named tokens)
    (hOpening : thread.opening? = some (.define language blueprint)) (state : State) :
    thread.settle state = (state.publish language blueprint.names tokens blueprint.rules
      blueprint.registered).state := by
  rw [settle, hStage, hOpening]

theorem settle_goOn_named {thread : Thread} {language : Language} {blueprint : Blueprint}
    (hOpening : thread.opening? = some (.define language blueprint)) (tokens : List TokenElement)
    (state : State) :
    (thread.goOn (.goesOn (.named tokens))).settle state =
      (state.publish language blueprint.names tokens blueprint.rules
        blueprint.registered).state := by
  apply settle_of_named rfl
  exact hOpening

theorem settle_of_not_named {thread : Thread} (hStage : ∀ tokens, thread.stage ≠ .named tokens)
    (state : State) : thread.settle state = state := by
  unfold settle
  split
  · next hNamed _ => exact absurd hNamed (hStage _)
  · rfl

/-- To settle is to publish or to do nothing. -/
theorem settle_cases (thread : Thread) :
    (∃ language, ∃ blueprint : Blueprint, ∃ tokens, ∀ state, thread.settle state =
      (state.publish language blueprint.names tokens blueprint.rules
        blueprint.registered).state) ∨ ∀ state, thread.settle state = state := by
  unfold settle
  split
  · exact Or.inl ⟨_, _, _, fun _ => rfl⟩
  · exact Or.inr fun _ => rfl

end Thread

namespace Crew

/-- The state in which the tables that the holder of the lock has at hand are published. -/
def settle (crew : Crew) (state : State) : State :=
  match crew.holder with
  | some number => (crew.threads number).settle state
  | none => state

def settled (crew : Crew) : State := crew.settle crew.state

theorem settle_cases (crew : Crew) :
    (∃ language, ∃ blueprint : Blueprint, ∃ tokens, ∀ state, crew.settle state =
      (state.publish language blueprint.names tokens blueprint.rules
        blueprint.registered).state) ∨ ∀ state, crew.settle state = state := by
  unfold settle
  cases crew.holder with
  | some number => exact (crew.threads number).settle_cases
  | none => exact Or.inr fun _ => rfl

theorem tokenAt?_settle (crew : Crew) (state : State) (key : TokenKey) :
    (crew.settle state).catalog.tokenAt? key = state.catalog.tokenAt? key := by
  rcases crew.settle_cases with ⟨language, blueprint, tokens, hPublish⟩ | hSame
  · rw [hPublish, State.state_publish, Catalog.tokenAt?_addDefinition]
  · rw [hSame]

theorem grant_settle (crew : Crew) (state : State) (request : Request) :
    ((crew.settle state).grant request).answer = (state.grant request).answer ∧
      ((crew.settle state).grant request).state = crew.settle (state.grant request).state := by
  rcases crew.settle_cases with ⟨language, blueprint, tokens, hPublish⟩ | hSame
  · rw [hPublish, hPublish]
    exact state.grant_publish request language blueprint tokens
  · rw [hSame, hSame]
    exact ⟨rfl, rfl⟩

/-- A turn after which no more calls count than before. -/
structure Continues (crew next : Crew) : Prop where
  settled : next.settled = crew.settled
  ahead : ∀ number, (next.threads number).ahead = (crew.threads number).ahead
  told : ∀ number, (next.threads number).told = (crew.threads number).told

/-- A turn with which a call comes to count, as if it was taken as a whole. -/
structure Counts (crew : Crew) (number : Nat) (call : Call) (next : Crew) : Prop where
  settled : next.settled = (crew.settled.take call).state
  ahead : (crew.threads number).ahead = call :: (next.threads number).ahead
  told : (next.threads number).told =
    (crew.threads number).told ++ [(crew.settled.take call).answer]
  others : ∀ other ≠ number, next.threads other = crew.threads other

variable {crew next last : Crew} {number : Nat} {taken : Section}

/-- Only the thread that holds the lock has tables at hand. -/
theorem settled_of_holder (hHolder : crew.holder = some number) :
    crew.settled = (crew.threads number).settle crew.state := by
  rw [settled, settle, hHolder]

/-- A turn of a thread without the lock leaves it to the holder what there is to settle. -/
theorem settled_of_other_turn (hHolder : crew.holder ≠ some number) (state : State)
    (thread : Thread) :
    (Crew.mk state crew.holder (Function.update crew.threads number thread)).settled =
      crew.settle state := by
  unfold settled settle
  cases hCase : crew.holder with
  | none => rfl
  | some holder =>
      have hNe : holder ≠ number := fun hSame => hHolder (by rw [hCase, hSame])
      simp only [Function.update_of_ne hNe]

/-- Whoever has the lock after a turn of its own settles what it has at hand. -/
theorem settled_of_own_turn (state : State) (thread : Thread) :
    (Crew.mk state (some number) (Function.update crew.threads number thread)).settled =
      thread.settle state := by
  simp only [settled, settle, Function.update_self]

section Turns

variable {opening : Opening} {state : State} {holder : Option Nat} {progress : Progress}

/-- With a turn a call comes to count when the state and the answer are what the call comes to as a
whole. -/
theorem counts_of_follow {call : Call} {rest : List Call}
    (hCalls : (crew.threads number).calls = call :: rest) (hCall : call.opening? = some opening)
    (hBefore : (crew.threads number).stage.counts = false) (hAfter : progress.counts = true)
    (hState : (Crew.mk state holder (Function.update crew.threads number
      ((crew.threads number).goOn progress))).settled = (crew.settled.follow opening).2)
    (hAnswer : (crew.settled.follow opening).1 = progress.answer) :
    crew.Counts number call ⟨state, holder, Function.update crew.threads number
      ((crew.threads number).goOn progress)⟩ := by
  obtain ⟨hWholeAnswer, hWholeState⟩ := State.take_of_opening? hCall crew.settled
  obtain ⟨hAhead, hTold⟩ := Thread.goOn_counting hCalls hBefore hAfter
  constructor
  · rw [hState, hWholeState]
  · simp only [Function.update_self]
    exact hAhead
  · simp only [Function.update_self]
    rw [hTold, hWholeAnswer, hAnswer]
  · intro other hOther
    exact Function.update_of_ne hOther _ _

theorem continues_of_goOn
    (hState : (Crew.mk state holder (Function.update crew.threads number
      ((crew.threads number).goOn progress))).settled = crew.settled)
    (hSame : ((crew.threads number).goOn progress).ahead = (crew.threads number).ahead ∧
      ((crew.threads number).goOn progress).told = (crew.threads number).told) :
    crew.Continues ⟨state, holder, Function.update crew.threads number
      ((crew.threads number).goOn progress)⟩ := by
  refine ⟨hState, ?_, ?_⟩
  · intro other
    by_cases hOther : other = number
    · simp only [hOther, Function.update_self, hSame.1]
    · simp only [Function.update_of_ne hOther]
  · intro other
    by_cases hOther : other = number
    · simp only [hOther, Function.update_self, hSame.2]
    · simp only [Function.update_of_ne hOther]

end Turns

/-- With a turn either one call comes to count or nothing changes that counts. -/
theorem Orderly.counts_or_continues (hOrderly : crew.Orderly)
    (hStep : crew.step? number = some (taken, next)) :
    (∃ call, crew.Counts number call next) ∨ crew.Continues next := by
  obtain ⟨opening, stage, effect, holder, hOpening, hStage, hTurn, _, hHolder, rfl⟩ :=
    exists_turn_of_step? hStep
  obtain ⟨call, hHead, hCall⟩ := Option.bind_eq_some_iff.mp hOpening
  obtain ⟨rest, hCalls⟩ := List.head?_eq_some_iff.mp hHead
  have hBefore : (crew.threads number).stage.counts = stage.counts := congrArg _ hStage
  have hOwn := hOrderly.holder number
  rw [hStage] at hOwn
  cases hTurn with
  | refuse refusal =>
      cases hHolder
      have hNot : crew.holder ≠ some number := fun hHeld => by cases hOwn.mp hHeld
      refine Or.inl ⟨call, counts_of_follow hCalls hCall hBefore rfl ?_ rfl⟩
      exact settled_of_other_turn hNot _ _
  | hit request _ token hKept =>
      cases hHolder
      have hNot : crew.holder ≠ some number := fun hHeld => by cases hOwn.mp hHeld
      have hGrant := crew.settled.grant_of_kept request token
        ((crew.tokenAt?_settle crew.state request.key).trans hKept)
      refine Or.inl ⟨call, counts_of_follow hCalls hCall hBefore rfl ?_ ?_⟩
      · rw [State.follow, hGrant]
        exact settled_of_other_turn hNot _ _
      · rw [State.follow, hGrant]
        rfl
  | miss request =>
      cases hHolder
      have hNot : crew.holder ≠ some number := fun hHeld => by cases hOwn.mp hHeld
      refine Or.inr (continues_of_goOn ?_ (Thread.goOn_waiting hBefore rfl))
      exact settled_of_other_turn hNot _ _
  | write request =>
      cases hHolder
      have hNot : crew.holder ≠ some number := fun hHeld => by cases hOwn.mp hHeld
      obtain ⟨hAnswer, hState⟩ := crew.grant_settle crew.state request
      refine Or.inl ⟨call, counts_of_follow hCalls hCall hBefore rfl ?_ ?_⟩
      · exact (settled_of_other_turn hNot _ _).trans hState.symm
      · rw [State.follow, settled, hAnswer]
        rfl
  | acquire language blueprint =>
      simp only [Section.holder?, Option.isNone_iff_eq_none, Option.ite_none_right_eq_some,
        Option.some.injEq] at hHolder
      obtain ⟨hFree, rfl⟩ := hHolder
      refine Or.inr (continues_of_goOn ?_ (Thread.goOn_waiting hBefore rfl))
      rw [settled_of_own_turn, settled, settle, hFree]
      rfl
  | refrain language blueprint _ hDefined =>
      cases hHolder
      have hHeld : crew.holder = some number := hOwn.mpr rfl
      refine Or.inl ⟨call, counts_of_follow hCalls hCall hBefore rfl ?_ rfl⟩
      rw [hHeld, settled_of_own_turn, settled_of_holder hHeld,
        Thread.settle_of_not_named (by simp [Thread.goOn]),
        Thread.settle_of_not_named (by simp [hStage]), State.follow, State.meet, if_pos hDefined]
  | proceed language blueprint _ hNew =>
      cases hHolder
      have hHeld : crew.holder = some number := hOwn.mpr rfl
      refine Or.inr (continues_of_goOn ?_ (Thread.goOn_waiting hBefore rfl))
      rw [hHeld, settled_of_own_turn, settled_of_holder hHeld,
        Thread.settle_of_not_named (by simp [Thread.goOn]),
        Thread.settle_of_not_named (by simp [hStage])]
  | intern language blueprint =>
      cases hHolder
      have hHeld : crew.holder = some number := hOwn.mpr rfl
      have hUndefined : ¬crew.state.catalog.isDefined language = true := by
        rw [Catalog.isDefined, (hOrderly.fits number).definition?_eq_none (Or.inl hStage) hOpening]
        simp
      refine Or.inl ⟨call, counts_of_follow hCalls hCall hBefore rfl ?_ rfl⟩
      rw [hHeld, settled_of_own_turn, settled_of_holder hHeld,
        Thread.settle_goOn_named hOpening, Thread.settle_of_not_named (by simp [hStage]),
        State.follow, State.meet, if_neg hUndefined]
      rfl
  | publish language blueprint _ tokens =>
      cases hHolder
      have hHeld : crew.holder = some number := hOwn.mpr rfl
      refine Or.inr (continues_of_goOn ?_ (Thread.goOn_counted hBefore rfl rfl))
      rw [hHeld, settled_of_own_turn, settled_of_holder hHeld,
        Thread.settle_of_not_named (by simp [Thread.goOn]),
        Thread.settle_of_named hStage hOpening]
  | release language blueprint =>
      cases hHolder
      have hHeld : crew.holder = some number := hOwn.mpr rfl
      refine Or.inr (continues_of_goOn ?_ (Thread.goOn_counted hBefore rfl rfl))
      rw [settled_of_holder hHeld, Thread.settle_of_not_named (by simp [hStage])]
      rfl

/-- The calls that count come to the settled state and to the answers told, when they are taken as
whole calls in this order. -/
structure Linearizes (start : State) (threads : List (List Call)) (order : List (Nat × Call))
    (crew : Crew) : Prop where
  state : (start.takeAll (order.map Prod.snd)).state = crew.settled
  calls : ∀ number, (order.filter (·.1 = number)).map Prod.snd ++ (crew.threads number).ahead =
    threads.getD number []
  answers : ∀ number, threadAnswers order (start.takeAll (order.map Prod.snd)).answer number =
    (crew.threads number).told

theorem linearizes_gather (start : State) (threads : List (List Call)) :
    Linearizes start threads [] (gather start threads) :=
  ⟨rfl, fun _ => rfl, fun _ => rfl⟩

variable {start : State} {threads : List (List Call)} {order : List (Nat × Call)}

theorem Continues.linearizes (hContinues : crew.Continues next)
    (hLinearizes : Linearizes start threads order crew) :
    Linearizes start threads order next := by
  constructor
  · rw [hLinearizes.state, hContinues.settled]
  · intro number
    rw [hContinues.ahead, hLinearizes.calls]
  · intro number
    rw [hContinues.told, hLinearizes.answers]

/-- The call that comes to count is the last in the order. -/
theorem Counts.linearizes {call : Call} (hCounts : crew.Counts number call next)
    (hLinearizes : Linearizes start threads order crew) :
    Linearizes start threads (order ++ [(number, call)]) next := by
  obtain ⟨hState, hAnswer⟩ := start.takeAll_append (order.map Prod.snd) [call]
  rw [hLinearizes.state] at hState hAnswer
  constructor
  · rw [hCounts.settled, List.map_append]
    exact hState
  · intro other
    rw [List.filter_append, List.map_append, ← hLinearizes.calls other]
    by_cases hOther : other = number
    · subst hOther
      simp [hCounts.ahead]
    · simp [hCounts.others other hOther, Ne.symm hOther]
  · intro other
    have hSingle : (crew.settled.takeAll [call]).answer = [(crew.settled.take call).answer] := rfl
    rw [List.map_append, List.map_singleton, hAnswer, hSingle, threadAnswers_concat]
    · by_cases hOther : other = number
      · subst hOther
        rw [if_pos rfl, hLinearizes.answers, hCounts.told]
      · rw [if_neg (Ne.symm hOther), hLinearizes.answers, hCounts.others other hOther]
    · rw [State.length_takeAll, List.length_map]

/-- The calls that count after a run have an order in which they are taken as whole calls. -/
theorem Orderly.exists_linearizes (hOrderly : crew.Orderly) {schedule : List Nat}
    {sections : List Section} (hRun : crew.run? schedule = some (sections, last))
    (hLinearizes : Linearizes start threads order crew) :
    ∃ order, Linearizes start threads order last := by
  have hKept := run?_keeps (fun crew => crew.Orderly ∧ ∃ order, Linearizes start threads order crew)
    (fun crew number taken next hStep hKept => ?_) hRun ⟨hOrderly, order, hLinearizes⟩
  · exact hKept.2
  · obtain ⟨hOrderly, order, hLinearizes⟩ := hKept
    refine ⟨hOrderly.step hStep, ?_⟩
    rcases hOrderly.counts_or_continues hStep with ⟨call, hCounts⟩ | hContinues
    · exact ⟨_, hCounts.linearizes hLinearizes⟩
    · exact ⟨_, hContinues.linearizes hLinearizes⟩

/-- When all calls have been answered, all count. -/
theorem Orderly.settled_of_isDone (hOrderly : crew.Orderly) (hDone : crew.IsDone) :
    crew.settled = crew.state ∧ ∀ number, (crew.threads number).ahead = [] ∧
      (crew.threads number).told = (crew.threads number).answers := by
  have hReady : ∀ number, (crew.threads number).stage = .ready := by
    intro number
    by_contra hWithin
    obtain ⟨opening, hOpening⟩ := (hOrderly.fits number).exists_opening hWithin
    rw [Thread.opening?, hDone number] at hOpening
    cases hOpening
  refine ⟨?_, fun number => ?_⟩
  · cases hHolder : crew.holder with
    | none => rw [settled, settle, hHolder]
    | some number =>
        have hHolds := (hOrderly.holder number).mp hHolder
        rw [hReady] at hHolds
        cases hHolds
  · have hCounts : (crew.threads number).stage.counts = false := by
      rw [hReady]
      rfl
    simp [Thread.ahead, Thread.told, hCounts, hDone number]

end Crew

end GrammarCatalog
