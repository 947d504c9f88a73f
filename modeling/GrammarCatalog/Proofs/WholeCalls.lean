import GrammarCatalog.Proofs.Linearization

/-! Threads that take turns section by section. What they are told and what they leave behind is
what whole calls come to, one at a time. On the way a language shows nothing at all or all that it
shows in the end, because it is published in one section and never again. -/
namespace GrammarCatalog

/-- What may be asked of a language without adding anything: whether it is defined, and its four
tables. -/
def Call.accessors (language : Language) : List Call :=
  [.isDefined language, .tokens language, .rules language, .tokenNames language,
    .ruleNames language]

/-- What an undefined language shows. -/
def Answer.nothingShown : List Answer :=
  [.truth false, .tokens [], .rules [], .tokenNames none, .ruleNames none]

namespace State

/-- What the accessors say of a language. -/
def shown (state : State) (language : Language) : List Answer :=
  (Call.accessors language).map fun call => (state.take call).answer

/-- What the accessors say depends on the definition alone. -/
theorem shown_eq_of_definition?_eq {state later : State} {language : Language}
    (hSame : state.catalog.definition? language = later.catalog.definition? language) :
    state.shown language = later.shown language := by
  obtain ⟨hIsDefined, hTokens, hRules, hTokenNames, hRuleNames⟩ := Catalog.tables_eq hSame
  simp only [shown, Call.accessors, List.map_cons, List.map_nil, take, Outcome.silent, hIsDefined,
    hTokens, hRules, hTokenNames, hRuleNames]

theorem shown_of_undefined {state : State} {language : Language}
    (hUndefined : state.catalog.definition? language = none) :
    state.shown language = Answer.nothingShown := by
  have hEmpty : Catalog.empty.definition? language = none := rfl
  have hShown : state.shown language = State.shown ⟨state.supply, .empty⟩ language :=
    shown_eq_of_definition?_eq (hUndefined.trans hEmpty.symm)
  exact hShown

end State

/-- Threads that define languages and ask for tokens may take turns after every section. Every run
that brings all calls to an end gives each thread the answers, and leaves the state, of the same
calls taken as a whole one at a time, in an order that keeps the order of each thread. A run that
has not come to an end can go on. No language is published twice, nor a language that was defined
before. Whoever looks on the way sees of a language nothing, or all that there is in the end. -/
theorem sections_act_as_whole_calls (start : State) (threads : List (List Call))
    (schedule : List Nat) (sections : List Section) (crew : Crew)
    (hCalls : ∀ call ∈ threads.flatten, call.opening?.isSome)
    (hRun : (Crew.gather start threads).run? schedule = some (sections, crew)) :
    (crew.IsDone → ∃ order, IsInterleaving threads order ∧
      (start.takeAll (order.map Prod.snd)).state = crew.state ∧
      ∀ number, threadAnswers order (start.takeAll (order.map Prod.snd)).answer number =
        (crew.threads number).answers) ∧
    (¬crew.IsDone → ∃ number, (crew.step? number).isSome) ∧
    (∀ language, (start.catalog.isDefined language).toNat +
      sections.count (.publish language) ≤ 1) ∧
    ∀ moment, ∃ earlier meanwhile,
      (Crew.gather start threads).run? (schedule.take moment) = some (earlier, meanwhile) ∧
      ∀ language,
        meanwhile.state.catalog.definition? language = none ∧
          meanwhile.state.shown language = Answer.nothingShown ∨
        meanwhile.state.catalog.definition? language = crew.state.catalog.definition? language ∧
          meanwhile.state.shown language = crew.state.shown language := by
  have hOrderly := Crew.orderly_gather start threads hCalls
  have hOrderlyLast : crew.Orderly := hOrderly.run hRun
  refine ⟨fun hDone => ?_, hOrderlyLast.exists_isSome_step?, hOrderly.count_publish_le hRun,
    fun moment => ?_⟩
  · obtain ⟨order, hLinearizes⟩ :=
      hOrderly.exists_linearizes hRun (Crew.linearizes_gather start threads)
    obtain ⟨hSettled, hThreads⟩ := hOrderlyLast.settled_of_isDone hDone
    refine ⟨order, fun number => ?_, hLinearizes.state.trans hSettled, fun number => ?_⟩
    · rw [← hLinearizes.calls, (hThreads number).1, List.append_nil]
    · rw [hLinearizes.answers, (hThreads number).2]
  · obtain ⟨earlier, meanwhile, later, hFirst, hLast⟩ := Crew.exists_run?_take hRun moment
    refine ⟨earlier, meanwhile, hFirst, fun language => ?_⟩
    cases hDefinition : meanwhile.state.catalog.definition? language with
    | none => exact Or.inl ⟨rfl, State.shown_of_undefined hDefinition⟩
    | some definition =>
        have hKept := (hOrderly.run hFirst).definition?_run hLast hDefinition
        exact Or.inr ⟨hKept.symm, State.shown_eq_of_definition?_eq (hDefinition.trans hKept.symm)⟩

/-- A thread misses a name that the definition of another thread interns before it writes, and makes
the end of the input between the two sections in which the definition changes the tables. A third
thread waits for the lock and finds the language defined. -/
theorem sections_act_as_whole_calls_of_missed_name :
    let base := Language.root 1 "base"
    let start := State.mk .full .empty
    let threads := [
      [.define base (.ofNames ⟨0⟩ [(⟨0⟩, "A")]) ["r"] false],
      [.intern ⟨7⟩ "A" (some base) true, .endToken base],
      [.define base (.ofNames ⟨0⟩ [(⟨0⟩, "B")]) [] true]]
    let schedule := [1, 0, 0, 0, 1, 1, 1, 0, 0, 2, 2, 2]
    ∃ order, IsInterleaving threads order ∧
      threadAnswers order (start.takeAll (order.map Prod.snd)).answer 1 =
        [.token (some ⟨0, ⟨0⟩, "A", some base, false⟩),
          .token (some ⟨1, .endOfInput, Symbol.endOfInputName, some base, false⟩)] ∧
      ((Crew.gather start threads).run? schedule).map Prod.fst =
        some [.read, .acquire, .check, .intern, .write, .read, .write, .publish base, .release,
          .acquire, .check, .release] := by
  intro base start threads schedule
  have hCalls : ∀ call ∈ threads.flatten, call.opening?.isSome := by decide
  obtain ⟨⟨sections, crew⟩, hRun⟩ := Option.isSome_iff_exists.mp
    (show ((Crew.gather start threads).run? schedule).isSome from rfl)
  have hDone : crew.IsDone := by
    intro number
    have hCalls : ((Crew.gather start threads).run? schedule).map
        (fun run => (run.2.threads number).calls) = some [] := by
      match number with
      | 0 | 1 | 2 | number + 3 => rfl
    rw [hRun] at hCalls
    exact Option.some.inj hCalls
  have hAnswers : ((Crew.gather start threads).run? schedule).map
      (fun run => (run.2.threads 1).answers) =
        some [.token (some ⟨0, ⟨0⟩, "A", some base, false⟩),
          .token (some ⟨1, .endOfInput, Symbol.endOfInputName, some base, false⟩)] := rfl
  obtain ⟨hWhole, _⟩ :=
    sections_act_as_whole_calls start threads schedule sections crew hCalls hRun
  obtain ⟨order, hOrder, _, hThreads⟩ := hWhole hDone
  rw [hRun] at hAnswers
  exact ⟨order, hOrder, (hThreads 1).trans (Option.some.inj hAnswers), rfl⟩

end GrammarCatalog
