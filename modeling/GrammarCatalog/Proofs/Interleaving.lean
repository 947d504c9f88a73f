import GrammarCatalog.Proofs.Translation

/-! Threads at work on one catalogue. Calls are taken as a whole, so threads at work together come
to some order of all calls that keeps the order of each thread. Which order it is shows in the
choice of the instances and in nothing else, provided that the definitions of a language agree. -/
namespace GrammarCatalog

open History

/-- The calls that define a language or make a token, without a check. -/
def Call.makes : Call → Bool
  | .define .. => true
  | .intern .. => true
  | .endToken _ => true
  | _ => false

/-- Every call comes with the number of its thread, and each thread has its calls in its order. -/
def IsInterleaving (threads : List (List Call)) (order : List (Nat × Call)) : Prop :=
  ∀ number, (order.filter (·.1 = number)).map Prod.snd = threads.getD number []

/-- The answers to one thread among those to all. -/
def threadAnswers (order : List (Nat × Call)) (answers : List Answer) (number : Nat) :
    List Answer :=
  ((order.zip answers).filter (·.1.1 = number)).map Prod.snd

/-- The mentions that a call makes when it comes next. -/
def Catalog.mentionsOf (catalog : Catalog) : Call → List Mention
  | .define language vocabulary ruleList registered =>
    if catalog.isDefined language then []
    else (Blueprint.mk vocabulary.names ruleList registered).mentions language
  | .intern symbol name owner registered => [⟨symbol, name, owner, registered⟩]
  | _ => []

/-- Those who define a language that is not defined yet define it from the same names and rules. -/
def DefinitionsAgree (catalog : Catalog) (threads : List (List Call)) : Prop :=
  ∀ language, catalog.isDefined language = false →
    ∀ vocabulary ruleList registered vocabulary' ruleList' registered',
      Call.define language vocabulary ruleList registered ∈ threads.flatten →
      Call.define language vocabulary' ruleList' registered' ∈ threads.flatten →
      vocabulary.names = vocabulary'.names ∧ ruleList = ruleList' ∧ registered = registered'

/-- Those who would make the token of a name that has none say the same of it. -/
def MentionsAgree (catalog : Catalog) (threads : List (List Call)) : Prop :=
  ∀ scope name, catalog.interned? scope name = none →
    ∀ call ∈ threads.flatten, ∀ call' ∈ threads.flatten, ∀ mention mention',
      first? (catalog.mentionsOf call) scope name = some mention →
      first? (catalog.mentionsOf call') scope name = some mention' → mention = mention'

theorem IsInterleaving.mem_iff {threads : List (List Call)} {order : List (Nat × Call)}
    (hOrder : IsInterleaving threads order) (call : Call) :
    call ∈ order.map Prod.snd ↔ call ∈ threads.flatten := by
  constructor
  · intro hCall
    obtain ⟨⟨number, made⟩, hEntry, hMade⟩ := List.mem_map.mp hCall
    have hThread : call ∈ threads.getD number [] := by
      rw [← hOrder number, ← hMade]
      exact List.mem_map_of_mem (List.mem_filter.mpr ⟨hEntry, by simp⟩)
    rw [List.getD_eq_getElem?_getD] at hThread
    cases hNumber : threads[number]? with
    | none =>
        rw [hNumber] at hThread
        cases hThread
    | some thread =>
        rw [hNumber, Option.getD_some] at hThread
        exact List.mem_flatten.mpr ⟨thread, List.mem_of_getElem? hNumber, hThread⟩
  · intro hCall
    obtain ⟨thread, hThread, hMember⟩ := List.mem_flatten.mp hCall
    obtain ⟨number, hNumber⟩ := List.mem_iff_getElem?.mp hThread
    have hOwn := hOrder number
    rw [List.getD_eq_getElem?_getD, hNumber, Option.getD_some] at hOwn
    rw [← hOwn] at hMember
    obtain ⟨entry, hEntry, rfl⟩ := List.mem_map.mp hMember
    exact List.mem_map_of_mem (List.mem_filter.mp hEntry).1

theorem map_threadAnswers (order : List (Nat × Call)) (answers : List Answer)
    (told : Call → Option Answer)
    (hAnswers : answers.map some = (order.map Prod.snd).map told) (number : Nat) :
    (threadAnswers order answers number).map some =
      ((order.filter (·.1 = number)).map Prod.snd).map told := by
  induction order generalizing answers with
  | nil => rfl
  | cons entry rest ih =>
      cases answers with
      | nil => cases hAnswers
      | cons answer answers =>
          obtain ⟨hAnswer, hRest⟩ := List.cons.inj hAnswers
          have hOthers := ih answers hRest
          unfold threadAnswers at hOthers ⊢
          rw [List.zip_cons_cons, List.filter_cons, List.filter_cons]
          split
          · rw [List.map_cons, List.map_cons, List.map_cons, List.map_cons, hOthers, hAnswer]
          · exact hOthers

theorem Catalog.isSome_recall? (catalog : Catalog) (call : Call) :
    (catalog.recall? call).isSome = call.makes := by
  cases call <;> rfl

namespace State

theorem length_takeAll (state : State) (calls : List Call) :
    (state.takeAll calls).answer.length = calls.length := by
  induction calls generalizing state with
  | nil => rfl
  | cons call rest ih => exact congrArg (· + 1) (ih _)

/-- The answers to those who define a language or make a token are read off the catalogue in the
end. -/
theorem answers_takeAll (state : State) (calls : List Call)
    (hMakes : ∀ call ∈ calls, call.makes = true) :
    (state.takeAll calls).answer.map some =
      calls.map (state.takeAll calls).state.catalog.recall? := by
  apply List.ext_getElem?
  intro place
  rw [List.getElem?_map, List.getElem?_map]
  cases hCall : calls[place]? with
  | none =>
      rw [List.getElem?_eq_none_iff, ← length_takeAll state] at hCall
      rw [List.getElem?_eq_none hCall]
      rfl
  | some call =>
      have hIsSome : ((state.takeAll calls).state.catalog.recall? call).isSome := by
        rw [Catalog.isSome_recall?]
        exact hMakes call (List.mem_of_getElem? hCall)
      obtain ⟨answer, hRecall⟩ := Option.isSome_iff_exists.mp hIsSome
      rw [answer_takeAll_of_recall? state calls place call answer hCall hRecall, Option.map_some,
        Option.map_some, hRecall]

end State

/-- Corresponding catalogues give corresponding answers. -/
theorem Catalog.Corresponds.recall? {translation : Translation} {first second : Catalog}
    (hCorresponds : first.Corresponds translation second) (call : Call) :
    second.recall? call = (first.recall? call).map translation.answer := by
  cases call with
  | intern symbol name owner registered =>
      rw [Catalog.recall?, hCorresponds.interned]
      rfl
  | endToken language =>
      rw [Catalog.recall?, hCorresponds.ends]
      rfl
  | _ => rfl

/-- What a call that makes something demands of a language is a definition without a check. -/
theorem Call.eq_define_of_demand {call : Call} (hMakes : call.makes = true) {language : Language}
    {blueprint : Blueprint} (hDemand : call.demand = .definition language blueprint) :
    ∃ vocabulary, call = .define language vocabulary blueprint.rules blueprint.registered ∧
      vocabulary.names = blueprint.names := by
  cases call with
  | define other vocabulary ruleList registered =>
      cases hDemand
      exact ⟨vocabulary, rfl, rfl⟩
  | intern => cases hDemand
  | endToken => cases hDemand
  | _ => cases hMakes

theorem Catalog.Records.mentionsOf_eq {catalog : Catalog} {history : List Demand}
    (hRecords : catalog.Records history) {call : Call} (hMakes : call.makes = true) :
    catalog.mentionsOf call = History.mentionsOf history call.demand := by
  cases call with
  | define language vocabulary ruleList registered =>
      rw [Catalog.mentionsOf, hRecords.isDefined_eq]
      rfl
  | intern => rfl
  | endToken => rfl
  | _ => cases hMakes

/-- A token that further calls have made is what one of them says of its name. -/
theorem Catalog.Records.exists_mention {before after : Catalog} {history : List Demand}
    {calls : List Call} (hBefore : before.Records history)
    (hAfter : after.Records (history ++ calls.map Call.demand))
    (hMakes : ∀ call ∈ calls, call.makes = true) {scope : Language} {name : String}
    {token : TokenElement} (hNew : before.interned? scope name = none)
    (hToken : after.interned? scope name = some token) :
    ∃ call ∈ calls, first? (before.mentionsOf call) scope name = some token.mention := by
  have hFirst := hAfter.interns scope name
  rw [hToken, Option.map_some, mentions_append, first?_append, ← hBefore.interns, hNew,
    Option.map_none, Option.none_or] at hFirst
  rw [← List.append_nil history] at hFirst
  obtain ⟨demand, hDemand, hMention⟩ := exists_first?_of_mentionsAfter _ _ _ hFirst.symm
  obtain ⟨call, hCall, rfl⟩ := List.mem_map.mp hDemand
  refine ⟨call, hCall, ?_⟩
  rw [hBefore.mentionsOf_eq (hMakes call hCall)]
  exact hMention

/-- Those who demand a new language in agreement demand it from one blueprint. -/
theorem DefinitionsAgree.blueprint_eq {catalog : Catalog} {history : List Demand}
    {threads : List (List Call)} (hAgree : DefinitionsAgree catalog threads)
    (hRecords : catalog.Records history)
    (hMakes : ∀ call ∈ threads.flatten, call.makes = true) {language : Language}
    {blueprint blueprint' : Blueprint} (hNew : blueprint? history language = none)
    (hDemand : .definition language blueprint ∈ threads.flatten.map Call.demand)
    (hDemand' : .definition language blueprint' ∈ threads.flatten.map Call.demand) :
    blueprint = blueprint' := by
  have hUndefined : catalog.isDefined language = false := by
    rw [hRecords.isDefined_eq, hNew]
    rfl
  obtain ⟨call, hCall, hMade⟩ := List.mem_map.mp hDemand
  obtain ⟨call', hCall', hMade'⟩ := List.mem_map.mp hDemand'
  obtain ⟨vocabulary, rfl, hNames⟩ := Call.eq_define_of_demand (hMakes call hCall) hMade
  obtain ⟨vocabulary', rfl, hNames'⟩ := Call.eq_define_of_demand (hMakes call' hCall') hMade'
  obtain ⟨hSameNames, hRules, hRegistered⟩ :=
    hAgree language hUndefined _ _ _ _ _ _ hCall hCall'
  rw [hNames, hNames'] at hSameNames
  cases blueprint
  cases blueprint'
  rw [Blueprint.mk.injEq]
  exact ⟨hSameNames, hRules, hRegistered⟩

/-- A new token shows the same whichever of the agreeing calls has made it. -/
theorem MentionsAgree.mention_eq {before first second : Catalog} {history : List Demand}
    {threads : List (List Call)} {calls calls' : List Call}
    (hAgree : MentionsAgree before threads) (hBefore : before.Records history)
    (hFirst : first.Records (history ++ calls.map Call.demand))
    (hSecond : second.Records (history ++ calls'.map Call.demand))
    (hMakes : ∀ call ∈ threads.flatten, call.makes = true)
    (hCalls : ∀ call ∈ calls, call ∈ threads.flatten)
    (hCalls' : ∀ call ∈ calls', call ∈ threads.flatten) {key : TokenKey}
    {token token' : TokenElement} (hNew : before.tokenAt? key = none)
    (hToken : first.tokenAt? key = some token) (hToken' : second.tokenAt? key = some token')
    (hFits : key.Fits token) (hFits' : key.Fits token') : token'.mention = token.mention := by
  cases key with
  | interned scope name =>
      obtain ⟨call, hCall, hMention⟩ := hBefore.exists_mention hFirst
        (fun call hCall => hMakes call (hCalls call hCall)) hNew hToken
      obtain ⟨call', hCall', hMention'⟩ := hBefore.exists_mention hSecond
        (fun call hCall => hMakes call (hCalls' call hCall)) hNew hToken'
      exact hAgree scope name hNew call' (hCalls' call' hCall') call (hCalls call hCall) _ _
        hMention' hMention
  | ending language => exact hFits'.mention_eq_of_ending hFits

theorem Catalog.Corresponds.answers_eq {translation : Translation} {first second : Catalog}
    (hCorresponds : first.Corresponds translation second) {calls : List Call}
    {answers answers' : List Answer} (hAnswers : answers.map some = calls.map first.recall?)
    (hAnswers' : answers'.map some = calls.map second.recall?) :
    answers' = answers.map translation.answer := by
  apply (List.map_inj_right fun _ _ => Option.some.inj).mp
  calc
    answers'.map some = calls.map second.recall? := hAnswers'
    _ = calls.map fun call => (first.recall? call).map translation.answer :=
        List.map_congr_left fun call _ => hCorresponds.recall? call
    _ = (calls.map first.recall?).map (Option.map translation.answer) := by
        rw [List.map_map]
        rfl
    _ = (answers.map translation.answer).map some := by
        rw [← hAnswers, List.map_map, List.map_map]
        rfl

/-- The order in which threads come shows in the choice of instances and in nothing else. Any two
interleavings of calls that define languages or make tokens end with corresponding catalogues, and
each thread is given corresponding answers, all under one translation that leaves alone what was
there before. Names are kept, and of rules all that they show. When the mentions of every new name
agree as well, so is all that the tokens show. -/
theorem interleavings_correspond (before : State) (threads : List (List Call))
    (order order' : List (Nat × Call)) (hReachable : before.Reachable)
    (hMakes : ∀ call ∈ threads.flatten, call.makes = true)
    (hDefinitions : DefinitionsAgree before.catalog threads)
    (hOrder : IsInterleaving threads order) (hOrder' : IsInterleaving threads order') :
    let first := before.takeAll (order.map Prod.snd)
    let second := before.takeAll (order'.map Prod.snd)
    ∃ translation : Translation,
      translation.Matches before.catalog first.state.catalog second.state.catalog ∧
      first.state.catalog.Corresponds translation second.state.catalog ∧
      (∀ number, threadAnswers order' second.answer number =
        (threadAnswers order first.answer number).map translation.answer) ∧
      (MentionsAgree before.catalog threads → ∀ token ∈ first.state.catalog.heldTokens,
        (translation.token token).mention = token.mention) := by
  intro first second
  have hCalls : ∀ call ∈ order.map Prod.snd, call ∈ threads.flatten := fun call hCall =>
    (hOrder.mem_iff call).mp hCall
  have hCalls' : ∀ call ∈ order'.map Prod.snd, call ∈ threads.flatten := fun call hCall =>
    (hOrder'.mem_iff call).mp hCall
  obtain ⟨history, hRecords⟩ := hReachable.records
  have hFirst : first.state.catalog.Records (history ++ (order.map Prod.snd).map Call.demand) :=
    State.records_takeAll before history _ hRecords
  have hSecond : second.state.catalog.Records (history ++ (order'.map Prod.snd).map Call.demand) :=
    State.records_takeAll before history _ hRecords
  have hGrows : State.Grows before first.state := State.grows_takeAll before _
  have hGrows' : State.Grows before second.state := State.grows_takeAll before _
  have hReachableFirst : first.state.Reachable := hReachable.takeAll _
  have hReachableSecond : second.state.Reachable := hReachable.takeAll _
  have hSimilar : Similar (history ++ (order.map Prod.snd).map Call.demand)
      (history ++ (order'.map Prod.snd).map Call.demand) := by
    apply similar_append
    · intro demand
      simp only [List.mem_map (f := Call.demand), hOrder.mem_iff, hOrder'.mem_iff]
    · intro language hNew blueprint blueprint' hDemand hDemand'
      simp only [List.mem_map (f := Call.demand), hOrder.mem_iff] at hDemand hDemand'
      exact hDefinitions.blueprint_eq hRecords hMakes hNew (List.mem_map.mpr hDemand)
        (List.mem_map.mpr hDemand')
  obtain ⟨translation, hMatches, hCorresponds⟩ := exists_translation hGrows hGrows'
    hReachableFirst hReachableSecond hFirst hSecond hSimilar
  refine ⟨translation, hMatches, hCorresponds, ?_, ?_⟩
  · intro number
    have hAnswers := map_threadAnswers order _ _
      (State.answers_takeAll before _ fun call hCall => hMakes call (hCalls call hCall)) number
    have hAnswers' := map_threadAnswers order' _ _
      (State.answers_takeAll before _ fun call hCall => hMakes call (hCalls' call hCall)) number
    rw [hOrder number] at hAnswers
    rw [hOrder' number] at hAnswers'
    exact hCorresponds.answers_eq hAnswers hAnswers'
  · intro hMentions token hHeld
    rcases hHeld with ⟨key, hToken⟩
    cases hBefore : before.catalog.tokenAt? key with
    | some old =>
        have hKept := State.tokenAt?_of_grows hGrows key hBefore
        rw [Option.some.inj (hToken.symm.trans hKept), hMatches.keepsTokens old ⟨key, hBefore⟩]
    | none =>
        have hToken' : second.state.catalog.tokenAt? key = some (translation.token token) := by
          rw [hCorresponds.tokenAt?, hToken, Option.map_some]
        exact hMentions.mention_eq hRecords hFirst hSecond hMakes hCalls hCalls' hBefore hToken
          hToken' (hReachableFirst.sound.fits key hToken)
          (hReachableSecond.sound.fits key hToken')

/-- Two threads define one language and ask for the end of its input. One of them interns the name
as well, and in agreement. Depending on the order, the name or the end of the input comes first. -/
theorem interleavings_correspond_of_two_definers :
    let base := Language.root 1 "base"
    let defining := Call.define base (.ofNames ⟨0⟩ [(⟨0⟩, "A")]) ["r"] false
    let interning := Call.intern ⟨0⟩ "A" (some base) false
    let ending := Call.endToken base
    let before := (World.after [.call 0 (.intern ⟨5⟩ "P" none false)]).stateOf 0
    let order := [(0, defining), (0, ending), (1, ending), (1, interning), (1, defining)]
    let order' := [(1, ending), (1, interning), (0, defining), (1, defining), (0, ending)]
    let first := before.takeAll (order.map Prod.snd)
    let second := before.takeAll (order'.map Prod.snd)
    ∃ translation : Translation,
      translation.token ⟨1, ⟨0⟩, "A", some base, false⟩ = ⟨2, ⟨0⟩, "A", some base, false⟩ ∧
      translation.token ⟨0, ⟨5⟩, "P", none, false⟩ = ⟨0, ⟨5⟩, "P", none, false⟩ ∧
      threadAnswers order' second.answer 1 =
        (threadAnswers order first.answer 1).map translation.answer ∧
      ∀ token ∈ first.state.catalog.heldTokens,
        (translation.token token).mention = token.mention := by
  intro base defining interning ending before order order' first second
  let threads := [[defining, ending], [ending, interning, defining]]
  have hDefinitions : DefinitionsAgree before.catalog threads := by
    intro language _ vocabulary ruleList registered vocabulary' ruleList' registered' hCall hCall'
    have hOnly : ∀ {vocabulary ruleList registered},
        Call.define language vocabulary ruleList registered ∈ threads.flatten →
          Call.define language vocabulary ruleList registered = defining := by
      intro vocabulary ruleList registered hMember
      simpa [threads, ending, interning] using hMember
    have hSame := (hOnly hCall).trans (hOnly hCall').symm
    rw [Call.define.injEq] at hSame
    exact ⟨congrArg Vocabulary.names hSame.2.1, hSame.2.2⟩
  have hMentions : MentionsAgree before.catalog threads := by
    have hOnly : ∀ call ∈ threads.flatten, ∀ mention ∈ before.catalog.mentionsOf call,
        mention = ⟨⟨0⟩, "A", some base, false⟩ := by decide
    intro scope name _ call hCall call' hCall' mention mention' hFirst hFirst'
    rw [hOnly call hCall mention (List.mem_of_find?_eq_some hFirst),
      hOnly call' hCall' mention' (List.mem_of_find?_eq_some hFirst')]
  have hOrder : IsInterleaving threads order := by
    intro number
    match number with
    | 0 => rfl
    | 1 => rfl
    | number + 2 => simp [order, threads]
  have hOrder' : IsInterleaving threads order' := by
    intro number
    match number with
    | 0 => rfl
    | 1 => rfl
    | number + 2 => simp [order', threads]
  obtain ⟨translation, hMatches, hCorresponds, hAnswers, hShown⟩ :=
    interleavings_correspond before threads order order' ⟨_, 0, rfl⟩ (by decide) hDefinitions
      hOrder hOrder'
  refine ⟨translation, ?_, ?_, hAnswers 1, hShown hMentions⟩
  · exact (Option.some.inj (hCorresponds.interned base "A")).symm
  · exact hMatches.keepsTokens _ ⟨.interned .any "P", rfl⟩

end GrammarCatalog
