import GrammarCatalog.Proofs.Answers

/-! Catalogues and scopes keep apart. All that happens in other catalogues, and all that is done in
one catalogue for languages of other scopes, may be erased from a run: what is answered and logged
to the calls that remain is the same, with other instances in the place of instances. -/
namespace GrammarCatalog

/-- The rules of an answer. -/
def Answer.ruleElements : Answer → List RuleElement
  | .rule found => found.toList
  | .rules listed => listed
  | _ => []

namespace World

/-- Whether a move remains when the calls to other catalogues and the calls about languages of other
scopes are erased. -/
def Move.remains (number : Nat) (scope : Language) : Move → Bool
  | .call other made =>
    decide (other = number) && made.language?.all fun language => language.scope = scope
  | _ => true

/-- What a scope sees of a catalogue after some moves. -/
def view (moves : List Move) (number : Nat) (scope : Language) : Catalog :=
  ((after moves).catalogs number).within scope

end World

/-- What a call demands concerns at most the scope of the language that it is about. -/
theorem Call.concerns_demand {call : Call} {scope : Language}
    (hConcerns : call.demand.concerns scope = true) :
    call.language?.map Language.scope = some scope := by
  cases call with
  | define language vocabulary rules registered =>
      exact congrArg some (of_decide_eq_true hConcerns)
  | defineChecked language vocabulary rules registered =>
      simp only [demand] at hConcerns
      split at hConcerns
      · cases hConcerns
      · exact congrArg some (of_decide_eq_true hConcerns)
  | intern symbol name owner registered => exact congrArg some (of_decide_eq_true hConcerns)
  | endToken language => exact congrArg some (of_decide_eq_true hConcerns)
  | token language symbol =>
      simp only [demand] at hConcerns
      split at hConcerns
      · exact congrArg some (of_decide_eq_true hConcerns)
      · cases hConcerns
  | tokenSet language symbols =>
      simp only [demand] at hConcerns
      split at hConcerns
      · exact congrArg some (of_decide_eq_true hConcerns)
      · cases hConcerns
  | _ => cases hConcerns

namespace World

section Erasing

variable (number : Nat) (scope : Language)

/-- The demands that concern the scope are made by the moves that remain. -/
theorem demandsTo_remaining (moves : List Move) :
    (demandsTo number (moves.filter (Move.remains number scope))).filter
        (Demand.concerns scope) =
      (demandsTo number moves).filter (Demand.concerns scope) := by
  induction moves with
  | nil => rfl
  | cons move rest ih =>
      unfold demandsTo at ih ⊢
      rw [List.filter_cons]
      split
      · rw [List.filterMap_cons, List.filterMap_cons]
        cases move.demand? number with
        | none => exact ih
        | some demand => rw [List.filter_cons, List.filter_cons, ih]
      · next hErased =>
        rw [ih, List.filterMap_cons]
        cases hDemand : move.demand? number with
        | none => rfl
        | some demand =>
            rw [List.filter_cons, if_neg]
            intro hConcerns
            apply hErased
            cases move with
            | call other call =>
                obtain ⟨hOther, hMade⟩ := Option.ite_none_right_eq_some.mp hDemand
                cases hMade
                obtain ⟨language, hLanguage, hScope⟩ :=
                  Option.map_eq_some_iff.mp (Call.concerns_demand hConcerns)
                simp [Move.remains, hOther, hLanguage, hScope]
            | _ => cases hDemand

theorem records_view (moves : List Move) :
    (view moves number scope).Records
      ((demandsTo number moves).filter (Demand.concerns scope)) :=
  (records_after moves number).within scope

theorem records_view_remaining (moves : List Move) :
    (view (moves.filter (Move.remains number scope)) number scope).Records
      ((demandsTo number moves).filter (Demand.concerns scope)) := by
  rw [← demandsTo_remaining]
  exact records_view number scope _

end Erasing

section View

variable {number : Nat} {scope : Language}

/-- What is seen under a key stays what it is. -/
theorem tokenAt?_view_append (moves later : List Move) (key : TokenKey) (token : TokenElement)
    (hToken : (view moves number scope).tokenAt? key = some token) :
    (view (moves ++ later) number scope).tokenAt? key = some token := by
  rw [view, Catalog.tokenAt?_within, Option.ite_none_right_eq_some] at hToken ⊢
  rw [after_append]
  exact ⟨hToken.1, tokenAt?_run _ later key hToken.2⟩

theorem ruleAt?_view_append (moves later : List Move) (key : Language × Nat) (rule : RuleElement)
    (hRule : (view moves number scope).ruleAt? key = some rule) :
    (view (moves ++ later) number scope).ruleAt? key = some rule := by
  apply Catalog.ruleAt?_of_definition? _ hRule
  intro definition hDefinition
  rw [view, Catalog.definition?_within, Option.ite_none_right_eq_some] at hDefinition ⊢
  rw [after_append]
  exact ⟨hDefinition.1, definition?_run _ later hDefinition.2⟩

/-- An instance that is seen is seen under one key only. -/
theorem tokenKey_view (moves : List Move) (key key' : TokenKey) (token : TokenElement)
    (hToken : (view moves number scope).tokenAt? key = some token)
    (hToken' : (view moves number scope).tokenAt? key' = some token) : key = key' := by
  rw [view, Catalog.tokenAt?_within, Option.ite_none_right_eq_some] at hToken hToken'
  have hReachable : ((after moves).stateOf number).Reachable := ⟨moves, number, rfl⟩
  exact hReachable.tokenKey_eq hToken.2 hToken'.2

theorem ruleKey_view (moves : List Move) (key key' : Language × Nat) (rule : RuleElement)
    (hRule : (view moves number scope).ruleAt? key = some rule)
    (hRule' : (view moves number scope).ruleAt? key' = some rule) : key = key' := by
  rw [view, Catalog.ruleAt?_within, Option.ite_none_right_eq_some] at hRule hRule'
  have hReachable : ((after moves).stateOf number).Reachable := ⟨moves, number, rfl⟩
  exact hReachable.ruleKey_eq hRule.2 hRule'.2

theorem fits_view (moves : List Move) (key : TokenKey) (token : TokenElement)
    (hToken : (view moves number scope).tokenAt? key = some token) : key.Fits token := by
  rw [view, Catalog.tokenAt?_within, Option.ite_none_right_eq_some] at hToken
  exact ((sound_after moves).catalogs number).fits key hToken.2

end View

/-- The scope sees corresponding instances in the full run and in the run of the moves that remain,
at every moment and by one translation. -/
theorem exists_translation_remaining (moves : List Move) (number : Nat) (scope : Language) :
    let first := view moves number scope
    let second := view (moves.filter (Move.remains number scope)) number scope
    ∃ translation : Translation,
      Set.BijOn translation.token first.heldTokens second.heldTokens ∧
      Set.BijOn translation.rule first.heldRules second.heldRules ∧
      (∀ token ∈ first.heldTokens, (translation.token token).mention = token.mention) ∧
      (∀ rule ∈ first.heldRules, (translation.rule rule).shown = rule.shown) ∧
      ∀ before later, moves = before ++ later →
        (view before number scope).Corresponds translation
          (view (before.filter (Move.remains number scope)) number scope) := by
  intro first second
  have hRecords := records_view number scope
  have hRemaining := records_view_remaining number scope
  have hTokenKeys := fun moves => (hRecords moves).isSome_tokenAt?_eq (hRemaining moves)
    (History.Similar.refl _)
  have hRuleKeys := fun moves => (hRecords moves).isSome_ruleAt?_eq (hRemaining moves)
    (History.Similar.refl _)
  obtain ⟨onTokens, hTokens, hBijTokens⟩ :=
    exists_bijection (tokenKey_view moves) (tokenKey_view _) (hTokenKeys moves)
  obtain ⟨onRules, hRules, hBijRules⟩ :=
    exists_bijection (ruleKey_view moves) (ruleKey_view _) (hRuleKeys moves)
  refine ⟨⟨onTokens, onRules⟩, hBijTokens, hBijRules, ?_, ?_, ?_⟩
  · intro token hHeld
    rcases hHeld with ⟨key, hToken⟩
    have hSame := (hRecords moves).map_mention_tokenAt? (hRemaining moves) (fits_view _)
      (fits_view _) key
    rw [hTokens, hToken, Option.map_some, Option.map_some, Option.map_some] at hSame
    exact (Option.some.inj hSame).symm
  · intro rule hHeld
    rcases hHeld with ⟨key, hRule⟩
    have hSame := (hRecords moves).map_shown_ruleAt? (hRemaining moves)
      (History.Similar.refl _) key
    rw [hRules, hRule, Option.map_some, Option.map_some, Option.map_some] at hSame
    exact (Option.some.inj hSame).symm
  · intro before later hMoves
    -- What is matched in the end was matched at this moment, for nothing was taken away since.
    subst hMoves
    rw [List.filter_append] at hTokens hRules
    exact (hRecords before).corresponds (hRemaining before) (History.Similar.refl _)
      (map_of_map_later (tokenAt?_view_append before later) (tokenAt?_view_append _ _)
        (hTokenKeys before) hTokens)
      (map_of_map_later (ruleAt?_view_append before later) (ruleAt?_view_append _ _)
        (hRuleKeys before) hRules)

/-- The tokens that a call hands out belong to the scope of the language that it is about. -/
theorem scope_of_handsOut {world : World} {number : Nat} {call : Call} {key : Nat × TokenKey}
    {token : TokenElement} (hHandsOut : HandsOut world number call key token) :
    key.1 = number ∧ call.language?.map Language.scope = some key.2.scope := by
  cases hHandsOut <;> exact ⟨rfl, rfl⟩

/-- The rules of an answer are kept for the language that the call is about. -/
theorem exists_ruleAt?_of_answer (state : State) (call : Call) (rule : RuleElement)
    (hRule : rule ∈ (state.take call).answer.ruleElements) :
    ∃ language place, call.language? = some language ∧
      state.catalog.ruleAt? (language, place) = some rule := by
  have hListed : ∀ language, rule ∈ state.catalog.rules language →
      ∃ language' place, some language = some language' ∧
        state.catalog.ruleAt? (language', place) = some rule := by
    intro language hMember
    obtain ⟨place, hPlace⟩ := List.mem_iff_getElem?.mp hMember
    exact ⟨language, place, rfl, hPlace⟩
  cases call with
  | defineChecked language vocabulary rules registered =>
      simp only [State.take, Outcome.map] at hRule
      split at hRule
      · cases hRule
      · cases hRule
  | rules language => exact hListed language hRule
  | rule language number =>
      exact hListed language (List.mem_of_getElem? (Option.mem_toList.mp hRule))
  | ruleByName language name =>
      obtain ⟨index, _, hIndex⟩ := Option.bind_eq_some_iff.mp (Option.mem_toList.mp hRule)
      obtain ⟨number, _, hPlace⟩ := Option.bind_eq_some_iff.mp hIndex
      exact hListed language (List.mem_of_getElem? hPlace)
  | _ => cases hRule

section Run

variable {before later : List Move} {number : Nat} {scope : Language} {call : Call}

theorem view_concat_call :
    view (before ++ [.call number call]) number scope =
      (((after before).stateOf number).take call).state.catalog.within scope := by
  rw [view, after_append]
  exact congrArg (Catalog.within · scope) (if_pos rfl)

/-- The tokens of an answer are seen in the end from the scope of the call, and nowhere else. -/
theorem token_seen_of_answer (hCall : call.language?.map Language.scope = some scope)
    {token : TokenElement} (hToken : token ∈ ((after before).take number call).1.tokenElements) :
    let moves := before ++ .call number call :: later
    token ∈ (view moves number scope).heldTokens ∧
      ∀ other ≠ number, token ∉ ((after moves).catalogs other).heldTokens := by
  intro moves
  obtain ⟨⟨owner, key⟩, hHandsOut⟩ := exists_handsOut _ number call token hToken
  obtain ⟨rfl, hScope⟩ := scope_of_handsOut hHandsOut
  have hKept : ((after moves).catalogs owner).tokenAt? key = some token := by
    rw [after_append]
    exact tokenAt?_run _ later key (tokenAt?_of_handsOut (sound_after before) hHandsOut)
  refine ⟨⟨key, ?_⟩, ?_⟩
  · rw [view, Catalog.tokenAt?_within, if_pos, hKept]
    exact Option.some.inj (hScope.symm.trans hCall)
  · intro other hOther hHeld
    rcases hHeld with ⟨key', hToken'⟩
    have hKey := (sound_after moves).eq_of_serial_eq (owner, key) (other, key') hKept hToken' rfl
    exact hOther (congrArg Prod.fst hKey).symm

theorem rule_seen_of_answer (hCall : call.language?.map Language.scope = some scope)
    {rule : RuleElement} (hRule : rule ∈ ((after before).take number call).1.ruleElements) :
    let moves := before ++ .call number call :: later
    rule ∈ (view moves number scope).heldRules ∧
      ∀ other ≠ number, rule ∉ ((after moves).catalogs other).heldRules := by
  intro moves
  obtain ⟨language, place, hLanguage, hPlace⟩ := exists_ruleAt?_of_answer _ call rule hRule
  have hKept : ((after moves).catalogs number).ruleAt? (language, place) = some rule := by
    apply Catalog.ruleAt?_of_definition? _ hPlace
    intro definition hDefinition
    rw [after_append]
    exact definition?_run _ _ hDefinition
  rw [hLanguage] at hCall
  refine ⟨⟨(language, place), ?_⟩, ?_⟩
  · rw [view, Catalog.ruleAt?_within, if_pos (Option.some.inj hCall), hKept]
  · intro other hOther hHeld
    rcases hHeld with ⟨key', hRule'⟩
    have hKey := (sound_after moves).ruleKey_eq (number, language, place) (other, key') rule hKept
      hRule'
    exact hOther (congrArg Prod.fst hKey).symm

end Run

/-- A catalogue answers to the calls about a scope, and logs, as if nothing else had ever happened:
no call to another catalogue and no call about a language of another scope. Only the instances are
others, under one translation that is one to one and keeps all that they show. Instances of one
catalogue never get into the answers of another. -/
theorem answers_as_if_alone (moves : List Move) (number : Nat) (scope : Language) :
    let first := view moves number scope
    let second := view (moves.filter (Move.remains number scope)) number scope
    ∃ translation : Translation,
      Set.BijOn translation.token first.heldTokens second.heldTokens ∧
      Set.BijOn translation.rule first.heldRules second.heldRules ∧
      (∀ token ∈ first.heldTokens, (translation.token token).mention = token.mention) ∧
      (∀ rule ∈ first.heldRules, (translation.rule rule).shown = rule.shown) ∧
      ∀ before call later, moves = before ++ .call number call :: later →
        call.language?.map Language.scope = some scope →
        let full := (after before).take number call
        let alone := (after (before.filter (Move.remains number scope))).take number call
        (alone.1 = translation.answer full.1 ∧ alone.2.1 = full.2.1) ∧
        (∀ token ∈ full.1.tokenElements, token ∈ first.heldTokens ∧
          ∀ other ≠ number, token ∉ ((after moves).catalogs other).heldTokens) ∧
        ∀ rule ∈ full.1.ruleElements, rule ∈ first.heldRules ∧
          ∀ other ≠ number, rule ∉ ((after moves).catalogs other).heldRules := by
  intro first second
  obtain ⟨translation, hBijTokens, hBijRules, hMentions, hShown, hCorresponds⟩ :=
    exists_translation_remaining moves number scope
  refine ⟨translation, hBijTokens, hBijRules, hMentions, hShown, ?_⟩
  intro before call later hMoves hCall full alone
  subst hMoves
  obtain ⟨language, hLanguage, rfl⟩ := Option.map_eq_some_iff.mp hCall
  have hRemains : Move.remains number language.scope (.call number call) = true := by
    simp [Move.remains, hLanguage]
  have hBefore := hCorresponds before _ rfl
  have hAfter := hCorresponds (before ++ [.call number call]) later (by simp)
  rw [List.filter_append, List.filter_cons, if_pos hRemains, List.filter_nil, view_concat_call,
    view_concat_call] at hAfter
  have hTokens : ∀ token ∈ full.1.tokenElements, token ∈ first.heldTokens ∧
      ∀ other ≠ number, token ∉
        ((after (before ++ .call number call :: later)).catalogs other).heldTokens :=
    fun token hToken => token_seen_of_answer hCall hToken
  have hRules : ∀ rule ∈ full.1.ruleElements, rule ∈ first.heldRules ∧
      ∀ other ≠ number, rule ∉
        ((after (before ++ .call number call :: later)).catalogs other).heldRules :=
    fun rule hRule => rule_seen_of_answer hCall hRule
  have hOnce : Set.InjOn translation.token {token | token ∈ full.1.tokenElements} :=
    hBijTokens.injOn.mono fun token hToken => (hTokens token hToken).1
  refine ⟨⟨?_, ?_⟩, hTokens, hRules⟩
  · exact State.answer_take_eq hLanguage hBefore hAfter hOnce
  · exact State.events_take_eq hLanguage hBefore

/-- A root, its dialect and a dialect of the dialect have one name in common, the root in a
catalogue of its own. For the scope of the root only the definition of its dialect remains, and the
set that is asked for in the end holds the first two tokens there instead of the fourth and the
fifth. -/
theorem answers_as_if_alone_in_mixed_run :
    let root := Language.root 1 "root"
    let dialect := Language.dialect 2 "dialect" root
    let inner := Language.dialect 3 "inner" dialect
    let vocabulary := Vocabulary.ofNames ⟨0⟩ [(⟨0⟩, "X")]
    let remaining : List Move := [.call 0 (.define dialect vocabulary ["r"] false)]
    let before : List Move :=
      [.call 1 (.define root vocabulary ["r"] false),
        .call 0 (.define inner vocabulary ["r"] false), .call 0 (.endToken inner)] ++ remaining
    let call := Call.tokenSet dialect [⟨0⟩, .endOfInput]
    before.filter (Move.remains 0 root) = remaining ∧
    ∃ translation : Translation,
      ((after remaining).take 0 call).1 = translation.answer ((after before).take 0 call).1 ∧
      translation.token ⟨3, ⟨0⟩, "X", some dialect, false⟩ =
        ⟨0, ⟨0⟩, "X", some dialect, false⟩ ∧
      translation.token ⟨4, .endOfInput, Symbol.endOfInputName, some dialect, false⟩ =
        ⟨1, .endOfInput, Symbol.endOfInputName, some dialect, false⟩ := by
  intro root dialect inner vocabulary remaining before call
  obtain ⟨translation, _, _, _, _, hCalls⟩ :=
    answers_as_if_alone (before ++ [.call 0 call]) 0 root
  obtain ⟨⟨hAnswer, _⟩, _⟩ := hCalls before call [] rfl rfl
  have hErased : before.filter (Move.remains 0 root) = remaining := rfl
  have hFull : ((after before).take 0 call).1 =
      .tokenSet ⟨[⟨3, ⟨0⟩, "X", some dialect, false⟩,
        ⟨4, .endOfInput, Symbol.endOfInputName, some dialect, false⟩]⟩ := rfl
  have hAlone : ((after remaining).take 0 call).1 =
      .tokenSet ⟨[⟨0, ⟨0⟩, "X", some dialect, false⟩,
        ⟨1, .endOfInput, Symbol.endOfInputName, some dialect, false⟩]⟩ := rfl
  rw [hErased] at hAnswer
  refine ⟨hErased, translation, hAnswer, ?_⟩
  rw [hAlone, hFull] at hAnswer
  have hMembers := List.cons.inj (congrArg Answer.tokenElements hAnswer)
  exact ⟨hMembers.1.symm, (List.cons.inj hMembers.2).1.symm⟩

end World

end GrammarCatalog
