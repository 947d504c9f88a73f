import GrammarCatalog.Proofs.Reachable

/-! Identity of tokens. A token that is handed out goes by a key: the catalogue, and either a scope
with a name or a language whose input ends. Two tokens handed out at any two moments are the same
instance exactly when their keys are equal. -/
namespace GrammarCatalog

/-- The tokens of an answer. -/
def Answer.tokenElements : Answer → List TokenElement
  | .token found => found.toList
  | .tokens listed => listed
  | .tokenSet set => set.members
  | _ => []

namespace World

/-- The tokens that a call hands out, with their keys. The end of the input is handed out as such
where it is asked for by itself or by its symbol; everything else goes by scope and name. -/
inductive HandsOut (world : World) (number : Nat) :
    Call → Nat × TokenKey → TokenElement → Prop where
  | interned {symbol : Symbol} {name : String} {owner : Option Language} {registered : Bool}
      {token : TokenElement}
      (hAnswer : (world.take number (.intern symbol name owner registered)).1 =
        .token (some token)) :
      HandsOut world number (.intern symbol name owner registered)
        (number, .interned (Language.scopeOf owner) token.name) token
  | ending {language : Language} {token : TokenElement}
      (hAnswer : (world.take number (.endToken language)).1 = .token (some token)) :
      HandsOut world number (.endToken language) (number, .ending language) token
  | listed {language : Language} {tokens : List TokenElement} {token : TokenElement}
      (hAnswer : (world.take number (.tokens language)).1 = .tokens tokens)
      (hListed : token ∈ tokens) :
      HandsOut world number (.tokens language)
        (number, .interned language.scope token.name) token
  | ofSymbol {language : Language} {symbol : Symbol} {token : TokenElement}
      (hOther : symbol.isEndOfInput = false)
      (hAnswer : (world.take number (.token language symbol)).1 = .token (some token)) :
      HandsOut world number (.token language symbol)
        (number, .interned language.scope token.name) token
  | ofEnd {language : Language} {symbol : Symbol} {token : TokenElement}
      (hEnd : symbol.isEndOfInput = true)
      (hAnswer : (world.take number (.token language symbol)).1 = .token (some token)) :
      HandsOut world number (.token language symbol) (number, .ending language) token
  | named {language : Language} {name : String} {token : TokenElement}
      (hAnswer : (world.take number (.tokenByName language name)).1 = .token (some token)) :
      HandsOut world number (.tokenByName language name)
        (number, .interned language.scope token.name) token
  | member {language : Language} {symbols : List Symbol} {symbol : Symbol} {set : TokenSet}
      {token : TokenElement}
      (hAnswer : (world.take number (.tokenSet language symbols)).1 = .tokenSet set)
      (hMember : token ∈ set.members) (hSymbol : symbol ∈ symbols)
      (hOther : symbol.isEndOfInput = false)
      (hListed : (world.catalogs number).listedToken? language symbol = some token) :
      HandsOut world number (.tokenSet language symbols)
        (number, .interned language.scope token.name) token
  | memberEnd {language : Language} {symbols : List Symbol} {symbol : Symbol} {set : TokenSet}
      {token : TokenElement}
      (hAnswer : (world.take number (.tokenSet language symbols)).1 = .tokenSet set)
      (hMember : token ∈ set.members) (hSymbol : symbol ∈ symbols)
      (hEnd : symbol.isEndOfInput = true)
      (hKept : ((world.next (.call number (.tokenSet language symbols))).catalogs number).end?
        language = some token) :
      HandsOut world number (.tokenSet language symbols) (number, .ending language) token

/-- What is handed out at a moment of a run. The moment is the place of the move. -/
def HandedOut (moves : List Move) (moment : Nat) (key : Nat × TokenKey)
    (token : TokenElement) : Prop :=
  ∃ number call, moves[moment]? = some (.call number call) ∧
    HandsOut (after (moves.take moment)) number call key token

end World

theorem Catalog.mem_tokens_of_listedToken? {catalog : Catalog} {language : Language}
    {symbol : Symbol} {token : TokenElement}
    (hListed : catalog.listedToken? language symbol = some token) :
    token ∈ catalog.tokens language := by
  obtain ⟨place, _, hPlace⟩ := Option.bind_eq_some_iff.mp hListed
  exact List.mem_of_getElem? hPlace

theorem Catalog.mem_tokens_of_tokenByName? {catalog : Catalog} {language : Language}
    {name : String} {token : TokenElement}
    (hNamed : catalog.tokenByName? language name = some token) :
    token ∈ catalog.tokens language := by
  obtain ⟨index, _, hIndex⟩ := Option.bind_eq_some_iff.mp hNamed
  obtain ⟨symbol, _, hListed⟩ := Option.bind_eq_some_iff.mp hIndex
  exact mem_tokens_of_listedToken? hListed

namespace World

variable {world : World} {number : Nat}

theorem tokenAt?_of_mem_tokens (hSound : world.Sound) (move : Move) {language : Language}
    {token : TokenElement} (hToken : token ∈ (world.catalogs number).tokens language) :
    ((world.next move).catalogs number).tokenAt? (.interned language.scope token.name) =
      some token :=
  tokenAt?_next world move _ ((hSound.catalogs number).interned?_of_mem_tokens hToken)

theorem end?_next_of_demand (world : World) (number : Nat) (call : Call) (language : Language)
    (hDemand : call.demand = .ending language) :
    ((world.next (.call number call)).catalogs number).end? language =
      some ((world.stateOf number).endToken language).answer := by
  simp only [next, take, catalogs_withState, ↓reduceIte, State.state_take, hDemand, State.meet]
  rw [State.end?_endToken, if_pos rfl]

/-- A token that is handed out is kept under its key from then on. -/
theorem tokenAt?_of_handsOut (hSound : world.Sound) {call : Call} {key : Nat × TokenKey}
    {token : TokenElement} (hHandsOut : HandsOut world number call key token) :
    ((world.next (.call number call)).catalogs key.1).tokenAt? key.2 = some token := by
  have hSoundNext := sound_next world (.call number call) hSound
  cases hHandsOut with
  | @interned symbol name owner registered _ hAnswer =>
      cases hAnswer
      have hKept := interned?_next_intern world number symbol name owner registered
      have hFits := (hSoundNext.catalogs number).fits (.interned _ name) hKept
      rw [hFits.1]
      exact hKept
  | ending hAnswer =>
      cases hAnswer
      exact end?_next_of_demand world number _ _ rfl
  | listed hAnswer hListed =>
      cases hAnswer
      exact tokenAt?_of_mem_tokens hSound _ hListed
  | @ofSymbol language symbol _ hOther hAnswer =>
      apply tokenAt?_of_mem_tokens hSound
      simp only [take, State.take, State.token?, hOther, Outcome.map, Outcome.silent,
        Bool.false_eq_true, ↓reduceIte, Answer.token.injEq] at hAnswer
      exact Catalog.mem_tokens_of_listedToken? hAnswer
  | @ofEnd language symbol _ hEnd hAnswer =>
      simp only [take, State.take, State.token?, hEnd, Outcome.map, ↓reduceIte,
        Answer.token.injEq, Option.some.injEq] at hAnswer
      rw [← hAnswer]
      apply end?_next_of_demand
      rw [Call.demand, if_pos hEnd]
  | named hAnswer =>
      apply tokenAt?_of_mem_tokens hSound
      simp only [take, State.take, Outcome.silent, Answer.token.injEq] at hAnswer
      exact Catalog.mem_tokens_of_tokenByName? hAnswer
  | member hAnswer hMember hSymbol hOther hListed =>
      exact tokenAt?_of_mem_tokens hSound _ (Catalog.mem_tokens_of_listedToken? hListed)
  | memberEnd hAnswer hMember hSymbol hEnd hKept => exact hKept

/-- Every token of an answer is handed out under some key. -/
theorem exists_handsOut (world : World) (number : Nat) (call : Call) (token : TokenElement)
    (hToken : token ∈ (world.take number call).1.tokenElements) :
    ∃ key, HandsOut world number call key token := by
  cases call with
  | defineChecked language vocabulary rules registered =>
      simp only [take, State.take, Outcome.map] at hToken
      split at hToken
      · cases hToken
      · cases hToken
  | intern symbol name owner registered =>
      obtain rfl := List.mem_singleton.mp hToken
      exact ⟨_, .interned rfl⟩
  | endToken language =>
      obtain rfl := List.mem_singleton.mp hToken
      exact ⟨_, .ending rfl⟩
  | tokens language => exact ⟨_, .listed rfl hToken⟩
  | token language symbol =>
      have hAnswer : (world.take number (.token language symbol)).1 = .token (some token) :=
        congrArg Answer.token (Option.mem_toList.mp hToken)
      cases hEnd : symbol.isEndOfInput with
      | true => exact ⟨_, .ofEnd hEnd hAnswer⟩
      | false => exact ⟨_, .ofSymbol hEnd hAnswer⟩
  | tokenByName language name =>
      exact ⟨_, .named (congrArg Answer.token (Option.mem_toList.mp hToken))⟩
  | tokenSet language symbols =>
      rcases (State.mem_collect _ _ _ _ _ _).mp hToken with hEmpty | hListed | hEnding
      · cases hEmpty
      · obtain ⟨symbol, hSymbol, hOther, hListed⟩ := hListed
        exact ⟨_, .member rfl hToken hSymbol hOther hListed⟩
      · obtain ⟨symbol, hSymbol, hEnd, rfl⟩ := hEnding
        refine ⟨_, .memberEnd rfl hToken hSymbol hEnd ?_⟩
        apply end?_next_of_demand
        rw [Call.demand, if_pos (List.any_eq_true.mpr ⟨symbol, hSymbol, hEnd⟩)]
  | _ => cases hToken

/-- What was handed out at any moment is still kept in the end. -/
theorem tokenAt?_of_handedOut {moves : List Move} {moment : Nat} {key : Nat × TokenKey}
    {token : TokenElement} (hHandedOut : HandedOut moves moment key token) :
    ((after moves).catalogs key.1).tokenAt? key.2 = some token := by
  obtain ⟨number, call, hMove, hHandsOut⟩ := hHandedOut
  have hKept := tokenAt?_of_handsOut (sound_after (moves.take moment)) hHandsOut
  rw [after_eq_run_next hMove]
  exact tokenAt?_run _ (moves.drop (moment + 1)) key.2 hKept

/-- Two tokens that are handed out at any two moments, by any two ways, are the same instance
exactly when they go by one key; the serial number tells them apart by itself. Every token of an
answer goes by some key. What is kept suits its key, so an end of the input is never interned and
never listed, neither in its own catalogue nor in another. -/
theorem handedOut_eq_iff (moves : List Move) :
    (∀ moment moment' key key' token token', HandedOut moves moment key token →
      HandedOut moves moment' key' token' →
        (token = token' ↔ key = key') ∧ (token.serial = token'.serial → token = token')) ∧
    (∀ (moment : Nat) number call, moves[moment]? = some (Move.call number call) →
      ∀ token ∈ ((after (moves.take moment)).take number call).1.tokenElements,
        ∃ key, HandedOut moves moment key token) ∧
    (∀ number scope name token,
      ((after moves).catalogs number).interned? scope name = some token →
        token.name = name ∧ Language.scopeOf token.owner = scope) ∧
    (∀ number language token, ((after moves).catalogs number).end? language = some token →
      (token.symbol = Symbol.endOfInput ∧ token.name = Symbol.endOfInputName ∧
        token.owner = some language ∧ token.registered = false) ∧
      ∀ other,
        (∀ scope name, ((after moves).catalogs other).interned? scope name ≠ some token) ∧
        ∀ language', token ∉ ((after moves).catalogs other).tokens language') := by
  have hSound := sound_after moves
  refine ⟨?_, ?_, ?_, ?_⟩
  · intro moment moment' key key' token token' hHanded hHanded'
    have hKept := tokenAt?_of_handedOut hHanded
    have hKept' := tokenAt?_of_handedOut hHanded'
    have hKey := hSound.eq_of_serial_eq key key' hKept hKept'
    have hToken : key = key' → token = token' := by
      intro hEqual
      subst hEqual
      exact Option.some.inj (hKept.symm.trans hKept')
    refine ⟨⟨fun hEqual => hKey (by rw [hEqual]), hToken⟩, fun hSerial => hToken (hKey hSerial)⟩
  · intro moment number call hMove token hToken
    obtain ⟨key, hHandsOut⟩ := exists_handsOut _ number call token hToken
    exact ⟨key, number, call, hMove, hHandsOut⟩
  · intro number scope name token hToken
    exact (hSound.catalogs number).fits (.interned scope name) hToken
  · intro number language token hEnd
    refine ⟨(hSound.catalogs number).fits (.ending language) hEnd, ?_⟩
    intro other
    have hApart : ∀ scope name,
        ((after moves).catalogs other).interned? scope name ≠ some token := by
      intro scope name hToken
      have hKey := hSound.eq_of_serial_eq (number, .ending language)
        (other, .interned scope name) hEnd hToken rfl
      cases hKey
    refine ⟨hApart, ?_⟩
    intro language' hListed
    exact hApart _ _ ((hSound.catalogs other).interned?_of_mem_tokens hListed)

/-- A name is interned for a base and comes back as a member of a set of its dialect; the end of the
input in that set and the token of the name in another catalogue are different instances. -/
theorem handedOut_eq_iff_in_two_catalogs :
    let base := Language.root 1 "base"
    let dialect := Language.dialect 2 "dialect" base
    let moves : List Move :=
      [.call 0 (.intern ⟨7⟩ "A" (some base) true),
        .call 0 (.define dialect (.ofNames ⟨0⟩ [(⟨0⟩, "A")]) [] false),
        .call 0 (.tokenSet dialect [⟨0⟩, .endOfInput]),
        .call 1 (.intern ⟨7⟩ "A" (some base) true)]
    ∃ token member ending other,
      HandedOut moves 0 (0, .interned base "A") token ∧
      HandedOut moves 2 (0, .interned base "A") member ∧
      HandedOut moves 2 (0, .ending dialect) ending ∧
      HandedOut moves 3 (1, .interned base "A") other ∧
      token = member ∧ ending ≠ member ∧ other ≠ token := by
  intro base dialect moves
  let token : TokenElement := ⟨0, ⟨7⟩, "A", some base, true⟩
  let ending : TokenElement := ⟨1, .endOfInput, "EOF", some dialect, false⟩
  have hFirst : HandedOut moves 0 (0, .interned base "A") token := ⟨0, _, rfl, .interned rfl⟩
  have hMember : HandedOut moves 2 (0, .interned base "A") token :=
    ⟨0, _, rfl, @HandsOut.member _ 0 dialect _ ⟨0⟩ _ token rfl List.mem_cons_self
      List.mem_cons_self rfl rfl⟩
  have hEnding : HandedOut moves 2 (0, .ending dialect) ending :=
    ⟨0, _, rfl, @HandsOut.memberEnd _ 0 dialect _ .endOfInput _ ending rfl
      (List.mem_cons_of_mem _ List.mem_cons_self) (List.mem_cons_of_mem _ List.mem_cons_self)
      rfl rfl⟩
  have hOther : HandedOut moves 3 (1, .interned base "A") ⟨2, ⟨7⟩, "A", some base, true⟩ :=
    ⟨1, _, rfl, .interned rfl⟩
  have hSame := (handedOut_eq_iff moves).1
  refine ⟨_, _, _, _, hFirst, hMember, hEnding, hOther, ?_, ?_, ?_⟩
  · exact (hSame _ _ _ _ _ _ hFirst hMember).1.mpr rfl
  · intro hEqual
    exact absurd ((hSame _ _ _ _ _ _ hEnding hMember).1.mp hEqual) (by decide)
  · intro hEqual
    exact absurd ((hSame _ _ _ _ _ _ hOther hFirst).1.mp hEqual) (by decide)

end World

end GrammarCatalog
