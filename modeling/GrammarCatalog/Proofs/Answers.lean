import GrammarCatalog.Proofs.Identity
import GrammarCatalog.Proofs.Scopes
import GrammarCatalog.Proofs.Translation
import Mathlib.Data.List.Basic

/-! What a call answers and logs. Every call about a language looks at the scope of that language
and at nothing else. So where two catalogues correspond in that scope, before the call and after it,
the answers correspond and the same is logged. -/
namespace GrammarCatalog

/-- The language that a call is about. What belongs to no language is about `Language.any`. -/
def Call.language? : Call → Option Language
  | .define language .. => some language
  | .defineChecked language .. => some language
  | .intern _ _ owner _ => some (owner.getD .any)
  | .endToken language => some language
  | .isDefined language => some language
  | .tokens language => some language
  | .rules language => some language
  | .tokenNames language => some language
  | .ruleNames language => some language
  | .token language _ => some language
  | .tokenByName language _ => some language
  | .rule language _ => some language
  | .ruleByName language _ => some language
  | .tokenSet language _ => some language
  | .languageCount => none
  | .definedLanguages => none

namespace TokenSet

variable {translate : TokenElement → TokenElement} {held : Set TokenElement}

/-- Inserting goes with any exchange of tokens that does not make two of them one. -/
theorem insert_map (hOnce : Set.InjOn translate held) (set : TokenSet) (token : TokenElement)
    (hSet : ∀ member ∈ set.members, member ∈ held) (hToken : token ∈ held) :
    (TokenSet.mk (set.members.map translate)).insert (translate token) =
      ⟨(set.insert token).members.map translate⟩ := by
  have hContains : (TokenSet.mk (set.members.map translate)).contains (translate token) =
      set.contains token := by
    rw [Bool.eq_iff_iff, contains_iff, contains_iff, List.mem_map]
    constructor
    · intro hMember
      obtain ⟨member, hMember, hEqual⟩ := hMember
      rw [← hOnce (hSet member hMember) hToken hEqual]
      exact hMember
    · intro hMember
      exact ⟨token, hMember, rfl⟩
  unfold insert
  rw [hContains]
  split
  · rfl
  · rw [List.map_append]
    rfl

theorem extend_map (hOnce : Set.InjOn translate held) (tokens : List TokenElement)
    (set : TokenSet) (hSet : ∀ member ∈ set.members, member ∈ held)
    (hTokens : ∀ token ∈ tokens, token ∈ held) :
    (TokenSet.mk (set.members.map translate)).extend (tokens.map translate) =
      ⟨(set.extend tokens).members.map translate⟩ := by
  induction tokens generalizing set with
  | nil => rfl
  | cons token rest ih =>
      have hToken := hTokens token List.mem_cons_self
      have hInsert : ∀ member ∈ (set.insert token).members, member ∈ held := by
        intro member hMember
        rcases (mem_insert set token member).mp hMember with hOld | rfl
        · exact hSet member hOld
        · exact hToken
      have hRest := ih (set.insert token) hInsert fun other hOther =>
        hTokens other (List.mem_cons_of_mem _ hOther)
      rw [← insert_map hOnce set token hSet hToken] at hRest
      exact hRest

end TokenSet

/-- Catalogues that correspond in the scope of a language show corresponding tables of it. -/
theorem Catalog.Corresponds.tables {translation : Translation} {first second : Catalog}
    {language : Language}
    (hCorresponds : (first.within language.scope).Corresponds translation
      (second.within language.scope)) :
    second.isDefined language = first.isDefined language ∧
      second.tokens language = (first.tokens language).map translation.token ∧
      second.rules language = (first.rules language).map translation.rule ∧
      second.tokenNames? language = first.tokenNames? language ∧
      second.ruleNames? language = first.ruleNames? language := by
  obtain ⟨hIsDefined, hTokens, hRules, hTokenNames, hRuleNames⟩ := first.tables_within language
  obtain ⟨hIsDefined', hTokens', hRules', hTokenNames', hRuleNames'⟩ :=
    second.tables_within language
  rw [← hIsDefined, ← hTokens, ← hRules, ← hTokenNames, ← hRuleNames, ← hIsDefined', ← hTokens',
    ← hRules', ← hTokenNames', ← hRuleNames']
  exact ⟨hCorresponds.isDefined _, hCorresponds.tokens _, hCorresponds.rules _,
    hCorresponds.tokenNames _, hCorresponds.ruleNames _⟩

/-- One catalogue says of a language and of its scope what another one says, with other instances.
It may have the end of the input of the language while the other one has none. -/
structure Catalog.CorrespondsOn (translation : Translation) (language : Language)
    (first second : Catalog) : Prop where
  isDefined : second.isDefined language = first.isDefined language
  tokens : second.tokens language = (first.tokens language).map translation.token
  rules : second.rules language = (first.rules language).map translation.rule
  tokenNames : second.tokenNames? language = first.tokenNames? language
  ruleNames : second.ruleNames? language = first.ruleNames? language
  interned : ∀ name, second.interned? language.scope name =
    (first.interned? language.scope name).map translation.token
  ending : ∀ token, first.end? language = some token →
    second.end? language = some (translation.token token)

theorem Catalog.Corresponds.on {translation : Translation} {first second : Catalog}
    {language : Language}
    (hCorresponds : (first.within language.scope).Corresponds translation
      (second.within language.scope)) :
    first.CorrespondsOn translation language second := by
  obtain ⟨hIsDefined, hTokens, hRules, hTokenNames, hRuleNames⟩ := hCorresponds.tables
  refine ⟨hIsDefined, hTokens, hRules, hTokenNames, hRuleNames, ?_, ?_⟩
  · intro name
    have hToken := hCorresponds.interned language.scope name
    rwa [interned?_within, interned?_within] at hToken
  · intro token hToken
    have hEnd := hCorresponds.ends language
    rwa [end?_within, end?_within, hToken] at hEnd

section Lookups

variable {translation : Translation} {first second : Catalog} {language : Language}

theorem Catalog.listedToken?_eq (hTokens : second.tokens language =
    (first.tokens language).map translation.token) (symbol : Symbol) :
    second.listedToken? language symbol =
      (first.listedToken? language symbol).map translation.token := by
  unfold listedToken?
  rw [hTokens]
  simp only [List.getElem?_map, Option.map_bind]
  rfl

theorem Catalog.tokenByName?_eq (hTokens : second.tokens language =
    (first.tokens language).map translation.token)
    (hNames : second.tokenNames? language = first.tokenNames? language) (name : String) :
    second.tokenByName? language name =
      (first.tokenByName? language name).map translation.token := by
  unfold tokenByName?
  rw [hNames]
  simp only [Option.bind_eq_bind, Option.map_bind]
  congr 1
  funext index
  simp only [Function.comp_apply, Option.map_bind]
  congr 1
  funext symbol
  exact listedToken?_eq hTokens symbol

theorem Catalog.rule?_eq (hRules : second.rules language =
    (first.rules language).map translation.rule) (rule : RuleNumber) :
    second.rule? language rule = (first.rule? language rule).map translation.rule := by
  unfold rule?
  rw [hRules, List.getElem?_map]

theorem Catalog.ruleByName?_eq (hRules : second.rules language =
    (first.rules language).map translation.rule)
    (hNames : second.ruleNames? language = first.ruleNames? language) (name : String) :
    second.ruleByName? language name =
      (first.ruleByName? language name).map translation.rule := by
  unfold ruleByName?
  rw [hNames]
  simp only [Option.bind_eq_bind, Option.map_bind]
  congr 1
  funext index
  simp only [Function.comp_apply, Option.map_bind]
  congr 1
  funext rule
  exact rule?_eq hRules rule

end Lookups

namespace State

/-- The token that a symbol brings into a set. -/
def sought? (state : State) (language : Language) (listed : List TokenElement)
    (symbol : Symbol) : Option TokenElement :=
  if symbol.isEndOfInput then some (state.endToken language).answer
  else symbol.position?.bind (listed[·]?)

theorem answer_collect (state : State) (language : Language) (listed : List TokenElement)
    (set : TokenSet) (symbols : List Symbol) :
    (state.collect language listed set symbols).answer =
      set.extend (symbols.filterMap (state.sought? language listed)) := by
  induction symbols generalizing state set with
  | nil => rfl
  | cons symbol rest ih =>
      rw [List.filterMap_cons]
      cases hEnd : symbol.isEndOfInput with
      | true =>
          have hAgain : (state.endToken language).state.sought? language listed =
              state.sought? language listed := by
            funext other
            rw [sought?, sought?, endToken_again]
            rfl
          simp only [collect, hEnd, ↓reduceIte, Outcome.andThen, ih, hAgain, sought?]
          rfl
      | false =>
          simp only [collect, sought?, hEnd, Bool.false_eq_true, ↓reduceIte]
          cases symbol.position?.bind (listed[·]?) with
          | some token => exact ih _ _
          | none => exact ih _ _

theorem events_endToken (state : State) (language : Language) :
    (state.endToken language).events = [] := by
  unfold endToken
  split
  · rfl
  · rfl

theorem events_collect (state : State) (language : Language) (listed : List TokenElement)
    (set : TokenSet) (symbols : List Symbol) :
    (state.collect language listed set symbols).events = [] := by
  induction symbols generalizing state set with
  | nil => rfl
  | cons symbol rest ih =>
      unfold collect
      split
      · rw [Outcome.andThen, events_endToken, ih]
        rfl
      · split
        · exact ih _ _
        · exact ih _ _

theorem events_intern (state : State) (symbol : Symbol) (name : String)
    (owner : Option Language) (registered : Bool) :
    (state.intern symbol name owner registered).events =
      if (state.catalog.interned? (Language.scopeOf owner) name).isSome then []
      else [⟨.interned symbol name, []⟩] := by
  cases hToken : state.catalog.interned? (Language.scopeOf owner) name with
  | some token =>
      rw [intern_of_interned _ _ _ _ _ _ hToken]
      rfl
  | none =>
      simp only [intern, hToken]
      rfl

/-- What is logged when names are interned depends on which of them have a token. -/
theorem events_internAll_eq {first second : State} (owner : Option Language) (registered : Bool)
    (named : List (Symbol × String))
    (hSame : ∀ name, (second.catalog.interned? (Language.scopeOf owner) name).isSome =
      (first.catalog.interned? (Language.scopeOf owner) name).isSome) :
    (second.internAll owner registered named).events =
      (first.internAll owner registered named).events := by
  induction named generalizing first second with
  | nil => rfl
  | cons entry rest ih =>
      simp only [internAll, Outcome.andThen, Outcome.map, events_intern, hSame]
      rw [ih]
      intro name
      rw [interned?_intern, interned?_intern]
      split
      · rfl
      · exact hSame name

theorem length_internAll (state : State) (owner : Option Language) (registered : Bool)
    (named : List (Symbol × String)) :
    (state.internAll owner registered named).answer.length = named.length := by
  have hLength := congrArg List.length (answer_internAll state owner registered named)
  rw [List.length_map, List.length_map] at hLength
  exact hLength

theorem events_establish (state : State) (language : Language) (names : List (Symbol × String))
    (rules : List String) (registered : Bool) :
    (state.establish language names rules registered).events =
      (state.internAll (some language) registered names).events ++
        [⟨.defined names.length rules.length, []⟩] := by
  have hRules : ((state.internAll (some language) registered names).state.supply.rulesFor language
      registered (Naming.numberedRules rules)).1.length = rules.length := by
    rw [Supply.length_rulesFor, Naming.numberedRules, List.length_map, List.length_zipIdx]
  simp only [establish, Outcome.andThen, publish, length_internAll, hRules]

theorem events_define_eq {first second : State} (language : Language) (vocabulary : Vocabulary)
    (rules : List String) (registered : Bool)
    (hDefined : second.catalog.isDefined language = first.catalog.isDefined language)
    (hSame : ∀ name, (second.catalog.interned? language.scope name).isSome =
      (first.catalog.interned? language.scope name).isSome) :
    (second.define language vocabulary rules registered).events =
      (first.define language vocabulary rules registered).events := by
  have hEvents := events_internAll_eq (some language) registered vocabulary.names hSame
  unfold define
  rw [hDefined]
  split
  · rfl
  · simp only [Outcome.inside, Outcome.preceded, events_establish, hEvents]

theorem events_defineChecked_eq {first second : State} (language : Language)
    (vocabulary : Vocabulary) (rules : List String) (registered : Bool)
    (hDefined : second.catalog.isDefined language = first.catalog.isDefined language)
    (hSame : ∀ name, (second.catalog.interned? language.scope name).isSome =
      (first.catalog.interned? language.scope name).isSome) :
    (second.defineChecked language vocabulary rules registered).events =
      (first.defineChecked language vocabulary rules registered).events := by
  unfold defineChecked
  split
  · rfl
  · next names hCheck =>
    have hEvents := events_internAll_eq (some language) registered names hSame
    rw [hDefined]
    split
    · rfl
    · simp only [Outcome.map, Outcome.inside, events_establish, hEvents]

section Within

variable {translation : Translation} {first second : State} {language : Language}

/-- The same is logged for a call where catalogues correspond on the language that it is about. -/
theorem events_take_eq_on {call : Call} (hLanguage : call.language? = some language)
    (hBefore : first.catalog.CorrespondsOn translation language second.catalog) :
    (second.take call).events = (first.take call).events := by
  have hDefined := hBefore.isDefined
  have hSame : ∀ name, (second.catalog.interned? language.scope name).isSome =
      (first.catalog.interned? language.scope name).isSome := by
    intro name
    rw [hBefore.interned, Option.isSome_map]
  cases call with
  | define =>
      cases hLanguage
      exact events_define_eq _ _ _ _ hDefined hSame
  | defineChecked =>
      cases hLanguage
      exact events_defineChecked_eq _ _ _ _ hDefined hSame
  | intern symbol name owner registered =>
      cases hLanguage
      simp only [take, Outcome.map, events_intern]
      rw [Language.scopeOf, hSame]
  | endToken => rw [take, take, Outcome.map, Outcome.map, events_endToken, events_endToken]
  | token other symbol =>
      simp only [take, Outcome.map, token?]
      split
      · rw [events_endToken, events_endToken]
      · rfl
  | tokenSet =>
      rw [take, take, Outcome.map, Outcome.map, tokenSet, tokenSet, events_collect, events_collect]
  | _ => rfl

theorem answer_endToken_eq
    (hAfter : (first.endToken language).state.catalog.CorrespondsOn translation language
      (second.endToken language).state.catalog) :
    (second.endToken language).answer = translation.token (first.endToken language).answer := by
  have hEnd := hAfter.ending (first.endToken language).answer
  rw [end?_endToken, end?_endToken, if_pos rfl, if_pos rfl] at hEnd
  exact Option.some.inj (hEnd rfl)

/-- A set has the same symbols behind it where catalogues correspond. -/
theorem answer_tokenSet_eq {symbols : List Symbol}
    (hTokens : second.catalog.tokens language =
      (first.catalog.tokens language).map translation.token)
    (hEnd : symbols.any Symbol.isEndOfInput = true →
      (second.endToken language).answer = translation.token (first.endToken language).answer)
    (hOnce : Set.InjOn translation.token
      {token | token ∈ (first.tokenSet language symbols).answer.members}) :
    (second.tokenSet language symbols).answer =
      ⟨(first.tokenSet language symbols).answer.members.map translation.token⟩ := by
  have hSought : symbols.filterMap (second.sought? language (second.catalog.tokens language)) =
      (symbols.filterMap (first.sought? language (first.catalog.tokens language))).map
        translation.token := by
    rw [List.map_filterMap]
    apply List.filterMap_congr
    intro symbol hSymbol
    unfold sought?
    split
    · next hIsEnd =>
      rw [hEnd (List.any_eq_true.mpr ⟨symbol, hSymbol, hIsEnd⟩), Option.map_some]
    · exact Catalog.listedToken?_eq hTokens symbol
  unfold tokenSet at hOnce ⊢
  rw [answer_collect] at hOnce
  rw [answer_collect, answer_collect, hSought]
  have hNone : ∀ member ∈ TokenSet.empty.members, member ∈
      {token | token ∈ (TokenSet.empty.extend (symbols.filterMap
        (first.sought? language (first.catalog.tokens language)))).members} := by
    intro member hMember
    cases hMember
  exact TokenSet.extend_map hOnce _ .empty hNone fun token hToken =>
    (TokenSet.mem_extend _ _ _).mpr (Or.inr hToken)

/-- The answer to a call is the corresponding one where catalogues correspond on the language that
it is about, before the call and after it. -/
theorem answer_take_eq_on {call : Call} (hLanguage : call.language? = some language)
    (hBefore : first.catalog.CorrespondsOn translation language second.catalog)
    (hAfter : (first.take call).state.catalog.CorrespondsOn translation language
      (second.take call).state.catalog)
    (hOnce : Set.InjOn translation.token
      {token | token ∈ (first.take call).answer.tokenElements}) :
    (second.take call).answer = translation.answer (first.take call).answer := by
  obtain ⟨hIsDefined, hTokens, hRules, hTokenNames, hRuleNames, _, _⟩ := hBefore
  cases call with
  | define => rfl
  | defineChecked other vocabulary rules registered =>
      cases hCheck : Naming.check vocabulary rules with
      | error fault =>
          rw [take, take, defineChecked_of_error _ _ _ _ _ _ hCheck,
            defineChecked_of_error _ _ _ _ _ _ hCheck]
          rfl
      | ok names =>
          simp only [take, Outcome.map, defineChecked, hCheck]
          rfl
  | intern symbol name owner registered =>
      cases hLanguage
      have hToken := hAfter.interned name
      have hFirst := answer_intern first symbol name owner registered
      have hSecond := answer_intern second symbol name owner registered
      have hSame := hSecond.symm.trans (hToken.trans (congrArg _ hFirst))
      exact congrArg Answer.token hSame
  | endToken other =>
      cases hLanguage
      exact congrArg (Answer.token ∘ some) (answer_endToken_eq hAfter)
  | isDefined other =>
      cases hLanguage
      exact congrArg Answer.truth hIsDefined
  | tokens other =>
      cases hLanguage
      exact congrArg Answer.tokens hTokens
  | rules other =>
      cases hLanguage
      exact congrArg Answer.rules hRules
  | tokenNames other =>
      cases hLanguage
      exact congrArg Answer.tokenNames hTokenNames
  | ruleNames other =>
      cases hLanguage
      exact congrArg Answer.ruleNames hRuleNames
  | token other symbol =>
      cases hLanguage
      cases hEnd : symbol.isEndOfInput with
      | true =>
          simp only [take, token?, hEnd, ↓reduceIte, Outcome.map] at hAfter ⊢
          exact congrArg (Answer.token ∘ some) (answer_endToken_eq hAfter)
      | false =>
          simp only [take, token?, hEnd, Bool.false_eq_true, ↓reduceIte, Outcome.map,
            Outcome.silent]
          exact congrArg Answer.token (Catalog.listedToken?_eq hTokens symbol)
  | tokenByName other name =>
      cases hLanguage
      exact congrArg Answer.token (Catalog.tokenByName?_eq hTokens hTokenNames name)
  | rule other rule =>
      cases hLanguage
      exact congrArg Answer.rule (Catalog.rule?_eq hRules rule)
  | ruleByName other name =>
      cases hLanguage
      exact congrArg Answer.rule (Catalog.ruleByName?_eq hRules hRuleNames name)
  | tokenSet other symbols =>
      cases hLanguage
      refine congrArg Answer.tokenSet (answer_tokenSet_eq hTokens (fun hEnd => ?_) hOnce)
      simp only [state_take, Call.demand, hEnd, ↓reduceIte, meet] at hAfter
      exact answer_endToken_eq hAfter
  | languageCount => cases hLanguage
  | definedLanguages => cases hLanguage

/-- The same is logged for a call where catalogues correspond in its scope. -/
theorem events_take_eq {call : Call} (hLanguage : call.language? = some language)
    (hBefore : (first.catalog.within language.scope).Corresponds translation
      (second.catalog.within language.scope)) :
    (second.take call).events = (first.take call).events :=
  events_take_eq_on hLanguage hBefore.on

/-- The answer to a call is the corresponding one where catalogues correspond in its scope, before
the call and after it. -/
theorem answer_take_eq {call : Call} (hLanguage : call.language? = some language)
    (hBefore : (first.catalog.within language.scope).Corresponds translation
      (second.catalog.within language.scope))
    (hAfter : ((first.take call).state.catalog.within language.scope).Corresponds translation
      ((second.take call).state.catalog.within language.scope))
    (hOnce : Set.InjOn translation.token
      {token | token ∈ (first.take call).answer.tokenElements}) :
    (second.take call).answer = translation.answer (first.take call).answer :=
  answer_take_eq_on hLanguage hBefore.on hAfter.on hOnce

end Within

end State

end GrammarCatalog
