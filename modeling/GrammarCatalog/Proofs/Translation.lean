import GrammarCatalog.Proofs.Similarity
import Mathlib.Data.Set.Function

/-! Catalogues that say the same with other instances. An instance is matched through the one key
under which it is kept, so two catalogues with the same keys are matched in one way only. -/
namespace GrammarCatalog

/-- Instances in the place of instances. -/
structure Translation where
  token : TokenElement → TokenElement
  rule : RuleElement → RuleElement

/-- The answer with other instances. -/
def Translation.answer (translation : Translation) : Answer → Answer
  | .token found => .token (found.map translation.token)
  | .rule found => .rule (found.map translation.rule)
  | .tokens listed => .tokens (listed.map translation.token)
  | .rules listed => .rules (listed.map translation.rule)
  | .tokenSet set => .tokenSet ⟨set.members.map translation.token⟩
  | other => other

namespace Catalog

/-- The tokens that are kept in a catalogue. -/
def heldTokens (catalog : Catalog) : Set TokenElement :=
  {token | ∃ key, catalog.tokenAt? key = some token}

def heldRules (catalog : Catalog) : Set RuleElement :=
  {rule | ∃ key, catalog.ruleAt? key = some rule}

/-- One catalogue says what another one says, with other instances. -/
structure Corresponds (translation : Translation) (first second : Catalog) : Prop where
  isDefined : ∀ language, second.isDefined language = first.isDefined language
  tokenNames : ∀ language, second.tokenNames? language = first.tokenNames? language
  ruleNames : ∀ language, second.ruleNames? language = first.ruleNames? language
  tokens : ∀ language, second.tokens language = (first.tokens language).map translation.token
  rules : ∀ language, second.rules language = (first.rules language).map translation.rule
  interned : ∀ scope name, second.interned? scope name =
    (first.interned? scope name).map translation.token
  ends : ∀ language, second.end? language = (first.end? language).map translation.token

theorem Corresponds.tokenAt? {translation : Translation} {first second : Catalog}
    (hCorresponds : first.Corresponds translation second) (key : TokenKey) :
    second.tokenAt? key = (first.tokenAt? key).map translation.token := by
  cases key with
  | interned scope name => exact hCorresponds.interned scope name
  | ending language => exact hCorresponds.ends language

end Catalog

/-- A translation leaves the instances of an earlier catalogue alone and matches those that two
later ones have gained one by one. Names are kept, and of rules all that they show. -/
structure Translation.Matches (translation : Translation) (before first second : Catalog) :
    Prop where
  keepsTokens : ∀ token ∈ before.heldTokens, translation.token token = token
  keepsRules : ∀ rule ∈ before.heldRules, translation.rule rule = rule
  tokens : Set.BijOn translation.token (first.heldTokens \ before.heldTokens)
    (second.heldTokens \ before.heldTokens)
  rules : Set.BijOn translation.rule (first.heldRules \ before.heldRules)
    (second.heldRules \ before.heldRules)
  tokenName : ∀ token ∈ first.heldTokens, (translation.token token).name = token.name
  ruleShown : ∀ rule ∈ first.heldRules, (translation.rule rule).shown = rule.shown

section Matching

variable {Key Element : Type} {old first second : Key → Option Element}

/-- Where two tables have the same keys and no element twice, the elements are matched by their
keys, and those that both tables have from an older one are matched with themselves. -/
theorem exists_matching
    (hFirst : ∀ key element, old key = some element → first key = some element)
    (hSecond : ∀ key element, old key = some element → second key = some element)
    (hOnce : ∀ key key' element, first key = some element → first key' = some element → key = key')
    (hOnce' : ∀ key key' element, second key = some element → second key' = some element →
      key = key')
    (hKeys : ∀ key, (first key).isSome = (second key).isSome) :
    ∃ translate : Element → Element, (∀ key, second key = (first key).map translate) ∧
      (∀ element ∈ {element | ∃ key, old key = some element}, translate element = element) ∧
      Set.BijOn translate
        ({element | ∃ key, first key = some element} \ {element | ∃ key, old key = some element})
        ({element | ∃ key, second key = some element} \
          {element | ∃ key, old key = some element}) := by
  classical
  let translate : Element → Element := fun element =>
    if hHeld : ∃ key, first key = some element then (second hHeld.choose).getD element else element
  have hTranslate : ∀ key element, first key = some element →
      second key = some (translate element) := by
    intro key element hAt
    have hHeld : ∃ key, first key = some element := ⟨key, hAt⟩
    have hChoice : hHeld.choose = key := hOnce _ _ _ hHeld.choose_spec hAt
    have hIsSome : (second key).isSome := by
      rw [← hKeys, hAt]
      rfl
    obtain ⟨other, hOther⟩ := Option.isSome_iff_exists.mp hIsSome
    simp only [translate, dif_pos hHeld, hChoice, hOther, Option.getD_some]
  -- An element of the older table stands under its old key in both.
  have hOld : ∀ key element, first key = some element → old key = some (translate element) →
      ∃ key, old key = some element := by
    intro key element hAt hBefore
    have hSame := Option.some.inj ((hFirst _ _ hBefore).symm.trans hAt)
    exact ⟨key, by rw [hBefore, hSame]⟩
  refine ⟨translate, ?_, ?_, ?_, ?_, ?_⟩
  · intro key
    cases hAt : first key with
    | some element => exact hTranslate key element hAt
    | none =>
        have hNone := hKeys key
        rw [hAt] at hNone
        cases hThere : second key with
        | none => rfl
        | some other =>
            rw [hThere] at hNone
            cases hNone
  · intro element hHeld
    rcases hHeld with ⟨key, hBefore⟩
    have hAt := hTranslate key element (hFirst key element hBefore)
    exact Option.some.inj (hAt.symm.trans (hSecond key element hBefore))
  · intro element hElement
    rcases hElement with ⟨⟨key, hAt⟩, hNew⟩
    refine ⟨⟨key, hTranslate key element hAt⟩, ?_⟩
    intro hHeld
    rcases hHeld with ⟨key', hBefore⟩
    obtain rfl := hOnce' key key' _ (hTranslate key element hAt) (hSecond key' _ hBefore)
    exact hNew (hOld key element hAt hBefore)
  · intro element hElement element' hElement' hEqual
    rcases hElement with ⟨⟨key, hAt⟩, _⟩
    rcases hElement' with ⟨⟨key', hAt'⟩, _⟩
    have hThere := hTranslate key element hAt
    rw [hEqual] at hThere
    obtain rfl := hOnce' key key' _ hThere (hTranslate key' element' hAt')
    exact Option.some.inj (hAt.symm.trans hAt')
  · intro element hElement
    rcases hElement with ⟨⟨key, hAt⟩, hNew⟩
    have hIsSome : (first key).isSome := by
      rw [hKeys, hAt]
      rfl
    obtain ⟨other, hOther⟩ := Option.isSome_iff_exists.mp hIsSome
    have hEqual := Option.some.inj ((hTranslate key other hOther).symm.trans hAt)
    refine ⟨other, ⟨⟨key, hOther⟩, ?_⟩, hEqual⟩
    intro hHeld
    rcases hHeld with ⟨key', hBefore⟩
    obtain rfl := hOnce key key' other hOther (hFirst key' other hBefore)
    have hSame := Option.some.inj (hAt.symm.trans (hSecond key other hBefore))
    exact hNew ⟨key, by rw [hBefore, hSame]⟩

/-- Two tables with the same keys and no element twice have their elements matched one by one. -/
theorem exists_bijection
    (hOnce : ∀ key key' element, first key = some element → first key' = some element → key = key')
    (hOnce' : ∀ key key' element, second key = some element → second key' = some element →
      key = key')
    (hKeys : ∀ key, (first key).isSome = (second key).isSome) :
    ∃ translate : Element → Element, (∀ key, second key = (first key).map translate) ∧
      Set.BijOn translate {element | ∃ key, first key = some element}
        {element | ∃ key, second key = some element} := by
  have hNothing : ∀ (table : Key → Option Element) (key : Key) (element : Element),
      none = some element → table key = some element := fun _ _ _ hNone => by cases hNone
  obtain ⟨translate, hTranslate, _, hBij⟩ :=
    exists_matching (hNothing first) (hNothing second) hOnce hOnce' hKeys
  refine ⟨translate, hTranslate, ?_⟩
  simpa using hBij

/-- Elements that are matched in the end were matched before, where the tables have only grown. -/
theorem map_of_map_later {first' second' : Key → Option Element} {translate : Element → Element}
    (hFirst : ∀ key element, first key = some element → first' key = some element)
    (hSecond : ∀ key element, second key = some element → second' key = some element)
    (hKeys : ∀ key, (first key).isSome = (second key).isSome)
    (hLater : ∀ key, second' key = (first' key).map translate) (key : Key) :
    second key = (first key).map translate := by
  have hKey := hKeys key
  cases hAt : first key with
  | none =>
      rw [hAt, Option.isSome_none] at hKey
      exact Option.not_isSome_iff_eq_none.mp (by simp [← hKey])
  | some element =>
      rw [hAt, Option.isSome_some] at hKey
      obtain ⟨other, hOther⟩ := Option.isSome_iff_exists.mp hKey.symm
      have hMatch := hLater key
      rw [hFirst key element hAt, hSecond key other hOther] at hMatch
      rw [hOther, hMatch]

end Matching

/-- A key fixes the name of its token. -/
theorem TokenKey.Fits.name_eq {key : TokenKey} {token token' : TokenElement}
    (hFits : key.Fits token) (hFits' : key.Fits token') : token.name = token'.name := by
  cases key with
  | interned scope name => rw [hFits.1, hFits'.1]
  | ending language => rw [hFits.2.1, hFits'.2.1]

/-- An end of the input has nothing that could be said in two ways. -/
theorem TokenKey.Fits.mention_eq_of_ending {language : Language} {token token' : TokenElement}
    (hFits : (TokenKey.ending language).Fits token)
    (hFits' : (TokenKey.ending language).Fits token') : token.mention = token'.mention := by
  obtain ⟨hSymbol, hName, hOwner, hRegistered⟩ := hFits
  obtain ⟨hSymbol', hName', hOwner', hRegistered'⟩ := hFits'
  rw [TokenElement.mention, TokenElement.mention, hSymbol, hName, hOwner, hRegistered, hSymbol',
    hName', hOwner', hRegistered']

section Similar

open History

/-- Catalogues with one history have tokens that say the same under their keys. -/
theorem Catalog.Records.map_mention_tokenAt? {first second : Catalog} {history : List Demand}
    (hFirst : first.Records history) (hSecond : second.Records history)
    (hFits : ∀ key token, first.tokenAt? key = some token → key.Fits token)
    (hFits' : ∀ key token, second.tokenAt? key = some token → key.Fits token) (key : TokenKey) :
    (first.tokenAt? key).map TokenElement.mention =
      (second.tokenAt? key).map TokenElement.mention := by
  cases key with
  | interned scope name => exact (hFirst.interns scope name).trans (hSecond.interns scope name).symm
  | ending language =>
      have hKeys :=
        hFirst.isSome_tokenAt?_eq hSecond (History.Similar.refl history) (.ending language)
      cases hToken : first.tokenAt? (.ending language) with
      | none =>
          rw [hToken, Option.isSome_none] at hKeys
          rw [Option.isSome_eq_false_iff.mp hKeys.symm |> Option.isNone_iff_eq_none.mp]
      | some token =>
          rw [hToken, Option.isSome_some] at hKeys
          obtain ⟨token', hToken'⟩ := Option.isSome_iff_exists.mp hKeys.symm
          have hSame := (hFits _ _ hToken).mention_eq_of_ending (hFits' _ _ hToken')
          rw [hToken', Option.map_some, Option.map_some, hSame]

/-- Catalogues with similar histories whose instances are matched by their keys correspond. -/
theorem Catalog.Records.corresponds {first second : Catalog} {history history' : List Demand}
    (hRecords : first.Records history) (hRecords' : second.Records history')
    (hSimilar : Similar history history') {translation : Translation}
    (hTokens : ∀ key, second.tokenAt? key = (first.tokenAt? key).map translation.token)
    (hRules : ∀ key, second.ruleAt? key = (first.ruleAt? key).map translation.rule) :
    first.Corresponds translation second := by
  refine ⟨?_, ?_, ?_, ?_, ?_, ?_, ?_⟩
  · intro language
    rw [hRecords'.isDefined_eq, hRecords.isDefined_eq, hSimilar.blueprints]
  · intro language
    rw [hRecords'.tokenNames?_eq, hRecords.tokenNames?_eq, hSimilar.blueprints]
  · intro language
    rw [hRecords'.ruleNames?_eq, hRecords.ruleNames?_eq, hSimilar.blueprints]
  · intro language
    -- The slots are read through their names, and those are the same in both.
    have hSlots : (second.tokens language).map some =
        ((first.tokens language).map some).map (Option.map translation.token) := by
      rw [hRecords'.map_some_tokens, hRecords.map_some_tokens, hSimilar.blueprints]
      cases blueprint? history' language with
      | none => rfl
      | some blueprint =>
          rw [Option.map_some, Option.getD_some, Option.map_some, Option.getD_some, List.map_map]
          apply List.map_congr_left
          intro named _
          exact hTokens (.interned language.scope named.2)
    apply (List.map_inj_right fun _ _ => Option.some.inj).mp
    rw [hSlots, List.map_map, List.map_map]
    rfl
  · intro language
    apply List.ext_getElem?
    intro place
    rw [List.getElem?_map]
    exact hRules (language, place)
  · intro scope name
    exact hTokens (.interned scope name)
  · intro language
    exact hTokens (.ending language)

variable {before first second : State} {history history' : List Demand}

/-- Two states that have grown from one state on similar histories differ in their new instances
only. -/
theorem exists_translation (hGrows : State.Grows before first) (hGrows' : State.Grows before second)
    (hReachable : first.Reachable) (hReachable' : second.Reachable)
    (hRecords : first.catalog.Records history) (hRecords' : second.catalog.Records history')
    (hSimilar : Similar history history') :
    ∃ translation : Translation,
      translation.Matches before.catalog first.catalog second.catalog ∧
      first.catalog.Corresponds translation second.catalog := by
  have hShown := hRecords.map_shown_ruleAt? hRecords' hSimilar
  obtain ⟨onTokens, hTokens, hKeepsTokens, hBijTokens⟩ := exists_matching
    (fun key _ => State.tokenAt?_of_grows hGrows key)
    (fun key _ => State.tokenAt?_of_grows hGrows' key)
    (fun _ _ _ => hReachable.tokenKey_eq) (fun _ _ _ => hReachable'.tokenKey_eq)
    (hRecords.isSome_tokenAt?_eq hRecords' hSimilar)
  obtain ⟨onRules, hRules, hKeepsRules, hBijRules⟩ := exists_matching
    (fun _ _ => State.ruleAt?_of_grows hGrows) (fun _ _ => State.ruleAt?_of_grows hGrows')
    (fun _ _ _ => hReachable.ruleKey_eq) (fun _ _ _ => hReachable'.ruleKey_eq)
    (hRecords.isSome_ruleAt?_eq hRecords' hSimilar)
  refine ⟨⟨onTokens, onRules⟩, ⟨hKeepsTokens, hKeepsRules, hBijTokens, hBijRules, ?_, ?_⟩,
    hRecords.corresponds hRecords' hSimilar hTokens hRules⟩
  · intro token hHeld
    rcases hHeld with ⟨key, hToken⟩
    have hToken' : second.catalog.tokenAt? key = some (onTokens token) := by
      rw [hTokens, hToken, Option.map_some]
    exact (hReachable'.sound.fits key hToken').name_eq (hReachable.sound.fits key hToken)
  · intro rule hHeld
    rcases hHeld with ⟨key, hRule⟩
    have hSame := hShown key
    rw [hRules, hRule, Option.map_some, Option.map_some, Option.map_some] at hSame
    exact (Option.some.inj hSame).symm

end Similar

end GrammarCatalog
