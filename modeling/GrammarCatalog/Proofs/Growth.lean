import GrammarCatalog.Catalog.Call
import Mathlib.Logic.Relation

/-! What the operations of a catalogue add to it. There are two additions: a token under a key that
had none, and the definition of a language that had none. Every operation is a run of additions, so
a fact that both additions keep holds after every operation. -/
namespace GrammarCatalog

/-- What a token is kept under: a name in a scope, or the end of the input of a language. -/
inductive TokenKey where
  | interned (scope : Language) (name : String)
  | ending (language : Language)
  deriving DecidableEq

/-- The properties that a key fixes, whoever asked for its token first. -/
def TokenKey.Fits : TokenKey → TokenElement → Prop
  | interned scope name, token => token.name = name ∧ Language.scopeOf token.owner = scope
  | ending language, token =>
    token.symbol = .endOfInput ∧ token.name = Symbol.endOfInputName ∧
      token.owner = some language ∧ token.registered = false

/-- What a language is defined from. -/
structure Blueprint where
  names : List (Symbol × String)
  rules : List String
  registered : Bool
  deriving DecidableEq

/-- All that a rule shows. Only the instance is left out. -/
def RuleElement.shown (rule : RuleElement) : RuleNumber × String × Language × Bool :=
  (rule.rule, rule.name, rule.owner, rule.registered)

namespace Catalog

def tokenAt? (catalog : Catalog) : TokenKey → Option TokenElement
  | .interned scope name => catalog.interned? scope name
  | .ending language => catalog.end? language

/-- The rule of a language at a place in its list. -/
def ruleAt? (catalog : Catalog) (key : Language × Nat) : Option RuleElement :=
  (catalog.rules key.1)[key.2]?

def addToken (catalog : Catalog) (token : TokenElement) : TokenKey → Catalog
  | .interned scope name => catalog.addInterned scope name token
  | .ending language => catalog.addEnd language token

theorem tokenAt?_addToken (catalog : Catalog) (key other : TokenKey) (token : TokenElement) :
    (catalog.addToken token key).tokenAt? other =
      if other = key then some token else catalog.tokenAt? other := by
  cases key with
  | interned scope name =>
      cases other with
      | interned scope' name' =>
          simp only [addToken, tokenAt?, interned?_addInterned, Prod.mk.injEq,
            TokenKey.interned.injEq]
      | ending language => rfl
  | ending language =>
      cases other with
      | interned scope name => rfl
      | ending language' =>
          simp only [addToken, tokenAt?, end?_addEnd, TokenKey.ending.injEq]

theorem definitions_addToken (catalog : Catalog) (key : TokenKey) (token : TokenElement) :
    (catalog.addToken token key).definitions = catalog.definitions := by
  cases key <;> rfl

theorem definition?_addToken (catalog : Catalog) (key : TokenKey) (token : TokenElement)
    (language : Language) :
    (catalog.addToken token key).definition? language = catalog.definition? language := by
  rw [definition?, definitions_addToken]
  rfl

theorem rules_addToken (catalog : Catalog) (key : TokenKey) (token : TokenElement)
    (language : Language) :
    (catalog.addToken token key).rules language = catalog.rules language := by
  unfold rules
  rw [definition?_addToken]

/-- What a catalogue shows of a language depends on its definition alone. -/
theorem tables_eq {catalog other : Catalog} {language : Language}
    (hSame : catalog.definition? language = other.definition? language) :
    catalog.isDefined language = other.isDefined language ∧
      catalog.tokens language = other.tokens language ∧
      catalog.rules language = other.rules language ∧
      catalog.tokenNames? language = other.tokenNames? language ∧
      catalog.ruleNames? language = other.ruleNames? language := by
  unfold isDefined tokens rules tokenNames? ruleNames?
  rw [hSame]
  exact ⟨rfl, rfl, rfl, rfl, rfl⟩

/-- What is shown of a defined language is what its tables contain. -/
theorem tables_of_definition? {catalog : Catalog} {language : Language} {definition : Definition}
    (hDefinition : catalog.definition? language = some definition) :
    catalog.tokens language = definition.tokens.content ∧
      catalog.rules language = definition.rules.content ∧
      catalog.tokenNames? language = some definition.symbolOf.content ∧
      catalog.ruleNames? language = some definition.ruleOf.content := by
  unfold tokens rules tokenNames? ruleNames?
  rw [hDefinition]
  exact ⟨rfl, rfl, rfl, rfl⟩

/-- A rule is kept where the definition of its language is. -/
theorem ruleAt?_of_definition? {catalog later : Catalog} {key : Language × Nat}
    {rule : RuleElement}
    (hKept : ∀ definition, catalog.definition? key.1 = some definition →
      later.definition? key.1 = some definition)
    (hRule : catalog.ruleAt? key = some rule) : later.ruleAt? key = some rule := by
  unfold ruleAt? rules at hRule ⊢
  cases hDefinition : catalog.definition? key.1 with
  | none => simp [hDefinition] at hRule
  | some definition =>
      rw [hDefinition] at hRule
      rw [hKept definition hDefinition]
      exact hRule

theorem tokenAt?_addDefinition (catalog : Catalog) (language : Language)
    (definition : Definition) (key : TokenKey) :
    (catalog.addDefinition language definition).tokenAt? key = catalog.tokenAt? key := by
  cases key <;> rfl

/-- The tables of a language say what its blueprint says. The tokens are those that the catalogue
keeps for the names; the rules are the language's own. -/
structure Realizes (catalog : Catalog) (language : Language) (blueprint : Blueprint)
    (definition : Definition) : Prop where
  tokens : definition.tokens.content.map some =
    blueprint.names.map fun named => catalog.interned? language.scope named.2
  rules : definition.rules.content.map RuleElement.shown =
    (Naming.numberedRules blueprint.rules).map fun (rule, name) =>
      (rule, name, language, blueprint.registered)
  symbolOf : definition.symbolOf.content = .ofNamed blueprint.names
  ruleOf : definition.ruleOf.content = .ofNamed (Naming.numberedRules blueprint.rules)

end Catalog

namespace State

/-- What is published for a language whose tokens are at hand. -/
def published (state : State) (language : Language) (blueprint : Blueprint)
    (tokens : List TokenElement) : Definition :=
  let numbered := Naming.numberedRules blueprint.rules
  { tokens := ⟨state.supply.publications, tokens⟩
    rules := ⟨state.supply.publications,
      (state.supply.rulesFor language blueprint.registered numbered).1⟩
    symbolOf := ⟨state.supply.publications, .ofNamed blueprint.names⟩
    ruleOf := ⟨state.supply.publications, .ofNamed numbered⟩ }

/-- The supply after a publication. -/
def supplyAfter (state : State) (blueprint : Blueprint) : Supply :=
  { state.supply with
    rules := state.supply.rules + (Naming.numberedRules blueprint.rules).length
    publications := state.supply.publications + 1 }

theorem state_publish (state : State) (language : Language) (blueprint : Blueprint)
    (tokens : List TokenElement) :
    (state.publish language blueprint.names tokens blueprint.rules blueprint.registered).state =
      ⟨state.supplyAfter blueprint,
        state.catalog.addDefinition language (state.published language blueprint tokens)⟩ := by
  simp only [publish, published, supplyAfter, Supply.supply_rulesFor, Supply.publication]

theorem rules_addPublished (state : State) (language other : Language) (blueprint : Blueprint)
    (tokens : List TokenElement) :
    (state.catalog.addDefinition language
      (state.published language blueprint tokens)).rules other =
      if other = language then
        (state.supply.rulesFor language blueprint.registered
          (Naming.numberedRules blueprint.rules)).1
      else state.catalog.rules other := by
  unfold Catalog.rules
  rw [Catalog.definition?_addDefinition]
  by_cases hOther : other = language
  · rw [if_pos hOther, if_pos hOther]
    rfl
  · rw [if_neg hOther, if_neg hOther]

/-- One addition. The key or the language is new, and what is added suits it. -/
inductive Adds : State → State → Prop where
  | token (state : State) (key : TokenKey) (symbol : Symbol) (name : String)
      (owner : Option Language) (registered : Bool)
      (hNew : state.catalog.tokenAt? key = none)
      (hFits : key.Fits (state.supply.token symbol name owner registered).1) :
      Adds state ⟨(state.supply.token symbol name owner registered).2,
        state.catalog.addToken (state.supply.token symbol name owner registered).1 key⟩
  | definition (state : State) (language : Language) (blueprint : Blueprint)
      (tokens : List TokenElement)
      (hNew : state.catalog.definition? language = none)
      (hTokens : tokens.map some =
        blueprint.names.map fun named => state.catalog.interned? language.scope named.2) :
      Adds state ⟨state.supplyAfter blueprint,
        state.catalog.addDefinition language (state.published language blueprint tokens)⟩

/-- Any number of additions, one after another. -/
def Grows : State → State → Prop := Relation.ReflTransGen Adds

theorem Grows.refl (state : State) : Grows state state := Relation.ReflTransGen.refl

theorem Grows.trans {first second third : State} (hFirst : Grows first second)
    (hSecond : Grows second third) : Grows first third :=
  Relation.ReflTransGen.trans hFirst hSecond

/-- A fact that each addition keeps is kept by all of them. -/
theorem Grows.keeps {start finish : State} (hGrows : Grows start finish) (kept : State → Prop)
    (hAdds : ∀ before after, Adds before after → kept before → kept after)
    (hStart : kept start) : kept finish := by
  induction hGrows with
  | refl => exact hStart
  | tail _ hLast ih => exact hAdds _ _ hLast ih

theorem tokenAt?_of_adds {before after : State} (hAdds : Adds before after) (key : TokenKey)
    {token : TokenElement} (hToken : before.catalog.tokenAt? key = some token) :
    after.catalog.tokenAt? key = some token := by
  cases hAdds with
  | token added symbol name owner registered hNew hFits =>
      have hOther : key ≠ added := by
        intro hEqual
        subst hEqual
        rw [hNew] at hToken
        cases hToken
      rw [Catalog.tokenAt?_addToken, if_neg hOther]
      exact hToken
  | definition => rwa [Catalog.tokenAt?_addDefinition]

theorem definition?_of_adds {before after : State} (hAdds : Adds before after)
    {language : Language} {definition : Definition}
    (hDefinition : before.catalog.definition? language = some definition) :
    after.catalog.definition? language = some definition := by
  cases hAdds with
  | token => rwa [Catalog.definition?_addToken]
  | definition added blueprint tokens hNew hTokens =>
      have hOther : language ≠ added := by
        intro hEqual
        subst hEqual
        rw [hNew] at hDefinition
        cases hDefinition
      rw [Catalog.definition?_addDefinition, if_neg hOther]
      exact hDefinition

/-- A token that is kept is kept for good, and so is a definition. -/
theorem tokenAt?_of_grows {start finish : State} (hGrows : Grows start finish) (key : TokenKey)
    {token : TokenElement} (hToken : start.catalog.tokenAt? key = some token) :
    finish.catalog.tokenAt? key = some token :=
  hGrows.keeps (fun state => state.catalog.tokenAt? key = some token)
    (fun _ _ hAdds => tokenAt?_of_adds hAdds key) hToken

theorem definition?_of_grows {start finish : State} (hGrows : Grows start finish)
    {language : Language} {definition : Definition}
    (hDefinition : start.catalog.definition? language = some definition) :
    finish.catalog.definition? language = some definition :=
  hGrows.keeps (fun state => state.catalog.definition? language = some definition)
    (fun _ _ hAdds => definition?_of_adds hAdds) hDefinition

theorem ruleAt?_of_grows {start finish : State} (hGrows : Grows start finish)
    {key : Language × Nat} {rule : RuleElement} (hRule : start.catalog.ruleAt? key = some rule) :
    finish.catalog.ruleAt? key = some rule :=
  Catalog.ruleAt?_of_definition? (fun _ => definition?_of_grows hGrows) hRule

theorem interned?_of_grows {start finish : State} (hGrows : Grows start finish)
    {scope : Language} {name : String} {token : TokenElement}
    (hToken : start.catalog.interned? scope name = some token) :
    finish.catalog.interned? scope name = some token :=
  tokenAt?_of_grows hGrows (.interned scope name) hToken

end State

namespace Catalog

/-- The tables of a language go on saying what its blueprint says while tokens are added. -/
theorem Realizes.mono {catalog later : Catalog} {language : Language} {blueprint : Blueprint}
    {definition : Definition} (hRealizes : catalog.Realizes language blueprint definition)
    (hKept : ∀ name token, catalog.interned? language.scope name = some token →
      later.interned? language.scope name = some token) :
    later.Realizes language blueprint definition := by
  refine ⟨?_, hRealizes.rules, hRealizes.symbolOf, hRealizes.ruleOf⟩
  rw [hRealizes.tokens]
  apply List.map_congr_left
  intro named hNamed
  have hSlot : catalog.interned? language.scope named.2 ∈
      definition.tokens.content.map some := by
    rw [hRealizes.tokens]
    exact List.mem_map_of_mem hNamed
  obtain ⟨token, _, hToken⟩ := List.mem_map.mp hSlot
  rw [hKept named.2 token hToken.symm, hToken]

/-- Every slot of the token list holds the token that the scope keeps for its name. -/
theorem Realizes.getElem?_tokens {catalog : Catalog} {language : Language}
    {blueprint : Blueprint} {definition : Definition}
    (hRealizes : catalog.Realizes language blueprint definition) {place : Nat} {symbol : Symbol}
    {name : String} (hName : blueprint.names[place]? = some (symbol, name)) :
    ∃ token, definition.tokens.content[place]? = some token ∧
      catalog.interned? language.scope name = some token := by
  have hSlots := congrArg (·[place]?) hRealizes.tokens
  simp only [List.getElem?_map, hName, Option.map_some, Option.map_eq_some_iff] at hSlots
  obtain ⟨token, hSlot, hToken⟩ := hSlots
  exact ⟨token, hSlot, hToken.symm⟩

/-- Tokens suit their keys, and definitions say what some blueprint says. -/
structure Sound (catalog : Catalog) : Prop where
  fits : ∀ key {token}, catalog.tokenAt? key = some token → key.Fits token
  realized : ∀ {language definition}, catalog.definition? language = some definition →
    ∃ blueprint, catalog.Realizes language blueprint definition

theorem sound_empty : empty.Sound := by
  constructor
  · intro key token hToken
    cases key <;> cases hToken
  · intro language definition hDefinition
    cases hDefinition

/-- Every listed token is the one that the scope keeps for its name. -/
theorem Sound.interned?_of_mem_tokens {catalog : Catalog} (hSound : catalog.Sound)
    {language : Language} {token : TokenElement} (hToken : token ∈ catalog.tokens language) :
    catalog.interned? language.scope token.name = some token := by
  unfold tokens at hToken
  cases hDefinition : catalog.definition? language with
  | none => simp [hDefinition] at hToken
  | some definition =>
      obtain ⟨blueprint, hRealizes⟩ := hSound.realized hDefinition
      have hSlot : some token ∈ definition.tokens.content.map some := by
        rw [hDefinition] at hToken
        exact List.mem_map_of_mem hToken
      rw [hRealizes.tokens, List.mem_map] at hSlot
      obtain ⟨named, _, hKept⟩ := hSlot
      have hFits := hSound.fits (.interned language.scope named.2) hKept
      rw [hFits.1]
      exact hKept

end Catalog

namespace State

theorem realizes_published (state : State) (language : Language) (blueprint : Blueprint)
    (tokens : List TokenElement)
    (hTokens : tokens.map some =
      blueprint.names.map fun named => state.catalog.interned? language.scope named.2) :
    state.catalog.Realizes language blueprint (state.published language blueprint tokens) := by
  refine ⟨hTokens, ?_, rfl, rfl⟩
  apply List.ext_getElem?
  intro place
  simp only [published, List.getElem?_map, Supply.getElem?_rulesFor, Option.map_map]
  rfl

theorem sound_of_adds {before after : State} (hAdds : Adds before after)
    (hSound : before.catalog.Sound) : after.catalog.Sound := by
  have hKept : ∀ {scope name token}, before.catalog.interned? scope name = some token →
      after.catalog.interned? scope name = some token := fun {scope name _} hToken =>
    tokenAt?_of_adds hAdds (.interned scope name) hToken
  cases hAdds with
  | token added symbol name owner registered hNew hFits =>
      refine ⟨?_, ?_⟩
      · intro key token hToken
        rw [Catalog.tokenAt?_addToken] at hToken
        split at hToken
        · next hKey =>
          cases hToken
          rwa [hKey]
        · exact hSound.fits key hToken
      · intro language definition hDefinition
        rw [Catalog.definition?_addToken] at hDefinition
        obtain ⟨blueprint, hRealizes⟩ := hSound.realized hDefinition
        exact ⟨blueprint, hRealizes.mono fun _ _ => hKept⟩
  | definition added blueprint tokens hNew hTokens =>
      refine ⟨?_, ?_⟩
      · intro key token hToken
        rw [Catalog.tokenAt?_addDefinition] at hToken
        exact hSound.fits key hToken
      · intro language definition hDefinition
        rw [Catalog.definition?_addDefinition] at hDefinition
        split at hDefinition
        · next hLanguage =>
          cases hDefinition
          rw [hLanguage]
          have hPublished := before.realizes_published added blueprint tokens hTokens
          exact ⟨blueprint, hPublished.mono fun _ _ => hKept⟩
        · obtain ⟨blueprint', hRealizes⟩ := hSound.realized hDefinition
          exact ⟨blueprint', hRealizes.mono fun _ _ => hKept⟩

end State

end GrammarCatalog
