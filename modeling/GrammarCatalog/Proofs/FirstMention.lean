import GrammarCatalog.Proofs.CheckedDefinitions
import GrammarCatalog.Proofs.Trimming

/-! The first mention of a name decides about its token. Later mentions are given the same token,
whatever they say of symbol, owner or registration, and so are the slots of every token list. What
is mentioned is said of the calls and of the names that symbols go by. -/
namespace GrammarCatalog

open History

/-- The call defines the language, or would if nobody had before: it is a definition, or a checked
one whose names are fit for use. -/
inductive Call.Defines (language : Language) (vocabulary : Vocabulary) (rules : List String)
    (registered : Bool) : Call → Prop where
  | unchecked : Defines language vocabulary rules registered
      (.define language vocabulary rules registered)
  | checked (hFit : Naming.Fit vocabulary rules) : Defines language vocabulary rules registered
      (.defineChecked language vocabulary rules registered)

theorem Call.Defines.demand_eq {call : Call} {language : Language} {vocabulary : Vocabulary}
    {rules : List String} {registered : Bool}
    (hDefines : call.Defines language vocabulary rules registered) :
    call.demand = .definition language ⟨vocabulary.names, rules, registered⟩ := by
  cases hDefines with
  | unchecked => rfl
  | checked hFit => exact demand_defineChecked hFit language registered

/-- What a call mentions, by the catalogue that it finds. A definition that takes effect mentions
its symbols from 0 on under the names that they go by. -/
inductive Call.Mentions (catalog : Catalog) : Call → List Mention → Prop where
  | token (symbol : Symbol) (name : String) (owner : Option Language) (registered : Bool) :
      Mentions catalog (.intern symbol name owner registered) [⟨symbol, name, owner, registered⟩]
  | definition {call : Call} {language : Language} {vocabulary : Vocabulary} {rules : List String}
      {registered : Bool} {names : List (Symbol × String)}
      (hDefines : call.Defines language vocabulary rules registered)
      (hNew : catalog.isDefined language = false) (hNames : vocabulary.Spells names) :
      Mentions catalog call
        (names.map fun (symbol, name) => ⟨symbol, name, some language, registered⟩)
  | again {call : Call} {language : Language} {vocabulary : Vocabulary} {rules : List String}
      {registered : Bool} (hDefines : call.Defines language vocabulary rules registered)
      (hKnown : catalog.isDefined language = true) : Mentions catalog call []
  | refused {language : Language} {vocabulary : Vocabulary} {rules : List String}
      {registered : Bool} (hUnfit : ¬Naming.Fit vocabulary rules) :
      Mentions catalog (.defineChecked language vocabulary rules registered) []
  | lookup {call : Call} (hLooksUp : call.looksUp = true) : Mentions catalog call []

/-- What calls mention that are taken one after another. -/
inductive State.RunMentions : State → List Call → List Mention → Prop where
  | nil (state : State) : RunMentions state [] []
  | cons {state : State} {call : Call} {rest : List Call} {mentioned later : List Mention}
      (hFirst : call.Mentions state.catalog mentioned)
      (hRest : RunMentions (state.take call).state rest later) :
      RunMentions state (call :: rest) (mentioned ++ later)

section Records

variable {catalog : Catalog} {earlier : List Demand} (hRecords : catalog.Records earlier)

include hRecords

/-- What a call that defines adds to the history is what it mentions. -/
theorem Call.Defines.mentions {call : Call} {language : Language} {vocabulary : Vocabulary}
    {rules : List String} {registered : Bool}
    (hDefines : call.Defines language vocabulary rules registered) :
    call.Mentions catalog (mentionsOf earlier call.demand) := by
  have hDefined := hRecords.isDefined_eq language
  rw [hDefines.demand_eq, mentionsOf, ← hDefined]
  split
  · next hKnown => exact .again hDefines hKnown
  · next hNew => exact .definition hDefines (Bool.eq_false_iff.mpr hNew) vocabulary.spells_names

theorem Call.mentions_demand (call : Call) :
    call.Mentions catalog (mentionsOf earlier call.demand) := by
  cases hLooksUp : call.looksUp with
  | true =>
      have hNaming := Call.isNaming_demand hLooksUp
      cases hDemand : call.demand with
      | token mention => cases hDemand ▸ hNaming
      | definition language blueprint => cases hDemand ▸ hNaming
      | ending language => exact .lookup hLooksUp
      | nothing => exact .lookup hLooksUp
  | false =>
      cases call with
      | define language vocabulary rules registered =>
          exact Call.Defines.unchecked.mentions hRecords
      | defineChecked language vocabulary rules registered =>
          by_cases hFit : Naming.Fit vocabulary rules
          · exact (Call.Defines.checked hFit).mentions hRecords
          · rw [Call.demand_defineChecked_of_not_fit hFit]
            exact .refused hFit
      | intern symbol name owner registered => exact .token symbol name owner registered
      | _ => cases hLooksUp

end Records

/-- The history of a run is what its calls mention. -/
theorem State.runMentions_demand (state : State) (earlier : List Demand) (calls : List Call)
    (hRecords : state.catalog.Records earlier) :
    state.RunMentions calls (mentionsAfter earlier (calls.map Call.demand)) := by
  induction calls generalizing state earlier with
  | nil => exact .nil state
  | cons call rest ih =>
      have hLater := State.records_takeAll state earlier [call] hRecords
      exact .cons (call.mentions_demand hRecords) (ih (state.take call).state _ hLater)

/-- A definition of a language that the calls before it leave undefined is the one that counts. -/
theorem blueprint?_of_defines {supply : Supply} {calls before later : List Call} {call : Call}
    {language : Language} {vocabulary : Vocabulary} {rules : List String} {registered : Bool}
    (hCalls : calls = before ++ call :: later)
    (hDefines : call.Defines language vocabulary rules registered)
    (hNew : ((State.mk supply .empty).takeAll before).state.catalog.isDefined language = false) :
    blueprint? (calls.map Call.demand) language = some ⟨vocabulary.names, rules, registered⟩ := by
  have hBefore := State.records_takeAll (State.mk supply .empty) [] before Catalog.records_empty
  rw [hBefore.isDefined_eq, List.nil_append, Option.isSome_eq_false_iff,
    Option.isNone_iff_eq_none] at hNew
  rw [hCalls, List.map_append, List.map_cons, blueprint?_append, hNew, Option.none_or,
    blueprint?_cons, hDefines.demand_eq, blueprint?_definition, if_pos rfl, Option.some_or]

/-- A catalogue that starts empty has a token for exactly the names that its calls mention. Each
token looks as its first mention says, and every mention is given that token: the calls that intern
it, and the slots of the definitions that take effect. A symbol without a display name is mentioned
under its decimal number. -/
theorem firstMention_decides (supply : Supply) (calls : List Call) :
    let start := State.mk supply .empty
    let outcome := start.takeAll calls
    let catalog := outcome.state.catalog
    let mentioned := mentions (calls.map Call.demand)
    start.RunMentions calls mentioned ∧
    (∀ scope name, (catalog.interned? scope name).isSome ↔
      ∃ mention ∈ mentioned, mention.key = (scope, name)) ∧
    (∀ scope name token, catalog.interned? scope name = some token →
      token.name = name ∧
      ∃ first, mentioned.find? (fun mention => mention.key = (scope, name)) = some first ∧
        token.symbol = first.symbol ∧ token.owner = first.owner ∧
        token.registered = first.registered) ∧
    (∀ (place : Nat) symbol name owner registered,
      calls[place]? = some (Call.intern symbol name owner registered) →
      ∃ token, catalog.interned? (Language.scopeOf owner) name = some token ∧
        outcome.answer[place]? = some (Answer.token (some token))) ∧
    ∀ before call later language vocabulary rules registered,
      calls = before ++ call :: later → call.Defines language vocabulary rules registered →
      (start.takeAll before).state.catalog.isDefined language = false →
      ∃ names, vocabulary.Spells names ∧ (catalog.tokens language).length = names.length ∧
        ∀ (place : Nat) symbol name, names[place]? = some (symbol, name) →
          ∃ token, catalog.interned? language.scope name = some token ∧
            (catalog.tokens language)[place]? = some token := by
  intro start outcome catalog mentioned
  have hRecords : catalog.Records (calls.map Call.demand) :=
    State.records_takeAll start [] calls Catalog.records_empty
  refine ⟨start.runMentions_demand [] calls Catalog.records_empty, hRecords.isSome_interned?, ?_,
    ?_, ?_⟩
  · intro scope name token hToken
    have hFirst := hRecords.interns scope name
    rw [hToken, Option.map_some] at hFirst
    have hKey := key_of_first? hFirst.symm
    exact ⟨congrArg Prod.snd hKey, token.mention, hFirst.symm, rfl, rfl, rfl⟩
  · intro place symbol name owner registered hCall
    have hDemand : Demand.token ⟨symbol, name, owner, registered⟩ ∈ calls.map Call.demand :=
      List.mem_map_of_mem (f := Call.demand) (List.mem_of_getElem? hCall)
    have hMention := (mem_mentionsAfter [] (calls.map Call.demand) _).mpr (Or.inl hDemand)
    have hKept := (hRecords.isSome_interned? (Language.scopeOf owner) name).mpr ⟨_, hMention, rfl⟩
    obtain ⟨token, hToken⟩ := Option.isSome_iff_exists.mp hKept
    refine ⟨token, hToken, ?_⟩
    apply State.answer_takeAll_of_recall? _ calls place _ _ hCall
    rw [Catalog.recall?, ← hToken]
  · intro before call later language vocabulary rules registered hCalls hDefines hNew
    have hBlueprint := blueprint?_of_defines hCalls hDefines hNew
    refine ⟨vocabulary.names, vocabulary.spells_names, hRecords.length_tokens hBlueprint, ?_⟩
    intro place symbol name hName
    obtain ⟨token, hSlot, hToken⟩ := hRecords.getElem?_tokens hBlueprint hName
    exact ⟨token, hToken, hSlot⟩

/-- A language repeats the name `A`, which is interned before under another number, and a dialect
gives it a third one. The number of a symbol without a name is interned as a name before as well. A
definition that is refused and one that comes too late mention nothing. All are given the token of
the first mention. -/
theorem firstMention_decides_repeated :
    let base := Language.root 1 "base"
    let dialect := Language.dialect 2 "dialect" base
    let repeated := Vocabulary.ofNames ⟨2⟩ [(⟨0⟩, "A"), (⟨2⟩, "A")]
    let shifted := Vocabulary.ofNames ⟨1⟩ [(⟨0⟩, "C"), (⟨1⟩, "A")]
    let calls : List Call :=
      [.defineChecked base repeated [] false, .intern ⟨7⟩ "A" (some dialect) true,
        .intern ⟨8⟩ "1" (some base) false, .define base repeated [] false,
        .define dialect shifted [] false, .define base shifted [] true,
        .intern ⟨9⟩ "A" (some base) false]
    let outcome := (State.mk .full .empty).takeAll calls
    (mentions (calls.map Call.demand)).length = 8 ∧
    (∃ token, outcome.answer[6]? = some (Answer.token (some token)) ∧
      (outcome.state.catalog.tokens base)[2]? = some token ∧
      (outcome.state.catalog.tokens dialect)[1]? = some token ∧
      token.symbol = ⟨7⟩ ∧ token.owner = some dialect ∧ token.registered = true) ∧
    ∃ number, outcome.answer[2]? = some (Answer.token (some number)) ∧
      (outcome.state.catalog.tokens base)[1]? = some number ∧
      number.symbol = ⟨8⟩ ∧ number.name = "1" := by
  intro base dialect repeated shifted calls outcome
  obtain ⟨_, _, hLooks, hIntern, hSlots⟩ := firstMention_decides .full calls
  obtain ⟨token, hToken, hAnswer⟩ := hIntern 6 ⟨9⟩ "A" (some base) false rfl
  obtain ⟨_, first, hFirst, hSymbol, hOwner, hRegistered⟩ := hLooks _ _ _ hToken
  obtain ⟨number, hNumber, hAnswer'⟩ := hIntern 2 ⟨8⟩ "1" (some base) false rfl
  obtain ⟨hName, first', hFirst', hSymbol', _⟩ := hLooks _ _ _ hNumber
  obtain ⟨names, hNames, _, hBase⟩ := hSlots (calls.take 3) _ (calls.drop 4) base repeated []
    false rfl .unchecked rfl
  obtain ⟨names', hNames', _, hDialect⟩ := hSlots (calls.take 4) _ (calls.drop 5) dialect shifted
    [] false rfl .unchecked rfl
  obtain ⟨token', hToken', hSlot'⟩ :=
    hBase 2 ⟨2⟩ "A" ((hNames _ _ _).mpr ⟨rfl, by decide, .displayed rfl⟩)
  obtain ⟨token'', hToken'', hSlot''⟩ :=
    hDialect 1 ⟨1⟩ "A" ((hNames' _ _ _).mpr ⟨rfl, by decide, .displayed rfl⟩)
  obtain ⟨number', hNumber', hPlace⟩ :=
    hBase 1 ⟨1⟩ "1" ((hNames _ _ _).mpr ⟨rfl, by decide, .numbered rfl⟩)
  obtain rfl : token = token' := Option.some.inj (hToken.symm.trans hToken')
  obtain rfl : token = token'' := Option.some.inj (hToken.symm.trans hToken'')
  obtain rfl : number = number' := Option.some.inj (hNumber.symm.trans hNumber')
  obtain rfl : ⟨⟨7⟩, "A", some dialect, true⟩ = first := Option.some.inj (hFirst ▸ rfl)
  obtain rfl : ⟨⟨8⟩, "1", some base, false⟩ = first' := Option.some.inj (hFirst' ▸ rfl)
  exact ⟨by decide, ⟨token, hAnswer, hSlot', hSlot'', hSymbol, hOwner, hRegistered⟩, number,
    hAnswer', hPlace, hSymbol', hName⟩

end GrammarCatalog
