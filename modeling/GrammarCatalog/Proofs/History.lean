import GrammarCatalog.Proofs.Reachable

/-! Catalogues read off their history. What a catalogue holds is decided by the demands made on it,
the first one for each name, for each language and for each end of the input. The reading does not
look at any state: it goes through the demands alone. -/
namespace GrammarCatalog

def Demand.definition? : Demand → Option (Language × Blueprint)
  | .definition language blueprint => some (language, blueprint)
  | _ => none

def Demand.ending? : Demand → Option Language
  | .ending language => some language
  | _ => none

namespace History

/-- The blueprint that takes effect, which is the first one that is demanded for the language. -/
def blueprint? (history : List Demand) (language : Language) : Option Blueprint :=
  (history.filterMap Demand.definition?).lookup language

/-- The mentions of a demand that is made after others. A definition mentions its names unless the
language was defined before. -/
def mentionsOf (earlier : List Demand) : Demand → List Mention
  | .token mention => [mention]
  | .definition language blueprint =>
    if (blueprint? earlier language).isSome then [] else blueprint.mentions language
  | .ending _ => []
  | .nothing => []

def mentionsAfter (earlier : List Demand) : List Demand → List Mention
  | [] => []
  | demand :: rest => mentionsOf earlier demand ++ mentionsAfter (earlier ++ [demand]) rest

/-- All mentions of a history in their order. -/
def mentions (history : List Demand) : List Mention := mentionsAfter [] history

/-- The first mention of a name in a scope. -/
def first? (mentioned : List Mention) (scope : Language) (name : String) : Option Mention :=
  mentioned.find? fun mention => mention.key = (scope, name)

theorem first?_append (earlier later : List Mention) (scope : Language) (name : String) :
    first? (earlier ++ later) scope name =
      (first? earlier scope name).or (first? later scope name) :=
  List.find?_append

theorem first?_singleton (mention : Mention) (scope : Language) (name : String) :
    first? [mention] scope name = if mention.key = (scope, name) then some mention else none := by
  by_cases hKey : mention.key = (scope, name)
  · simp [first?, hKey]
  · simp [first?, hKey]

/-- A name has a first mention exactly when it is mentioned. -/
theorem isSome_first? (mentioned : List Mention) (scope : Language) (name : String) :
    (first? mentioned scope name).isSome ↔
      ∃ mention ∈ mentioned, mention.key = (scope, name) := by
  simp [first?]

theorem key_of_first? {mentioned : List Mention} {scope : Language} {name : String}
    {mention : Mention} (hFirst : first? mentioned scope name = some mention) :
    mention.key = (scope, name) := by
  simpa using List.find?_some hFirst

theorem mentionsAfter_append (earlier demands later : List Demand) :
    mentionsAfter earlier (demands ++ later) =
      mentionsAfter earlier demands ++ mentionsAfter (earlier ++ demands) later := by
  induction demands generalizing earlier with
  | nil => simp [mentionsAfter]
  | cons demand rest ih =>
      simp only [List.cons_append, mentionsAfter, ih, List.append_assoc, List.nil_append]

theorem mentions_append (history later : List Demand) :
    mentions (history ++ later) = mentions history ++ mentionsAfter history later := by
  rw [mentions, mentionsAfter_append, List.nil_append, mentions]

theorem mentionsAfter_singleton (earlier : List Demand) (demand : Demand) :
    mentionsAfter earlier [demand] = mentionsOf earlier demand :=
  List.append_nil _

theorem blueprint?_append (history later : List Demand) (language : Language) :
    blueprint? (history ++ later) language =
      (blueprint? history language).or (blueprint? later language) := by
  simp only [blueprint?, List.filterMap_append, List.lookup_append]

theorem blueprint?_token (mention : Mention) (language : Language) :
    blueprint? [.token mention] language = none := rfl

theorem blueprint?_ending (other language : Language) :
    blueprint? [.ending other] language = none := rfl

theorem blueprint?_nothing (language : Language) : blueprint? [.nothing] language = none := rfl

theorem blueprint?_definition (language other : Language) (blueprint : Blueprint) :
    blueprint? [.definition language blueprint] other =
      if other = language then some blueprint else none := by
  by_cases hOther : other = language
  · simp [blueprint?, Demand.definition?, hOther]
  · simp [blueprint?, Demand.definition?, List.lookup_cons, beq_false_of_ne hOther, hOther]

theorem blueprint?_cons (demand : Demand) (rest : List Demand) (language : Language) :
    blueprint? (demand :: rest) language =
      (blueprint? [demand] language).or (blueprint? rest language) :=
  blueprint?_append [demand] rest language

/-- Names are mentioned by those who ask for their tokens, and by the blueprints that take effect
although their language was not defined earlier. The order of the demands has no influence on what
is mentioned except through the choice of the blueprints. -/
theorem mem_mentionsAfter (earlier demands : List Demand) (mention : Mention) :
    mention ∈ mentionsAfter earlier demands ↔
      .token mention ∈ demands ∨
      ∃ language blueprint, blueprint? earlier language = none ∧
        blueprint? demands language = some blueprint ∧ mention ∈ blueprint.mentions language := by
  induction demands generalizing earlier with
  | nil => simp [mentionsAfter, blueprint?]
  | cons demand rest ih =>
      simp only [mentionsAfter, List.mem_append, ih, blueprint?_append, Option.or_eq_none_iff,
        blueprint?_cons demand rest, List.mem_cons]
      cases demand with
      | token other => simp [mentionsOf, blueprint?_token, or_assoc]
      | definition defined added =>
          simp only [mentionsOf, blueprint?_definition, reduceCtorEq, false_or]
          constructor
          · intro hMentioned
            rcases hMentioned with hAdded | hToken |
              ⟨language, blueprint, ⟨hEarlier, hOther⟩, hRest, hMention⟩
            · cases hDefined : blueprint? earlier defined with
              | some _ => simp [hDefined] at hAdded
              | none =>
                  refine Or.inr ⟨defined, added, hDefined, ?_, by simpa [hDefined] using hAdded⟩
                  simp
            · exact Or.inl hToken
            · refine Or.inr ⟨language, blueprint, hEarlier, ?_, hMention⟩
              rw [hOther, Option.none_or]
              exact hRest
          · intro hMentioned
            rcases hMentioned with hToken | ⟨language, blueprint, hEarlier, hEffect, hMention⟩
            · exact Or.inr (Or.inl hToken)
            · by_cases hOther : language = defined
              · subst hOther
                rw [if_pos rfl, Option.some_or] at hEffect
                cases hEffect
                exact Or.inl (by simpa [hEarlier] using hMention)
              · rw [if_neg hOther, Option.none_or] at hEffect
                exact Or.inr (Or.inr ⟨language, blueprint, ⟨hEarlier, if_neg hOther⟩, hEffect,
                  hMention⟩)
      | ending other => simp [mentionsOf, blueprint?_ending]
      | nothing => simp [mentionsOf, blueprint?_nothing]

end History

open History

namespace Catalog

/-- The catalogue keeps a token for every name that is mentioned, as first mentioned. -/
def Interns (catalog : Catalog) (mentioned : List Mention) : Prop :=
  ∀ scope name,
    (catalog.interned? scope name).map TokenElement.mention = first? mentioned scope name

/-- The catalogue is what the history makes of the empty one. -/
structure Records (catalog : Catalog) (history : List Demand) : Prop where
  interns : catalog.Interns (mentions history)
  realizes : ∀ {language blueprint}, blueprint? history language = some blueprint →
    ∃ definition, catalog.definition? language = some definition ∧
      catalog.Realizes language blueprint definition
  undefined : ∀ {language}, blueprint? history language = none →
    catalog.definition? language = none
  ends : ∀ language,
    (catalog.end? language).isSome ↔ language ∈ history.filterMap Demand.ending?

theorem records_empty : empty.Records [] := by
  refine ⟨?_, ?_, ?_, ?_⟩
  · intro scope name
    rfl
  · intro language blueprint hBlueprint
    cases hBlueprint
  · intro language _
    rfl
  · intro language
    simp [empty, end?]

theorem Records.isDefined_eq {catalog : Catalog} {history : List Demand}
    (hRecords : catalog.Records history) (language : Language) :
    catalog.isDefined language = (blueprint? history language).isSome := by
  unfold isDefined
  cases hBlueprint : blueprint? history language with
  | none =>
      rw [hRecords.undefined hBlueprint]
      rfl
  | some blueprint =>
      obtain ⟨definition, hDefinition, _⟩ := hRecords.realizes hBlueprint
      rw [hDefinition]
      rfl

theorem Records.isSome_interned? {catalog : Catalog} {history : List Demand}
    (hRecords : catalog.Records history) (scope : Language) (name : String) :
    (catalog.interned? scope name).isSome ↔
      ∃ mention ∈ mentions history, mention.key = (scope, name) := by
  rw [← isSome_first?, ← hRecords.interns, Option.isSome_map]

/-- The slots of a token list are filled as the blueprint that took effect says. -/
theorem Records.length_tokens {catalog : Catalog} {history : List Demand}
    (hRecords : catalog.Records history) {language : Language} {blueprint : Blueprint}
    (hBlueprint : blueprint? history language = some blueprint) :
    (catalog.tokens language).length = blueprint.names.length := by
  obtain ⟨definition, hDefinition, hRealizes⟩ := hRecords.realizes hBlueprint
  have hLength := congrArg List.length hRealizes.tokens
  rw [List.length_map, List.length_map] at hLength
  rw [tokens, hDefinition]
  exact hLength

theorem Records.getElem?_tokens {catalog : Catalog} {history : List Demand}
    (hRecords : catalog.Records history) {language : Language} {blueprint : Blueprint}
    (hBlueprint : blueprint? history language = some blueprint) {place : Nat} {symbol : Symbol}
    {name : String} (hName : blueprint.names[place]? = some (symbol, name)) :
    ∃ token, (catalog.tokens language)[place]? = some token ∧
      catalog.interned? language.scope name = some token := by
  obtain ⟨definition, hDefinition, hRealizes⟩ := hRecords.realizes hBlueprint
  rw [tokens, hDefinition]
  exact hRealizes.getElem?_tokens hName

end Catalog

namespace State

/-- Interning adds a mention. It is the first of its name only where the name had no token. -/
theorem interns_intern (state : State) (mentioned : List Mention) (mention : Mention)
    (hInterns : state.catalog.Interns mentioned) :
    (state.intern mention.symbol mention.name mention.owner
      mention.registered).state.catalog.Interns (mentioned ++ [mention]) := by
  intro scope name
  rw [first?_append, first?_singleton, interned?_intern]
  by_cases hKey : (scope, name) = (Language.scopeOf mention.owner, mention.name)
  · rw [if_pos hKey, if_pos (show mention.key = (scope, name) from hKey.symm)]
    obtain ⟨rfl, rfl⟩ := Prod.mk.inj hKey
    have hFirst := hInterns (Language.scopeOf mention.owner) mention.name
    cases hToken : state.catalog.interned? (Language.scopeOf mention.owner) mention.name with
    | some token =>
        rw [hToken, Option.map_some] at hFirst
        rw [intern_of_interned _ _ _ _ _ _ hToken, ← hFirst]
        rfl
    | none =>
        rw [hToken, Option.map_none] at hFirst
        simp only [intern, hToken, ← hFirst]
        rfl
  · rw [if_neg hKey, if_neg (show ¬mention.key = (scope, name) from fun h => hKey h.symm),
      Option.or_none]
    exact hInterns scope name

theorem interns_internAll (state : State) (mentioned : List Mention) (owner : Option Language)
    (registered : Bool) (named : List (Symbol × String))
    (hInterns : state.catalog.Interns mentioned) :
    (state.internAll owner registered named).state.catalog.Interns
      (mentioned ++ named.map fun (symbol, name) => ⟨symbol, name, owner, registered⟩) := by
  induction named generalizing state mentioned with
  | nil => simpa [internAll, Outcome.silent] using hInterns
  | cons entry rest ih =>
      have hFirst := interns_intern state mentioned ⟨entry.1, entry.2, owner, registered⟩ hInterns
      have hRest := ih _ _ hFirst
      rw [List.append_assoc] at hRest
      exact hRest

/-- A demand defines at most the language that it names. -/
theorem definition?_meet (state : State) (demand : Demand) (language : Language)
    (hOther : ∀ blueprint, demand ≠ .definition language blueprint) :
    (state.meet demand).catalog.definition? language = state.catalog.definition? language := by
  cases demand with
  | token mention =>
      simp only [meet, Catalog.definition?, (definitions_intern _ _ _ _ _).1]
  | definition other blueprint =>
      have hNe : language ≠ other := fun hEqual => hOther blueprint (by rw [hEqual])
      unfold meet
      dsimp only
      split
      · rfl
      · simp only [establish, Outcome.andThen, state_publish, Catalog.definition?_addDefinition,
          if_neg hNe]
        rw [Catalog.definition?, (definitions_internAll _ _ _ _).1]
        rfl
  | ending other =>
      unfold meet endToken
      dsimp only
      split
      · rfl
      · rfl
  | nothing => rfl

theorem interns_meet (state : State) (history : List Demand) (demand : Demand)
    (hRecords : state.catalog.Records history) :
    (state.meet demand).catalog.Interns (mentions history ++ mentionsOf history demand) := by
  cases demand with
  | token mention => exact interns_intern state _ mention hRecords.interns
  | definition language blueprint =>
      simp only [meet, mentionsOf, hRecords.isDefined_eq language]
      split
      · rw [List.append_nil]
        exact hRecords.interns
      · simp only [establish, Outcome.andThen, state_publish]
        exact interns_internAll state _ (some language) _ _ hRecords.interns
  | ending language =>
      rw [mentionsOf, List.append_nil]
      unfold meet endToken
      dsimp only
      split
      · exact hRecords.interns
      · exact hRecords.interns
  | nothing =>
      rw [mentionsOf, List.append_nil]
      exact hRecords.interns

theorem isSome_end?_meet (state : State) (demand : Demand) (language : Language) :
    ((state.meet demand).catalog.end? language).isSome ↔
      (state.catalog.end? language).isSome ∨ demand.ending? = some language := by
  cases demand with
  | token mention =>
      simp [meet, Catalog.end?, (definitions_intern _ _ _ _ _).2, Demand.ending?]
  | definition other blueprint =>
      simp only [meet, Demand.ending?, reduceCtorEq, or_false]
      split
      · rfl
      · simp only [establish, Outcome.andThen, state_publish, Catalog.end?,
          Catalog.addDefinition, (definitions_internAll _ _ _ _).2]
  | ending other =>
      simp only [meet, end?_endToken, Demand.ending?, Option.some.injEq]
      by_cases hOther : language = other
      · simp [hOther]
      · simp [hOther, Ne.symm hOther]
  | nothing => simp [meet, Demand.ending?]

/-- The blueprint that a demand brings into effect is realized by meeting it. -/
theorem realizes_meet (state : State) (language : Language) (blueprint : Blueprint)
    (hNew : state.catalog.definition? language = none) :
    ∃ definition,
      (state.meet (.definition language blueprint)).catalog.definition? language =
        some definition ∧
      (state.meet (.definition language blueprint)).catalog.Realizes language blueprint
        definition := by
  have hUndefined : ¬state.catalog.isDefined language = true := by
    rw [Catalog.isDefined, hNew]
    decide
  simp only [meet, if_neg hUndefined, establish, Outcome.andThen, state_publish,
    Catalog.definition?_addDefinition, ↓reduceIte, Option.some.injEq, exists_eq_left']
  exact (realizes_published _ language blueprint _ (answer_internAll _ _ _ _)).mono
    fun _ _ hToken => hToken

/-- Meeting a demand takes the history one demand further. -/
theorem records_meet (state : State) (history : List Demand) (demand : Demand)
    (hRecords : state.catalog.Records history) :
    (state.meet demand).catalog.Records (history ++ [demand]) := by
  have hGrows := grows_meet state demand
  refine ⟨?_, ?_, ?_, ?_⟩
  · rw [mentions_append, mentionsAfter_singleton]
    exact interns_meet state history demand hRecords
  · intro language blueprint hBlueprint
    rw [blueprint?_append] at hBlueprint
    cases hBefore : blueprint? history language with
    | some earlier =>
        rw [hBefore, Option.some_or] at hBlueprint
        cases hBlueprint
        obtain ⟨definition, hDefinition, hRealizes⟩ := hRecords.realizes hBefore
        exact ⟨definition, definition?_of_grows hGrows hDefinition,
          hRealizes.mono fun _ _ => interned?_of_grows hGrows⟩
    | none =>
        rw [hBefore, Option.none_or] at hBlueprint
        cases demand with
        | definition other added =>
            rw [blueprint?_definition] at hBlueprint
            split at hBlueprint
            · next hOther =>
              cases hBlueprint
              rw [← hOther]
              exact realizes_meet state language blueprint (hRecords.undefined hBefore)
            · cases hBlueprint
        | _ => cases hBlueprint
  · intro language hBlueprint
    rw [blueprint?_append, Option.or_eq_none_iff] at hBlueprint
    rw [definition?_meet]
    · exact hRecords.undefined hBlueprint.1
    · intro blueprint hDemand
      rw [hDemand, blueprint?_definition, if_pos rfl] at hBlueprint
      cases hBlueprint.2
  · intro language
    rw [isSome_end?_meet, hRecords.ends, List.filterMap_append, List.mem_append,
      List.mem_filterMap (l := [demand])]
    simp

theorem records_takeAll (state : State) (history : List Demand) (calls : List Call)
    (hRecords : state.catalog.Records history) :
    (state.takeAll calls).state.catalog.Records (history ++ calls.map Call.demand) := by
  induction calls generalizing state history with
  | nil =>
      rw [List.map_nil, List.append_nil]
      exact hRecords
  | cons call rest ih =>
      have hFirst := records_meet state history call.demand hRecords
      rw [← state_take] at hFirst
      have hRest := ih _ _ hFirst
      rw [List.append_assoc] at hRest
      exact hRest

end State

namespace World

/-- The demand of a move on one catalogue, if it is a call to it. -/
def Move.demand? (number : Nat) : Move → Option Demand
  | .call other made => if other = number then some made.demand else none
  | _ => none

/-- The demands that reach one catalogue, in their order. -/
def demandsTo (number : Nat) (moves : List Move) : List Demand :=
  moves.filterMap (Move.demand? number)

section Reading

variable {reads : List Demand → Catalog → Prop}
  (hMeet : ∀ (state : State) history demand, reads history state.catalog →
    reads (history ++ [demand]) (state.meet demand).catalog)

include hMeet

/-- A move takes the history of a catalogue further by its demand, if it has one there. -/
theorem reads_next (world : World) (move : Move) (number : Nat) (history : List Demand)
    (hReads : reads history (world.catalogs number)) :
    reads (history ++ (move.demand? number).toList) ((world.next move).catalogs number) := by
  cases move with
  | call other call =>
      by_cases hOther : other = number
      · subst hOther
        have hTaken := hMeet (world.stateOf other) history call.demand hReads
        rw [← State.state_take] at hTaken
        simp only [Move.demand?, ↓reduceIte, next, take, catalogs_withState]
        exact hTaken
      · simp only [Move.demand?, if_neg hOther, next, take, catalogs_withState,
          if_neg (Ne.symm hOther), Option.toList_none, List.append_nil]
        exact hReads
  | _ =>
      rw [Move.demand?, Option.toList_none, List.append_nil]
      · exact hReads
      · intro other call hCall
        cases hCall

theorem reads_run (world : World) (moves : List Move) (number : Nat) (history : List Demand)
    (hReads : reads history (world.catalogs number)) :
    reads (history ++ demandsTo number moves) ((world.run moves).catalogs number) := by
  induction moves generalizing world history with
  | nil =>
      rw [demandsTo, List.filterMap_nil, List.append_nil]
      exact hReads
  | cons move rest ih =>
      have hRest := ih _ _ (reads_next hMeet world move number history hReads)
      rw [List.append_assoc] at hRest
      rw [demandsTo, List.filterMap_cons]
      cases hDemand : move.demand? number with
      | none =>
          rw [hDemand] at hRest
          exact hRest
      | some demand =>
          rw [hDemand] at hRest
          exact hRest

end Reading

theorem records_after (moves : List Move) (number : Nat) :
    ((after moves).catalogs number).Records (demandsTo number moves) :=
  @reads_run (fun history catalog => catalog.Records history) State.records_meet empty moves number
    [] Catalog.records_empty

end World

theorem State.Reachable.records {state : State} (hReachable : state.Reachable) :
    ∃ history, state.catalog.Records history := by
  obtain ⟨moves, number, rfl⟩ := hReachable
  exact ⟨World.demandsTo number moves, World.records_after moves number⟩

end GrammarCatalog
