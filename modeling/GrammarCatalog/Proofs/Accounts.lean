import GrammarCatalog.Proofs.Announcements
import GrammarCatalog.Proofs.Reachable

/-! The log as an account of what is made. A notice that a name was interned comes with its token,
and a notice that a language was defined comes with its tables. Nothing of that kind is made without
a notice, and nothing is noticed twice. So whoever has the log knows what the catalogue holds. -/
namespace GrammarCatalog

/-- Where a list of entries shows nothing twice, what it shows is shown at one place. -/
theorem Listing.existsUnique_place {α β : Type} {shows : α → Option β} {entries : List α}
    (hOnce : (entries.filterMap shows).Nodup) {shown : β}
    (hShown : shown ∈ entries.filterMap shows) :
    ∃! place : Nat, ∃ entry, entries[place]? = some entry ∧ shows entry = some shown := by
  have hApart := List.pairwise_iff_getElem.mp (List.pairwise_filterMap.mp hOnce)
  have hOrdered : ∀ (place place' : Nat) entry entry', place < place' →
      entries[place]? = some entry → shows entry = some shown →
      entries[place']? = some entry' → shows entry' ≠ some shown := by
    intro place place' entry entry' hLess hEntry hShows hEntry' hShows'
    obtain ⟨hPlace, rfl⟩ := List.getElem?_eq_some_iff.mp hEntry
    obtain ⟨hPlace', rfl⟩ := List.getElem?_eq_some_iff.mp hEntry'
    exact hApart place place' hPlace hPlace' hLess shown hShows shown hShows' rfl
  obtain ⟨entry, hEntry, hShows⟩ := List.mem_filterMap.mp hShown
  obtain ⟨place, hPlace⟩ := List.mem_iff_getElem?.mp hEntry
  refine ⟨place, ⟨entry, hPlace, hShows⟩, ?_⟩
  rintro other ⟨entry', hOther, hShows'⟩
  rcases Nat.lt_trichotomy other place with hLess | hEqual | hMore
  · exact absurd hShows (hOrdered other place _ _ hLess hOther hShows' hPlace)
  · exact hEqual
  · exact absurd hShows' (hOrdered place other _ _ hMore hPlace hShows hOther)

/-- What a catalogue makes with a notice: the token of a name, shown by its symbol, and the tables
of a language, shown by the lengths of its lists. -/
inductive Creation where
  | token (scope : Language) (name : String) (symbol : Symbol)
  | definition (language : Language) (tokens rules : Nat)
  deriving DecidableEq

def Catalog.Holds (catalog : Catalog) : Creation → Prop
  | .token scope name symbol =>
    (catalog.interned? scope name).map TokenElement.symbol = some symbol
  | .definition language tokens rules =>
    (catalog.definition? language).map (fun definition =>
      (definition.tokens.content.length, definition.rules.content.length)) = some (tokens, rules)

/-- The tables of a language are held with the lengths of the lists that it shows. -/
theorem Catalog.holds_definition_iff {catalog : Catalog} {language : Language}
    {tokens rules : Nat} :
    catalog.Holds (.definition language tokens rules) ↔
      catalog.isDefined language = true ∧ (catalog.tokens language).length = tokens ∧
        (catalog.rules language).length = rules := by
  simp only [Holds, isDefined, Catalog.tokens, Catalog.rules]
  cases catalog.definition? language with
  | none => simp
  | some definition => simp

/-- Of all notices only those of interning are traced. -/
theorem Notice.eq_interned_of_level {notice : Notice} (hLevel : notice.level = .trace) :
    ∃ symbol name, notice = .interned symbol name := by
  cases notice with
  | interned symbol name => exact ⟨symbol, name, rfl⟩
  | _ => cases hLevel

/-- What a notice says is made when it is given for a language. -/
def Notice.creation? (language : Language) : Notice → Option Creation
  | .interned symbol name => some (.token language.scope name symbol)
  | .defined tokens rules => some (.definition language tokens rules)
  | _ => none

/-- What is made is traced when it is a token, and is told for debugging when it is a definition. -/
def Creation.level : Creation → Level
  | .token .. => .trace
  | .definition .. => .debug

theorem Notice.level_of_creation? {notice : Notice} {language : Language} {creation : Creation}
    (hCreation : notice.creation? language = some creation) : notice.level = creation.level := by
  cases notice with
  | unnamed symbol => cases hCreation
  | interned symbol name =>
      cases hCreation
      rfl
  | defined tokens rules =>
      cases hCreation
      rfl
  | alreadyDefined => cases hCreation

/-- What the events of a call about a language say is made. -/
def Event.creations (language : Language) (events : List Event) : List Creation :=
  events.filterMap fun event => event.notice.creation? language

/-- The creations are those that lead from one catalogue to another, each of them once. -/
structure Catalog.Accounts (before after : Catalog) (creations : List Creation) : Prop where
  once : creations.Nodup
  new : ∀ creation ∈ creations, ¬before.Holds creation
  complete : ∀ creation, after.Holds creation ↔ before.Holds creation ∨ creation ∈ creations

namespace Catalog.Accounts

theorem refl (catalog : Catalog) : catalog.Accounts catalog [] :=
  ⟨List.nodup_nil, by simp, by simp⟩

/-- Catalogues with the same definitions and interned names hold the same. -/
theorem of_eq {before after : Catalog} (hDefinitions : after.definitions = before.definitions)
    (hInterned : after.interned = before.interned) : before.Accounts after [] := by
  refine ⟨List.nodup_nil, by simp, ?_⟩
  intro creation
  cases creation with
  | token scope name symbol => simp [Holds, interned?, hInterned]
  | definition language tokens rules => simp [Holds, definition?, hDefinitions]

/-- Of two accounts that follow one another the second has nothing that is in the first. -/
theorem trans {before amid after : Catalog} {first second : List Creation}
    (hFirst : before.Accounts amid first) (hSecond : amid.Accounts after second) :
    before.Accounts after (first ++ second) := by
  refine ⟨?_, ?_, ?_⟩
  · refine List.nodup_append.mpr ⟨hFirst.once, hSecond.once, ?_⟩
    rintro creation hMember other hOther rfl
    exact hSecond.new creation hOther ((hFirst.complete creation).mpr (Or.inr hMember))
  · intro creation hMember hHeld
    rcases List.mem_append.mp hMember with hMember | hMember
    · exact hFirst.new creation hMember hHeld
    · exact hSecond.new creation hMember ((hFirst.complete creation).mpr (Or.inl hHeld))
  · intro creation
    rw [hSecond.complete, hFirst.complete, List.mem_append, or_assoc]

end Catalog.Accounts

namespace Event

theorem creations_append (language : Language) (events others : List Event) :
    creations language (events ++ others) =
      creations language events ++ creations language others :=
  List.filterMap_append

/-- Spans do not matter for what is made. -/
theorem creations_inside (language : Language) (span : Span) (events : List Event) :
    creations language (events.map (inside span)) = creations language events := by
  rw [creations, List.filterMap_map]
  rfl

end Event

namespace State

variable (state : State)

theorem accounts_intern (symbol : Symbol) (name : String) (owner : Option Language)
    (registered : Bool) :
    state.catalog.Accounts (state.intern symbol name owner registered).state.catalog
      (Event.creations (owner.getD .any) (state.intern symbol name owner registered).events) := by
  cases hToken : state.catalog.interned? (Language.scopeOf owner) name with
  | some token =>
      rw [intern_of_interned _ _ _ _ _ _ hToken]
      exact .refl _
  | none =>
      have hEvents : Event.creations (owner.getD .any)
          (state.intern symbol name owner registered).events =
            [.token (Language.scopeOf owner) name symbol] := by
        rw [events_intern, hToken]
        rfl
      rw [hEvents]
      refine ⟨List.nodup_singleton _, ?_, ?_⟩
      · intro creation hMember
        obtain rfl := List.mem_singleton.mp hMember
        simp [Catalog.Holds, hToken]
      · intro creation
        rw [List.mem_singleton]
        cases creation with
        | token scope other shown =>
            have hShown : (state.intern symbol name owner registered).answer.symbol = symbol := by
              simp [intern, hToken, Supply.token]
            simp only [Catalog.Holds, interned?_intern, Creation.token.injEq, Prod.mk.injEq]
            split
            · next hKey =>
              obtain ⟨rfl, rfl⟩ := hKey
              simp [hToken, hShown, eq_comm]
            · next hKey => simp [← and_assoc, hKey]
        | definition language tokens rules =>
            have hSame := (definitions_intern state symbol name owner registered).1
            simp [Catalog.Holds, Catalog.definition?, hSame]

theorem accounts_internAll (owner : Option Language) (registered : Bool)
    (named : List (Symbol × String)) :
    state.catalog.Accounts (state.internAll owner registered named).state.catalog
      (Event.creations (owner.getD .any) (state.internAll owner registered named).events) := by
  induction named generalizing state with
  | nil => exact .refl _
  | cons entry rest ih =>
      have hFirst := state.accounts_intern entry.1 entry.2 owner registered
      have hRest := ih (state.intern entry.1 entry.2 owner registered).state
      rw [internAll, Outcome.andThen, Event.creations_append]
      exact hFirst.trans hRest

theorem accounts_publish (language : Language) (names : List (Symbol × String))
    (tokens : List TokenElement) (rules : List String) (registered : Bool)
    (hNew : state.catalog.definition? language = none) :
    state.catalog.Accounts (state.publish language names tokens rules registered).state.catalog
      (Event.creations language (state.publish language names tokens rules registered).events) := by
  refine ⟨List.nodup_singleton _, ?_, ?_⟩
  · intro creation hMember
    obtain rfl := List.mem_singleton.mp hMember
    simp [Catalog.Holds, hNew]
  · intro creation
    have hCreations : Event.creations language
        (state.publish language names tokens rules registered).events =
          [.definition language tokens.length (state.supply.rulesFor language registered
            (Naming.numberedRules rules)).1.length] := rfl
    rw [hCreations, List.mem_singleton]
    cases creation with
    | token scope name symbol =>
        simp [Catalog.Holds, publish, Catalog.interned?, Catalog.addDefinition]
    | definition other tokenCount ruleCount =>
        simp only [Catalog.Holds, publish, Catalog.definition?_addDefinition,
          Creation.definition.injEq]
        by_cases hOther : other = language
        · subst hOther
          simp [hNew, eq_comm]
        · simp [hOther]

theorem accounts_establish (language : Language) (names : List (Symbol × String))
    (rules : List String) (registered : Bool) (hNew : state.catalog.definition? language = none) :
    state.catalog.Accounts (state.establish language names rules registered).state.catalog
      (Event.creations language (state.establish language names rules registered).events) := by
  have hNames := state.accounts_internAll (some language) registered names
  have hAmid : (state.internAll (some language) registered
      names).state.catalog.definition? language = none := by
    rw [Catalog.definition?, (definitions_internAll _ _ _ _).1]
    exact hNew
  rw [establish, Outcome.andThen, Event.creations_append]
  exact hNames.trans (accounts_publish _ language names _ rules registered hAmid)

/-- Whatever a call makes is in its events. -/
theorem accounts_take (call : Call) :
    state.catalog.Accounts (state.take call).state.catalog
      (Event.creations (call.language?.getD .any) (state.take call).events) := by
  cases hLooksUp : call.looksUp with
  | true =>
      obtain ⟨hEvents, hDefinitions, hInterned⟩ := state.take_lookup hLooksUp
      rw [hEvents]
      exact .of_eq hDefinitions hInterned
  | false =>
      cases call with
      | intern symbol name owner registered =>
          exact state.accounts_intern symbol name owner registered
      | define language vocabulary rules registered =>
          simp only [Call.language?, Option.getD_some, take, Outcome.map, define, Outcome.inside,
            Event.creations_inside]
          split
          · exact .refl _
          · next hUndefined =>
            have hUnnamed : Event.creations language
                ((vocabulary.unnamed.map Notice.unnamed).map (⟨·, []⟩)) = [] := by
              rw [Event.creations, List.filterMap_map, List.filterMap_map]
              exact List.filterMap_eq_nil_iff.mpr fun _ _ => rfl
            rw [Outcome.preceded, Event.creations_append, hUnnamed, List.nil_append]
            exact state.accounts_establish _ _ _ _ (definition?_of_not_isDefined hUndefined)
      | defineChecked language vocabulary rules registered =>
          cases hCheck : Naming.check vocabulary rules with
          | error fault =>
              rw [take, defineChecked_of_error _ _ _ _ _ _ hCheck]
              exact .refl _
          | ok names =>
              simp only [Call.language?, Option.getD_some, take, Outcome.map, defineChecked, hCheck,
                Outcome.inside, Event.creations_inside]
              split
              · exact .refl _
              · next hUndefined =>
                exact state.accounts_establish _ _ _ _ (definition?_of_not_isDefined hUndefined)
      | _ => cases hLooksUp

end State

/-- An event with the call that it was logged for. -/
structure LogEntry where
  call : Call
  event : Event

/-- What an entry says is made. The notice has the name and the symbol, and the call has the
language. A call that names no language counts as one about `Language.any`. -/
def LogEntry.creation? (entry : LogEntry) : Option Creation :=
  entry.event.notice.creation? (entry.call.language?.getD .any)

namespace World

/-- What a move logs in one catalogue. -/
def logNext (world : World) (number : Nat) : Move → List LogEntry
  | .call other call =>
    if other = number then (world.take other call).2.1.map fun event => ⟨call, event⟩ else []
  | _ => []

/-- What is logged in one catalogue while moves are made. -/
def log (world : World) (number : Nat) : List Move → List LogEntry
  | [] => []
  | move :: rest => world.logNext number move ++ (world.next move).log number rest

theorem accounts_logNext (world : World) (number : Nat) (move : Move) :
    (world.catalogs number).Accounts ((world.next move).catalogs number)
      ((world.logNext number move).filterMap LogEntry.creation?) := by
  cases move with
  | call other call =>
      by_cases hOther : other = number
      · subst hOther
        simp only [logNext, ↓reduceIte, next, take, catalogs_withState, List.filterMap_map]
        exact (world.stateOf other).accounts_take call
      · simp only [logNext, if_neg hOther, next, take, catalogs_withState,
          if_neg (Ne.symm hOther)]
        exact .refl _
  | _ => exact .refl _

/-- What was logged in a run accounts for all that was made in it. -/
theorem accounts_log (world : World) (number : Nat) (moves : List Move) :
    (world.catalogs number).Accounts ((world.run moves).catalogs number)
      ((world.log number moves).filterMap LogEntry.creation?) := by
  induction moves generalizing world with
  | nil => exact .refl _
  | cons move rest ih =>
      rw [log, List.filterMap_append]
      exact (world.accounts_logNext number move).trans (ih (world.next move))

/-- What a catalogue that starts empty holds is what its log says is made. -/
theorem holds_after_iff (moves : List Move) (number : Nat) (creation : Creation) :
    ((after moves).catalogs number).Holds creation ↔
      creation ∈ (empty.log number moves).filterMap LogEntry.creation? := by
  have hEmpty : ¬(empty.catalogs number).Holds creation := by
    cases creation with
    | token => simp [Catalog.Holds, empty, Catalog.empty, Catalog.interned?]
    | definition => simp [Catalog.Holds, empty, Catalog.empty, Catalog.definition?]
  rw [after, (empty.accounts_log number moves).complete, or_iff_right hEmpty]

/-- What is traced is an interned name. Its token is there and has the symbol that the notice
shows. -/
theorem exists_token_of_traced {moves : List Move} {number : Nat} {entry : LogEntry}
    (hEntry : entry ∈ empty.log number moves) (hLevel : entry.event.notice.level = .trace) :
    ∃ symbol name scope token, entry.event.notice = .interned symbol name ∧
      entry.creation? = some (.token scope name symbol) ∧
      ((after moves).catalogs number).interned? scope name = some token ∧
      token.symbol = symbol ∧ token.name = name := by
  obtain ⟨symbol, name, hNotice⟩ := Notice.eq_interned_of_level hLevel
  have hCreation : entry.creation? =
      some (.token (entry.call.language?.getD .any).scope name symbol) := by
    rw [LogEntry.creation?, hNotice, Notice.creation?]
  have hToken := (holds_after_iff moves number _).mpr
    (List.mem_filterMap.mpr ⟨entry, hEntry, hCreation⟩)
  obtain ⟨token, hInterned, hSymbol⟩ := Option.map_eq_some_iff.mp hToken
  have hFits := ((sound_after moves).catalogs number).fits (.interned _ name) hInterned
  exact ⟨symbol, name, _, token, hNotice, hCreation, hInterned, hSymbol, hFits.1⟩

/-- The log is an exact account of what is made. A definition announces within its span that the
language is defined already, or else warns of the symbols without a name, traces the names that are
new in the scope, and tells of its lists, in this order. A checked definition that is refused
announces nothing, and one that is accepted the same within a span of its own. Interning traces a
name that is new, and no other call announces anything. So over any run what is traced and the
interned names correspond one to one, and so do the notices of definition and the defined
languages. -/
theorem log_accounts_for_creations :
    (∀ event : Event,
      event.notice.Reads event.notice.level.text event.notice.message event.notice.fields ∧
      ∀ span ∈ event.spans, span.Reads span.activity.text span.level.text span.fields) ∧
    (∀ (state : State) language vocabulary rules registered,
      let outcome := state.define language vocabulary rules registered
      let within := fun notice => Event.mk notice [⟨.defining, language.id⟩]
      (state.catalog.isDefined language = true → outcome.events = [within .alreadyDefined] ∧
        outcome.events.map (·.notice.level) = [.debug]) ∧
      (state.catalog.isDefined language = false → ∃ unnamed fresh,
        state.catalog.Announces language vocabulary unnamed fresh ∧
        outcome.events = (Notice.ofDefinition unnamed fresh
          (outcome.state.catalog.tokens language).length
          (outcome.state.catalog.rules language).length).map within ∧
        outcome.events.map (·.notice.level) =
          List.replicate unnamed.length .warn ++ List.replicate fresh.length .trace ++
            [.debug])) ∧
    (∀ (state : State) language vocabulary rules registered,
      let outcome := state.defineChecked language vocabulary rules registered
      let within := fun notice => Event.mk notice [⟨.definingChecked, language.id⟩]
      (∀ refusal, outcome.answer = .error refusal → outcome.events = []) ∧
      (outcome.answer = .ok () →
        (state.catalog.isDefined language = true → outcome.events = [within .alreadyDefined] ∧
          outcome.events.map (·.notice.level) = [.debug]) ∧
        (state.catalog.isDefined language = false → ∃ fresh,
          state.catalog.Announces language vocabulary [] fresh ∧
          outcome.events = (Notice.ofDefinition [] fresh
            (outcome.state.catalog.tokens language).length
            (outcome.state.catalog.rules language).length).map within ∧
          outcome.events.map (·.notice.level) =
            List.replicate fresh.length .trace ++ [.debug]))) ∧
    (∀ (state : State) symbol name owner registered,
      let events := (state.intern symbol name owner registered).events
      let known := (state.catalog.interned? (Language.scopeOf owner) name).isSome
      events = (if known then [] else [⟨.interned symbol name, []⟩]) ∧
        events.map (·.notice.level) = if known then [] else [.trace]) ∧
    (∀ (state : State) (call : Call), call.looksUp = true → (state.take call).events = []) ∧
    ∀ (moves : List Move) (number : Nat),
      let log := empty.log number moves
      let catalog := (after moves).catalogs number
      (∀ entry ∈ log, entry.event.notice.level = .trace → ∃ symbol name scope token,
        entry.event.notice = .interned symbol name ∧
        entry.creation? = some (.token scope name symbol) ∧
        catalog.interned? scope name = some token ∧ token.symbol = symbol ∧ token.name = name) ∧
      (∀ entry ∈ log, ∀ scope name symbol,
        entry.creation? = some (.token scope name symbol) → entry.event.notice.level = .trace) ∧
      (∀ scope name token, catalog.interned? scope name = some token →
        ∃! place : Nat, ∃ entry, log[place]? = some entry ∧
          entry.creation? = some (.token scope name token.symbol)) ∧
      (∀ entry ∈ log, ∀ language tokens rules,
        entry.creation? = some (.definition language tokens rules) →
          entry.event.notice.level = .debug ∧
          catalog.isDefined language = true ∧ (catalog.tokens language).length = tokens ∧
          (catalog.rules language).length = rules) ∧
      ∀ language, catalog.isDefined language = true →
        ∃! place : Nat, ∃ entry, log[place]? = some entry ∧
          entry.creation? = some (.definition language (catalog.tokens language).length
            (catalog.rules language).length) := by
  refine ⟨fun event => ⟨event.notice.reads, fun span _ => span.reads⟩, ?_, ?_, ?_,
    fun state _ hLooksUp => (state.take_lookup hLooksUp).1, ?_⟩
  · intro state language vocabulary rules registered outcome within
    constructor
    · intro hDefined
      have hEvents := state.events_define_of_isDefined _ vocabulary rules registered hDefined
      exact ⟨hEvents, congrArg (List.map (·.notice.level)) hEvents⟩
    · intro hUndefined
      have hEvents := state.events_define_of_undefined _ vocabulary rules registered hUndefined
      refine ⟨_, _, state.catalog.announces_newNames language vocabulary, hEvents, ?_⟩
      exact (congrArg (List.map (·.notice.level)) hEvents).trans (Notice.levels_ofDefinition ..)
  · intro state language vocabulary rules registered outcome within
    constructor
    · intro refusal hRefused
      obtain ⟨_, hFault⟩ := (State.answer_defineChecked_eq_error_iff ..).mp hRefused
      simp only [outcome, State.defineChecked_of_error _ _ _ _ _ _ hFault]
      rfl
    · intro hOk
      have hFit := (State.answer_defineChecked_eq_ok_iff ..).mp hOk
      have hAnnounces := state.catalog.announces_newNames language vocabulary
      rw [Vocabulary.unnamed_eq_nil hFit.named] at hAnnounces
      constructor
      · intro hDefined
        have hEvents := state.events_defineChecked_of_isDefined _ _ _ registered hFit hDefined
        exact ⟨hEvents, congrArg (List.map (·.notice.level)) hEvents⟩
      · intro hUndefined
        have hEvents := state.events_defineChecked_of_undefined _ _ _ registered hFit hUndefined
        refine ⟨_, hAnnounces, hEvents, ?_⟩
        exact (congrArg (List.map (·.notice.level)) hEvents).trans (Notice.levels_ofDefinition ..)
  · intro state symbol name owner registered events known
    have hEvents := state.events_intern symbol name owner registered
    exact ⟨hEvents, (congrArg (List.map (·.notice.level)) hEvents).trans (apply_ite _ _ _ _)⟩
  · intro moves number log catalog
    have hOnce := (empty.accounts_log number moves).once
    have hHolds := holds_after_iff moves number
    refine ⟨fun _ => exists_token_of_traced, fun _ _ _ _ _ => Notice.level_of_creation?, ?_, ?_, ?_⟩
    · intro scope name token hToken
      apply Listing.existsUnique_place hOnce
      rw [← hHolds, Catalog.Holds, hToken, Option.map_some]
    · intro entry hEntry language tokens rules hCreation
      have hDefined := (hHolds _).mpr (List.mem_filterMap.mpr ⟨entry, hEntry, hCreation⟩)
      exact ⟨Notice.level_of_creation? hCreation, Catalog.holds_definition_iff.mp hDefined⟩
    · intro language hDefined
      apply Listing.existsUnique_place hOnce
      rw [← hHolds]
      exact Catalog.holds_definition_iff.mpr ⟨hDefined, rfl, rfl⟩

/-- The name `B` is known from a dialect, `A` is given twice and one symbol has no name. That symbol
is warned of and its number is traced as a name. A name that is known is not announced, and its
token has the symbol under which it was. The dialect is refused for the symbol without a name. -/
theorem log_accounts_for_creations_of_known_name :
    let base := Language.root 1 "base"
    let dialect := Language.dialect 2 "dialect" base
    let vocabulary := Vocabulary.ofNames ⟨3⟩ [(⟨0⟩, "A"), (⟨1⟩, "B"), (⟨3⟩, "A")]
    let earlier := Move.call 0 (.intern ⟨7⟩ "B" (some dialect) true)
    let state := (after [earlier]).stateOf 0
    let log := empty.log 0 [earlier, .call 0 (.define base vocabulary ["r"] false),
      .call 1 (.endToken base), .call 0 (.define base vocabulary [] true)]
    (∃ unnamed fresh, ⟨2⟩ ∈ unnamed ∧ ("A", ⟨0⟩) ∈ fresh ∧ ("2", ⟨2⟩) ∈ fresh ∧
      (∀ symbol, ("B", symbol) ∉ fresh) ∧
      (state.define base vocabulary ["r"] false).events =
        (Notice.ofDefinition unnamed fresh 4 1).map (⟨·, [⟨.defining, "base"⟩]⟩) ∧
      (state.define base vocabulary ["r"] false).events.map (·.notice.level) =
        List.replicate unnamed.length .warn ++ List.replicate fresh.length .trace ++ [.debug]) ∧
    (state.defineChecked dialect vocabulary [] false).events = [] ∧
    log.map (·.event.notice.level) = [.trace, .warn, .trace, .trace, .debug, .debug] ∧
    ∃! place : Nat, ∃ entry, log[place]? = some entry ∧
      entry.creation? = some (.token base "B" ⟨7⟩) := by
  intro base dialect vocabulary earlier state log
  obtain ⟨_, hDefine, hChecked, _, _, hRun⟩ := log_accounts_for_creations
  obtain ⟨_, hNew⟩ := hDefine state base vocabulary ["r"] false
  obtain ⟨unnamed, fresh, hAnnounces, hEvents, hLevels⟩ := hNew rfl
  obtain ⟨hRefused, _⟩ := hChecked state dialect vocabulary [] false
  obtain ⟨_, _, hTokens, _⟩ := hRun [earlier, .call 0 (.define base vocabulary ["r"] false),
    .call 1 (.endToken base), .call 0 (.define base vocabulary [] true)] 0
  refine ⟨⟨unnamed, fresh, (hAnnounces.mem_unnamed ⟨2⟩).mpr (by decide), ?_, ?_, ?_, hEvents,
    hLevels⟩, ?_, ?_, ?_⟩
  · exact (hAnnounces.mem_fresh "A" ⟨0⟩).mpr
      ⟨rfl, by decide, .displayed rfl, fun _ hInRange _ => hInRange.1⟩
  · have hOnly : ∀ other ∈ vocabulary.lastSymbol.upTo, vocabulary.nameOf other = "2" →
        (2 : Int32) ≤ other.number := by decide
    refine (hAnnounces.mem_fresh "2" ⟨2⟩).mpr ⟨rfl, by decide, .numbered rfl, ?_⟩
    intro other hInRange hBears
    exact hOnly other ((Symbol.mem_upTo _ _).mpr hInRange) (Vocabulary.goesBy_iff.mp hBears)
  · intro symbol hFresh
    cases ((hAnnounces.mem_fresh "B" symbol).mp hFresh).1
  · exact hRefused ⟨"dialect", .unnamedSymbol ⟨2⟩⟩ rfl
  · rfl
  · exact hTokens base "B" _ rfl

end World

end GrammarCatalog
