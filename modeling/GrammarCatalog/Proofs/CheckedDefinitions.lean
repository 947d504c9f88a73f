import GrammarCatalog.Proofs.Demand
import GrammarCatalog.Proofs.Offences

/-! A checked definition is the check followed by the definition. What the check accepts is said of
the names alone, so neither the language nor the catalogue has a say in it. Accepted names are
defined as they are without the check. Refused ones leave nothing behind. -/
namespace GrammarCatalog

/-- The names are fit for use: the range may be empty but no less, every symbol of it has a display
name, and neither two symbols nor two rules share a name. -/
structure Naming.Fit (vocabulary : Vocabulary) (rules : List String) : Prop where
  range : -1 ≤ vocabulary.lastSymbol.number
  named : ∀ symbol, vocabulary.InRange symbol → (vocabulary.displayName symbol).isSome
  symbolsApart : ∀ symbol other, vocabulary.InRange symbol → vocabulary.InRange other →
    vocabulary.displayName symbol = vocabulary.displayName other → symbol = other
  rulesApart : rules.Nodup

namespace Vocabulary

variable {vocabulary : Vocabulary}

/-- No symbol offends exactly when every symbol has a name of its own. -/
theorem forall_not_offends_iff :
    (∀ symbol, vocabulary.InRange symbol → ¬vocabulary.Offends symbol) ↔
      (∀ symbol, vocabulary.InRange symbol → (vocabulary.displayName symbol).isSome) ∧
      ∀ symbol other, vocabulary.InRange symbol → vocabulary.InRange other →
        vocabulary.displayName symbol = vocabulary.displayName other → symbol = other := by
  constructor
  · intro hNone
    refine ⟨fun symbol hSymbol => ?_, fun symbol other hSymbol hOther hSame => ?_⟩
    · exact Option.isSome_iff_ne_none.mpr fun hUnnamed => hNone symbol hSymbol (Or.inl hUnnamed)
    · rcases symbol.lt_or_eq_or_gt other with hLess | hEqual | hMore
      · exact absurd (Or.inr ⟨symbol, hSymbol, hLess, hSame⟩) (hNone other hOther)
      · exact hEqual
      · exact absurd (Or.inr ⟨other, hOther, hMore, hSame.symm⟩) (hNone symbol hSymbol)
  · rintro ⟨hNamed, hApart⟩ symbol hSymbol (hUnnamed | ⟨smaller, hSmaller, hLess, hSame⟩)
    · exact Option.isSome_iff_ne_none.mp (hNamed symbol hSymbol) hUnnamed
    · rw [hApart smaller symbol hSmaller hSymbol hSame] at hLess
      exact Int32.lt_irrefl hLess

/-- Where every symbol has a name, none is noticed to have none. -/
theorem unnamed_eq_nil
    (hNamed : ∀ symbol, vocabulary.InRange symbol → (vocabulary.displayName symbol).isSome) :
    vocabulary.unnamed = [] := by
  apply List.filter_eq_nil_iff.mpr
  intro symbol hSymbol
  have hSome := hNamed symbol ((Symbol.mem_upTo _ _).mp hSymbol)
  simpa using Option.isSome_iff_ne_none.mp hSome

end Vocabulary

namespace Naming

variable {vocabulary : Vocabulary} {rules : List String}

theorem check_eq_ok_iff {names : List (Symbol × String)} :
    check vocabulary rules = .ok names ↔
      vocabulary.checkedNames = .ok names ∧ checkRules rules = .ok () := by
  unfold check
  cases vocabulary.checkedNames with
  | error fault => simp [bind, Except.bind]
  | ok read =>
      cases checkRules rules with
      | error fault => simp [bind, Except.bind]
      | ok => simp [bind, Except.bind, pure, Except.pure]

/-- The check accepts the names that are fit for use, and no others. -/
theorem check_eq_ok_iff_fit :
    check vocabulary rules = .ok vocabulary.names ↔ Fit vocabulary rules := by
  have hVerdict := vocabulary.verdict_checkedNames
  rw [check_eq_ok_iff, checkRules_eq_ok_iff]
  constructor
  · rintro ⟨hNames, hApart⟩
    rw [hNames] at hVerdict
    cases hVerdict with
    | fit hRange hNone =>
        obtain ⟨hNamed, hSymbols⟩ := Vocabulary.forall_not_offends_iff.mp hNone
        exact ⟨hRange, hNamed, hSymbols, hApart⟩
  · intro hFit
    have hNone := Vocabulary.forall_not_offends_iff.mpr ⟨hFit.named, hFit.symbolsApart⟩
    exact ⟨hVerdict.eq_of_fit hFit.range hNone, hFit.rulesApart⟩

theorem exists_check_eq_ok_iff :
    (∃ names, check vocabulary rules = .ok names) ↔ Fit vocabulary rules := by
  rw [← check_eq_ok_iff_fit]
  constructor
  · rintro ⟨names, hCheck⟩
    rw [← names_of_check hCheck]
    exact hCheck
  · intro hCheck
    exact ⟨_, hCheck⟩

end Naming

namespace Call

variable {vocabulary : Vocabulary} {rules : List String}

/-- A checked definition whose names are fit for use demands what the definition demands. -/
theorem demand_defineChecked (hFit : Naming.Fit vocabulary rules) (language : Language)
    (registered : Bool) : (Call.defineChecked language vocabulary rules registered).demand =
      .definition language ⟨vocabulary.names, rules, registered⟩ := by
  rw [demand, Naming.check_eq_ok_iff_fit.mpr hFit]

theorem demand_defineChecked_of_not_fit (hUnfit : ¬Naming.Fit vocabulary rules)
    (language : Language) (registered : Bool) :
    (Call.defineChecked language vocabulary rules registered).demand = .nothing := by
  rw [demand]
  cases hCheck : Naming.check vocabulary rules with
  | error fault => rfl
  | ok names => exact absurd (Naming.exists_check_eq_ok_iff.mp ⟨names, hCheck⟩) hUnfit

end Call

namespace State

theorem answer_defineChecked_eq_ok_iff (state : State) (language : Language)
    (vocabulary : Vocabulary) (rules : List String) (registered : Bool) :
    (state.defineChecked language vocabulary rules registered).answer = .ok () ↔
      Naming.Fit vocabulary rules := by
  rw [answer_defineChecked, ← Naming.check_eq_ok_iff_fit]
  cases hCheck : Naming.check vocabulary rules with
  | error fault => simp
  | ok names => simp [Naming.names_of_check hCheck]

/-- A checked definition is accepted exactly when the names are fit for use, whatever is defined
already. Once accepted it does what the definition does: it leaves the same state, with the same
instances, and logs the same within a span of its own name. A refusal leaves the state as it is,
makes no instance and logs nothing. -/
theorem defineChecked_is_check_then_define (state : State) (language : Language)
    (vocabulary : Vocabulary) (rules : List String) (registered : Bool) :
    let checked := state.defineChecked language vocabulary rules registered
    let unchecked := state.define language vocabulary rules registered
    (checked.answer = .ok () ↔ Naming.Fit vocabulary rules) ∧
    (checked.answer = .ok () → checked.state = unchecked.state ∧
      ∃ events : List Event,
        checked.events = events.map (Event.inside ⟨.definingChecked, language.id⟩) ∧
        unchecked.events = events.map (Event.inside ⟨.defining, language.id⟩)) ∧
    (∀ refusal, checked.answer = .error refusal →
      checked.state = state ∧ checked.events = []) := by
  intro checked unchecked
  have hAccepted := answer_defineChecked_eq_ok_iff state language vocabulary rules registered
  refine ⟨hAccepted, fun hOk => ?_, fun refusal hRefused => ?_⟩
  · have hFit := hAccepted.mp hOk
    have hCheck := Naming.check_eq_ok_iff_fit.mpr hFit
    have hUnnamed := Vocabulary.unnamed_eq_nil hFit.named
    simp only [checked, unchecked, defineChecked, hCheck, define, hUnnamed]
    cases state.catalog.isDefined language with
    | true => exact ⟨rfl, [⟨.alreadyDefined, []⟩], rfl, rfl⟩
    | false =>
        exact ⟨rfl, (state.establish language vocabulary.names rules registered).events, rfl, rfl⟩
  · obtain ⟨_, hFault⟩ := (answer_defineChecked_eq_error_iff ..).mp hRefused
    simp only [checked, defineChecked_of_error _ _ _ _ _ _ hFault]
    exact ⟨rfl, rfl⟩

/-- A name that is interned before stands in the way of neither. Two rules of one name do, and then
the token that the second symbol would have got is not made. -/
theorem defineChecked_is_check_then_define_of_known_name :
    let base := Language.root 1 "base"
    let vocabulary := Vocabulary.ofNames ⟨1⟩ [(⟨0⟩, "A"), (⟨1⟩, "B")]
    let state := ((State.mk .full .empty).intern ⟨7⟩ "A" (some base) true).state
    Naming.Fit vocabulary ["r", "s"] ∧
    (state.defineChecked base vocabulary ["r", "s"] false).state =
      (state.define base vocabulary ["r", "s"] false).state ∧
    ¬Naming.Fit vocabulary ["r", "r"] ∧
    (state.defineChecked base vocabulary ["r", "r"] false).state = state := by
  intro base vocabulary state
  obtain ⟨hAccepted, hSame, _⟩ :=
    state.defineChecked_is_check_then_define base vocabulary ["r", "s"] false
  obtain ⟨hRefused, _, hUnchanged⟩ :=
    state.defineChecked_is_check_then_define base vocabulary ["r", "r"] false
  refine ⟨hAccepted.mp rfl, (hSame rfl).1, fun hFit => ?_, (hUnchanged _ rfl).1⟩
  cases hRefused.mpr hFit

end State

end GrammarCatalog
