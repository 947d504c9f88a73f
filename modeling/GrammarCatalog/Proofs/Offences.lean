import GrammarCatalog.Catalog.Defining
import Mathlib.Data.List.Nodup

/-! The first offence is the one that is reported. A symbol offends when it has no display name or
has that of a smaller symbol, and a rule offends when an earlier one has its name. The least symbol
that offends is reported, and only when there is none the first rule that does. The other bearer of
a shared name is the only one so far. -/
namespace GrammarCatalog

namespace Naming

variable {α : Type}

/-- Up to the second bearer of the name that clashes, nothing clashes. -/
theorem exists_split_of_clashAfter {seen : List (String × α)} {named : List (α × String)}
    {clash : Clash α} (hClash : clashAfter seen named = some clash) :
    ∃ before after, named = before ++ (clash.second, clash.name) :: after ∧
      clashAfter seen before = none ∧
      (seen.lookup clash.name = some clash.first ∨ (clash.first, clash.name) ∈ before) := by
  induction named generalizing seen with
  | nil => cases hClash
  | cons entry rest ih =>
      obtain ⟨bearer, name⟩ := entry
      cases hSeen : seen.lookup name with
      | some first =>
          simp only [clashAfter, hSeen, Option.some.injEq] at hClash
          subst hClash
          exact ⟨[], rest, rfl, rfl, Or.inl hSeen⟩
      | none =>
          simp only [clashAfter, hSeen] at hClash
          obtain ⟨before, after, hRest, hNone, hFirst⟩ := ih hClash
          refine ⟨(bearer, name) :: before, after, by rw [hRest, List.cons_append], ?_, ?_⟩
          · simp only [clashAfter, hSeen, hNone]
          · rcases hFirst with hLookup | hBefore
            · by_cases hName : clash.name = name
              · rw [hName, List.lookup_cons_self, Option.some.injEq] at hLookup
                rw [hName, ← hLookup]
                exact Or.inr List.mem_cons_self
              · rw [List.lookup_cons, beq_false_of_ne hName] at hLookup
                exact Or.inl hLookup
            · exact Or.inr (List.mem_cons_of_mem _ hBefore)

/-- A clash is found at the first place whose name was there before, and with the place where it
was. -/
theorem exists_places_of_firstClash? {named : List (α × String)} {clash : Clash α}
    (hClash : firstClash? named = some clash) :
    ∃ place place' : Nat, place < place' ∧ named[place]? = some (clash.first, clash.name) ∧
      named[place']? = some (clash.second, clash.name) ∧
      ((named.take place').map Prod.snd).Nodup := by
  obtain ⟨before, after, rfl, hNone, hFirst⟩ := exists_split_of_clashAfter hClash
  rcases hFirst with hSeen | hBefore
  · cases hSeen
  · obtain ⟨place, hPlace⟩ := List.mem_iff_getElem?.mp hBefore
    have hBound := (List.getElem?_eq_some_iff.mp hPlace).1
    refine ⟨place, before.length, hBound, ?_, ?_, ?_⟩
    · rw [List.getElem?_append_left hBound, hPlace]
    · rw [List.getElem?_append_right (Nat.le_refl _), Nat.sub_self, List.getElem?_cons_zero]
    · rw [List.take_left]
      exact (firstClash?_eq_none_iff before).mp hNone

end Naming

namespace Vocabulary

/-- The symbols of a vocabulary. -/
def InRange (vocabulary : Vocabulary) (symbol : Symbol) : Prop :=
  0 ≤ symbol.number ∧ symbol.number ≤ vocabulary.lastSymbol.number

instance (vocabulary : Vocabulary) (symbol : Symbol) : Decidable (vocabulary.InRange symbol) :=
  inferInstanceAs (Decidable (0 ≤ symbol.number ∧ symbol.number ≤ vocabulary.lastSymbol.number))

/-- A symbol is unfit for use when it has no display name or has that of a smaller symbol. -/
def Offends (vocabulary : Vocabulary) (symbol : Symbol) : Prop :=
  vocabulary.displayName symbol = none ∨
    ∃ smaller, vocabulary.InRange smaller ∧ smaller.number < symbol.number ∧
      vocabulary.displayName smaller = vocabulary.displayName symbol

/-- The least symbol of a vocabulary that is unfit for use. -/
structure FirstOffender (vocabulary : Vocabulary) (symbol : Symbol) : Prop where
  inRange : vocabulary.InRange symbol
  offends : vocabulary.Offends symbol
  least : ∀ smaller, vocabulary.InRange smaller → smaller.number < symbol.number →
    ¬vocabulary.Offends smaller

variable {vocabulary : Vocabulary}

theorem inRange_iff (symbol : Symbol) :
    vocabulary.InRange symbol ↔
      ∃ place < vocabulary.lastSymbol.countTo, symbol = .atPosition place := by
  rw [InRange, ← Symbol.mem_upTo, Symbol.upTo, List.mem_map]
  simp only [List.mem_range, eq_comm]

theorem FirstOffender.eq {symbol other : Symbol} (hFirst : vocabulary.FirstOffender symbol)
    (hOther : vocabulary.FirstOffender other) : symbol = other := by
  rcases symbol.lt_or_eq_or_gt other with hLess | hEqual | hMore
  · exact absurd hFirst.offends (hOther.least symbol hFirst.inRange hLess)
  · exact hEqual
  · exact absurd hOther.offends (hFirst.least other hOther.inRange hMore)

/-- Before the first symbol that offends no two symbols have one name. -/
theorem FirstOffender.displayName_ne {symbol smaller larger : Symbol}
    (hFirst : vocabulary.FirstOffender symbol) (hSmaller : vocabulary.InRange smaller)
    (hLarger : vocabulary.InRange larger) (hLess : smaller.number < larger.number)
    (hBefore : larger.number < symbol.number) :
    vocabulary.displayName smaller ≠ vocabulary.displayName larger := fun hSame =>
  hFirst.least larger hLarger hBefore (Or.inr ⟨smaller, hSmaller, hLess, hSame⟩)

/-- The names are read up to the first symbol that has none. -/
theorem exists_readNames (vocabulary : Vocabulary) (place count : Nat) :
    ∃ length, (vocabulary.readNames place count).1 =
        (List.range' place length).map (fun place =>
          (Symbol.atPosition place, vocabulary.nameOf (.atPosition place))) ∧
      (∀ other, place ≤ other → other < place + length →
        (vocabulary.displayName (.atPosition other)).isSome) ∧
      ((vocabulary.readNames place count).2 = none ∧ length = count ∨
        (vocabulary.readNames place count).2 = some (.atPosition (place + length)) ∧
          length < count ∧ vocabulary.displayName (.atPosition (place + length)) = none) := by
  induction count generalizing place with
  | zero =>
      refine ⟨0, rfl, ?_, Or.inl ⟨rfl, rfl⟩⟩
      intro other hFrom hTo
      omega
  | succ count ih =>
      cases hName : vocabulary.displayName (.atPosition place) with
      | none =>
          simp only [readNames, hName]
          refine ⟨0, rfl, ?_, Or.inr ⟨rfl, Nat.succ_pos count, hName⟩⟩
          intro other hFrom hTo
          omega
      | some name =>
          obtain ⟨length, hRead, hNamed, hEnd⟩ := ih (place + 1)
          have hNext : place + 1 + length = place + (length + 1) := by omega
          rw [hNext] at hNamed hEnd
          simp only [readNames, hName]
          refine ⟨length + 1, ?_, ?_, ?_⟩
          · simp only [hRead, List.range'_succ, List.map_cons, nameOf, hName, Option.getD_some]
          · intro other hFrom hTo
            by_cases hOther : other = place
            · rw [hOther, hName]
              rfl
            · exact hNamed other (by omega) hTo
          · rcases hEnd with ⟨hNone, rfl⟩ | ⟨hSome, hLess, hUnnamed⟩
            · exact Or.inl ⟨hNone, rfl⟩
            · exact Or.inr ⟨hSome, by omega, hUnnamed⟩

/-- No symbol offends below a bound when the symbols there have names of their own. -/
theorem not_offends_of_nodup {bound : Nat} (hBound : bound ≤ vocabulary.lastSymbol.countTo)
    (hNamed : ∀ place < bound, (vocabulary.displayName (.atPosition place)).isSome)
    (hNodup : ((List.range bound).map fun place => vocabulary.nameOf (.atPosition place)).Nodup)
    {place : Nat} (hPlace : place < bound) : ¬vocabulary.Offends (.atPosition place) := by
  have hReach : place < vocabulary.lastSymbol.countTo := Nat.lt_of_lt_of_le hPlace hBound
  rintro (hNone | ⟨smaller, hRange, hLess, hSame⟩)
  · have hSome := hNamed place hPlace
    rw [hNone] at hSome
    cases hSome
  · obtain ⟨other, hOther, rfl⟩ := (inRange_iff smaller).mp hRange
    rw [Symbol.atPosition_lt_iff (Symbol.lt_places_of_lt_countTo hOther)
      (Symbol.lt_places_of_lt_countTo hReach)] at hLess
    have hName : vocabulary.nameOf (.atPosition other) = vocabulary.nameOf (.atPosition place) := by
      obtain ⟨name, hName⟩ := Option.isSome_iff_exists.mp (hNamed place hPlace)
      rw [nameOf, nameOf, hSame, hName, Option.getD_some, Option.getD_some]
    have hEqual := List.inj_on_of_nodup_map hNodup
      (List.mem_range.mpr (Nat.lt_trans hLess hPlace)) (List.mem_range.mpr hPlace) hName
    exact Nat.ne_of_lt hLess hEqual

theorem firstOffender_atPosition {place : Nat}
    (hPlace : place < vocabulary.lastSymbol.countTo)
    (hOffends : vocabulary.Offends (.atPosition place))
    (hBefore : ∀ other < place, ¬vocabulary.Offends (.atPosition other)) :
    vocabulary.FirstOffender (.atPosition place) := by
  refine ⟨(inRange_iff _).mpr ⟨place, hPlace, rfl⟩, hOffends, ?_⟩
  intro smaller hRange hLess
  obtain ⟨other, hOther, rfl⟩ := (inRange_iff smaller).mp hRange
  rw [Symbol.atPosition_lt_iff (Symbol.lt_places_of_lt_countTo hOther)
    (Symbol.lt_places_of_lt_countTo hPlace)] at hLess
  exact hBefore other hLess

theorem displayName_eq_some_nameOf {symbol : Symbol}
    (hNamed : (vocabulary.displayName symbol).isSome) :
    vocabulary.displayName symbol = some (vocabulary.nameOf symbol) := by
  obtain ⟨name, hName⟩ := Option.isSome_iff_exists.mp hNamed
  rw [nameOf, hName, Option.getD_some]

/-- What there is to say of the symbols of a vocabulary. -/
inductive Verdict (vocabulary : Vocabulary) : Except Fault (List (Symbol × String)) → Prop where
  | rangeTooLow (hLow : vocabulary.lastSymbol.number < -1) :
      vocabulary.Verdict (.error (.rangeTooLow vocabulary.lastSymbol))
  | unnamedSymbol {symbol : Symbol} (hRange : -1 ≤ vocabulary.lastSymbol.number)
      (hFirst : vocabulary.FirstOffender symbol)
      (hUnnamed : vocabulary.displayName symbol = none) :
      vocabulary.Verdict (.error (.unnamedSymbol symbol))
  | sharedTokenName {name : String} {first second : Symbol}
      (hRange : -1 ≤ vocabulary.lastSymbol.number) (hFirst : vocabulary.FirstOffender second)
      (hInRange : vocabulary.InRange first) (hSmaller : first.number < second.number)
      (hName : vocabulary.displayName first = some name)
      (hName' : vocabulary.displayName second = some name) :
      vocabulary.Verdict (.error (.sharedTokenName name first second))
  | fit (hRange : -1 ≤ vocabulary.lastSymbol.number)
      (hNone : ∀ symbol, vocabulary.InRange symbol → ¬vocabulary.Offends symbol) :
      vocabulary.Verdict (.ok vocabulary.names)

/-- The second bearer of the name that clashes is the first symbol that offends. -/
theorem verdict_of_clash {length : Nat} {clash : Clash Symbol}
    (hRange : -1 ≤ vocabulary.lastSymbol.number)
    (hLength : length ≤ vocabulary.lastSymbol.countTo)
    (hNamed : ∀ place < length, (vocabulary.displayName (.atPosition place)).isSome)
    (hClash : Naming.firstClash? ((List.range length).map fun place =>
      (Symbol.atPosition place, vocabulary.nameOf (.atPosition place))) = some clash) :
    vocabulary.Verdict (.error (.sharedTokenName clash.name clash.first clash.second)) := by
  obtain ⟨place, place', hLess, hFirst, hSecond, hNodup⟩ :=
    Naming.exists_places_of_firstClash? hClash
  obtain ⟨name, first, second⟩ := clash
  simp only [List.getElem?_map, Option.map_eq_some_iff, List.getElem?_eq_some_iff,
    List.length_range, List.getElem_range, Prod.mk.injEq] at hFirst hSecond
  obtain ⟨_, ⟨_, rfl⟩, rfl, hName⟩ := hFirst
  obtain ⟨_, ⟨hPlace', rfl⟩, rfl, hName'⟩ := hSecond
  have hDisplay := displayName_eq_some_nameOf (hNamed place (Nat.lt_trans hLess hPlace'))
  have hDisplay' := displayName_eq_some_nameOf (hNamed place' hPlace')
  rw [hName] at hDisplay
  rw [hName'] at hDisplay'
  have hReach := Nat.lt_of_lt_of_le hPlace' hLength
  have hSmaller : (Symbol.atPosition place).number < (Symbol.atPosition place').number :=
    (Symbol.atPosition_lt_iff (Symbol.lt_places_of_lt_countTo (Nat.lt_trans hLess hReach))
      (Symbol.lt_places_of_lt_countTo hReach)).mpr hLess
  have hInRange : vocabulary.InRange (.atPosition place) :=
    (inRange_iff _).mpr ⟨place, Nat.lt_trans hLess hReach, rfl⟩
  refine .sharedTokenName hRange (firstOffender_atPosition hReach ?_ ?_) hInRange hSmaller
    hDisplay hDisplay'
  · exact Or.inr ⟨_, hInRange, hSmaller, hDisplay.trans hDisplay'.symm⟩
  · intro other hOther
    rw [← List.map_take, List.map_map, List.take_range, Nat.min_eq_left (Nat.le_of_lt hPlace')]
      at hNodup
    exact not_offends_of_nodup (Nat.le_of_lt hReach)
      (fun place hPlace => hNamed place (Nat.lt_trans hPlace hPlace')) hNodup hOther

theorem verdict_checkedNames (vocabulary : Vocabulary) :
    vocabulary.Verdict vocabulary.checkedNames := by
  obtain ⟨length, hRead, hNamed, hEnd⟩ :=
    vocabulary.exists_readNames 0 vocabulary.lastSymbol.countTo
  rw [← List.range_eq_range'] at hRead
  simp only [Nat.zero_add, Nat.zero_le, true_implies] at hNamed hEnd
  have hLength : length ≤ vocabulary.lastSymbol.countTo := by
    rcases hEnd with ⟨_, hAll⟩ | ⟨_, hLess, _⟩
    · exact Nat.le_of_eq hAll
    · exact Nat.le_of_lt hLess
  have hBefore : Naming.firstClash? (vocabulary.readNames 0 vocabulary.lastSymbol.countTo).1 =
      none → ∀ place < length, ¬vocabulary.Offends (.atPosition place) := by
    intro hClash place
    rw [hRead, Naming.firstClash?_eq_none_iff, List.map_map] at hClash
    exact not_offends_of_nodup hLength hNamed hClash
  unfold checkedNames
  split
  · next hLow => exact .rangeTooLow hLow
  · next hRange =>
    replace hRange := Int32.not_lt.mp hRange
    dsimp only
    split
    · next clash _ hClash =>
      rw [hRead] at hClash
      exact verdict_of_clash hRange hLength hNamed hClash
    · next symbol hClash hUnread =>
      rcases hEnd with ⟨hNone, _⟩ | ⟨hSome, hLess, hUnnamed⟩
      · rw [hNone] at hUnread
        cases hUnread
      · rw [hSome, Option.some.injEq] at hUnread
        rw [← hUnread]
        exact .unnamedSymbol hRange
          (firstOffender_atPosition hLess (Or.inl hUnnamed) (hBefore hClash)) hUnnamed
    · next hClash hUnread =>
      rcases hEnd with ⟨_, rfl⟩ | ⟨hSome, _⟩
      · have hNames : (vocabulary.readNames 0 vocabulary.lastSymbol.countTo).1 =
            vocabulary.names := by
          rw [hRead, names, Symbol.upTo, List.map_map]
          rfl
        rw [hNames]
        refine .fit hRange fun symbol hInRange => ?_
        obtain ⟨place, hPlace, rfl⟩ := (inRange_iff symbol).mp hInRange
        exact hBefore hClash place hPlace
      · rw [hSome] at hUnread
        cases hUnread

end Vocabulary

namespace Naming

variable {rules : List String}

/-- A rule is unfit for use when an earlier one has its name. -/
def Repeats (rules : List String) (place : Nat) : Prop :=
  ∃ earlier < place, rules[earlier]? = rules[place]?

theorem map_snd_numberedRules (rules : List String) :
    (numberedRules rules).map Prod.snd = rules := by
  rw [numberedRules, List.map_map]
  exact List.zipIdx_map_fst 0 rules

theorem getElem?_numberedRules (rules : List String) (place : Nat) :
    (numberedRules rules)[place]? =
      rules[place]?.map fun name => (RuleNumber.atPosition place, name) := by
  rw [numberedRules, List.getElem?_map, List.getElem?_zipIdx, Option.map_map, Nat.zero_add]
  rfl

theorem checkRules_eq_ok_iff (rules : List String) : checkRules rules = .ok () ↔ rules.Nodup := by
  have hClash := firstClash?_eq_none_iff (numberedRules rules)
  rw [map_snd_numberedRules] at hClash
  rw [← hClash, checkRules]
  cases firstClash? (numberedRules rules) with
  | none => simp
  | some clash => simp

/-- The rule that is reported is the first one that repeats a name. -/
theorem exists_places_of_checkRules {fault : Fault} (hFault : checkRules rules = .error fault) :
    ∃ name first second, fault = .sharedRuleName name (.atPosition first) (.atPosition second) ∧
      first < second ∧ rules[first]? = some name ∧ rules[second]? = some name ∧
      (rules.take second).Nodup := by
  unfold checkRules at hFault
  split at hFault
  · next clash hClash =>
    cases hFault
    obtain ⟨place, place', hLess, hFirst, hSecond, hNodup⟩ := exists_places_of_firstClash? hClash
    obtain ⟨name, first, second⟩ := clash
    simp only [getElem?_numberedRules, Option.map_eq_some_iff, Prod.mk.injEq] at hFirst hSecond
    obtain ⟨_, hName, rfl, rfl⟩ := hFirst
    obtain ⟨_, hName', rfl, rfl⟩ := hSecond
    rw [List.map_take, map_snd_numberedRules] at hNodup
    exact ⟨_, place, place', rfl, hLess, hName, hName', hNodup⟩
  · cases hFault

/-- Where a first part of the rules has no name twice, no two places of it have one name. -/
theorem getElem?_ne_of_nodup_take {bound : Nat} (hNodup : (rules.take bound).Nodup)
    (hBound : bound ≤ rules.length) {place place' : Nat} (hLess : place < place')
    (hPlace' : place' < bound) : rules[place]? ≠ rules[place']? := by
  have hApart := List.nodup_iff_getElem?_ne_getElem?.mp hNodup place place' hLess
    (by rw [List.length_take]; omega)
  rw [List.getElem?_take_of_lt (Nat.lt_trans hLess hPlace'), List.getElem?_take_of_lt hPlace']
    at hApart
  exact hApart

/-- Before the second bearer of the name that is reported no rule repeats a name, and only one rule
there has the name. -/
theorem exists_first_repeat_of_checkRules {fault : Fault}
    (hFault : checkRules rules = .error fault) :
    ∃ name first second, fault = .sharedRuleName name (.atPosition first) (.atPosition second) ∧
      rules[second]? = some name ∧ Repeats rules second ∧
      (∀ earlier < second, ¬Repeats rules earlier) ∧
      ∀ other, (other < second ∧ rules[other]? = some name) ↔ other = first := by
  obtain ⟨name, first, second, rfl, hLess, hName, hName', hNodup⟩ :=
    exists_places_of_checkRules hFault
  have hBound := Nat.le_of_lt (List.getElem?_eq_some_iff.mp hName').1
  have hApart := @getElem?_ne_of_nodup_take rules second hNodup hBound
  refine ⟨name, first, second, rfl, hName', ⟨first, hLess, hName.trans hName'.symm⟩, ?_, ?_⟩
  · rintro earlier hEarlier ⟨other, hOther, hSame⟩
    exact hApart hOther hEarlier hSame
  · intro other
    constructor
    · rintro ⟨hOther, hShared⟩
      have hSame := hShared.trans hName.symm
      rcases Nat.lt_trichotomy other first with hBefore | hEqual | hAfter
      · exact absurd hSame (hApart hBefore hLess)
      · exact hEqual
      · exact absurd hSame.symm (hApart hAfter hOther)
    · rintro rfl
      exact ⟨hLess, hName⟩

/-- The rules are looked at only when no symbol is reported. -/
theorem check_eq_error_iff {vocabulary : Vocabulary} {fault : Fault} :
    check vocabulary rules = .error fault ↔
      vocabulary.checkedNames = .error fault ∨
      (∃ names, vocabulary.checkedNames = .ok names) ∧ checkRules rules = .error fault := by
  unfold check
  cases vocabulary.checkedNames with
  | error other => simp [bind, Except.bind]
  | ok names =>
      cases checkRules rules with
      | error other => simp [bind, Except.bind]
      | ok => simp [bind, Except.bind, pure, Except.pure]

end Naming

namespace Vocabulary

variable {vocabulary : Vocabulary} {result : Except Fault (List (Symbol × String))}

theorem Verdict.eq_of_low (hVerdict : vocabulary.Verdict result)
    (hLow : vocabulary.lastSymbol.number < -1) :
    result = .error (.rangeTooLow vocabulary.lastSymbol) := by
  cases hVerdict with
  | rangeTooLow => rfl
  | unnamedSymbol hRange => exact absurd hRange (Int32.not_le.mpr hLow)
  | sharedTokenName hRange => exact absurd hRange (Int32.not_le.mpr hLow)
  | fit hRange => exact absurd hRange (Int32.not_le.mpr hLow)

theorem Verdict.eq_of_fit (hVerdict : vocabulary.Verdict result)
    (hRange : -1 ≤ vocabulary.lastSymbol.number)
    (hNone : ∀ symbol, vocabulary.InRange symbol → ¬vocabulary.Offends symbol) :
    result = .ok vocabulary.names := by
  cases hVerdict with
  | rangeTooLow hLow => exact absurd hRange (Int32.not_le.mpr hLow)
  | unnamedSymbol _ hFirst => exact absurd hFirst.offends (hNone _ hFirst.inRange)
  | sharedTokenName _ hFirst => exact absurd hFirst.offends (hNone _ hFirst.inRange)
  | fit => rfl

/-- Whatever is said of a vocabulary whose first offender is known is about that symbol. -/
theorem Verdict.eq_of_firstOffender (hVerdict : vocabulary.Verdict result)
    (hRange : -1 ≤ vocabulary.lastSymbol.number) {symbol : Symbol}
    (hSymbol : vocabulary.FirstOffender symbol) :
    (vocabulary.displayName symbol = none → result = .error (.unnamedSymbol symbol)) ∧
    ∀ name, vocabulary.displayName symbol = some name →
      ∃ first, result = .error (.sharedTokenName name first symbol) ∧
        ∀ other, (vocabulary.InRange other ∧ other.number < symbol.number ∧
          vocabulary.displayName other = some name) ↔ other = first := by
  cases hVerdict with
  | rangeTooLow hLow => exact absurd hRange (Int32.not_le.mpr hLow)
  | unnamedSymbol _ hFirst hUnnamed =>
      obtain rfl := hFirst.eq hSymbol
      refine ⟨fun _ => rfl, fun name hName => ?_⟩
      rw [hUnnamed] at hName
      cases hName
  | @sharedTokenName name first _ _ hFirst hInRange hSmaller hName hName' =>
      obtain rfl := hFirst.eq hSymbol
      refine ⟨fun hUnnamed => ?_, fun name' hShared => ?_⟩
      · rw [hUnnamed] at hName'
        cases hName'
      · obtain rfl := Option.some.inj (hName'.symm.trans hShared)
        refine ⟨first, rfl, fun other => ⟨?_, ?_⟩⟩
        · rintro ⟨hOther, hBefore, hNamed⟩
          rcases other.lt_or_eq_or_gt first with hLess | hEqual | hMore
          · exact absurd (hNamed.trans hName.symm)
              (hFirst.displayName_ne hOther hInRange hLess hSmaller)
          · exact hEqual
          · exact absurd (hName.trans hNamed.symm)
              (hFirst.displayName_ne hInRange hOther hMore hBefore)
        · rintro rfl
          exact ⟨hInRange, hSmaller, hName⟩
  | fit _ hNone => exact absurd hSymbol.offends (hNone symbol hSymbol.inRange)

/-- If some symbol offends, there is a first one. -/
theorem exists_firstOffender_or (hRange : -1 ≤ vocabulary.lastSymbol.number) :
    (∃ symbol, vocabulary.FirstOffender symbol) ∨
      ∀ symbol, vocabulary.InRange symbol → ¬vocabulary.Offends symbol := by
  have hVerdict := vocabulary.verdict_checkedNames
  generalize vocabulary.checkedNames = result at hVerdict
  cases hVerdict with
  | rangeTooLow hLow => exact absurd hRange (Int32.not_le.mpr hLow)
  | unnamedSymbol _ hFirst => exact Or.inl ⟨_, hFirst⟩
  | sharedTokenName _ hFirst => exact Or.inl ⟨_, hFirst⟩
  | fit _ hNone => exact Or.inr hNone

end Vocabulary

namespace State

theorem answer_defineChecked (state : State) (language : Language) (vocabulary : Vocabulary)
    (rules : List String) (registered : Bool) :
    (state.defineChecked language vocabulary rules registered).answer =
      match Naming.check vocabulary rules with
      | .error fault => .error ⟨language.id, fault⟩
      | .ok _ => .ok () := by
  unfold defineChecked
  cases Naming.check vocabulary rules with
  | error fault => rfl
  | ok names => rfl

theorem answer_defineChecked_eq_error_iff (state : State) (language : Language)
    (vocabulary : Vocabulary) (rules : List String) (registered : Bool) (refusal : Refusal) :
    (state.defineChecked language vocabulary rules registered).answer = .error refusal ↔
      refusal.language = language.id ∧ Naming.check vocabulary rules = .error refusal.fault := by
  obtain ⟨id, fault⟩ := refusal
  rw [answer_defineChecked]
  cases Naming.check vocabulary rules with
  | error other => simp [eq_comm]
  | ok names => simp

/-- A refusal names the language and the first offence in it. A range that ends below -1 comes
first. Then comes the least symbol without a name or with the name of a smaller one, and with it the
only smaller one that has the name. Only where no symbol offends it is the first rule that repeats a
name, with the only earlier one that has it. The two bearers of a reported name come in their order,
and no two bearers of one name come before the second of them. -/
theorem refusal_reports_first_offence (state : State) (language : Language)
    (vocabulary : Vocabulary) (rules : List String) (registered : Bool) (refusal : Refusal)
    (hRules : rules.length < RuleNumber.places)
    (hRefused : (state.defineChecked language vocabulary rules registered).answer =
      .error refusal) :
    refusal.language = language.id ∧
    (vocabulary.lastSymbol.number < -1 →
      refusal.fault = .rangeTooLow vocabulary.lastSymbol) ∧
    (-1 ≤ vocabulary.lastSymbol.number →
      ((∃ symbol, vocabulary.FirstOffender symbol) ∨
        ∀ symbol, vocabulary.InRange symbol → ¬vocabulary.Offends symbol) ∧
      (∀ symbol, vocabulary.FirstOffender symbol →
        (vocabulary.displayName symbol = none → refusal.fault = .unnamedSymbol symbol) ∧
        ∀ name, vocabulary.displayName symbol = some name →
          ∃ first, refusal.fault = .sharedTokenName name first symbol ∧
            ∀ other, (vocabulary.InRange other ∧ other.number < symbol.number ∧
              vocabulary.displayName other = some name) ↔ other = first) ∧
      ((∀ symbol, vocabulary.InRange symbol → ¬vocabulary.Offends symbol) →
        ∃ name first second,
          refusal.fault = .sharedRuleName name (.atPosition first) (.atPosition second) ∧
          rules[second]? = some name ∧ Naming.Repeats rules second ∧
          (∀ earlier < second, ¬Naming.Repeats rules earlier) ∧
          ∀ other, (other < second ∧ rules[other]? = some name) ↔ other = first)) ∧
    (∀ name first second, refusal.fault = .sharedTokenName name first second →
      vocabulary.InRange first ∧ vocabulary.InRange second ∧ first.number < second.number ∧
      vocabulary.displayName first = some name ∧ vocabulary.displayName second = some name ∧
      ∀ smaller larger, vocabulary.InRange smaller → vocabulary.InRange larger →
        smaller.number < larger.number → larger.number < second.number →
        vocabulary.displayName smaller ≠ vocabulary.displayName larger) ∧
    (∀ name first second, refusal.fault = .sharedRuleName name first second →
      first.position < second.position ∧ second.position < rules.length ∧
      rules[first.position]? = some name ∧ rules[second.position]? = some name ∧
      ∀ place place' : Nat, place < place' → place' < second.position →
        rules[place]? ≠ rules[place']?) := by
  obtain ⟨hLanguage, hCheck⟩ := (answer_defineChecked_eq_error_iff ..).mp hRefused
  have hVerdict := vocabulary.verdict_checkedNames
  have hFault : ∀ fault, vocabulary.checkedNames = .error fault → refusal.fault = fault := by
    intro fault hSymbols
    exact Except.error.inj (hCheck.symm.trans (Naming.check_eq_error_iff.mpr (Or.inl hSymbols)))
  have hCases := Naming.check_eq_error_iff.mp hCheck
  refine ⟨hLanguage, fun hLow => hFault _ (hVerdict.eq_of_low hLow), fun hRange =>
    ⟨Vocabulary.exists_firstOffender_or hRange, ?_, ?_⟩, ?_, ?_⟩
  · intro symbol hSymbol
    obtain ⟨hUnnamed, hShared⟩ := hVerdict.eq_of_firstOffender hRange hSymbol
    refine ⟨fun hNone => hFault _ (hUnnamed hNone), fun name hName => ?_⟩
    obtain ⟨first, hSymbols, hOnly⟩ := hShared name hName
    exact ⟨first, hFault _ hSymbols, hOnly⟩
  · intro hNone
    have hFit := hVerdict.eq_of_fit hRange hNone
    rcases hCases with hSymbols | ⟨_, hRule⟩
    · rw [hFit] at hSymbols
      cases hSymbols
    · exact Naming.exists_first_repeat_of_checkRules hRule
  · intro name first second hToken
    rw [hToken] at hCases
    rcases hCases with hSymbols | ⟨_, hRule⟩
    · rw [hSymbols] at hVerdict
      cases hVerdict with
      | sharedTokenName _ hFirst hInRange hSmaller hName hName' =>
          exact ⟨hInRange, hFirst.inRange, hSmaller, hName, hName', fun _ _ =>
            hFirst.displayName_ne⟩
    · obtain ⟨_, _, _, hOther, _⟩ := Naming.exists_places_of_checkRules hRule
      cases hOther
  · intro name first second hShared
    rw [hShared] at hCases
    rcases hCases with hSymbols | ⟨_, hRule⟩
    · rw [hSymbols] at hVerdict
      cases hVerdict
    · obtain ⟨_, place, place', hSame, hLess, hName, hName', hNodup⟩ :=
        Naming.exists_places_of_checkRules hRule
      have hBound := (List.getElem?_eq_some_iff.mp hName').1
      cases hSame
      rw [RuleNumber.position_atPosition place (by omega),
        RuleNumber.position_atPosition place' (by omega)]
      exact ⟨hLess, hBound, hName, hName', fun _ _ =>
        Naming.getElem?_ne_of_nodup_take hNodup (Nat.le_of_lt hBound)⟩

/-- The third symbol has the name of the first one, the fourth has no name, and the rules repeat
names. The third symbol is reported, so it is the first one that offends. When all symbols are fit,
the third rule is reported with the first one, before the fourth rule comes into view. -/
theorem refusal_reports_first_offence_of_several :
    let language := Language.root 1 "base"
    let clashing := Vocabulary.ofNames ⟨3⟩ [(⟨0⟩, "A"), (⟨1⟩, "B"), (⟨2⟩, "A")]
    let fit := Vocabulary.ofNames ⟨1⟩ [(⟨0⟩, "A"), (⟨1⟩, "B")]
    let rules := ["r", "s", "r", "s"]
    let state := State.mk .full .empty
    rules.length < RuleNumber.places ∧
    (state.defineChecked language clashing rules false).answer =
      .error ⟨"base", .sharedTokenName "A" ⟨0⟩ ⟨2⟩⟩ ∧
    (∀ symbol, clashing.FirstOffender symbol → symbol = ⟨2⟩) ∧
    (state.defineChecked language fit rules false).answer =
      .error ⟨"base", .sharedRuleName "r" ⟨0⟩ ⟨2⟩⟩ ∧
    rules[0]? ≠ rules[1]? := by
  intro language clashing fit rules state
  have hRules : rules.length < RuleNumber.places := by decide
  obtain ⟨_, _, hSymbols, _, _⟩ := state.refusal_reports_first_offence language clashing rules false
    ⟨"base", .sharedTokenName "A" ⟨0⟩ ⟨2⟩⟩ hRules rfl
  obtain ⟨_, _, _, _, hPairs⟩ := state.refusal_reports_first_offence language fit rules false
    ⟨"base", .sharedRuleName "r" ⟨0⟩ ⟨2⟩⟩ hRules rfl
  refine ⟨hRules, rfl, fun symbol hFirst => ?_, rfl, ?_⟩
  · obtain ⟨hUnnamed, hShared⟩ := (hSymbols (by decide)).2.1 symbol hFirst
    cases hName : clashing.displayName symbol with
    | none => cases hUnnamed hName
    | some name =>
        obtain ⟨first, hFault, _⟩ := hShared name hName
        cases hFault
        rfl
  · exact (hPairs "r" ⟨0⟩ ⟨2⟩ rfl).2.2.2.2 0 1 (by decide) (by decide)

end State

end GrammarCatalog
