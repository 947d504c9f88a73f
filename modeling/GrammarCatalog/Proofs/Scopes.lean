import GrammarCatalog.Proofs.Similarity

/-! A catalogue seen from one scope. Of every history a scope sees the demands that concern it, and
of every catalogue the entries that belong to it. The two views fit together: what the scope sees of
a catalogue is what the demands that concern it would have made of the empty one. -/
namespace GrammarCatalog

/-- The scope to which the entry under a key belongs. -/
def TokenKey.scope : TokenKey → Language
  | interned scope _ => scope
  | ending language => language.scope

/-- Whether a demand concerns a scope. A demand on a language concerns the scope of the language. -/
def Demand.concerns (scope : Language) : Demand → Bool
  | .token mention => Language.scopeOf mention.owner = scope
  | .definition language _ => language.scope = scope
  | .ending language => language.scope = scope
  | .nothing => false

namespace History

variable {scope : Language}

theorem blueprint?_concerning (history : List Demand) (language : Language) :
    blueprint? (history.filter (Demand.concerns scope)) language =
      if language.scope = scope then blueprint? history language else none := by
  induction history with
  | nil => simp [blueprint?]
  | cons demand rest ih =>
      rw [List.filter_cons]
      cases demand with
      | definition other blueprint =>
          by_cases hOther : language = other
          · subst hOther
            by_cases hScope : language.scope = scope
            · simp [Demand.concerns, hScope, blueprint?_cons _ rest,
                blueprint?_cons _ (rest.filter _), blueprint?_definition]
            · simp [Demand.concerns, hScope, ih]
          · by_cases hScope : other.scope = scope
            · simp [Demand.concerns, hScope, blueprint?_cons _ rest,
                blueprint?_cons _ (rest.filter _), blueprint?_definition, hOther, ih]
            · simp [Demand.concerns, hScope, blueprint?_cons _ rest, blueprint?_definition, hOther,
                ih]
      | _ =>
          split
          · exact ih
          · exact ih

/-- The mentions of a demand are all in the scope that it concerns. -/
theorem mentionsOf_concerning (earlier : List Demand) (demand : Demand) :
    (mentionsOf earlier demand).filter (fun mention => mention.key.1 = scope) =
      if demand.concerns scope then
        mentionsOf (earlier.filter (Demand.concerns scope)) demand
      else [] := by
  cases demand with
  | token mention =>
      simp only [mentionsOf, Demand.concerns, Mention.key, List.filter_cons, List.filter_nil]
      rfl
  | definition language blueprint =>
      have hKeys : ∀ mention ∈ blueprint.mentions language, mention.key.1 = language.scope := by
        intro mention hMention
        obtain ⟨named, _, rfl⟩ := List.mem_map.mp hMention
        rfl
      rw [mentionsOf, mentionsOf, blueprint?_concerning]
      by_cases hScope : language.scope = scope
      · subst hScope
        have hAll : (blueprint.mentions language).filter
            (fun mention => mention.key.1 = language.scope) = blueprint.mentions language :=
          List.filter_eq_self.mpr fun mention hMention => by simpa using hKeys mention hMention
        simp only [Demand.concerns, decide_true, ↓reduceIte]
        split
        · rfl
        · exact hAll
      · have hNone : (blueprint.mentions language).filter
            (fun mention => mention.key.1 = scope) = [] := by
          apply List.filter_eq_nil_iff.mpr
          intro mention hMention
          simpa [hKeys mention hMention] using hScope
        simp only [Demand.concerns, hScope, decide_false, Bool.false_eq_true, ↓reduceIte]
        split
        · rfl
        · exact hNone
  | ending language => simp [mentionsOf]
  | nothing => simp [mentionsOf]

theorem mentionsAfter_concerning (earlier demands : List Demand) :
    mentionsAfter (earlier.filter (Demand.concerns scope))
        (demands.filter (Demand.concerns scope)) =
      (mentionsAfter earlier demands).filter (fun mention => mention.key.1 = scope) := by
  induction demands generalizing earlier with
  | nil => rfl
  | cons demand rest ih =>
      have hRest := ih (earlier ++ [demand])
      rw [List.filter_append] at hRest
      rw [List.filter_cons, List.filter_nil] at hRest
      rw [mentionsAfter, List.filter_append, mentionsOf_concerning, ← hRest, List.filter_cons]
      split
      · rw [mentionsAfter]
      · rw [List.append_nil, List.nil_append]

theorem first?_concerning (history : List Demand) (other : Language) (name : String) :
    first? (mentions (history.filter (Demand.concerns scope))) other name =
      if other = scope then first? (mentions history) other name else none := by
  have hMentions := @mentionsAfter_concerning scope [] history
  rw [List.filter_nil] at hMentions
  rw [mentions, hMentions, first?, List.find?_filter]
  by_cases hOther : other = scope
  · subst hOther
    rw [if_pos rfl, first?, mentions]
    congr 1
    funext mention
    by_cases hKey : mention.key = (other, name)
    · simp [hKey]
    · simp [hKey]
  · rw [if_neg hOther, List.find?_eq_none]
    intro mention _ hMention
    obtain ⟨hScope, hKey⟩ := of_decide_eq_true hMention
    rw [of_decide_eq_true hKey] at hScope
    exact hOther (of_decide_eq_true hScope)

theorem mem_endings_concerning (history : List Demand) (language : Language) :
    language ∈ (history.filter (Demand.concerns scope)).filterMap Demand.ending? ↔
      language.scope = scope ∧ language ∈ history.filterMap Demand.ending? := by
  simp only [List.mem_filterMap, List.mem_filter]
  constructor
  · intro hMember
    obtain ⟨demand, ⟨hDemand, hConcerns⟩, hEnding⟩ := hMember
    cases demand with
    | ending other =>
        cases hEnding
        exact ⟨of_decide_eq_true hConcerns, _, hDemand, rfl⟩
    | _ => cases hEnding
  · intro hMember
    obtain ⟨hScope, demand, hDemand, hEnding⟩ := hMember
    cases demand with
    | ending other =>
        cases hEnding
        exact ⟨_, ⟨hDemand, decide_eq_true hScope⟩, rfl⟩
    | _ => cases hEnding

end History

open History

namespace Catalog

/-- The entries of a catalogue that belong to a scope. -/
def within (catalog : Catalog) (scope : Language) : Catalog :=
  { definitions := catalog.definitions.filter fun entry => entry.1.scope = scope
    interned := catalog.interned.filter fun entry => entry.1.1 = scope
    ends := catalog.ends.filter fun entry => entry.1.scope = scope }

section Lookup

variable {Key Value : Type} [BEq Key] [LawfulBEq Key]

theorem lookup_filter_keys (kept : Key → Bool) (entries : List (Key × Value)) (key : Key) :
    (entries.filter fun entry => kept entry.1).lookup key =
      if kept key then entries.lookup key else none := by
  induction entries with
  | nil => simp
  | cons entry rest ih =>
      obtain ⟨other, value⟩ := entry
      rw [List.filter_cons]
      by_cases hOther : key = other
      · subst hOther
        cases hKept : kept key with
        | true => simp
        | false => simpa [hKept] using ih
      · have hBEq : (key == other) = false := beq_false_of_ne hOther
        cases hKept : kept other with
        | true => simpa [List.lookup_cons, hBEq] using ih
        | false => simpa [List.lookup_cons, hBEq] using ih

end Lookup

variable {catalog : Catalog} {scope : Language}

theorem definition?_within (catalog : Catalog) (scope language : Language) :
    (catalog.within scope).definition? language =
      if language.scope = scope then catalog.definition? language else none := by
  have hLookup := lookup_filter_keys (fun language : Language => language.scope = scope)
    catalog.definitions language
  simp only [decide_eq_true_eq] at hLookup
  exact hLookup

theorem tokenAt?_within (catalog : Catalog) (scope : Language) (key : TokenKey) :
    (catalog.within scope).tokenAt? key =
      if key.scope = scope then catalog.tokenAt? key else none := by
  cases key with
  | interned other name =>
      have hLookup := lookup_filter_keys (fun key : Language × String => key.1 = scope)
        catalog.interned (other, name)
      simp only [decide_eq_true_eq] at hLookup
      exact hLookup
  | ending language =>
      have hLookup := lookup_filter_keys (fun language : Language => language.scope = scope)
        catalog.ends language
      simp only [decide_eq_true_eq] at hLookup
      exact hLookup

theorem ruleAt?_within (catalog : Catalog) (scope : Language) (key : Language × Nat) :
    (catalog.within scope).ruleAt? key =
      if key.1.scope = scope then catalog.ruleAt? key else none := by
  unfold ruleAt? rules
  rw [definition?_within]
  by_cases hScope : key.1.scope = scope
  · rw [if_pos hScope, if_pos hScope]
  · rw [if_neg hScope, if_neg hScope]
    rfl

theorem interned?_within (catalog : Catalog) (scope : Language) (name : String) :
    (catalog.within scope).interned? scope name = catalog.interned? scope name :=
  (catalog.tokenAt?_within scope (.interned scope name)).trans (if_pos rfl)

theorem end?_within (catalog : Catalog) (language : Language) :
    (catalog.within language.scope).end? language = catalog.end? language :=
  (catalog.tokenAt?_within language.scope (.ending language)).trans (if_pos rfl)

/-- A language is seen in full from its own scope. -/
theorem tables_within (catalog : Catalog) (language : Language) :
    (catalog.within language.scope).isDefined language = catalog.isDefined language ∧
      (catalog.within language.scope).tokens language = catalog.tokens language ∧
      (catalog.within language.scope).rules language = catalog.rules language ∧
      (catalog.within language.scope).tokenNames? language = catalog.tokenNames? language ∧
      (catalog.within language.scope).ruleNames? language = catalog.ruleNames? language := by
  apply tables_eq
  rw [definition?_within, if_pos rfl]

/-- What a scope sees of a catalogue is what the demands that concern it have made. -/
theorem Records.within {history : List Demand} (hRecords : catalog.Records history)
    (scope : Language) :
    (catalog.within scope).Records (history.filter (Demand.concerns scope)) := by
  have hLookup := catalog.tokenAt?_within scope
  refine ⟨?_, ?_, ?_, ?_⟩
  · intro other name
    rw [first?_concerning, ← hRecords.interns]
    have hToken : (catalog.within scope).interned? other name =
        if other = scope then catalog.interned? other name else none :=
      hLookup (.interned other name)
    rw [hToken]
    by_cases hOther : other = scope
    · rw [if_pos hOther, if_pos hOther]
    · rw [if_neg hOther, if_neg hOther]
      rfl
  · intro language blueprint hBlueprint
    rw [blueprint?_concerning] at hBlueprint
    obtain ⟨hScope, hBlueprint⟩ := Option.ite_none_right_eq_some.mp hBlueprint
    obtain ⟨definition, hDefinition, hRealizes⟩ := hRecords.realizes hBlueprint
    refine ⟨definition, ?_, hRealizes.mono fun name token hToken => ?_⟩
    · rw [definition?_within, if_pos hScope, hDefinition]
    · exact (hLookup (.interned language.scope name)).trans (if_pos hScope |>.trans hToken)
  · intro language hBlueprint
    rw [blueprint?_concerning] at hBlueprint
    rw [definition?_within]
    split
    · next hScope =>
      rw [if_pos hScope] at hBlueprint
      exact hRecords.undefined hBlueprint
    · rfl
  · intro language
    have hToken : (catalog.within scope).end? language =
        if language.scope = scope then catalog.end? language else none :=
      hLookup (.ending language)
    rw [mem_endings_concerning, ← hRecords.ends, hToken]
    by_cases hScope : language.scope = scope
    · simp [hScope]
    · simp [hScope]

end Catalog

end GrammarCatalog
