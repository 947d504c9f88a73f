import GrammarCatalog.Proofs.History

/-! The grammars that count. A language may be defined any number of times, with a check or without
one. The first of these calls that is not refused decides, and its grammar stays in force whatever
is called later. It is read off the calls alone. -/
namespace GrammarCatalog

/-- What a call says of the language that it defines. -/
structure Grammar where
  vocabulary : Vocabulary
  rules : List String
  registered : Bool

namespace Grammar

def blueprint (grammar : Grammar) : Blueprint :=
  ⟨grammar.vocabulary.names, grammar.rules, grammar.registered⟩

/-- The names that the symbols go by, in the order of the symbols. -/
def symbolNames (grammar : Grammar) : List String := grammar.vocabulary.names.map Prod.snd

end Grammar

/-- The grammar that a call has for a language. A definition that is refused has none. -/
def Call.grammar? (language : Language) : Call → Option Grammar
  | .define other vocabulary ruleList registered =>
    if language = other then some ⟨vocabulary, ruleList, registered⟩ else none
  | .defineChecked other vocabulary ruleList registered =>
    match Naming.check vocabulary ruleList with
    | .error _ => none
    | .ok _ => if language = other then some ⟨vocabulary, ruleList, registered⟩ else none
  | _ => none

/-- What a call demands for a language is the blueprint of its grammar. -/
theorem Call.blueprint?_demand (call : Call) (language : Language) :
    History.blueprint? [call.demand] language = (call.grammar? language).map Grammar.blueprint := by
  cases call with
  | define other vocabulary ruleList registered =>
      rw [demand, History.blueprint?_definition, grammar?]
      split
      · rfl
      · rfl
  | defineChecked other vocabulary ruleList registered =>
      rw [demand, grammar?]
      cases Naming.check vocabulary ruleList with
      | error fault => rfl
      | ok names =>
          dsimp only
          rw [History.blueprint?_definition]
          split
          · rfl
          · rfl
  | token other symbol =>
      rw [demand]
      split
      · rfl
      · rfl
  | tokenSet other symbols =>
      rw [demand]
      split
      · rfl
      · rfl
  | _ => rfl

namespace World

/-- The grammar that a move has for a language in one catalogue. -/
def Move.grammar? (number : Nat) (language : Language) : Move → Option Grammar
  | .call other made => if other = number then made.grammar? language else none
  | _ => none

/-- The grammar that counts for a language in one catalogue, which is the first one. -/
def grammar? (moves : List Move) (number : Nat) (language : Language) : Option Grammar :=
  moves.findSome? (Move.grammar? number language)

variable {moves : List Move} {number : Nat} {language : Language} {grammar : Grammar}

/-- The grammar that counts does so for good. -/
theorem grammar?_append_of_some (hGrammar : grammar? moves number language = some grammar)
    (later : List Move) : grammar? (moves ++ later) number language = some grammar := by
  unfold grammar? at hGrammar ⊢
  rw [List.findSome?_append, hGrammar, Option.some_or]

/-- The blueprint that takes effect is that of the grammar that counts. -/
theorem blueprint?_demandsTo (moves : List Move) (number : Nat) (language : Language) :
    History.blueprint? (demandsTo number moves) language =
      (grammar? moves number language).map Grammar.blueprint := by
  induction moves with
  | nil => rfl
  | cons move rest ih =>
      unfold demandsTo grammar? at ih ⊢
      rw [List.filterMap_cons, List.findSome?_cons]
      cases move with
      | call other call =>
          simp only [Move.demand?, Move.grammar?]
          by_cases hOther : other = number
          · rw [if_pos hOther, if_pos hOther]
            dsimp only
            rw [History.blueprint?_cons, call.blueprint?_demand]
            cases call.grammar? language with
            | none => exact ih
            | some grammar => rfl
          · rw [if_neg hOther, if_neg hOther]
            exact ih
      | _ => exact ih

/-- A language for which no grammar counts has no definition. -/
theorem definition?_eq_none (hNone : grammar? moves number language = none) :
    ((after moves).catalogs number).definition? language = none := by
  apply (records_after moves number).undefined
  rw [blueprint?_demandsTo, hNone, Option.map_none]

/-- A language is defined exactly when some grammar counts for it. -/
theorem isDefined_after (moves : List Move) (number : Nat) (language : Language) :
    ((after moves).catalogs number).isDefined language =
      (grammar? moves number language).isSome := by
  rw [(records_after moves number).isDefined_eq, blueprint?_demandsTo, Option.isSome_map]

/-- The tables of a language say what the grammar that counts says. -/
theorem realizes_grammar (hGrammar : grammar? moves number language = some grammar) :
    ∃ definition, ((after moves).catalogs number).definition? language = some definition ∧
      ((after moves).catalogs number).Realizes language grammar.blueprint definition := by
  apply (records_after moves number).realizes
  rw [blueprint?_demandsTo, hGrammar]
  rfl

/-- A language for which a grammar counts keeps its definition, whatever is called later. -/
theorem definition?_append_of_grammar (hGrammar : grammar? moves number language = some grammar)
    (later : List Move) : ((after (moves ++ later)).catalogs number).definition? language =
      ((after moves).catalogs number).definition? language := by
  obtain ⟨definition, hDefinition, _⟩ := realizes_grammar hGrammar
  rw [after_append, definition?_run _ later hDefinition, hDefinition]

end World

end GrammarCatalog
