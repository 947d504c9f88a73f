import GrammarCatalog.Text.Hidden
import GrammarCatalog.Text.Quoted
import GrammarCatalog.TokenSet.Basic

/-! The written form of a token set: the quoted names of its members in braces. Sorting the names
makes it the same for equal sets. Quoting them makes it readable: the names come back from the text,
each as often as it was written. -/
namespace GrammarCatalog.TokenSet

/-- The names in order, each in quotation marks, with a comma and a blank between two names. The
hidden characters are written by their codes. -/
def textWith (hidden : Char → Bool) (set : TokenSet) : String :=
  "\x7b" ++ ", ".intercalate (set.names.map (Text.Quoted.quote hidden)) ++ "\x7d"

/-- The text that hides the characters that leave no mark. -/
def text (set : TokenSet) : String := set.textWith Text.isHidden

/-- Reads quoted names up to the brace with which the text ends. -/
def readNames (chars : List Char) : Option (List String) :=
  match _hRead : Text.Quoted.read chars with
  | some (name, ['\x7d']) => some [String.ofList name]
  | some (name, ',' :: ' ' :: rest) => (readNames rest).map (String.ofList name :: ·)
  | _ => none
termination_by chars.length
decreasing_by
  have hShorter := Text.Quoted.length_of_read _hRead
  simp only [List.length_cons] at hShorter
  omega

/-- The names that the text of a set tells, in order. -/
def readText? (text : String) : Option (List String) :=
  match text.toList with
  | '\x7b' :: rest => if rest = ['\x7d'] then some [] else readNames rest
  | _ => none

/-- Names that are written one after another are read one after another. -/
theorem readNames_intercalate (hidden : Char → Bool) (name : String) (others : List String) :
    readNames ((", ".intercalate ((name :: others).map (Text.Quoted.quote hidden))).toList ++
      ['\x7d']) = some (name :: others) := by
  induction others generalizing name with
  | nil =>
      simp only [List.map_cons, List.map_nil, String.intercalate_singleton, Text.Quoted.quote,
        String.toList_ofList]
      rw [readNames, Text.Quoted.read_write]
      simp only [String.ofList_toList]
  | cons next others ih =>
      rw [List.map_cons, List.map_cons, String.intercalate_cons_cons, ← List.map_cons]
      simp only [String.toList_append, Text.Quoted.quote, String.toList_ofList, List.append_assoc]
      rw [readNames, Text.Quoted.read_write]
      have hSeparator : ", ".toList = [',', ' '] := rfl
      have hOthers := congrArg (Option.map (String.ofList name.toList :: ·)) (ih next)
      rw [hSeparator]
      exact hOthers.trans (by rw [String.ofList_toList, Option.map_some])

/-- The text tells the names whichever characters are hidden in it. -/
theorem readText?_textWith (hidden : Char → Bool) (set : TokenSet) :
    readText? (set.textWith hidden) = some set.names := by
  rw [readText?, textWith, String.toList_append, String.toList_append]
  cases set.names with
  | nil => rfl
  | cons name others =>
      have hRead := readNames_intercalate hidden name others
      have hBrace : readNames ['\x7d'] = none := by
        rw [readNames]
        rfl
      have hOther : (", ".intercalate ((name :: others).map (Text.Quoted.quote hidden))).toList ++
          ['\x7d'] ≠ ['\x7d'] := by
        intro hAlone
        rw [hAlone, hBrace] at hRead
        cases hRead
      exact (if_neg hOther).trans hRead

end GrammarCatalog.TokenSet
