import GrammarCatalog.Proofs.Clients
import GrammarCatalog.TokenSet.Text
import Mathlib.Data.List.Forall2
import Mathlib.Data.Multiset.Basic

/-! The text of a token set says which names its members have, and how often, and nothing else.
Sorting takes away the order in which the members came. Quotation keeps the names apart, whatever
characters they are made of. -/
namespace GrammarCatalog

namespace Text.Quoted

/-- How a character stands between quotation marks. The mark itself, the backslash and four others
have a letter after a backslash, the rest of the hidden ones have their code in braces, and all
others stand for themselves. -/
inductive Written (hidden : Char → Bool) : Char → List Char → Prop where
  | quotationMark : Written hidden '"' ['\\', '"']
  | backslash : Written hidden '\\' ['\\', '\\']
  | newline : Written hidden '\n' ['\\', 'n']
  | carriageReturn : Written hidden '\r' ['\\', 'r']
  | tab : Written hidden '\t' ['\\', 't']
  | nul : Written hidden '\x00' ['\\', '0']
  | code {c : Char} (hOther : c ∉ ['"', '\\', '\n', '\r', '\t', '\x00'])
      (hHidden : hidden c = true) :
      Written hidden c (['\\', 'u', '\x7b'] ++ Nat.toDigits 16 c.toNat ++ ['\x7d'])
  | itself {c : Char} (hOther : c ∉ ['"', '\\', '\n', '\r', '\t', '\x00'])
      (hShown : hidden c = false) : Written hidden c [c]

theorem written_writeChar (hidden : Char → Bool) (c : Char) :
    Written hidden c (writeChar hidden c) := by
  unfold writeChar
  cases hLetter : letter? c with
  | some letter =>
      unfold letter? at hLetter
      split at hLetter
      · cases hLetter
        exact .quotationMark
      · cases hLetter
        exact .backslash
      · cases hLetter
        exact .newline
      · cases hLetter
        exact .carriageReturn
      · cases hLetter
        exact .tab
      · cases hLetter
        exact .nul
      · cases hLetter
  | none =>
      have hOther : c ∉ ['"', '\\', '\n', '\r', '\t', '\x00'] := by
        intro hMember
        simp only [List.mem_cons, List.not_mem_nil, or_false] at hMember
        rcases hMember with rfl | rfl | rfl | rfl | rfl | rfl <;> simp [letter?] at hLetter
      dsimp only
      split
      · next hHidden => exact .code hOther hHidden
      · next hShown => exact .itself hOther (Bool.eq_false_iff.mpr hShown)

/-- The text between quotation marks, each of its characters as it is written. -/
def Quotes (hidden : Char → Bool) (text quoted : String) : Prop :=
  ∃ pieces : List (List Char), List.Forall₂ (Written hidden) text.toList pieces ∧
    quoted.toList = '"' :: (pieces.flatten ++ ['"'])

theorem quotes_quote (hidden : Char → Bool) (text : String) :
    Quotes hidden text (quote hidden text) := by
  refine ⟨text.toList.map (writeChar hidden), ?_, ?_⟩
  · rw [List.forall₂_map_right_iff, List.forall₂_same]
    exact fun c _ => written_writeChar hidden c
  · rw [quote, String.toList_ofList, write, List.flatMap_def]

end Text.Quoted

namespace TokenSet

variable (set left right : TokenSet)

theorem perm_names : set.names.Perm (set.members.map TokenElement.name) :=
  List.mergeSort_perm _ _

theorem pairwise_names : set.names.Pairwise (· ≤ ·) := by
  have hSorted := @List.pairwise_mergeSort String (fun a b => decide (a ≤ b))
    (by simpa using fun _ _ _ => String.le_trans) (by simpa using String.le_total)
    (set.members.map TokenElement.name)
  exact hSorted.imp of_decide_eq_true

/-- There is one way to have names in order. -/
theorem names_eq_iff : left.names = right.names ↔
    (left.members.map TokenElement.name).Perm (right.members.map TokenElement.name) := by
  constructor
  · intro hNames
    have hRight := right.perm_names
    rw [← hNames] at hRight
    exact left.perm_names.symm.trans hRight
  · intro hPerm
    have hNames := left.perm_names.trans (hPerm.trans right.perm_names.symm)
    exact hNames.eq_of_pairwise (fun _ _ _ _ => String.le_antisymm) left.pairwise_names
      right.pairwise_names

theorem textWith_eq_iff (hidden : Char → Bool) :
    left.textWith hidden = right.textWith hidden ↔ left.names = right.names := by
  constructor
  · intro hText
    have hRead := readText?_textWith hidden left
    rw [hText, readText?_textWith] at hRead
    exact (Option.some.inj hRead).symm
  · intro hNames
    rw [textWith, textWith, hNames]

/-- Whichever characters are hidden, two sets have one text exactly when their members have the same
names, each as often. The text is the names in order, quoted and in braces. They are read back from
it, so it leaves none of them out and takes none of them for another. Sets that are the same have
the same members and so the same text, however they were built. -/
theorem text_tells_the_names (hidden : Char → Bool) :
    (∀ left right : TokenSet, left.textWith hidden = right.textWith hidden ↔
      Multiset.ofList (left.members.map TokenElement.name) =
        Multiset.ofList (right.members.map TokenElement.name)) ∧
    (∀ set : TokenSet, ∃ names, readText? (set.textWith hidden) = some names ∧
      names.Pairwise (· ≤ ·) ∧
      Multiset.ofList names = Multiset.ofList (set.members.map TokenElement.name) ∧
      ∃ quoted, List.Forall₂ (Text.Quoted.Quotes hidden) names quoted ∧
        set.textWith hidden = "\x7b" ++ ", ".intercalate quoted ++ "\x7d") ∧
    ∀ acts, ∀ left ∈ (Client.after acts).shelf.sets, ∀ right : TokenSet,
      left.sameAs right = true → left.textWith hidden = right.textWith hidden := by
  refine ⟨?_, ?_, ?_⟩
  · intro left right
    rw [textWith_eq_iff, names_eq_iff, Multiset.coe_eq_coe]
  · intro set
    have hQuoted : List.Forall₂ (Text.Quoted.Quotes hidden) set.names
        (set.names.map (Text.Quoted.quote hidden)) := by
      rw [List.forall₂_map_right_iff, List.forall₂_same]
      exact fun name _ => Text.Quoted.quotes_quote hidden name
    exact ⟨set.names, readText?_textWith hidden set, set.pairwise_names,
      Multiset.coe_eq_coe.mpr set.perm_names, _, hQuoted, rfl⟩
  · intro acts left hLeft right hSame
    have hNodup := ((Client.sound_after acts).within_of_mem hLeft).nodup
    have hMembers := perm_of_sameAs hNodup hSame
    rw [textWith_eq_iff, names_eq_iff]
    exact hMembers.map TokenElement.name

/-- Other instances of the same names have the same text. A name that looks like the end of one name
and the start of another is not taken for two. -/
theorem text_tells_the_names_of_quotes :
    let token := fun serial name => TokenElement.mk serial ⟨1⟩ name none false
    let set := ofList [token 0 "b", token 1 "a\", \"\\", token 2 "", token 3 "b", token 4 "\x7d\x7f"]
    let other := ofList [token 5 "\x7d\x7f", token 6 "b", token 7 "", token 8 "a\", \"\\",
      token 9 "b"]
    set.text = other.text ∧ readText? set.text = some ["", "a\", \"\\", "b", "b", "\x7d\x7f"] ∧
    (ofList [token 0 "a\", \"b"]).text ≠ (ofList [token 0 "a", token 1 "b"]).text := by
  intro token set other
  obtain ⟨hSame, hRead, _⟩ := text_tells_the_names Text.isHidden
  refine ⟨(hSame set other).mpr (by decide), ?_, fun hText => ?_⟩
  · obtain ⟨names, hNames, hSorted, hSameNames, _⟩ := hRead set
    have hPerm : names.Perm ["", "a\", \"\\", "b", "b", "\x7d\x7f"] :=
      (Multiset.coe_eq_coe.mp hSameNames).trans (by decide)
    have hOrder := hPerm.eq_of_pairwise (fun _ _ _ _ => String.le_antisymm) hSorted (by decide)
    rw [← hOrder]
    exact hNames
  · have hNames :=
      (hSame (ofList [token 0 "a\", \"b"]) (ofList [token 0 "a", token 1 "b"])).mp hText
    revert hNames
    decide

end TokenSet

end GrammarCatalog
