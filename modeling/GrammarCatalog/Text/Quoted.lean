/-! Quoted texts. A text is written between quotation marks so that its end can be found, and so
that characters which would not be shown can be read. Which characters these are is for the writer
to say. Reading gives back what was written, up to the closing mark, whatever comes after it. -/
namespace GrammarCatalog.Text.Quoted

/-- The letter that stands for a character after a backslash. -/
def letter? : Char → Option Char
  | '"' => some '"'
  | '\\' => some '\\'
  | '\n' => some 'n'
  | '\r' => some 'r'
  | '\t' => some 't'
  | '\x00' => some '0'
  | _ => none

/-- Writes one character: by its letter, by its code in hexadecimal if it is hidden, or as it is. -/
def writeChar (hidden : Char → Bool) (c : Char) : List Char :=
  match letter? c with
  | some letter => ['\\', letter]
  | none =>
    if hidden c then ['\\', 'u', '\x7b'] ++ Nat.toDigits 16 c.toNat ++ ['\x7d'] else [c]

/-- Writes a text between quotation marks. -/
def write (hidden : Char → Bool) (text : List Char) : List Char :=
  '"' :: (text.flatMap (writeChar hidden) ++ ['"'])

/-- The quoted form of a string. -/
def quote (hidden : Char → Bool) (text : String) : String :=
  String.ofList (write hidden text.toList)

/-- What a letter after a backslash stands for. -/
def unletter? : Char → Option Char
  | '"' => some '"'
  | '\\' => some '\\'
  | 'n' => some '\n'
  | 'r' => some '\r'
  | 't' => some '\t'
  | '0' => some '\x00'
  | _ => none

/-- The value of a hexadecimal digit in lower case. -/
def digit? (c : Char) : Option Nat :=
  if '0' ≤ c ∧ c ≤ '9' then some (c.toNat - 48)
  else if 'a' ≤ c ∧ c ≤ 'f' then some (c.toNat - 87)
  else none

/-- Where in the written form of a character the reading stands. -/
inductive Place where
  /-- Before a character. -/
  | between
  /-- After a backslash. -/
  | escaped
  /-- After the `u` that announces a code. -/
  | announced
  /-- Within a code, of which this much is read. -/
  | code (value : Nat)

/-- Reads up to the closing mark and gives the text and what follows the mark. -/
def readFrom : Place → List Char → Option (List Char × List Char)
  | _, [] => none
  | .between, c :: rest =>
    if c = '"' then some ([], rest)
    else if c = '\\' then readFrom .escaped rest
    else (readFrom .between rest).map fun (text, after) => (c :: text, after)
  | .escaped, c :: rest =>
    if c = 'u' then readFrom .announced rest
    else (unletter? c).bind fun plain =>
      (readFrom .between rest).map fun (text, after) => (plain :: text, after)
  | .announced, c :: rest => if c = '\x7b' then readFrom (.code 0) rest else none
  | .code value, c :: rest =>
    if c = '\x7d' then
      (readFrom .between rest).map fun (text, after) => (Char.ofNat value :: text, after)
    else (digit? c).bind fun digit => readFrom (.code (16 * value + digit)) rest

/-- Reads a quoted text from the front. -/
def read : List Char → Option (List Char × List Char)
  | '"' :: rest => readFrom .between rest
  | _ => none

/-- A digit does not end the code, and is read with its value. -/
theorem digit?_digitChar (digit : Nat) (hDigit : digit < 16) :
    Nat.digitChar digit ≠ '\x7d' ∧ digit? (Nat.digitChar digit) = some digit := by
  revert digit
  decide

theorem readFrom_code_digit (value digit : Nat) (hDigit : digit < 16) (rest : List Char) :
    readFrom (.code value) (Nat.toDigits 16 digit ++ rest) =
      readFrom (.code (16 * value + digit)) rest := by
  obtain ⟨hEnd, hValue⟩ := digit?_digitChar digit hDigit
  simp [Nat.toDigits_of_lt_base hDigit, readFrom, hEnd, hValue]

/-- The digits of a code are read as that code. -/
theorem readFrom_digits (code : Nat) (rest : List Char) :
    readFrom (.code 0) (Nat.toDigits 16 code ++ rest) = readFrom (.code code) rest := by
  induction code using Nat.strongRecOn generalizing rest with
  | ind code ih =>
    by_cases hSmall : code < 16
    · simpa using readFrom_code_digit 0 code hSmall rest
    · have hDigit : code % 16 < 16 := Nat.mod_lt _ (by decide)
      have hSplit := Nat.toDigits_append_toDigits (b := 16) (n := code / 16) (d := code % 16)
        (by decide) (by omega) hDigit
      rw [Nat.div_add_mod] at hSplit
      rw [← hSplit, List.append_assoc, ih (code / 16) (by omega),
        readFrom_code_digit _ _ hDigit, Nat.div_add_mod]

theorem unletter?_of_letter? {c letter : Char} (hLetter : letter? c = some letter) :
    letter ≠ 'u' ∧ unletter? letter = some c := by
  unfold letter? at hLetter
  split at hLetter <;> cases hLetter <;> exact ⟨by decide, rfl⟩

/-- A written character is read as that character, whatever follows. -/
theorem readFrom_writeChar (hidden : Char → Bool) (c : Char) (rest : List Char) :
    readFrom .between (writeChar hidden c ++ rest) =
      (readFrom .between rest).map fun (text, after) => (c :: text, after) := by
  unfold writeChar
  cases hLetter : letter? c with
  | some letter =>
    obtain ⟨hOther, hBack⟩ := unletter?_of_letter? hLetter
    simp [readFrom, hOther, hBack]
  | none =>
    have hMark : c ≠ '"' := by rintro rfl; simp [letter?] at hLetter
    have hSlash : c ≠ '\\' := by rintro rfl; simp [letter?] at hLetter
    by_cases hHidden : hidden c = true
    · simp [hHidden, readFrom, readFrom_digits]
    · simp [hHidden, readFrom, hMark, hSlash]

/-- Reading gives back what was written, and leaves what follows alone. -/
theorem read_write (hidden : Char → Bool) (text after : List Char) :
    read (write hidden text ++ after) = some (text, after) := by
  have hRest : ∀ text : List Char,
      readFrom .between (text.flatMap (writeChar hidden) ++ '"' :: after) = some (text, after) := by
    intro text
    induction text with
    | nil => simp [readFrom]
    | cons c rest ih => simp [readFrom_writeChar, ih]
  simpa [write, read] using hRest text

/-- Reading uses up characters. -/
theorem length_of_readFrom {place : Place} {chars text after : List Char}
    (hRead : readFrom place chars = some (text, after)) : after.length < chars.length := by
  induction chars generalizing place text after with
  | nil => cases place <;> cases hRead
  | cons c rest ih =>
      have hLater : ∀ {place text}, readFrom place rest = some (text, after) →
          after.length < (c :: rest).length := by
        intro place text hRest
        exact Nat.lt_succ_of_lt (ih hRest)
      have hMap : ∀ {place text} {add : List Char → List Char},
          ((readFrom place rest).map fun (text, after) => (add text, after)) = some (text, after) →
            after.length < (c :: rest).length := by
        intro place text add hRest
        obtain ⟨⟨_, _⟩, hRest, hEqual⟩ := Option.map_eq_some_iff.mp hRest
        cases hEqual
        exact hLater hRest
      cases place with
      | between =>
          simp only [readFrom] at hRead
          split at hRead
          · cases hRead
            exact Nat.lt_succ_self _
          · split at hRead
            · exact hLater hRead
            · exact hMap hRead
      | escaped =>
          simp only [readFrom] at hRead
          split at hRead
          · exact hLater hRead
          · obtain ⟨plain, _, hRest⟩ := Option.bind_eq_some_iff.mp hRead
            exact hMap hRest
      | announced =>
          simp only [readFrom] at hRead
          split at hRead
          · exact hLater hRead
          · cases hRead
      | code value =>
          simp only [readFrom] at hRead
          split at hRead
          · exact hMap hRead
          · obtain ⟨digit, _, hRest⟩ := Option.bind_eq_some_iff.mp hRead
            exact hLater hRest

theorem length_of_read {chars text after : List Char} (hRead : read chars = some (text, after)) :
    after.length < chars.length := by
  unfold read at hRead
  split at hRead
  · exact Nat.lt_succ_of_lt (length_of_readFrom hRead)
  · cases hRead

end GrammarCatalog.Text.Quoted
