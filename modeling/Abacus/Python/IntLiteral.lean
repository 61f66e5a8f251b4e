import Mathlib.Data.List.DropRight
import Mathlib.Data.Nat.Digits.Defs

/-!
# Integers as text

`int(text, base)` and `str.replace(old, "")` of Python. `int` first turns every character that is
not ASCII into a space or a decimal digit where the Unicode database knows it as one, then reads
white space, a sign, the prefix `0x` when the base is sixteen, and digits with single underscores
between them. A text in a base that is no power of two may have at most 4300 digits.

`readInt_of_digits` is the case of a text that is digits only.
-/

set_option autoImplicit false
set_option relaxedAutoImplicit false

namespace Abacus.Python

/-- What the Unicode database has about a character that is not ASCII. -/
structure CharacterDatabase where
  decimal : Char → Option (Fin 10)
  space : Char → Bool

/-- The ASCII character that `int` reads; `?` is none that it accepts. -/
def CharacterDatabase.ascii (unicode : CharacterDatabase) (character : Char) : Char :=
  if character.toNat < 127 then character
  else if unicode.space character then ' '
  else
    match unicode.decimal character with
    | some digit => Nat.digitChar digit
    | none => '?'

/-- White space in ASCII. -/
def isSpace (character : Char) : Bool :=
  character = ' ' || (9 ≤ character.toNat && character.toNat ≤ 13)

/-- The value of a digit, in any base up to thirty-six. -/
def digitOf (base : ℕ) (character : Char) : Option ℕ :=
  let code := character.toNat
  let value :=
    if 48 ≤ code ∧ code ≤ 57 then code - 48
    else if 97 ≤ code ∧ code ≤ 122 then code - 87
    else if 65 ≤ code ∧ code ≤ 90 then code - 55
    else 36
  if value < base then some value else none

/-- The digits after the first, with an underscore before any of them. -/
def readDigits (base value : ℕ) : List Char → Option ℕ
  | [] => some value
  | '_' :: character :: rest =>
    (digitOf base character).bind fun digit ↦ readDigits base (value * base + digit) rest
  | character :: rest =>
    (digitOf base character).bind fun digit ↦ readDigits base (value * base + digit) rest

/-- A digit, and the digits after it. -/
def readNumber (base : ℕ) : List Char → Option ℕ
  | [] => none
  | character :: rest => (digitOf base character).bind fun digit ↦ readDigits base digit rest

/-- `sys.get_int_max_str_digits()`. -/
def maxStrDigits : ℕ :=
  4300

/-- The number after the sign. -/
def readUnsigned (base : ℕ) (text : List Char) : Option ℕ :=
  if base = 16 then
    match text with
    | '0' :: 'x' :: '_' :: rest => readNumber base rest
    | '0' :: 'X' :: '_' :: rest => readNumber base rest
    | '0' :: 'x' :: rest => readNumber base rest
    | '0' :: 'X' :: rest => readNumber base rest
    | _ => readNumber base text
  else if maxStrDigits < (text.filter (· ≠ '_')).length then none
  else readNumber base text

/-- `text.strip(…)`: nothing that is to be dropped is left at either end. -/
def strip (dropped : Char → Bool) (text : List Char) : List Char :=
  (text.dropWhile dropped).rdropWhile dropped

/-- `int(text, base)`, with `none` for `ValueError`; the bases are 10 and 16. -/
def readInt (unicode : CharacterDatabase) (base : ℕ) (text : List Char) : Option Int :=
  match strip isSpace (text.map unicode.ascii) with
  | '+' :: rest => (readUnsigned base rest).map fun value ↦ (value : Int)
  | '-' :: rest => (readUnsigned base rest).map fun value ↦ -(value : Int)
  | rest => (readUnsigned base rest).map fun value ↦ (value : Int)

/-- `text.replace(old, "")` for an `old` that is not empty; `skip` characters are left of the
occurrence that is being removed. -/
def removeFrom (old : List Char) : ℕ → List Char → List Char
  | _, [] => []
  | skip + 1, _ :: rest => removeFrom old skip rest
  | 0, character :: rest =>
    if old.isPrefixOf (character :: rest) then removeFrom old (old.length - 1) rest
    else character :: removeFrom old 0 rest

/-- `text.replace(old, "")`. -/
def removeAll (old text : List Char) : List Char :=
  removeFrom old 0 text

/-! ### Texts that hold nothing but digits -/

/-- Nothing is removed of a text without the first character of what is removed. -/
theorem removeAll_of_notMem {first : Char} {old text : List Char} (h : first ∉ text) :
    removeAll (first :: old) text = text := by
  unfold removeAll
  induction text with
  | nil => rfl
  | cons character rest ih =>
    have hne : first ≠ character := fun heq ↦ h (heq ▸ List.mem_cons_self)
    have hbase : (first :: old).isPrefixOf (character :: rest) = false := by
      rw [List.isPrefixOf, beq_false_of_ne hne, Bool.false_and]
    rw [removeFrom, hbase, if_neg Bool.false_ne_true, ih fun hmem ↦ h (List.mem_cons_of_mem _ hmem)]

/-- Nothing is stripped of a text with no character to strip. -/
theorem strip_of_forall {dropped : Char → Bool} {text : List Char}
    (h : ∀ character ∈ text, dropped character = false) : strip dropped text = text := by
  have hfirst : text.dropWhile dropped = text :=
    List.dropWhile_eq_self_iff.mpr fun hlength ↦ by simp [h _ (List.getElem_mem hlength)]
  rw [strip, hfirst]
  exact List.rdropWhile_eq_self_iff.mpr fun hne ↦ by simp [h _ (List.getLast_mem hne)]

/-- A character that is a hexadecimal digit as `'%x'` writes it. -/
def IsHexDigit (character : Char) : Prop :=
  ∃ digit < 16, character = Nat.digitChar digit

theorem digitOf_digitChar {digit : ℕ} (h : digit < 16) :
    digitOf 16 (Nat.digitChar digit) = some digit := by
  have hall : ∀ digit < 16, digitOf 16 (Nat.digitChar digit) = some digit := by decide
  exact hall digit h

/-- What else a hexadecimal digit is not. -/
theorem IsHexDigit.plain {character : Char} (h : IsHexDigit character) :
    character.toNat < 127 ∧ isSpace character = false ∧ character ≠ '+' ∧ character ≠ '-' ∧
      character ≠ '_' ∧ character ≠ 'x' ∧ character ≠ 'X' ∧ character ≠ 'u' ∧
        character ≠ '\x7b' ∧ character ≠ '\x7d' := by
  obtain ⟨digit, hdigit, rfl⟩ := h
  have hall : ∀ digit < 16, (Nat.digitChar digit).toNat < 127 ∧
      isSpace (Nat.digitChar digit) = false ∧ Nat.digitChar digit ≠ '+' ∧
        Nat.digitChar digit ≠ '-' ∧ Nat.digitChar digit ≠ '_' ∧ Nat.digitChar digit ≠ 'x' ∧
          Nat.digitChar digit ≠ 'X' ∧ Nat.digitChar digit ≠ 'u' ∧
            Nat.digitChar digit ≠ '\x7b' ∧ Nat.digitChar digit ≠ '\x7d' := by decide
  exact hall digit hdigit

theorem readDigits_cons {base value : ℕ} {character : Char} (h : character ≠ '_')
    (rest : List Char) : readDigits base value (character :: rest) =
      (digitOf base character).bind fun digit ↦ readDigits base (value * base + digit) rest := by
  rw [readDigits]
  rintro _ _ rfl
  exact absurd rfl h

theorem readUnsigned_of_digits {text : List Char} (h : ∀ character ∈ text, IsHexDigit character) :
    readUnsigned 16 text = readNumber 16 text := by
  have hbase : ∀ second rest, text = '0' :: second :: rest → second ≠ 'x' ∧ second ≠ 'X' := by
    rintro second rest rfl
    obtain ⟨-, -, -, -, -, hlower, hupper, -⟩ := (h second (by simp)).plain
    exact ⟨hlower, hupper⟩
  unfold readUnsigned
  rw [if_pos rfl]
  split
  · exact absurd rfl (hbase _ _ rfl).1
  · exact absurd rfl (hbase _ _ rfl).2
  · exact absurd rfl (hbase _ _ rfl).1
  · exact absurd rfl (hbase _ _ rfl).2
  · rfl

/-- Hexadecimal digits are read as their number. -/
theorem readInt_of_digits (unicode : CharacterDatabase) {text : List Char}
    (h : ∀ character ∈ text, IsHexDigit character) :
    readInt unicode 16 text = (readNumber 16 text).map fun value ↦ (value : Int) := by
  have hascii : text.map unicode.ascii = text := by
    refine (List.map_congr_left fun character hmem ↦ ?_).trans (List.map_id text)
    rw [CharacterDatabase.ascii, if_pos (h character hmem).plain.1]
    rfl
  rw [readInt, hascii, strip_of_forall fun character hmem ↦ (h character hmem).plain.2.1,
    ← readUnsigned_of_digits h]
  have hplus : ∀ rest, text ≠ '+' :: rest := by
    rintro rest rfl
    exact (h '+' List.mem_cons_self).plain.2.2.1 rfl
  have hminus : ∀ rest, text ≠ '-' :: rest := by
    rintro rest rfl
    exact (h '-' List.mem_cons_self).plain.2.2.2.1 rfl
  split
  · exact absurd rfl (hplus _)
  · exact absurd rfl (hminus _)
  · rfl

/-- A number is read digit by digit from zero. -/
theorem readNumber_eq_readDigits {text : List Char} (hne : text ≠ [])
    (h : ∀ character ∈ text, IsHexDigit character) :
    readNumber 16 text = readDigits 16 0 text := by
  cases text with
  | nil => exact absurd rfl hne
  | cons character rest =>
    rw [readNumber, readDigits_cons (h character List.mem_cons_self).plain.2.2.2.2.1]
    simp only [Nat.zero_mul, Nat.zero_add]

/-- Digits after a value shift it. -/
theorem readDigits_append {value first : ℕ} {front : List Char}
    (hplain : ∀ character ∈ front, IsHexDigit character)
    (hfront : readDigits 16 value front = some first) (rest : List Char) :
    readDigits 16 value (front ++ rest) = readDigits 16 first rest := by
  induction front generalizing value with
  | nil => rw [← Option.some.inj hfront, List.nil_append]
  | cons character front ih =>
    have hdigit := hplain character List.mem_cons_self
    rw [readDigits_cons hdigit.plain.2.2.2.2.1] at hfront
    obtain ⟨digit, hread, hfront⟩ := Option.bind_eq_some_iff.mp hfront
    rw [List.cons_append, readDigits_cons hdigit.plain.2.2.2.2.1, hread, Option.bind_some]
    exact ih (fun other hmem ↦ hplain other (List.mem_cons_of_mem _ hmem)) hfront

end Abacus.Python
