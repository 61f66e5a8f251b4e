import Abacus.Core.Artifacts
import Abacus.Python.IntLiteral

/-!
# Identities as text

`uuid.UUID(text)` and `str`. The constructor drops every `urn:` and `uuid:`, braces at the ends and
all dashes, and reads what is left as a hexadecimal number if it is 32 characters long: many texts
name one identity. `Uuid.parse_text` is the round trip.
-/

set_option autoImplicit false
set_option relaxedAutoImplicit false

namespace Abacus.Uuid

open Python (CharacterDatabase IsHexDigit readDigits readInt readNumber removeAll strip)

/-- `uuid.UUID(text)`, with `none` for `ValueError`. -/
def parse (unicode : CharacterDatabase) (text : String) : Option Uuid :=
  let named := removeAll ['u', 'u', 'i', 'd', ':'] (removeAll ['u', 'r', 'n', ':'] text.toList)
  let hex := (strip (fun character ↦ character = '\x7b' || character = '\x7d') named).filter
    (· ≠ '-')
  if hex.length = 32 then
    (readInt unicode 16 hex).bind fun int ↦
      if 0 ≤ int ∧ int < 2 ^ 128 then some ⟨BitVec.ofInt 128 int⟩ else none
  else none

/-- `str(id)`. -/
def text (id : Uuid) : String :=
  String.ofList id.characters

theorem isHexDigit_of_mem_hexDigits {width number : ℕ} {character : Char}
    (h : character ∈ hexDigits width number) : IsHexDigit character := by
  induction width generalizing number with
  | zero => exact absurd h List.not_mem_nil
  | succ width ih =>
    rcases List.mem_append.mp h with hrest | hlast
    · exact ih hrest
    · exact ⟨number % 16, Nat.mod_lt _ (by omega), List.mem_singleton.mp hlast⟩

/-- The digits of a number are read back. -/
theorem readDigits_hexDigits {width number : ℕ} (hnumber : number < 16 ^ width) (value : ℕ) :
    readDigits 16 value (hexDigits width number) = some (value * 16 ^ width + number) := by
  induction width generalizing number with
  | zero =>
    rw [pow_zero, Nat.lt_one_iff] at hnumber
    rw [hnumber, pow_zero, mul_one, add_zero]
    rfl
  | succ width ih =>
    have hquotient : number / 16 < 16 ^ width := by
      rw [pow_succ] at hnumber
      exact Nat.div_lt_of_lt_mul (by omega)
    have hdigit : number % 16 < 16 := Nat.mod_lt _ (by omega)
    have hplain : Nat.digitChar (number % 16) ≠ '_' :=
      (show IsHexDigit _ from ⟨_, hdigit, rfl⟩).plain.2.2.2.2.1
    rw [hexDigits, Python.readDigits_append (fun _ ↦ isHexDigit_of_mem_hexDigits) (ih hquotient),
      Python.readDigits_cons hplain, Python.digitOf_digitChar hdigit, Option.bind_some, readDigits]
    rw [pow_succ, ← mul_assoc, add_mul, add_assoc, Nat.div_add_mod' number 16]

/-- The characters of a text are digits and dashes. -/
theorem mem_characters {id : Uuid} {character : Char} (h : character ∈ id.characters) :
    character = '-' ∨ IsHexDigit character := by
  by_cases hdash : character = '-'
  · exact Or.inl hdash
  · have hmem : character ∈ id.characters.filter (· ≠ '-') :=
      List.mem_filter.mpr ⟨h, by simpa using hdash⟩
    rw [filter_characters] at hmem
    exact Or.inr (isHexDigit_of_mem_hexDigits hmem)

/-- The constructor reads what `str` wrote. -/
theorem parse_text (unicode : CharacterDatabase) (id : Uuid) :
    parse unicode id.text = some id := by
  have hfree : 'u' ∉ id.characters := by
    intro hmem
    rcases mem_characters hmem with hdash | hdigit
    · exact absurd hdash (by decide)
    · exact hdigit.plain.2.2.2.2.2.2.2.1 rfl
  have hbraces : ∀ character ∈ id.characters,
      (decide (character = '\x7b') || decide (character = '\x7d')) = false := by
    intro character hmem
    rw [Bool.or_eq_false_iff, decide_eq_false_iff_not, decide_eq_false_iff_not]
    rcases mem_characters hmem with rfl | hdigit
    · exact ⟨by decide, by decide⟩
    · exact hdigit.plain.2.2.2.2.2.2.2.2
  have hnumber : id.int.toNat < 16 ^ 32 := by simpa using id.int.isLt
  have hdigits : ∀ character ∈ hexDigits 32 id.int.toNat, IsHexDigit character :=
    fun _ ↦ isHexDigit_of_mem_hexDigits
  have hne : hexDigits 32 id.int.toNat ≠ [] := List.ne_nil_of_length_pos (by
    rw [hexDigits_length]
    omega)
  have hread : readInt unicode 16 (hexDigits 32 id.int.toNat) = some (id.int.toNat : Int) := by
    rw [Python.readInt_of_digits unicode hdigits, Python.readNumber_eq_readDigits hne hdigits,
      readDigits_hexDigits hnumber]
    simp
  have hrange : (0 : Int) ≤ id.int.toNat ∧ (id.int.toNat : Int) < 2 ^ 128 :=
    ⟨Int.natCast_nonneg _, by exact_mod_cast id.int.isLt⟩
  have htext : id.text.toList = id.characters := String.toList_ofList
  rw [parse, htext, Python.removeAll_of_notMem hfree, Python.removeAll_of_notMem hfree,
    Python.strip_of_forall hbraces, filter_characters]
  rw [if_pos (hexDigits_length 32 _), hread, Option.bind_some, if_pos hrange]
  rw [BitVec.ofInt_natCast, BitVec.ofNat_toNat, BitVec.setWidth_eq]

end Abacus.Uuid
