import Abacus.Python.IntLiteral

/-!
# The words of a text

`text.split()` of Python: the runs of characters that are not white space, in order. White space
here is what `isspace` answers yes to, which in ASCII has the four separators that `int` does not
strip.

`split_flatMap` reads words back that were each written with a white space after it.
-/

set_option autoImplicit false
set_option relaxedAutoImplicit false

namespace Abacus.Python

/-- `character.isspace()`. -/
def CharacterDatabase.isSpace (unicode : CharacterDatabase) (character : Char) : Bool :=
  if character.toNat < 128 then
    Python.isSpace character || (28 ≤ character.toNat && character.toNat ≤ 31)
  else unicode.space character

/-- `text.split()`. -/
def split (unicode : CharacterDatabase) (text : List Char) : List (List Char) :=
  (text.splitOnP unicode.isSpace).filter fun word ↦ !word.isEmpty

/-- A run of characters that are not white space. -/
def IsWord (unicode : CharacterDatabase) (word : List Char) : Prop :=
  word ≠ [] ∧ ∀ character ∈ word, unicode.isSpace character = false

variable {unicode : CharacterDatabase}

/-- No part of a split has a character that was split at. -/
theorem false_of_mem_splitOnP {dropped : Char → Bool} {text part : List Char}
    (h : part ∈ text.splitOnP dropped) : ∀ character ∈ part, dropped character = false := by
  induction text generalizing part with
  | nil =>
    rw [List.splitOnP_nil, List.mem_singleton] at h
    subst h
    simp
  | cons first rest ih =>
    obtain ⟨head, tail, hrest⟩ := List.exists_cons_of_ne_nil (List.splitOnP_ne_nil dropped rest)
    rw [hrest] at ih
    rw [List.splitOnP_cons_eq_if_modifyHead, hrest] at h
    split_ifs at h with hfirst
    · rcases List.mem_cons.mp h with rfl | hmem
      · simp
      · exact ih hmem
    · rw [List.modifyHead_cons] at h
      rcases List.mem_cons.mp h with rfl | hmem
      · intro character hcharacter
        rcases List.mem_cons.mp hcharacter with rfl | hcharacter
        · exact Bool.not_eq_true _ ▸ hfirst
        · exact ih List.mem_cons_self character hcharacter
      · exact ih (List.mem_cons_of_mem _ hmem)

theorem isWord_of_mem_split {text word : List Char} (h : word ∈ split unicode text) :
    IsWord unicode word := by
  obtain ⟨hmem, hsome⟩ := List.mem_filter.mp h
  refine ⟨?_, false_of_mem_splitOnP hmem⟩
  rintro rfl
  exact Bool.noConfusion hsome

/-- A word in front, with a white space after it, is the first. -/
theorem split_append_cons {word rest : List Char} {separator : Char} (hword : IsWord unicode word)
    (hseparator : unicode.isSpace separator = true) :
    split unicode (word ++ separator :: rest) = word :: split unicode rest := by
  have hsome : (!word.isEmpty) = true := by simpa using hword.1
  rw [split, List.splitOnP_append_cons_of_forall_mem hword.2 separator hseparator,
    List.filter_cons, if_pos hsome, split]

/-- Words that are each written with a white space after it are read back. -/
theorem split_flatMap {words : List (List Char)} {separator : Char}
    (hwords : ∀ word ∈ words, IsWord unicode word)
    (hseparator : unicode.isSpace separator = true) :
    split unicode (words.flatMap fun word ↦ word ++ [separator]) = words := by
  induction words with
  | nil => rfl
  | cons word words ih =>
    have hrest := ih fun other hmem ↦ hwords other (List.mem_cons_of_mem _ hmem)
    rw [List.flatMap_cons, List.append_assoc, List.singleton_append,
      split_append_cons (hwords word List.mem_cons_self) hseparator, hrest]

end Abacus.Python
