import Mathlib.Data.List.Defs

/-!
# The repr of a text

`repr` of a Python `str`: the text between quotes, with the escapes that a literal of it needs. The
quote is the apostrophe, unless the text has one and no double quote. Which characters are printable
is a table of the Unicode version that Python was built with, and a parameter here.
-/

set_option autoImplicit false
set_option relaxedAutoImplicit false

namespace Abacus.Python

/-- The apostrophe. -/
def apostrophe : Char := Char.ofNat 39

/-- The double quote. -/
def doubleQuote : Char := Char.ofNat 34

/-- The backslash. -/
def backslash : Char := Char.ofNat 92

/-- The quote of a text's repr. -/
def reprQuote (text : List Char) : Char :=
  if apostrophe ∈ text ∧ doubleQuote ∉ text then doubleQuote else apostrophe

/-- The escape of a character by its number, with so many hexadecimal digits. -/
def escaped (letter : Char) (width : ℕ) (character : Char) : List Char :=
  backslash :: letter :: (Nat.toDigits 16 character.toNat).leftpad width '0'

/-- A character as it stands in a repr. -/
def reprChar (printable : Char → Bool) (quote character : Char) : List Char :=
  if character = quote ∨ character = backslash then [backslash, character]
  else if character = '\t' then [backslash, 't']
  else if character = '\n' then [backslash, 'n']
  else if character = '\r' then [backslash, 'r']
  else if character.toNat < 32 ∨ character.toNat = 127 then escaped 'x' 2 character
  else if character.toNat < 127 ∨ printable character then [character]
  else if character.toNat < 256 then escaped 'x' 2 character
  else if character.toNat < 65536 then escaped 'u' 4 character
  else escaped 'U' 8 character

/-- `repr(text)`. -/
def repr (printable : Char → Bool) (text : String) : String :=
  let quote := reprQuote text.toList
  String.ofList (quote :: text.toList.flatMap (reprChar printable quote) ++ [quote])

example : repr (fun _ ↦ false) "synthétic" =
    String.ofList ([apostrophe] ++ "synth".toList ++ [backslash] ++ "xe9tic".toList ++
      [apostrophe]) := by decide

end Abacus.Python
