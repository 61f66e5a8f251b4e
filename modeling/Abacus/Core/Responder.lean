import Abacus.Python.Words

/-!
# What produces the replies

`Responder` and `StubResponder` of `core/responder.py`. A responder is handed a text and yields the
chunks of a reply, and need not answer one text the same way twice: it is the relation between a
text and the whole replies that it may give to it, as chunks. It may also raise at any time, which
is not its reply and not said here.
-/

set_option autoImplicit false
set_option relaxedAutoImplicit false

namespace Abacus

open Python (CharacterDatabase split IsWord)

/-- `Responder.respond`: the replies to a text, each as the chunks that it comes in. -/
abbrev Responder :=
  String → List String → Prop

/-- The chunks are the beginning of a reply. Before the first of them it need not have one. -/
def Responder.Begins (responder : Responder) (asked : String) (chunks : List String) : Prop :=
  chunks = [] ∨ ∃ rest, responder asked (chunks ++ rest)

/-- The chunks of `StubResponder.respond`. -/
def StubResponder.respond (unicode : CharacterDatabase) (text : String) : List String :=
  "echo: " :: (split unicode text.toList).map fun word ↦ String.ofList word ++ " "

/-- `StubResponder`, which has one reply to a text. -/
def StubResponder (unicode : CharacterDatabase) : Responder :=
  fun text chunks ↦ chunks = StubResponder.respond unicode text

/-- The words of the stub's reply are its greeting, and the words of the text. -/
theorem StubResponder.split_respond (unicode : CharacterDatabase) (text : String) :
    split unicode (String.join (StubResponder.respond unicode text)).toList =
      "echo:".toList :: split unicode text.toList := by
  have hspace : unicode.isSpace ' ' = true := by
    rw [CharacterDatabase.isSpace, if_pos (by decide)]
    rfl
  have hgreeting : IsWord unicode "echo:".toList := by
    refine ⟨by decide, fun character hmem ↦ ?_⟩
    have hcases : character = 'e' ∨ character = 'c' ∨ character = 'h' ∨ character = 'o' ∨
        character = ':' := by simpa using hmem
    obtain rfl | rfl | rfl | rfl | rfl := hcases <;>
      · rw [CharacterDatabase.isSpace, if_pos (by decide)]
        rfl
  have hwords : ∀ word ∈ "echo:".toList :: split unicode text.toList, IsWord unicode word := by
    intro word hmem
    rcases List.mem_cons.mp hmem with rfl | hmem
    · exact hgreeting
    · exact Python.isWord_of_mem_split hmem
  have hjoin : (String.join (StubResponder.respond unicode text)).toList =
      ("echo:".toList :: split unicode text.toList).flatMap fun word ↦ word ++ [' '] := by
    rw [String.toList_join, StubResponder.respond, List.flatMap_cons, List.flatMap_cons,
      List.flatMap_map]
    congr 1
    refine List.flatMap_congr fun word _ ↦ ?_
    simp
  rw [hjoin, Python.split_flatMap hwords hspace]

end Abacus
