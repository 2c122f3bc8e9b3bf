/-
Module: Imprint.Files.RawText
Purpose: Names and paths as the operating system keeps them: bytes, which need not be well-formed
  text. A text has its bytes; bytes are shown as a text in which one replacement character stands
  for every longest piece that could have become a character but did not.
Main exports: RawText, RawText.ofText, RawText.split, RawText.join, RawText.shown
-/
import Imprint.Text.Split

namespace Imprint

/-- A text as the operating system keeps it. -/
structure RawText where
  bytes : List UInt8
deriving DecidableEq, Repr

namespace RawText

/-- The bytes of a text. -/
def ofText (text : String) : RawText := ⟨text.toList.flatMap String.utf8EncodeChar⟩

instance : Coe String RawText := ⟨ofText⟩

instance : Append RawText := ⟨fun first second => ⟨first.bytes ++ second.bytes⟩⟩

/-- There are no bytes. -/
def isEmpty (raw : RawText) : Bool := raw.bytes.isEmpty

/-- The number of bytes. -/
def size (raw : RawText) : Nat := raw.bytes.length

/-- The byte between the parts of a path. -/
def slash : UInt8 := 0x2F

/-- The byte that no path can have. -/
def nul : UInt8 := 0

/-- The pieces between the slashes. -/
def split (raw : RawText) : List RawText := (Text.cut slash raw.bytes).map .mk

/-- One after the other with a separator between them. -/
def join (separator : RawText) : List RawText → RawText
  | [] => ""
  | [raw] => raw
  | raw :: rest => raw ++ separator ++ join separator rest

/-! ### Showing bytes -/

/-- What is shown in the place of bytes that are no character. -/
def replacement : Char := '\uFFFD'

/-- A character of which some bytes are there: the bits so far, the range of the next byte, and how many
bytes come after that one. -/
structure Begun where
  bits : Nat
  low : Nat
  high : Nat
  more : Nat

/-- What the first byte of a character of several bytes says about the others. -/
def begun? (byte : UInt8) : Option Begun :=
  let lead := byte.toNat
  if lead < 0xC2 then none
  else if lead < 0xE0 then some ⟨lead % 32, 0x80, 0xBF, 0⟩
  else if lead = 0xE0 then some ⟨lead % 16, 0xA0, 0xBF, 1⟩
  else if lead = 0xED then some ⟨lead % 16, 0x80, 0x9F, 1⟩
  else if lead < 0xF0 then some ⟨lead % 16, 0x80, 0xBF, 1⟩
  else if lead = 0xF0 then some ⟨lead % 8, 0x90, 0xBF, 2⟩
  else if lead < 0xF4 then some ⟨lead % 8, 0x80, 0xBF, 2⟩
  else if lead = 0xF4 then some ⟨lead % 8, 0x80, 0x8F, 2⟩
  else none

/-- A byte where a character can begin: a character of its own, a character that has begun, or
something to replace. -/
def first (byte : UInt8) : Char ⊕ Begun :=
  if byte.toNat < 0x80 then .inl (Char.ofNat byte.toNat)
  else
    match begun? byte with
    | some begun => .inr begun
    | none => .inl replacement

/-- A character that has begun, with one more byte that fits. -/
def Begun.next? (begun : Begun) (byte : UInt8) : Option (Char ⊕ Begun) :=
  if begun.low ≤ byte.toNat ∧ byte.toNat ≤ begun.high then
    let bits := 64 * begun.bits + byte.toNat % 64
    match begun.more with
    | 0 => some (.inl (Char.ofNat bits))
    | more + 1 => some (.inr ⟨bits, 0x80, 0xBF, more⟩)
  else
    none

/-- The characters from one on that is complete or has begun. -/
def onward (rest : Option Begun → List Char) : Char ⊕ Begun → List Char
  | .inl character => character :: rest none
  | .inr begun => rest (some begun)

/-- The characters that bytes are shown as. A byte that does not fit breaks a character off and begins
anew. -/
def characters : Option Begun → List UInt8 → List Char
  | none, [] => []
  | some _, [] => [replacement]
  | none, byte :: rest => onward (fun begun? => characters begun? rest) (first byte)
  | some begun, byte :: rest =>
      match begun.next? byte with
      | some step => onward (fun begun? => characters begun? rest) step
      | none => replacement :: onward (fun begun? => characters begun? rest) (first byte)

/-- The text that is shown for bytes. -/
def shown (raw : RawText) : String := String.ofList (characters none raw.bytes)

end RawText

end Imprint
