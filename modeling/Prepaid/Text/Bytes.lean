import Prepaid.Text.Integer

/-!
# Bytes in text

The UTF-8 bytes of a text, and bytes in hexadecimal digits, two for each byte.
-/

namespace Prepaid.Text

/-- The UTF-8 bytes of a text. -/
def bytes (text : String) : List UInt8 :=
  text.toUTF8.data.toList

/-- The text that bytes spell in UTF-8, if they do. -/
def ofBytes? (bytes : List UInt8) : Option String :=
  String.fromUTF8? ⟨bytes.toArray⟩

/-- Bytes in hexadecimal digits, in lower case. -/
def hex (bytes : List UInt8) : List Char :=
  bytes.flatMap fun byte => [Nat.digitChar (byte.toNat / 16), Nat.digitChar (byte.toNat % 16)]

/-- A character for each byte, with the same number. -/
def charOfByte (byte : UInt8) : Char :=
  Char.ofNat byte.toNat

end Prepaid.Text
