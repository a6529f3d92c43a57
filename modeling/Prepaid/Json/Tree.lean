import Prepaid.Json.Number

/-!
# Syntax trees of JSON

A tree holds what a JSON text spells, before anything is made of it: numbers as
spelled, members in their order with repeated keys, and strings that may turn out
to hold no Unicode text. The tree of a value keeps its numbers as they are.
-/

namespace Prepaid.Json

/-- What a JSON text spells. A string with an unpaired surrogate has no content. -/
inductive Tree where
  | null
  | bool (value : Bool)
  | number (numeral : Numeral)
  | string (content : Option String)
  | array (elements : List Tree)
  | object (members : List (Option String × Tree))
  deriving Repr

namespace Tree

/-- The hexadecimal digit of a number below sixteen, in lower case. -/
def hexChar (digit : Nat) : Char :=
  Nat.digitChar digit

/-- The written form of a character within a string. -/
def escape (c : Char) : List Char :=
  if c = '"' then ['\\', '"']
  else if c = '\\' then ['\\', '\\']
  else if c = '\n' then ['\\', 'n']
  else if c = '\r' then ['\\', 'r']
  else if c = '\t' then ['\\', 't']
  else if c = '\x08' then ['\\', 'b']
  else if c = '\x0c' then ['\\', 'f']
  else if c.toNat < 32 then ['\\', 'u', '0', '0', hexChar (c.toNat / 16), hexChar (c.toNat % 16)]
  else [c]

/-- The written form of a string. -/
def stringChars (content : String) : List Char :=
  '"' :: (content.toList.flatMap escape ++ ['"'])

mutual

/-- The written form of a tree, without any blanks. -/
def chars : Tree → List Char
  | .null => "null".toList
  | .bool true => "true".toList
  | .bool false => "false".toList
  | .number numeral => numeral.chars
  | .string content => stringChars (content.getD "")
  | .array elements => '[' :: (elementChars elements ++ [']'])
  | .object members => '\x7b' :: (memberChars members ++ ['\x7d'])

/-- The written forms of the elements of an array, with commas between them. -/
def elementChars : List Tree → List Char
  | [] => []
  | [element] => element.chars
  | element :: next :: rest => element.chars ++ ',' :: elementChars (next :: rest)

/-- The written forms of the members of an object, with commas between them. -/
def memberChars : List (Option String × Tree) → List Char
  | [] => []
  | [(key, value)] => stringChars (key.getD "") ++ ':' :: value.chars
  | (key, value) :: next :: rest =>
    stringChars (key.getD "") ++ ':' :: (value.chars ++ ',' :: memberChars (next :: rest))

end

end Tree

end Prepaid.Json
