import Prepaid.Text.Integer

/-!
# Characters in quotes

How a single character is shown in a message: between apostrophes, with escapes
for those that cannot be seen. Only characters of one byte come up here.
-/

namespace Prepaid.Text

/-- The characters of one byte that have no visible form of their own. -/
def isHidden (c : Char) : Bool :=
  c.toNat < 0x20 || (0x7f ≤ c.toNat && c.toNat ≤ 0xa0) || c.toNat = 0xad

/-- A character of one byte as messages show it, without the apostrophes around it. -/
def shown (c : Char) : List Char :=
  if c.toNat = 0 then ['\\', '0']
  else if c = '\t' then ['\\', 't']
  else if c = '\n' then ['\\', 'n']
  else if c = '\r' then ['\\', 'r']
  else if c = '\'' then ['\\', '\'']
  else if c = '\\' then ['\\', '\\']
  else if isHidden c then ['\\', 'u', '\x7b'] ++ Nat.toDigits 16 c.toNat ++ ['\x7d']
  else [c]

/-- A character between apostrophes. -/
def quoted (c : Char) : String :=
  String.ofList ('\'' :: (shown c ++ ['\'']))

end Prepaid.Text
