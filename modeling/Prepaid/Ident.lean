import Prepaid.Text.Integer

/-!
# Identifiers

Users and orders are numbered by the systems in front of the ledger, with 64
bits. Wallets and ledger entries carry generated identifiers of 128 bits, which
are written as 32 hexadecimal digits, usually in five groups.
-/

namespace Prepaid

/-- A user of the canteen. -/
structure UserId where
  val : UInt64
  deriving DecidableEq, Repr

/-- An order for a meal. -/
structure OrderId where
  val : UInt64
  deriving DecidableEq, Repr

instance : ToString UserId := ⟨fun user => toString user.val⟩

instance : ToString OrderId := ⟨fun order => toString order.val⟩

/-- A generated identifier of 128 bits. -/
structure Uuid where
  bits : BitVec 128
  deriving DecidableEq, Repr

namespace Uuid

/-- The identifier that random bytes give. Six of its bits are fixed; they say that the others are
random. -/
def ofRandom (bytes : List UInt8) : Uuid :=
  let bits := BitVec.ofNat 128 (bytes.foldl (fun value byte => 256 * value + byte.toNat) 0)
  ⟨bits &&& ~~~0x000000000000f000c000000000000000#128 ||| 0x00000000000040008000000000000000#128⟩

/-- The lengths of the five groups of digits. -/
def groupLengths : List Nat := [8, 4, 4, 4, 12]

/-- The 32 hexadecimal digits, in lower case. -/
def digits (id : Uuid) : List Char :=
  (Nat.toDigits 16 id.bits.toNat).leftpad 32 '0'

/-- Puts a hyphen between groups of the given lengths. -/
def hyphenate : List Nat → List Char → List Char
  | [], text => text
  | [_], text => text
  | length :: lengths, text => text.take length ++ '-' :: hyphenate lengths (text.drop length)

/-- Takes away the hyphens between groups of the given lengths. -/
def unhyphenate? : List Nat → List Char → Option (List Char)
  | [], text => some text
  | [_], text => some text
  | length :: lengths, text =>
    match text.drop length with
    | '-' :: rest => (unhyphenate? lengths rest).map (text.take length ++ ·)
    | _ => none

/-- The digits without hyphens. -/
def toCompactText (id : Uuid) : String :=
  String.ofList id.digits

/-- The digits in groups. -/
def toText (id : Uuid) : String :=
  String.ofList (hyphenate groupLengths id.digits)

instance : ToString Uuid := ⟨toText⟩

/-- Exactly 32 hexadecimal digits. -/
def ofDigits? (text : List Char) : Option Uuid :=
  if text.length = 32 then
    (Text.digits? 16 Text.hexDigit? text).map fun value => ⟨BitVec.ofNat 128 value⟩
  else
    none

/-- Digits in groups. -/
def ofGroups? (text : List Char) : Option Uuid :=
  (unhyphenate? groupLengths text).bind ofDigits?

/-- Takes away an opening and a closing brace. -/
def unbrace? : List Char → Option (List Char)
  | '{' :: rest => if rest.getLast? = some '}' then some rest.dropLast else none
  | _ => none

/-- Takes away a beginning, which is given in lower case and may have either case. -/
def dropBeginning? (beginning text : List Char) : Option (List Char) :=
  if (text.take beginning.length).map Char.toLower = beginning then
    some (text.drop beginning.length)
  else none

/-- An identifier in any of its spellings: digits alone, in groups, in groups between braces, or
in groups behind `urn:uuid:`. Letters may have either case. -/
def ofText? (text : String) : Option Uuid :=
  let chars := text.toList
  (ofDigits? chars).or <|
    (ofGroups? chars).or <|
      ((unbrace? chars).bind ofGroups?).or <|
        (dropBeginning? "urn:uuid:".toList chars).bind ofGroups?

/-- Identifiers are ordered as the numbers that their digits spell. -/
def compare (left right : Uuid) : Ordering :=
  Ord.compare left.bits.toNat right.bits.toNat

end Uuid

/-- The generated identifier of a wallet. -/
structure WalletId where
  val : Uuid
  deriving DecidableEq, Repr

/-- The generated identifier of a ledger entry. -/
structure EntryId where
  val : Uuid
  deriving DecidableEq, Repr

instance : ToString WalletId := ⟨fun wallet => wallet.val.toText⟩

instance : ToString EntryId := ⟨fun entry => entry.val.toText⟩

end Prepaid
