import Prepaid.Digest.Hmac
import Prepaid.Rejection
import Prepaid.Text.Bytes

/-!
# Signatures

A delivery is signed with the keyed digest of its bytes. The signature is written
as `v1=` with the digest in hexadecimal digits behind it. Reading accepts digits
in either case and tells the first thing that is wrong.
-/

namespace Prepaid.Signature

/-- What stands in front of the digits. -/
def scheme : List Char := ['v', '1', '=']

/-- The digest of a body under a secret. -/
def digest (secret : String) (body : List UInt8) : List UInt8 :=
  Digest.hmacSha256 (Text.bytes secret) body

/-- The signature of a body. -/
def sign (secret : String) (body : List UInt8) : String :=
  String.ofList (scheme ++ Text.hex (digest secret body))

/-- Bytes from pairs of digits, the first of which stands at a given position. -/
def readPairs (position : Nat) : List Char → Except SignatureFault (List UInt8)
  | high :: low :: rest =>
    match Text.hexDigit? high, Text.hexDigit? low with
    | none, _ => .error (.invalidDigit high position)
    | some _, none => .error (.invalidDigit low (position + 1))
    | some high, some low =>
      (readPairs (position + 2) rest).map (UInt8.ofNat (16 * high + low) :: ·)
  | _ => .ok []

/-- Bytes in hexadecimal digits. The number of digits is checked before the digits are. -/
def readDigits (digits : List Char) : Except SignatureFault (List UInt8) :=
  if digits.length % 2 = 1 then .error .oddLength else readPairs 0 digits

/-- The digest in a signature. What is no digit is told byte by byte. -/
def read (signature : String) : Except SignatureFault (List UInt8) :=
  match (Text.bytes signature).map Text.charOfByte with
  | 'v' :: '1' :: '=' :: digits => readDigits digits
  | _ => .error .unknownScheme

/-- Refuses a signature that is not the body's. -/
def check (secret : String) (body : List UInt8) (signature : String) :
    Except SignatureFault Unit := do
  let claimed ← read signature
  if claimed = digest secret body then .ok () else .error .mismatch

end Prepaid.Signature
