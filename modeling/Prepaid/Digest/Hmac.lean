import Prepaid.Digest.Sha256

/-!
# Keyed digests

HMAC over SHA-256: the message is digested behind the key, and
that digest behind the key once more. A key longer than a block is digested first.
-/

namespace Prepaid.Digest

/-- A key filled up with zeros to a block of 64 bytes. -/
def hmacBlock (key : List UInt8) : List UInt8 :=
  let short := if 64 < key.length then sha256 key else key
  short ++ List.replicate (64 - short.length) 0

/-- The digest of a message under a key, 32 bytes. -/
def hmacSha256 (key message : List UInt8) : List UInt8 :=
  let block := hmacBlock key
  let inner := sha256 (block.map (· ^^^ 0x36) ++ message)
  sha256 (block.map (· ^^^ 0x5c) ++ inner)

end Prepaid.Digest
