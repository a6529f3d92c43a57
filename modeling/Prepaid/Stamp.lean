import Prepaid.Ident
import Prepaid.Time.Instant

/-!
# Stamps

A call takes two kinds of things from outside: the time, and identifiers that
have never been used. Both come in a stamp, so that what a call does is a function
of its arguments, its stamp and the state it starts from.
-/

namespace Prepaid

/-- The time of a call, and the identifiers of what the call may create. -/
structure Stamp where
  now : Instant
  wallet : WalletId
  entry : EntryId
  /-- Names a checkout session. -/
  session : Uuid
  /-- Goes into the secret of a checkout session. -/
  secret : Uuid
  /-- Names the payment of a checkout session. -/
  payment : Uuid
  deriving DecidableEq

end Prepaid
