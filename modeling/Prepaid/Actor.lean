import Prepaid.Ident

/-!
# Actors

The authenticated person on whose behalf a call is made.
-/

namespace Prepaid

/-- A user who makes a call, as a member of the staff or as a customer. -/
structure Actor where
  user : UserId
  isStaff : Bool := false
  deriving DecidableEq, Repr

namespace Actor

def customer (user : UserId) : Actor := { user }

def staff (user : UserId) : Actor := { user, isStaff := true }

/-- Whether something of this owner belongs to the actor. -/
def owns (owner : UserId) (actor : Actor) : Bool :=
  actor.user = owner

end Actor

end Prepaid
