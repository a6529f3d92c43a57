import Prepaid.Json.Record
import Prepaid.Rejection

/-!
# Orders

An order for a meal as the ledger knows it: whose it is, what it costs, when its
window begins and how far it has come. Only the state of an order ever changes.
-/

namespace Prepaid

/-- What the ordering system hands over. -/
structure NewOrder where
  id : OrderId
  customer : UserId
  total : Decimal
  windowStart : Instant

/-- An order in the ledger. -/
structure Order where
  id : OrderId
  customer : UserId
  total : Amount
  status : OrderStatus
  windowStart : Instant
  createdAt : Instant
  updatedAt : Instant
  deriving DecidableEq

/-- A state by its name. -/
def OrderStatus.ofTree? (tree : Json.Tree) : Option OrderStatus :=
  tree.name?.bind OrderStatus.ofName?

namespace Order

/-- A pending order; its total has to be above zero. -/
def register (order : NewOrder) (now : Instant) : Except Rejection Order := do
  let total ← Amount.ofDecimal order.total
  pure
    { id := order.id, customer := order.customer, total, status := .pending
      windowStart := order.windowStart, createdAt := now, updatedAt := now }

/-- The refusal of an action in the order's present state. -/
def refusal (order : Order) (action : OrderAction) : Rejection :=
  .invalidOrderState order.id order.status action

/-- Refuses an action unless the order is in one of the given states. -/
def require (allowed : List OrderStatus) (action : OrderAction) (order : Order) :
    Except Rejection Unit :=
  if order.status ∈ allowed then .ok () else .error (order.refusal action)

/-- Moves the order on, if the life of an order allows it. -/
def advance (next : OrderStatus) (action : OrderAction) (now : Instant) (order : Order) :
    Except Rejection Order :=
  if order.status.canBecome next then .ok { order with status := next, updatedAt := now }
  else .error (order.refusal action)

/-- The last instant at which the customer can cancel, a cutoff of so many seconds before the
window begins. -/
def deadline (cutoff : Int) (order : Order) : Except Rejection Instant :=
  match order.windowStart.minusSeconds? cutoff with
  | some deadline => .ok deadline
  | none => .error (.invalidSettings (.deadlineOutOfRange (Int.tdiv cutoff 60) order.id))

/-- Refuses a cancellation after the deadline. -/
def requireCancellable (cutoff : Int) (now : Instant) (order : Order) : Except Rejection Unit := do
  let deadline ← order.deadline cutoff
  if deadline < now then .error (.deadlinePassed order.id deadline) else .ok ()

/-- A stored order in JSON. -/
def toJson (order : Order) : Json :=
  .object
    [("id", .ofNatural order.id.val),
      ("user_id", .ofNatural order.customer.val),
      ("total_amount", .ofMoney order.total.money),
      ("status", .string order.status.name),
      ("scheduled_window_start", .ofInstant order.windowStart),
      ("created_at", .ofInstant order.createdAt),
      ("updated_at", .ofInstant order.updatedAt)]

/-- The order that a tree spells. -/
def ofTree? (tree : Json.Tree) : Option Order :=
  match tree.fields?
      ["id", "user_id", "total_amount", "status", "scheduled_window_start", "created_at",
        "updated_at"] with
  | some [id, customer, total, status, windowStart, createdAt, updatedAt] => do
    let id ← id.required?.bind Json.Tree.natural?
    let customer ← customer.required?.bind Json.Tree.natural?
    let total ← total.required?.bind Json.Tree.amount?
    let status ← status.required?.bind OrderStatus.ofTree?
    let windowStart ← windowStart.required?.bind Json.Tree.instant?
    let createdAt ← createdAt.required?.bind Json.Tree.instant?
    let updatedAt ← updatedAt.required?.bind Json.Tree.instant?
    pure { id := ⟨id⟩, customer := ⟨customer⟩, total, status, windowStart, createdAt, updatedAt }
  | _ => none

end Order

end Prepaid
