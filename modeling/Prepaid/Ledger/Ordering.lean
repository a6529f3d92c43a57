import Prepaid.Actor
import Prepaid.Ledger.Movement

/-!
# Ordering

The calls that take an order through its life, with the rights of whoever makes
them and with the deadline of a cancellation. Money is moved by the calls of
`Prepaid.Ledger.Movement` only.
-/

namespace Prepaid.Ledger

/-- Registers an order as pending. -/
def register (order : NewOrder) (stamp : Stamp) : Call Order := do
  let order ← rule (Order.register order stamp.now)
  transact do
    Work.newOrder order.id
    Work.putOrder order
    pure order

/-- Refuses an action to anybody but the staff. -/
def requireStaff (actor : Actor) (action : OrderAction) : Except Rejection Unit :=
  if actor.isStaff then .ok () else .error (.forbidden (.staffOnly action))

/-- Moves an order on without moving money. -/
def advance (id : OrderId) (allowed : List OrderStatus) (next : OrderStatus) (action : OrderAction)
    (stamp : Stamp) : Call Order :=
  transact do
    let order ← Work.order id
    Work.rule (order.require allowed action)
    let order ← Work.rule (order.advance next action stamp.now)
    Work.putOrder order
    pure order

/-- Places an order of one's own, by holding its total. -/
def place (actor : Actor) (id : OrderId) (stamp : Stamp) : Call Receipt := do
  match (← get).tables.orders.get? id with
  | none => rule (.error (.orderNotFound id))
  | some order =>
    if actor.owns order.customer then hold id stamp
    else rule (.error (.forbidden .placeOrderOfOther))

/-- Marks a confirmed order as being prepared. -/
def prepare (actor : Actor) (id : OrderId) (stamp : Stamp) : Call Order := do
  rule (requireStaff actor .prepare)
  advance id [.confirmed] .preparing .prepare stamp

/-- Captures the hold of an order, as a member of the staff. -/
def charge (actor : Actor) (id : OrderId) (stamp : Stamp) : Call Receipt := do
  rule (requireStaff actor .capture)
  capture id stamp

/-- Marks a paid order as handed out. -/
def complete (actor : Actor) (id : OrderId) (stamp : Stamp) : Call Order := do
  rule (requireStaff actor .complete)
  advance id [.paid] .completed .complete stamp

/-- Refunds an order, as a member of the staff. -/
def repay (actor : Actor) (id : OrderId) (stamp : Stamp) : Call Receipt := do
  rule (requireStaff actor .refund)
  refund id stamp

/-- Whether a customer can cancel an order: it is the customer's own, and not past its deadline. -/
def cancellable (actor : Actor) (cutoff : Int) (now : Instant) (order : Order) :
    Except Rejection Unit :=
  if actor.owns order.customer then order.requireCancellable cutoff now
  else .error (.forbidden .cancelOrderOfOther)

/-- Cancels an order of one's own, asked for at an instant that is compared with the deadline. The
staff has no exemption. -/
def cancel (settings : Settings) (actor : Actor) (id : OrderId) (now : Instant) (stamp : Stamp) :
    Call Receipt := do
  let cutoff ← rule settings.cutoff
  release id (cancellable actor cutoff now) stamp

end Prepaid.Ledger
