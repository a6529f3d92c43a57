/-!
# The life of an order

An order is registered as pending, is confirmed when its total is put on hold,
is prepared, is paid when the hold is captured, and is completed when the meal is
handed out. It can be cancelled at any time before that and, with a refund, after.
-/

namespace Prepaid

/-- How far an order has come. -/
inductive OrderStatus where
  | pending
  | confirmed
  | preparing
  | paid
  | completed
  | cancelled
  deriving DecidableEq, Repr

namespace OrderStatus

/-- All states, in the order of an order's life. -/
def all : List OrderStatus :=
  [pending, confirmed, preparing, paid, completed, cancelled]

/-- The name of a state. -/
def name : OrderStatus → String
  | pending => "pending"
  | confirmed => "confirmed"
  | preparing => "preparing"
  | paid => "paid"
  | completed => "completed"
  | cancelled => "cancelled"

/-- The state with a given name. -/
def ofName? (text : String) : Option OrderStatus :=
  all.find? fun status => status.name = text

/-- The moves that the life of an order allows. -/
def canBecome : OrderStatus → OrderStatus → Bool
  | pending, confirmed => true
  | pending, paid => true
  | pending, cancelled => true
  | confirmed, preparing => true
  | confirmed, paid => true
  | confirmed, cancelled => true
  | preparing, paid => true
  | preparing, cancelled => true
  | paid, completed => true
  | paid, cancelled => true
  | completed, cancelled => true
  | _, _ => false

end OrderStatus

/-- What can be done with an order once it is registered. -/
inductive OrderAction where
  | hold
  | prepare
  | capture
  | complete
  | release
  | refund
  deriving DecidableEq, Repr

/-- The name of an action. -/
def OrderAction.name : OrderAction → String
  | .hold => "hold"
  | .prepare => "prepare"
  | .capture => "capture"
  | .complete => "complete"
  | .release => "release"
  | .refund => "refund"

end Prepaid
