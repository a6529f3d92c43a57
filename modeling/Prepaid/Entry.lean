import Prepaid.Json.Record
import Prepaid.Rejection

/-!
# Ledger entries

Every movement of money is an entry. Entries stay as they are written, with three
exceptions: a pending hold becomes a completed payment or is cancelled, and a
pending deposit is completed when the payment gateway confirms it.
-/

namespace Prepaid

/-- What an entry stands for. -/
inductive EntryKind where
  | deposit
  | payment
  | refund
  | hold
  deriving DecidableEq, Repr

namespace EntryKind

def all : List EntryKind := [deposit, payment, refund, hold]

/-- The name of a kind. -/
def name : EntryKind → String
  | deposit => "deposit"
  | payment => "payment"
  | refund => "refund"
  | hold => "hold"

/-- The kind with a given name. -/
def ofName? (text : String) : Option EntryKind :=
  all.find? fun kind => kind.name = text

/-- A kind by its name. -/
def ofTree? (tree : Json.Tree) : Option EntryKind :=
  tree.name?.bind ofName?

end EntryKind

/-- Whether an entry is still open. -/
inductive EntryStatus where
  | pending
  | completed
  | cancelled
  deriving DecidableEq, Repr

namespace EntryStatus

def all : List EntryStatus := [pending, completed, cancelled]

/-- The name of a state. -/
def name : EntryStatus → String
  | pending => "pending"
  | completed => "completed"
  | cancelled => "cancelled"

/-- The state with a given name. -/
def ofName? (text : String) : Option EntryStatus :=
  all.find? fun status => status.name = text

/-- A state by its name. -/
def ofTree? (tree : Json.Tree) : Option EntryStatus :=
  tree.name?.bind ofName?

end EntryStatus

/-- What the payment gateway calls a deposit: the checkout session, and the payment once it is
made. -/
structure GatewayReference where
  session : Option String := none
  payment : Option String := none
  deriving DecidableEq, Repr

/-- One entry of the ledger. -/
structure Entry where
  id : EntryId
  wallet : WalletId
  order : Option OrderId
  kind : EntryKind
  amount : Amount
  /-- What the owner had when the entry was last written. -/
  balanceAfter : Money
  status : EntryStatus
  reference : GatewayReference
  createdAt : Instant
  updatedAt : Instant
  deriving DecidableEq

namespace Entry

/-- A deposit that is made at once. -/
def deposit (id : EntryId) (wallet : WalletId) (amount : Amount) (balanceAfter : Money)
    (now : Instant) : Entry :=
  { id, wallet, order := none, kind := .deposit, amount, balanceAfter, status := .completed
    reference := {}, createdAt := now, updatedAt := now }

/-- A deposit that waits for the gateway to confirm a checkout session. -/
def pendingDeposit (id : EntryId) (wallet : WalletId) (amount : Amount) (balanceAfter : Money)
    (session : String) (now : Instant) : Entry :=
  { id, wallet, order := none, kind := .deposit, amount, balanceAfter, status := .pending
    reference := { session := some session }, createdAt := now, updatedAt := now }

/-- A hold for an order. -/
def hold (id : EntryId) (wallet : WalletId) (order : OrderId) (amount : Amount)
    (balanceAfter : Money) (now : Instant) : Entry :=
  { id, wallet, order := some order, kind := .hold, amount, balanceAfter, status := .pending
    reference := {}, createdAt := now, updatedAt := now }

/-- A refund of an order. -/
def refund (id : EntryId) (wallet : WalletId) (order : OrderId) (amount : Amount)
    (balanceAfter : Money) (now : Instant) : Entry :=
  { id, wallet, order := some order, kind := .refund, amount, balanceAfter, status := .completed
    reference := {}, createdAt := now, updatedAt := now }

/-- The payment that a hold becomes. -/
def capture (balanceAfter : Money) (now : Instant) (entry : Entry) : Entry :=
  { entry with kind := .payment, status := .completed, balanceAfter, updatedAt := now }

/-- The entry with nothing left to come. -/
def cancel (now : Instant) (entry : Entry) : Entry :=
  { entry with status := .cancelled, updatedAt := now }

/-- The deposit that a confirmed checkout session becomes. -/
def confirm (payment : Option String) (balanceAfter : Money) (now : Instant) (entry : Entry) :
    Entry :=
  { entry with
    status := .completed
    reference := { entry.reference with payment }
    balanceAfter
    updatedAt := now }

/-- Whether the entry holds money for an order. -/
def isPendingHold (entry : Entry) : Bool :=
  entry.kind = .hold && entry.status = .pending

/-- The amount as it concerns the owner: negative for money that leaves or is held. -/
def signedAmount (entry : Entry) : Money :=
  match entry.kind with
  | .payment | .hold => .ofDecimal entry.amount.money.value.neg
  | .deposit | .refund => entry.amount.money

/-- A gateway's reference in JSON. -/
def referenceToJson (reference : GatewayReference) : Json :=
  .object
    [("checkout_session_id", .ofOption .string reference.session),
      ("payment_intent_id", .ofOption .string reference.payment)]

/-- The gateway's reference that a tree spells. -/
def referenceOfTree? (tree : Json.Tree) : Option GatewayReference :=
  match tree.fields? ["checkout_session_id", "payment_intent_id"] with
  | some [session, payment] => do
    let session ← session.optional? Json.Tree.text?
    let payment ← payment.optional? Json.Tree.text?
    pure { session, payment }
  | _ => none

/-- A stored entry in JSON. -/
def toJson (entry : Entry) : Json :=
  .object
    [("id", .ofUuid entry.id.val),
      ("balance_id", .ofUuid entry.wallet.val),
      ("order_id", .ofOption (fun order => .ofNatural order.val) entry.order),
      ("type", .string entry.kind.name),
      ("amount", .ofMoney entry.amount.money),
      ("remaining_balance", .ofMoney entry.balanceAfter),
      ("status", .string entry.status.name),
      ("gateway", referenceToJson entry.reference),
      ("created_at", .ofInstant entry.createdAt),
      ("updated_at", .ofInstant entry.updatedAt)]

/-- The entry that a tree spells. -/
def ofTree? (tree : Json.Tree) : Option Entry :=
  match tree.fields?
      ["id", "balance_id", "order_id", "type", "amount", "remaining_balance", "status", "gateway",
        "created_at", "updated_at"] with
  | some [id, wallet, order, kind, amount, balanceAfter, status, reference, createdAt, updatedAt] =>
    do
    let id ← id.required?.bind Json.Tree.uuid?
    let wallet ← wallet.required?.bind Json.Tree.uuid?
    let order ← order.optional? Json.Tree.natural?
    let kind ← kind.required?.bind EntryKind.ofTree?
    let amount ← amount.required?.bind Json.Tree.amount?
    let balanceAfter ← balanceAfter.required?.bind Json.Tree.money?
    let status ← status.required?.bind EntryStatus.ofTree?
    let reference ← reference.withDefault? {} referenceOfTree?
    let createdAt ← createdAt.required?.bind Json.Tree.instant?
    let updatedAt ← updatedAt.required?.bind Json.Tree.instant?
    pure
      { id := ⟨id⟩, wallet := ⟨wallet⟩, order := order.map OrderId.mk, kind, amount, balanceAfter
        status, reference, createdAt, updatedAt }
  | _ => none

end Entry

end Prepaid
