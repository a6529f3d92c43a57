import Prepaid.Ledger.Delivery
import Prepaid.Ledger.Ordering

/-!
# The service

The ledger together with the gateway that its customers pay through. A top-up
begins with a session at the gateway and with a pending entry in the ledger, and
ends with a delivery or a reconciliation that brings the two together.
-/

namespace Prepaid

/-- A ledger and its gateway. -/
structure Service where
  ledger : Ledger := {}
  gateway : Gateway

namespace Service

/-- A call that may change both sides. -/
abbrev Call (α : Type) : Type :=
  ExceptT Failure (StateM Service) α

/-- A call of the ledger. -/
def onLedger {α : Type} (call : Ledger.Call α) : Call α := fun service =>
  let (result, ledger) := call service.ledger
  (result, { service with ledger })

/-- A change of the gateway that can be refused. -/
def onGateway (change : Gateway → Except Rejection Gateway) : Call Unit := fun service =>
  match change service.gateway with
  | .ok gateway => (.ok (), { service with gateway })
  | .error rejection => (.error (.rejected rejection), service)

/-- Refuses a top-up of somebody else's wallet, except to the staff. -/
def requireTopUpRight (actor : Actor) (user : UserId) : Except Rejection Unit :=
  if actor.isStaff || actor.owns user then .ok () else .error (.forbidden .topUpWalletOfOther)

/-- Opens a session at the gateway and records the top-up that its payment will complete. -/
def checkout (settings : Settings) (actor : Actor) (user : UserId) (value : Decimal)
    (stamp : Stamp) : Call (Checkout × Receipt) := do
  let amount ← onLedger (Ledger.rule do
    requireTopUpRight actor user
    settings.depositAmount value)
  let (opened, gateway) := (← get).gateway.openSession user amount settings.currency stamp
  modify ({ · with gateway })
  let receipt ← onLedger (Ledger.recordTopUp user amount opened.session stamp)
  pure (opened, receipt)

/-- Pays a session, as a customer does at the gateway. The answer is the body of the notice that the
gateway sends about it. -/
def pay (session event : String) (stamp : Stamp) : Call String := do
  onGateway (·.completeSession session stamp)
  pure ((← get).gateway.completedBody event session)

/-- Abandons a session. -/
def expire (session : String) : Call Unit :=
  onGateway (·.expireSession session)

/-- Delivers the body of a notice. -/
def deliver (body : List UInt8) (signature : String) (stamp : Stamp) : Call Delivery := do
  onLedger (Ledger.deliver (← get).gateway body signature stamp)

/-- Asks the gateway about a session. -/
def reconcile (session : String) (stamp : Stamp) : Call Outcome := do
  onLedger (Ledger.reconcile (← get).gateway session stamp)

end Service

end Prepaid
