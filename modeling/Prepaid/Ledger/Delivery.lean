import Prepaid.Gateway.Basic
import Prepaid.Ledger.Movement

/-!
# Deliveries

A notice that the gateway delivers is worked on in steps that are committed one by
one: its record is saved as being processed, the notice is applied, and its record
is saved as completed or failed. A completed notice is never applied again; a
failed one can be delivered again. A session can also be asked about at the
gateway, and both ways confirm a top-up at most once.
-/

namespace Prepaid

/-- What becomes of a notice or of a session that is asked about. -/
inductive Outcome where
  | credited
  | alreadyCredited
  | duplicate
  | ignored
  deriving DecidableEq, Repr

/-- The name of an outcome. -/
def Outcome.name : Outcome → String
  | credited => "credited"
  | alreadyCredited => "already_credited"
  | duplicate => "duplicate"
  | ignored => "ignored"

/-- What a delivery hands back: it is accepted, with the balance if the notice credited anything. -/
structure Delivery where
  notice : String
  outcome : Outcome
  balance : Option Balance

namespace Ledger

/-- The result of a call, whether it succeeds or fails. What it has committed stays. -/
def attempt {α : Type} (call : Call α) : Call (Except Failure α) := fun ledger =>
  let (result, ledger) := call ledger
  (.ok result, ledger)

/-- Saves the record of a notice. -/
def saveNotice (record : NoticeRecord) : Call Unit :=
  transact (Work.putNotice record)

/-- Does what a notice asks for. Only completed sessions move money. -/
def apply (notice : Notice) (stamp : Stamp) : Call (Outcome × Option Balance) := do
  if notice.type = Notice.sessionCompleted then
    match notice.session? with
    | none => rule (.error .malformedJson)
    | some session =>
      match ← confirmTopUp session.id session.payment stamp with
      | some receipt => pure (.credited, some receipt.balance)
      | none => pure (.alreadyCredited, none)
  else
    pure (.ignored, none)

/-- The record under which a notice is kept: an earlier one if there is one. -/
def noticeRecord (notice : Notice) (now : Instant) (ledger : Ledger) : NoticeRecord :=
  (ledger.tables.notices.get? notice.id).getD (.ofNotice notice now)

/-- Works on a notice. A rejection is recorded as far as that succeeds, and returned; an overflow
leaves the record as being processed. -/
def process (notice : Notice) (stamp : Stamp) : Call Delivery := do
  let record := (← get).noticeRecord notice stamp.now
  if record.isCompleted then
    pure { notice := notice.id, outcome := .duplicate, balance := none }
  else
    let record := record.markProcessing stamp.now
    saveNotice record
    match ← attempt (apply notice stamp) with
    | .ok (outcome, balance) =>
      saveNotice (record.markCompleted stamp.now)
      pure { notice := notice.id, outcome, balance }
    | .error (.rejected rejection) =>
      let _ ← attempt (saveNotice (record.markFailed rejection.message stamp.now))
      throw (.rejected rejection)
    | .error failure => throw failure

/-- Accepts the body of a notice, if it is signed correctly. -/
def deliver (gateway : Gateway) (body : List UInt8) (signature : String) (stamp : Stamp) :
    Call Delivery := do
  let notice ← rule (gateway.verify body signature)
  process notice stamp

/-- Asks the gateway about a session, and confirms its top-up if it is paid. -/
def reconcile (gateway : Gateway) (session : String) (stamp : Stamp) : Call Outcome := do
  let known ← rule (gateway.session session)
  if known.state = .paid then
    match ← confirmTopUp session known.payment stamp with
    | some _ => pure .credited
    | none => pure .alreadyCredited
  else
    pure .ignored

end Ledger

end Prepaid
