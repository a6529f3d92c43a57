import Prepaid.Command.Basic
import Prepaid.Service

/-!
# Scripts

The commands of a file are applied to a service one after the other. A command
that is rejected does not stop those behind it. Commands name checkout sessions
by aliases of their own; an alias stands for the session that was opened under it
last, and any other name for itself.
-/

namespace Prepaid

/-- A service, and the sessions that aliases stand for. -/
structure Script where
  service : Service
  aliases : Table String String := .empty

namespace Script

/-- A step of a script. -/
abbrev Step (α : Type) : Type :=
  ExceptT Failure (StateM Script) α

/-- A call of the service. -/
def onService {α : Type} (call : Service.Call α) : Step α := fun script =>
  let (result, service) := call script.service
  (result, { script with service })

/-- A call of the ledger, of which only the effect counts. -/
def onLedger {α : Type} (call : Ledger.Call α) : Step Unit := do
  let _ ← onService (Service.onLedger call)

/-- A check that can only be refused. -/
def rule {α : Type} (result : Except Rejection α) : Step α :=
  liftM (orReject result)

/-- The session that a name stands for. -/
def resolve (name : String) (script : Script) : String :=
  (script.aliases.get? name).getD name

/-- The member of the staff for whom a command acts: its user, or user 0. -/
def staff (command : Command) : Actor :=
  .staff (command.user.getD ⟨0⟩)

/-- Registers the order of a command. -/
def register (command : Command) (stamp : Stamp) : Step Unit := do
  let id ← rule command.demandOrder
  let customer ← rule command.demandUser
  let total ← rule command.demandAmount
  let windowStart ← rule command.demandInstant
  onLedger (Ledger.register { id, customer, total, windowStart } stamp)

/-- Opens the session of a command, and remembers it under the command's alias. -/
def checkout (settings : Settings) (command : Command) (stamp : Stamp) : Step Unit := do
  let user ← rule command.demandUser
  let amount ← rule command.demandAmount
  let (opened, _) ← onService (Service.checkout settings (.customer user) user amount stamp)
  let name ← rule command.demandSession
  modify fun script => { script with aliases := script.aliases.put name opened.session }

/-- Pays the session of a command and delivers the notice about it. -/
def payAndDeliver (command : Command) (stamp : Stamp) : Step Unit := do
  let session := (← get).resolve (← rule command.demandSession)
  let event ← rule command.demandEvent
  onService do
    let body := Text.bytes (← Service.pay session event stamp)
    let signature := (← get).gateway.sign body
    let _ ← Service.deliver body signature stamp

/-- Applies a command. The values that its kind needs are asked for in the order in which they are
used. -/
def apply (settings : Settings) (command : Command) (stamp : Stamp) : Step Unit := do
  match command.kind with
  | .deposit =>
    let user ← rule command.demandUser
    let amount ← rule command.demandAmount
    onLedger (Ledger.deposit settings user amount stamp)
  | .order => register command stamp
  | .place =>
    let user ← rule command.demandUser
    onLedger (Ledger.place (.customer user) (← rule command.demandOrder) stamp)
  | .prepare => onLedger (Ledger.prepare (staff command) (← rule command.demandOrder) stamp)
  | .capture => onLedger (Ledger.charge (staff command) (← rule command.demandOrder) stamp)
  | .complete => onLedger (Ledger.complete (staff command) (← rule command.demandOrder) stamp)
  | .refund => onLedger (Ledger.repay (staff command) (← rule command.demandOrder) stamp)
  | .cancel =>
    let user ← rule command.demandUser
    let order ← rule command.demandOrder
    onLedger (Ledger.cancel settings (.customer user) order (command.instant.getD stamp.now) stamp)
  | .checkout => checkout settings command stamp
  | .webhook => payAndDeliver command stamp
  | .sync =>
    let session := (← get).resolve (← rule command.demandSession)
    let _ ← onService (Service.reconcile session stamp)
  | .expire =>
    let session := (← get).resolve (← rule command.demandSession)
    onService (Service.expire session)

/-- Applies commands one after the other, each under its stamp. A row without a command is its own
rejection. -/
def run (settings : Settings) : List (Except Rejection Command × Stamp) → Script →
    List (Except Failure Unit) × Script
  | [], script => ([], script)
  | (.error rejection, _) :: rest, script =>
    let (results, script) := run settings rest script
    (.error (.rejected rejection) :: results, script)
  | (.ok command, stamp) :: rest, script =>
    let (result, script) := apply settings command stamp script
    let (results, script) := run settings rest script
    (result :: results, script)

end Script

end Prepaid
