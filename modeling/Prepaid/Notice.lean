import Prepaid.Json.Record

/-!
# Notices of the payment gateway

The gateway sends notices about checkout sessions. A notice has an identifier, a
type and a body; the ledger keeps one record for each identifier, which shows
what became of its deliveries.
-/

namespace Prepaid

/-- A notice, as its body spells it. -/
structure Notice where
  id : String
  type : String
  body : Json

/-- The checkout session that a notice is about, and the payment made for it. -/
structure PaidSession where
  id : String
  payment : Option String
  deriving DecidableEq, Repr

/-- What became of the deliveries of a notice. -/
inductive NoticeStatus where
  | pending
  | processing
  | completed
  | failed
  deriving DecidableEq, Repr

namespace NoticeStatus

def all : List NoticeStatus := [pending, processing, completed, failed]

/-- The name of a state. -/
def name : NoticeStatus → String
  | pending => "pending"
  | processing => "processing"
  | completed => "completed"
  | failed => "failed"

/-- The state with a given name. -/
def ofName? (text : String) : Option NoticeStatus :=
  all.find? fun status => status.name = text

/-- A state by its name. -/
def ofTree? (tree : Json.Tree) : Option NoticeStatus :=
  tree.name?.bind ofName?

end NoticeStatus

/-- The record of a notice. -/
structure NoticeRecord where
  id : String
  type : String
  body : Json
  status : NoticeStatus
  fault : Option String
  processedAt : Option Instant
  createdAt : Instant
  updatedAt : Instant

namespace PaidSession

/-- The session that a tree spells. The payment may be missing. -/
def ofTree? (tree : Json.Tree) : Option PaidSession :=
  match tree.fields? ["id", "payment_intent"] with
  | some [id, payment] => do
    let id ← id.required?.bind Json.Tree.text?
    let payment ←
      match payment with
      | .given _ => payment.optional? Json.Tree.text?
      | _ => some none
    pure { id, payment }
  | _ => none

/-- A session in JSON. -/
def toJson (session : PaidSession) : Json :=
  .object [("id", .string session.id), ("payment_intent", .ofOption .string session.payment)]

end PaidSession

namespace Notice

/-- The type of the notices that move money. -/
def sessionCompleted : String := "checkout.session.completed"

/-- The notice that a body holds: it needs an identifier and a type. -/
def ofBody? (body : Json) : Option Notice :=
  match body.toTree.fields? ["id", "type"] with
  | some [id, type] => do
    let id ← id.required?.bind Json.Tree.text?
    let type ← type.required?.bind Json.Tree.text?
    pure { id, type, body }
  | _ => none

/-- The session that the notice is about, in the object of its data. -/
def session? (notice : Notice) : Option PaidSession :=
  PaidSession.ofTree? (((notice.body.get? "data").bind (Json.get? "object")).getD .null).toTree

/-- The body of the notice that a session is completed. -/
def completedBody (id session : String) (payment : Option String) : Json :=
  .object
    [("data", .object [("object", PaidSession.toJson ⟨session, payment⟩)]),
      ("id", .string id),
      ("type", .string sessionCompleted)]

end Notice

namespace NoticeRecord

/-- The record of a notice that is delivered for the first time. -/
def ofNotice (notice : Notice) (now : Instant) : NoticeRecord :=
  { id := notice.id, type := notice.type, body := notice.body, status := .pending
    fault := none, processedAt := none, createdAt := now, updatedAt := now }

/-- Whether the notice has been processed to the end. -/
def isCompleted (record : NoticeRecord) : Bool :=
  record.status = .completed

/-- The record while a delivery is worked on. -/
def markProcessing (now : Instant) (record : NoticeRecord) : NoticeRecord :=
  { record with status := .processing, updatedAt := now }

/-- The record after a delivery that succeeded. -/
def markCompleted (now : Instant) (record : NoticeRecord) : NoticeRecord :=
  { record with status := .completed, fault := none, processedAt := some now, updatedAt := now }

/-- The record after a delivery that failed. -/
def markFailed (fault : String) (now : Instant) (record : NoticeRecord) : NoticeRecord :=
  { record with status := .failed, fault := some fault, updatedAt := now }

/-- A stored record in JSON. -/
def toJson (record : NoticeRecord) : Json :=
  .object
    [("event_id", .string record.id),
      ("event_type", .string record.type),
      ("payload", record.body),
      ("status", .string record.status.name),
      ("error_message", .ofOption .string record.fault),
      ("processed_at", .ofOption .ofInstant record.processedAt),
      ("created_at", .ofInstant record.createdAt),
      ("updated_at", .ofInstant record.updatedAt)]

/-- The record that a tree spells. Its body nests one level less deeply than a whole text. -/
def ofTree? (tree : Json.Tree) : Option NoticeRecord :=
  match tree.fields?
      ["event_id", "event_type", "payload", "status", "error_message", "processed_at", "created_at",
        "updated_at"] with
  | some [id, type, body, status, fault, processedAt, createdAt, updatedAt] => do
    let id ← id.required?.bind Json.Tree.text?
    let type ← type.required?.bind Json.Tree.text?
    let body ← body.required?.bind (Json.ofTree? (Json.depthLimit - 1))
    let status ← status.required?.bind NoticeStatus.ofTree?
    let fault ← fault.optional? Json.Tree.text?
    let processedAt ← processedAt.optional? Json.Tree.instant?
    let createdAt ← createdAt.required?.bind Json.Tree.instant?
    let updatedAt ← updatedAt.required?.bind Json.Tree.instant?
    pure { id, type, body, status, fault, processedAt, createdAt, updatedAt }
  | _ => none

end NoticeRecord

end Prepaid
