import Prepaid.Gateway.Signature
import Prepaid.Notice
import Prepaid.Stamp
import Prepaid.Table

/-!
# The sandbox gateway

A stand-in for the payment provider. It opens checkout sessions, which are then
paid or expire, signs the notices it sends and checks the signatures of those
that arrive. A session is paid under one payment, however often it is completed.
-/

namespace Prepaid

/-- Whether a checkout session is paid. -/
inductive SessionState where
  | unpaid
  | paid
  | expired
  deriving DecidableEq, Repr

namespace SessionState

def all : List SessionState := [unpaid, paid, expired]

/-- The name of a state. -/
def name : SessionState → String
  | unpaid => "open"
  | paid => "paid"
  | expired => "expired"

/-- The state with a given name. -/
def ofName? (text : String) : Option SessionState :=
  all.find? fun state => state.name = text

/-- A state by its name. -/
def ofTree? (tree : Json.Tree) : Option SessionState :=
  tree.name?.bind ofName?

end SessionState

/-- A checkout session as the gateway keeps it. -/
structure CheckoutSession where
  user : UserId
  amount : Amount
  currency : String
  state : SessionState
  payment : Option String
  deriving DecidableEq

/-- The session once it is paid. Its payment is named the first time. -/
def CheckoutSession.pay (stamp : Stamp) (session : CheckoutSession) : CheckoutSession :=
  { session with
    state := .paid
    payment := some (session.payment.getD ("pi_" ++ stamp.payment.toCompactText)) }

/-- What a customer needs to pay a session. -/
structure Checkout where
  session : String
  secret : String
  deriving DecidableEq, Repr

/-- The payment gateway. -/
structure Gateway where
  /-- Signs the notices. -/
  secret : String
  sessions : Table String CheckoutSession := .empty

namespace Gateway

/-- The session with a given identifier. -/
def session (id : String) (gateway : Gateway) : Except Rejection CheckoutSession :=
  match gateway.sessions.get? id with
  | some session => .ok session
  | none => .error (.gateway (.unknownSession id))

def putSession (id : String) (session : CheckoutSession) (gateway : Gateway) : Gateway :=
  { gateway with sessions := gateway.sessions.put id session }

/-- Opens a session. -/
def openSession (user : UserId) (amount : Amount) (currency : String) (stamp : Stamp)
    (gateway : Gateway) : Checkout × Gateway :=
  let id := "cs_" ++ stamp.session.toCompactText
  let secret := id ++ "_secret_" ++ stamp.secret.toCompactText
  (⟨id, secret⟩,
    gateway.putSession id { user, amount, currency, state := .unpaid, payment := none })

/-- The body of the notice that a session is completed. It names the payment if there is one. -/
def completedBody (event session : String) (gateway : Gateway) : String :=
  (Notice.completedBody event session ((gateway.sessions.get? session).bind (·.payment))).toText

/-- Marks a session as paid. An expired one cannot be paid. -/
def completeSession (id : String) (stamp : Stamp) (gateway : Gateway) :
    Except Rejection Gateway := do
  let session ← gateway.session id
  if session.state = .expired then throw (.gateway (.expiredSession id))
  pure (gateway.putSession id (session.pay stamp))

/-- Abandons a session, unless it is paid. -/
def expireSession (id : String) (gateway : Gateway) : Except Rejection Gateway := do
  let session ← gateway.session id
  if session.state = .unpaid then pure (gateway.putSession id { session with state := .expired })
  else pure gateway

/-- The signature of a body. -/
def sign (body : List UInt8) (gateway : Gateway) : String :=
  Signature.sign gateway.secret body

/-- The notice in a body. -/
def notice (body : List UInt8) : Except SignatureFault Notice := do
  match (Text.ofBytes? body).bind Json.ofText? with
  | none => .error .malformedBody
  | some value =>
    match Notice.ofBody? value with
    | none => .error .malformedNotice
    | some notice => .ok notice

/-- The notice in a body that is signed correctly. -/
def verify (body : List UInt8) (signature : String) (gateway : Gateway) : Except Rejection Notice :=
  match Signature.check gateway.secret body signature with
  | .error fault => .error (.invalidSignature fault)
  | .ok () =>
    match notice body with
    | .error fault => .error (.invalidSignature fault)
    | .ok notice => .ok notice

end Gateway

end Prepaid
