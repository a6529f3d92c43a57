import Prepaid.Command.Script
import Prepaid.Proofs.Service.Atomicity

/-!
# What commands come down to

A command asks the service for one thing at most. `Turn` has a case for each way in
which it does: it is refused before anything has happened, it performs a request, it
opens a session for which it may have no name, it pays one and delivers the notice of
that, or it lets one expire. What scripts reach, runs of the service reach.
-/

namespace Prepaid

namespace Service

variable {service : Service} {session : String} {stamp : Stamp}

/-- A payment that the gateway refuses changes nothing. -/
theorem pay_of_error {rejection : Rejection} (event : String)
    (refused : service.gateway.completeSession session stamp = .error rejection) :
    pay session event stamp service = (.error (.rejected rejection), service) := by
  apply bind_of_error
  rw [onGateway, refused]

/-- A payment that the gateway takes is told in a notice. -/
theorem pay_of_ok {gateway : Gateway} (event : String)
    (pays : service.gateway.completeSession session stamp = .ok gateway) :
    pay session event stamp service =
      (.ok (gateway.completedBody event session), { service with gateway }) := by
  have paid : onGateway (·.completeSession session stamp) service =
      (.ok (), { service with gateway }) := by
    rw [onGateway, pays]
  rw [pay, bind_of_ok paid]
  rfl

/-- What is delivered is what the gateway has said about the session, signed by it. -/
theorem payThenDeliver_of_ok {body : String} {paid after : Service}
    {result : Except Failure Delivery} {event : String}
    (pays : pay session event stamp service = (.ok body, paid))
    (delivers : deliver (Text.bytes body) (paid.gateway.sign (Text.bytes body)) stamp paid =
      (result, after)) :
    (do
      let body := Text.bytes (← pay session event stamp)
      let signature := (← get).gateway.sign body
      let _ ← deliver body signature stamp : Call Unit) service = (result.map fun _ => (),
      after) := by
  rw [bind_of_ok pays, bind_of_ok (get_apply paid), bind_apply, delivers]
  cases result <;> rfl

/-- A request that commands make as it is. They tell the ledger of no session themselves, and
deliver only what the gateway has sent. -/
def Request.isPassed : Request → Bool
  | .recordTopUp _ _ _ | .confirmTopUp _ _ | .deliver _ _ => false
  | _ => true

/-- Commands pass no delivery on as it is. -/
theorem Request.isDelivery_of_isPassed {request : Request} (passed : request.isPassed = true) :
    request.isDelivery = false := by
  cases request with
  | deliver => cases passed
  | _ => rfl

end Service

namespace Script

open Service

/-- What applying a command comes to, and the script afterwards. -/
inductive Turn (settings : Settings) (command : Command) (stamp : Stamp) (script : Script) :
    Except Failure Unit → Script → Prop where
  /-- A value is missing that is asked for first, or the gateway refuses. -/
  | refused (rejection : Rejection) :
      Turn settings command stamp script (.error (.rejected rejection)) script
  | asked (request : Request) (passed : request.isPassed = true) :
      Turn settings command stamp script
        ((request.perform settings stamp script.service).1.map fun _ => ())
        { script with service := (request.perform settings stamp script.service).2 }
  | opened {user : UserId} {value : Decimal} {checkout : Checkout} {receipt : Receipt}
      {after : Service} (name : String)
      (opens : Service.checkout settings (.customer user) user value stamp script.service =
        (.ok (checkout, receipt), after)) :
      Turn settings command stamp script (.ok ())
        { service := after, aliases := script.aliases.put name checkout.session }
  /-- The session is there before its name is found to be missing. -/
  | abandoned {user : UserId} {value : Decimal} {opening : Checkout × Receipt} {after : Service}
      {rejection : Rejection} (kind : command.kind = .checkout)
      (hasUser : command.demandUser = .ok user) (hasAmount : command.demandAmount = .ok value)
      (nameless : command.demandSession = .error rejection)
      (opens : Service.checkout settings (.customer user) user value stamp script.service =
        (.ok opening, after)) :
      Turn settings command stamp script
        (.error (.rejected rejection)) { script with service := after }
  | paid {session event : String} {gateway : Gateway}
      (pays : script.service.gateway.completeSession session stamp = .ok gateway)
      {result : Except Failure Delivery} {after : Service}
      (delivers : Service.deliver (Text.bytes (gateway.completedBody event session))
        (gateway.sign (Text.bytes (gateway.completedBody event session))) stamp
        { script.service with gateway } = (result, after)) :
      Turn settings command stamp script (result.map fun _ => ()) { script with service := after }
  | expired {session : String} {gateway : Gateway}
      (expires : script.service.gateway.expireSession session = .ok gateway) :
      Turn settings command stamp script
        (.ok ()) { script with service := { script.service with gateway } }

section Steps

variable {settings : Settings} {command : Command} {stamp : Stamp} {script : Script}

/-- A step of a script is one of the turns. -/
def Turns (settings : Settings) (command : Command) (stamp : Stamp) (script : Script)
    (step : Step Unit) : Prop :=
  Turn settings command stamp script (step script).1 (step script).2

/-- A rule leaves the script alone. -/
theorem rule_apply {α : Type} (result : Except Rejection α) (script : Script) :
    rule result script = (orReject result, script) := by
  cases result <;> rfl

/-- A call of the service changes nothing else of the script. -/
theorem onService_of_run {α : Type} {call : Service.Call α} {result : Except Failure α}
    {after : Service} (run : call script.service = (result, after)) :
    onService call script = (result, { script with service := after }) := by
  rw [onService, run]

namespace Turns

/-- A rule that is broken is a turn, and so is what follows one that is kept. -/
theorem rule {α : Type} {result : Except Rejection α} {next : α → Step Unit}
    (passed : ∀ value, result = .ok value → Turns settings command stamp script (next value)) :
    Turns settings command stamp script (rule result >>= next) := by
  cases result with
  | ok value =>
    rw [Turns, bind_of_ok (rule_apply _ _)]
    exact passed value rfl
  | error rejection =>
    rw [Turns, bind_of_error (rule_apply _ _)]
    exact .refused rejection

/-- Looking at the script changes nothing. -/
theorem read {next : Script → Step Unit}
    (passed : Turns settings command stamp script (next script)) :
    Turns settings command stamp script (get >>= next) :=
  passed

/-- A call of which only the effect counts is a request. -/
theorem asked {α : Type} {call : Service.Call α} {wrap : α → Answer} (request : Request)
    (passed : request.isPassed = true) (performs : request.perform settings stamp = wrap <$> call) :
    Turns settings command stamp script (onService call >>= fun _ => pure ()) := by
  have turn : Turn settings command stamp script _ _ := .asked request passed
  rcases called : call script.service with ⟨result, after⟩
  rw [performs, map_apply, called] at turn
  rw [Turns, bind_apply, onService_of_run called]
  cases result <;> exact turn

/-- A call of the ledger is the request that commands pass on. -/
theorem ledger {α : Type} {call : Ledger.Call α} {wrap : α → Answer} (request : Request)
    (passed : request.isPassed = true)
    (performs : request.perform settings stamp = wrap <$> Service.onLedger call) :
    Turns settings command stamp script (Script.onLedger call) :=
  asked request passed performs

/-- A checkout turns out as one of the turns. -/
theorem checkout (kind : command.kind = .checkout) :
    Turns settings command stamp script (Script.checkout settings command stamp) := by
  refine .rule fun user hasUser => .rule fun value hasAmount => ?_
  rcases called : Service.checkout settings (.customer user) user value stamp script.service with
    ⟨result, after⟩
  have ran := onService_of_run called
  cases result with
  | error failure =>
    rw [Turns, bind_of_error ran]
    have turn : Turn settings command stamp script _ _ :=
      .asked (.checkout (.customer user) user value) rfl
    rw [Request.perform, map_apply, called] at turn
    exact turn
  | ok opening =>
    obtain ⟨checkout, receipt⟩ := opening
    rw [Turns, bind_of_ok ran]
    cases named : command.demandSession with
    | ok name => exact .opened name called
    | error rejection => exact .abandoned kind hasUser hasAmount named called

/-- A payment and the delivery of its notice turn out as one of the turns. -/
theorem payAndDeliver :
    Turns settings command stamp script (Script.payAndDeliver command stamp) := by
  refine .read (.rule fun name _ => .rule fun event _ => ?_)
  let session := script.resolve name
  cases pays : script.service.gateway.completeSession session stamp with
  | error rejection =>
    have refused := pay_of_error event pays
    rw [Turns, onService_of_run (bind_of_error refused)]
    exact .refused rejection
  | ok gateway =>
    have paid := pay_of_ok event pays
    rcases delivers : Service.deliver (Text.bytes (gateway.completedBody event session))
      (gateway.sign (Text.bytes (gateway.completedBody event session))) stamp
      { script.service with gateway } with ⟨result, after⟩
    have turn : Turn settings command stamp script _ _ := .paid pays delivers
    rw [Turns, onService_of_run (payThenDeliver_of_ok paid delivers)]
    exact turn

/-- The expiry of a session turns out as one of the turns. -/
theorem expire (session : String) :
    Turns settings command stamp script (onService (Service.expire session)) := by
  cases expires : script.service.gateway.expireSession session with
  | error rejection =>
    have called : Service.expire session script.service =
        (.error (.rejected rejection), script.service) := by
      rw [Service.expire, onGateway, expires]
    rw [Turns, onService_of_run called]
    exact .refused rejection
  | ok gateway =>
    have called : Service.expire session script.service =
        (.ok (), { script.service with gateway }) := by
      rw [Service.expire, onGateway, expires]
    rw [Turns, onService_of_run called]
    exact .expired expires

end Turns

/-- Every command is applied in one turn. -/
theorem apply_turns (settings : Settings) (command : Command) (stamp : Stamp) (script : Script) :
    Turns settings command stamp script (apply settings command stamp) := by
  unfold apply
  cases kind : command.kind with
  | deposit => exact .rule fun user _ => .rule fun value _ => .ledger (.deposit user value) rfl rfl
  | order =>
    exact .rule fun id _ => .rule fun customer _ => .rule fun total _ => .rule fun windowStart _ =>
      .ledger (.register { id, customer, total, windowStart }) rfl rfl
  | place =>
    exact .rule fun user _ => .rule fun order _ => .ledger (.place (.customer user) order) rfl rfl
  | prepare => exact .rule fun order _ => .ledger (.prepare (staff command) order) rfl rfl
  | capture => exact .rule fun order _ => .ledger (.charge (staff command) order) rfl rfl
  | complete => exact .rule fun order _ => .ledger (.complete (staff command) order) rfl rfl
  | refund => exact .rule fun order _ => .ledger (.repay (staff command) order) rfl rfl
  | cancel =>
    exact .rule fun user _ => .rule fun order _ =>
      .ledger (.cancel (.customer user) order (command.instant.getD stamp.now)) rfl rfl
  | checkout => exact .checkout kind
  | webhook => exact .payAndDeliver
  | sync => exact .read (.rule fun name _ => .asked (.reconcile (script.resolve name)) rfl rfl)
  | expire => exact .read (.rule fun name _ => .expire (script.resolve name))

end Steps

end Script

end Prepaid
