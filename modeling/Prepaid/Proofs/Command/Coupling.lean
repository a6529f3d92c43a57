import Prepaid.Proofs.Command.Turns
import Prepaid.Proofs.Gateway.Sessions
import Prepaid.Proofs.Gateway.Wire

/-!
# Sessions and entries

Scripts open sessions only together with an entry that waits for them, so in every
script the ledger knows all sessions of the gateway. A session that is paid is
therefore never refused by the ledger.
-/

namespace Prepaid

namespace Ledger

section Named

variable {stamp : Stamp} {tables after : Tables} {topUp : Option EntryId} {session : String}

/-- The ledger has an entry for a session. -/
def Tables.Knows (session : String) (tables : Tables) : Prop :=
  ∃ id, tables.entryOfSession.get? session = some id

/-- The session of a new entry leads to it. -/
theorem Tables.knows_putEntry {entry : Entry} (new : tables.entries.get? entry.id = none)
    (named : entry.reference.session = some session) : (tables.putEntry entry).Knows session := by
  exact ⟨entry.id, by rw [session_putEntry_of_none new, if_pos named]⟩

/-- Putting an entry loses no session. -/
theorem Tables.Knows.putEntry (knows : tables.Knows session) (entry : Entry) :
    (tables.putEntry entry).Knows session := by
  cases known : tables.entries.get? entry.id with
  | none =>
    simp only [Knows, session_putEntry_of_none known]
    split
    · exact ⟨entry.id, rfl⟩
    · exact knows
  | some old =>
    rw [putEntry_of_some known]
    exact knows

/-- Upkeep loses no session. -/
theorem Upkeep.knows (upkeep : Upkeep stamp tables after) (knows : tables.Knows session) :
    after.Knows session := by
  cases upkeep <;> exact knows

/-- A session that the ledger knows is never forgotten. -/
theorem Posting.knows (posting : Posting stamp tables topUp after) (knows : tables.Knows session) :
    after.Knows session := by
  cases posting with
  | dropped | registered | prepared | completed => exact knows
  | _ => exact Tables.Knows.putEntry (by exact knows) _

/-- What a request commits loses no session. -/
theorem Change.knows (change : Change stamp tables topUp after) (knows : tables.Knows session) :
    after.Knows session :=
  change.keeps (Tables.Knows session) Upkeep.knows Posting.knows knows

/-- The entry of a session that is known can be looked up. -/
theorem Tables.Sound.entry_of_knows (sound : tables.Sound) (knows : tables.Knows session) :
    ∃ entry, tables.entryForSession? session = some entry := by
  obtain ⟨id, named⟩ := knows
  obtain ⟨entry, present, _⟩ := sound.session_named named
  exact ⟨entry, by rw [entryForSession?, named]; exact present⟩

end Named

end Ledger

namespace Service

open Ledger

/-- The ledger knows all sessions of the gateway. -/
def Coupled (service : Service) : Prop :=
  ∀ session known, service.gateway.sessions.get? session = some known →
    service.ledger.tables.Knows session

section Coupled

variable {settings : Settings} {stamp : Stamp} {service : Service}

/-- A call of the ledger leaves the gateway alone. -/
theorem onLedger_gateway {α : Type} (call : Ledger.Call α) (service : Service) :
    (onLedger call service).2.gateway = service.gateway := by
  rcases run : call service.ledger with ⟨result, after⟩
  rw [onLedger_of_run run]

/-- Only a checkout has to do with more of the gateway than its answers. -/
theorem Request.gateway_perform (request : Request)
    (other : ∀ actor user value, request ≠ .checkout actor user value) :
    (request.perform settings stamp service).2.gateway = service.gateway := by
  cases request with
  | checkout actor user value => exact (other actor user value rfl).elim
  | deliver body signature =>
    rw [perform, map_apply]
    exact onLedger_gateway (Ledger.deliver service.gateway body signature stamp) service
  | reconcile session =>
    rw [perform, map_apply]
    exact onLedger_gateway (Ledger.reconcile service.gateway session stamp) service
  | _ => simp only [perform, map_apply, onLedger_gateway]

/-- A checkout opens a session, and the ledger knows it then. -/
theorem Coupled.checkout {tables : Tables} {gateway : Gateway}
    (coupled : Coupled { ledger := { tables }, gateway }) (fresh : Fresh stamp tables)
    (actor : Actor) (user : UserId) (value : Decimal) :
    (Service.checkout settings actor user value stamp
      { ledger := { tables }, gateway }).2.Coupled := by
  rcases checkout_apply settings gateway fresh actor user value with
    ⟨rejection, _, run⟩ | ⟨amount, wallet, first, _, _, _, rfl, rfl, upkeeps, _, unused, run⟩
  · rw [run]
    exact coupled
  · rw [run]
    intro session known found
    have kept : tables.Knows session → first.Knows session := upkeeps.keeps Upkeep.knows
    simp only [Gateway.openSession, Gateway.putSession, Table.get?_put] at found
    split at found
    · next same =>
      subst same
      exact Tables.knows_putEntry unused rfl
    · exact (kept (coupled session known found)).putEntry _

/-- Every request leaves the ledger knowing the sessions of the gateway. -/
theorem Coupled.perform (coupled : service.Coupled) (intact : service.Intact)
    (fresh : Fresh stamp service.ledger.tables) (request : Request) :
    (request.perform settings stamp service).2.Coupled := by
  obtain ⟨⟨tables, outages⟩, gateway⟩ := service
  obtain rfl : outages = [] := intact.outages
  by_cases opens : ∃ actor user value, request = .checkout actor user value
  · obtain ⟨actor, user, value, rfl⟩ := opens
    rw [Request.perform, map_apply]
    exact coupled.checkout fresh actor user value
  · simp only [not_exists] at opens
    have faithful : (Step.of settings _ request stamp).Faithful :=
      (Step.of_faithful intact request fresh).1
    obtain ⟨_, change, _⟩ := faithful.changes
    intro session known found
    rw [request.gateway_perform opens] at found
    exact change.knows (coupled session known found)

/-- The ledger never refuses what the gateway says about a session that the ledger knows. -/
theorem deliver_own_not_rejected (intact : service.Intact) {session : String}
    (knows : service.ledger.tables.Knows session) (event : String)
    {result : Except Failure Delivery} {after : Service}
    (delivers : deliver (Text.bytes (service.gateway.completedBody event session))
      (service.gateway.sign (Text.bytes (service.gateway.completedBody event session))) stamp
      service = (result, after)) (rejection : Rejection) :
    result ≠ .error (.rejected rejection) := by
  obtain ⟨⟨tables, outages⟩, gateway⟩ := service
  obtain rfl : outages = [] := intact.outages
  obtain ⟨notice, verified, _, completed, names⟩ := gateway.verify_completedBody event session
  obtain ⟨entry, named⟩ := intact.sound.entry_of_knows knows
  cases done : (noticeRecord notice stamp.now { tables }).isCompleted with
  | true =>
    have run := process_of_completed done
    rw [← deliver_of_ok verified] at run
    rw [deliver_of_run run] at delivers
    cases delivers
    rintro ⟨⟩
  | false =>
    obtain ⟨answer, middle, handling, run⟩ := process_of_open intact.sound done
    rw [← deliver_of_ok verified] at run
    rw [deliver_of_run run] at delivers
    cases delivers
    rw [Ne, map_eq_error]
    cases handling with
    | ignored other => exact (other completed).elim
    | malformed _ nameless =>
      rw [names] at nameless
      cases nameless
    | confirmed _ namesToo confirmation =>
      rw [names] at namesToo
      cases namesToo
      rw [map_eq_error]
      exact Confirmation.not_rejected (by exact named) confirmation rejection

end Coupled

end Service

namespace Script

open Service

variable {settings : Settings} {command : Command} {stamp : Stamp} {script after : Script}
  {result : Except Failure Unit}

/-- The scripts that commands lead to from an empty ledger and an empty gateway. -/
inductive Reachable (settings : Settings) : Script → Prop where
  | start (secret : String) : Reachable settings { service := { gateway := { secret } } }
  | step {script : Script} (prior : Reachable settings script) (command : Command) {stamp : Stamp}
      (fresh : Ledger.Fresh stamp script.service.ledger.tables) :
      Reachable settings (apply settings command stamp script).2

/-- The request for a checkout does what the call does. -/
theorem service_of_checkout {user : UserId} {value : Decimal} {opening : Checkout × Receipt}
    {later : Service}
    (opens : Service.checkout settings (.customer user) user value stamp script.service =
      (.ok opening, later)) :
    (Request.perform settings stamp (.checkout (.customer user) user value) script.service).2 =
      later := by
  rw [Request.perform, map_apply, opens]

/-- The request for a delivery does what the call does. -/
theorem service_of_deliver (settings : Settings) {service later : Service} {body : List UInt8}
    {signature : String} {delivery : Except Failure Delivery}
    (delivers : Service.deliver body signature stamp service = (delivery, later)) :
    (Request.perform settings stamp (.deliver body signature) service).2 = later := by
  rw [Request.perform, map_apply, delivers]

/-- Every turn is made of requests to the service and of changes at the gateway. -/
theorem Turn.service_reachable (turn : Turn settings command stamp script result after)
    (reachable : Service.Reachable settings script.service)
    (fresh : Ledger.Fresh stamp script.service.ledger.tables) :
    Service.Reachable settings after.service := by
  obtain ⟨steps, run⟩ := reachable
  cases turn with
  | refused rejection => exact ⟨steps, run⟩
  | asked request passed => exact ⟨_, .step run request fresh⟩
  | opened name opens | abandoned _ _ _ _ opens =>
    rw [← service_of_checkout opens]
    exact ⟨_, .step run (.checkout _ _ _) fresh⟩
  | @paid session event gateway pays result later delivers =>
    rw [← service_of_deliver settings delivers]
    exact ⟨_, .step (.elsewhere run gateway) (.deliver _ _) fresh⟩
  | expired expires => exact ⟨steps, .elsewhere run _⟩

/-- After every turn the ledger knows all sessions. -/
theorem Turn.coupled (turn : Turn settings command stamp script result after)
    (intact : script.service.Intact) (coupled : script.service.Coupled)
    (fresh : Ledger.Fresh stamp script.service.ledger.tables) : after.service.Coupled := by
  cases turn with
  | refused rejection => exact coupled
  | asked request passed => exact coupled.perform intact fresh request
  | opened name opens | abandoned _ _ _ _ opens =>
    rw [← service_of_checkout opens]
    exact coupled.perform intact fresh _
  | @paid session event gateway pays result later delivers =>
    have coupledToo : Coupled { script.service with gateway } := by
      intro other known found
      obtain ⟨before, present⟩ := Gateway.exists_of_completeSession pays found
      exact coupled other before present
    rw [← service_of_deliver settings delivers]
    exact coupledToo.perform (intact.elsewhere gateway) fresh _
  | expired expires =>
    intro other known found
    obtain ⟨before, present⟩ := Gateway.exists_of_expireSession expires found
    exact coupled other before present

/-- A script only brings its service where requests lead. -/
theorem Reachable.service_reachable (reachable : Reachable settings script) :
    Service.Reachable settings script.service := by
  induction reachable with
  | start secret => exact .start settings _
  | step prior command fresh ih =>
    exact (apply_turns settings command _ _).service_reachable ih fresh

/-- The ledger knows all sessions of the gateway, whatever the commands were. -/
theorem Reachable.coupled (reachable : Reachable settings script) : script.service.Coupled := by
  induction reachable with
  | start secret =>
    intro session known found
    cases found
  | step prior command fresh ih =>
    obtain ⟨steps, run⟩ := prior.service_reachable
    exact (apply_turns settings command _ _).coupled run.intact ih fresh

end Script

end Prepaid
