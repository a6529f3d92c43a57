import Prepaid.Proofs.Ledger.Confinement
import Prepaid.Proofs.Service.Books
import Prepaid.Proofs.Service.Decisions

/-!
# Rights and effects of requests

Who may make a request, and what it may touch. A request of somebody without the right
changes nothing. One that goes through touches the rows of its scope and no others,
and answers with what is stored then.
-/

namespace Prepaid.Service

open Ledger

namespace Request

/-- Whether a request comes from a person or from the system in front of the ledger, and not from
what has happened at the gateway. -/
def isCall : Request → Bool
  | .deliver _ _ | .reconcile _ => false
  | _ => true

/-- What a request is about. -/
def scope (tables : Tables) : Request → Scope
  | .deposit user _ | .recordTopUp user _ _ | .checkout _ user _ => .ofUser user
  | .confirmTopUp session _ => .ofSession session tables
  | .register order => { order? := some order.id }
  | .hold id | .capture id | .release id _ | .refund id | .place _ id | .prepare _ id | .charge _ id
  | .complete _ id | .repay _ id | .cancel _ id _ => .ofOrder id tables
  | .deliver _ _ | .reconcile _ => {}

/-- Whether whoever makes a request has the right to. Where no actor is given, others have seen to
that. -/
def Permitted (tables : Tables) : Request → Prop
  | .place actor id | .cancel actor id _ =>
    ∃ order, tables.orders.get? id = some order ∧ order.customer = actor.user
  | .prepare actor _ | .charge actor _ | .complete actor _ | .repay actor _ => actor.isStaff = true
  | .checkout actor user _ => actor.isStaff = true ∨ actor.user = user
  | _ => True

end Request

/-- Whatever an answer shows of the ledger is stored, in the rows of a scope. -/
def Answer.Stored (scope : Scope) (tables : Tables) : Answer → Prop
  | .moved receipt | .opened _ receipt => scope.Stores tables receipt
  | .confirmed receipt? => ∀ receipt, receipt? = some receipt → scope.Stores tables receipt
  | .order shown => scope.StoresOrder tables shown
  | .delivered _ | .reconciled _ => True

/-- A step that changes something was permitted, changed only what it is about, and tells what is
stored. -/
structure Step.Confined (step : Step) : Prop where
  permitted : step.after.ledger.tables ≠ step.before.ledger.tables →
    step.request.Permitted step.before.ledger.tables
  confined : step.before.ledger.tables.Confined (step.request.scope step.before.ledger.tables)
    step.after.ledger.tables
  stored : ∀ answer, step.answer = .ok answer →
    answer.Stored (step.request.scope step.before.ledger.tables) step.after.ledger.tables

section Decided

variable {settings : Settings} {stamp : Stamp} {tables : Tables} {request : Request}

/-- A decision whose answer is wrapped is kept, and permitted, if the decision itself is. -/
theorem kept_of_wrapped {α : Type} {wrap : α → Answer} {scope : Scope} {stored : Tables → α → Prop}
    {permitted : Prop} {result : Except Failure (Decision α)} {decision : Decision Answer}
    (decided : result.map (.map wrap) = .ok decision)
    (kept : ∀ inner, result = .ok inner → permitted ∧ inner.Kept scope tables stored)
    (wraps : ∀ tables answer, stored tables answer → (wrap answer).Stored scope tables) :
    permitted ∧ decision.Kept scope tables (Answer.Stored scope) := by
  obtain ⟨inner, reached, rfl⟩ := map_eq_ok.mp decided
  obtain ⟨right, kept⟩ := kept inner reached
  exact ⟨right, kept.map wraps⟩

/-- The check of the staff comes first, whatever is decided behind it. -/
theorem of_requireStaff {α : Type} {actor : Actor} {action : OrderAction}
    {next : Unit → Except Failure α} {value : α}
    (decided : (orReject (requireStaff actor action) >>= next) = .ok value) :
    actor.isStaff = true ∧ next () = .ok value := by
  obtain ⟨_, staff, decided⟩ := bind_result_eq_ok.mp decided
  exact ⟨requireStaff_eq_ok.mp (orReject_eq_ok.mp staff), decided⟩

/-- Only its customer places an order, by having its total held. -/
theorem of_place {actor : Actor} {id : OrderId} {decision : Decision Receipt}
    (decided : Decision.place actor id stamp tables = .ok decision) :
    (∃ order, tables.orders.get? id = some order ∧ order.customer = actor.user) ∧
      Decision.hold id stamp tables = .ok decision := by
  unfold Decision.place at decided
  cases known : tables.orders.get? id with
  | none => simp only [known, reduceCtorEq] at decided
  | some order =>
    simp only [known] at decided
    split at decided
    · next owns => exact ⟨⟨order, rfl, (of_decide_eq_true owns).symm⟩, decided⟩
    · cases decided

/-- A cancellation releases what is held if the order may be cancelled. -/
theorem of_cancel {settings : Settings} {actor : Actor} {id : OrderId} {now : Instant}
    {decision : Decision Receipt}
    (decided : Decision.cancel settings actor id now stamp tables = .ok decision) :
    ∃ cutoff, Decision.release id (cancellable actor cutoff now) stamp tables = .ok decision := by
  obtain ⟨cutoff, _, decided⟩ := bind_result_eq_ok.mp decided
  exact ⟨cutoff, decided⟩

/-- What is decided for a request is permitted, and is kept within the scope of the request. -/
theorem Request.decided_kept (sound : tables.Sound) (agreed : tables.Agreed)
    (fresh : Fresh stamp tables) {decide : Stamp → Tables → Except Failure (Decision Answer)}
    (decides : request.decision? settings = some decide) {decision : Decision Answer}
    (decided : decide stamp tables = .ok decision) :
    request.Permitted tables ∧
      decision.Kept (request.scope tables) tables (Answer.Stored (request.scope tables)) := by
  have moved (scope : Scope) : ∀ tables receipt, scope.Stores tables receipt →
      (Answer.moved receipt).Stored scope tables := fun _ _ stored => stored
  have ordered (scope : Scope) : ∀ tables order, scope.StoresOrder tables order →
      (Answer.order order).Stored scope tables := fun _ _ stored => stored
  cases request <;> cases decides
  case deposit user value =>
    exact kept_of_wrapped decided (fun _ inner => ⟨trivial, deposit_kept sound fresh inner⟩)
      (moved _)
  case recordTopUp user amount session =>
    cases decided
    exact ⟨trivial, (recordTopUp_kept sound fresh amount session).map (moved _)⟩
  case confirmTopUp session payment =>
    exact kept_of_wrapped decided (fun _ inner => ⟨trivial, confirmTopUp_kept sound inner⟩)
      fun _ _ stored => stored
  case register order =>
    exact kept_of_wrapped decided (fun _ inner => ⟨trivial, register_kept inner⟩) (ordered _)
  case hold id =>
    exact kept_of_wrapped decided (fun _ inner => ⟨trivial, hold_kept sound fresh inner⟩) (moved _)
  case capture id =>
    exact kept_of_wrapped decided (fun _ inner => ⟨trivial, capture_kept sound agreed inner⟩)
      (moved _)
  case release id precondition =>
    exact kept_of_wrapped decided (fun _ inner => ⟨trivial, (release_kept sound agreed inner).2⟩)
      (moved _)
  case refund id =>
    exact kept_of_wrapped decided (fun _ inner => ⟨trivial, refund_kept sound fresh inner⟩)
      (moved _)
  case place actor id =>
    refine kept_of_wrapped decided (fun _ inner => ?_) (moved _)
    obtain ⟨owns, held⟩ := of_place inner
    exact ⟨owns, hold_kept sound fresh held⟩
  case prepare actor id =>
    refine kept_of_wrapped decided (fun _ inner => ?_) (ordered _)
    obtain ⟨staff, advanced⟩ := of_requireStaff inner
    exact ⟨staff, advance_kept sound advanced⟩
  case charge actor id =>
    refine kept_of_wrapped decided (fun _ inner => ?_) (moved _)
    obtain ⟨staff, captured⟩ := of_requireStaff inner
    exact ⟨staff, capture_kept sound agreed captured⟩
  case complete actor id =>
    refine kept_of_wrapped decided (fun _ inner => ?_) (ordered _)
    obtain ⟨staff, advanced⟩ := of_requireStaff inner
    exact ⟨staff, advance_kept sound advanced⟩
  case repay actor id =>
    refine kept_of_wrapped decided (fun _ inner => ?_) (moved _)
    obtain ⟨staff, refunded⟩ := of_requireStaff inner
    exact ⟨staff, refund_kept sound fresh refunded⟩
  case cancel actor id now =>
    refine kept_of_wrapped decided (fun _ inner => ?_) (moved _)
    obtain ⟨cutoff, released⟩ := of_cancel inner
    obtain ⟨⟨order, known, accepted⟩, kept⟩ := release_kept sound agreed released
    exact ⟨⟨order, known, cancellable_eq_ok accepted⟩, kept⟩

/-- A step that enacts a decision is confined if the decision is kept. -/
theorem Step.Confined.of_enacts {gateway : Gateway} {after : Ledger}
    {answer : Except Failure Answer} {later : Gateway} {decide : Except Failure (Decision Answer)}
    (enacts : enact tables decide = (answer, after))
    (kept : ∀ decision, decide = .ok decision → request.Permitted tables ∧
      decision.Kept (request.scope tables) tables (Answer.Stored (request.scope tables))) :
    Step.Confined ⟨{ ledger := { tables }, gateway }, request, stamp, answer,
      { ledger := after, gateway := later }⟩ := by
  cases decide with
  | error failure =>
    cases enacts
    exact ⟨fun changed => (changed rfl).elim, .refl _ _, by rintro _ ⟨⟩⟩
  | ok decision =>
    cases enacts
    obtain ⟨permitted, kept⟩ := kept decision rfl
    exact ⟨fun _ => permitted, kept.booking.confined, kept.answer⟩

/-- A top-up may be made by staff, and by users for themselves. -/
theorem requireTopUpRight_eq_ok {actor : Actor} {user : UserId} {done : Unit} :
    requireTopUpRight actor user = .ok done ↔ actor.isStaff = true ∨ actor.user = user := by
  unfold requireTopUpRight Actor.owns
  split <;> simp_all

/-- A checkout books the top-up that it opens a session for. -/
theorem Step.Confined.of_checkout (settings : Settings) (gateway : Gateway) (sound : tables.Sound)
    (fresh : Fresh stamp tables) (actor : Actor) (user : UserId) (value : Decimal) :
    (Step.of settings { ledger := { tables }, gateway }
      (.checkout actor user value) stamp).Confined := by
  cases allowed : topUpAmount settings actor user value with
  | error rejection =>
    rw [Step.of, Request.perform, map_apply, checkout_of_error allowed]
    exact ⟨fun changed => (changed rfl).elim, .refl _ _, by rintro _ ⟨⟩⟩
  | ok amount =>
    have permitted : (Request.checkout actor user value).Permitted tables := by
      cases right : requireTopUpRight actor user with
      | ok done => exact requireTopUpRight_eq_ok.mp right
      | error rejection =>
        simp only [topUpAmount, right, bind, Except.bind, reduceCtorEq] at allowed
    let opening := gateway.openSession user amount settings.currency stamp
    have booked := recordTopUp_booked sound fresh user amount opening.1.session
    have run := checkout_of_ok allowed rfl booked
    rw [Step.of, Request.perform, map_apply, run]
    have kept : (Decision.recordTopUp user amount opening.1.session stamp tables).Kept _ _ _ :=
      recordTopUp_kept sound fresh amount opening.1.session
    refine ⟨fun _ => permitted, kept.booking.confined, fun answer answered => ?_⟩
    obtain ⟨_, paired, rfl⟩ := map_eq_ok.mp answered
    obtain ⟨receipt, booking, rfl⟩ := map_eq_ok.mp paired
    exact kept.answer receipt booking

end Decided

/-- In every service that a run leads to, a request changes something only if whoever makes it has
the right to. It touches no rows but those of the order it names, of one wallet, which is that of
the order's customer, of the user it names or of the owner of the session's entry, and one entry of
that wallet. What it answers is stored. -/
theorem requests_are_confined {settings : Settings} {service : Service}
    (reachable : Reachable settings service) (request : Request) (call : request.isCall = true)
    {stamp : Stamp} (fresh : Fresh stamp service.ledger.tables) :
    (Step.of settings service request stamp).Confined := by
  obtain ⟨steps, run⟩ := reachable
  have sound := run.intact.sound
  have agreed := run.agreed
  obtain ⟨⟨tables, outages⟩, gateway⟩ := service
  obtain rfl : outages = [] := run.intact.outages
  cases decides : request.decision? settings with
  | some decide =>
    rw [Step.of, request.perform_enacts decides sound fresh]
    exact .of_enacts rfl fun _ decided => request.decided_kept sound agreed fresh decides decided
  | none =>
    cases request with
    | checkout actor user value => exact .of_checkout settings gateway sound fresh actor user value
    | deliver | reconcile => cases call
    | _ => cases decides

/-- The order of the held order's customer can be cancelled by nobody else. -/
theorem heldOrder_cancelled_by_other :
    let service := performAll {} heldOrder { gateway := { secret := "" } }
    let step := Step.of {} service (.cancel (.customer ⟨2⟩) ⟨7⟩ .epoch) (stampOf 4)
    step.after.ledger.tables = service.ledger.tables := by
  have fresh :
      Fresh (stampOf 4)
        (performAll {} heldOrder { gateway := { secret := "" } }).ledger.tables := by decide
  have confined :=
    requests_are_confined heldOrder_reachable (.cancel (.customer ⟨2⟩) ⟨7⟩ .epoch) rfl fresh
  by_contra changed
  obtain ⟨order, known, owns⟩ := confined.permitted changed
  have customer :
      ∃ order, (performAll {} heldOrder { gateway := { secret := "" } }).ledger.tables.orders.get?
      ⟨7⟩ = some order ∧ order.customer = ⟨1⟩ := ⟨_, rfl, rfl⟩
  obtain ⟨own, ownAt, one⟩ := customer
  change (performAll {} heldOrder { gateway := { secret := "" } }).ledger.tables.orders.get? ⟨7⟩ =
    some order at known
  rw [ownAt] at known
  cases known
  rw [one] at owns
  revert owns
  decide

end Prepaid.Service
