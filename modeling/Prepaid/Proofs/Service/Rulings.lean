import Prepaid.Proofs.Ledger.Vouching
import Prepaid.Proofs.Service.Atomicity
import Prepaid.Proofs.Service.Books

/-!
# Rulings in every service that is reached

The calls about an order are ruled in every reachable service, so that no order is
ever stuck with its hold. The rejections that would say that the tables contradict
themselves are never met, whatever is asked.
-/

namespace Prepaid

namespace Service

open Ledger

/-- Whoever may not top up accuses no tables. -/
theorem requireTopUpRight_error {actor : Actor} {user : UserId} {rejection : Rejection}
    (refused : requireTopUpRight actor user = .error rejection) :
    rejection.accusesTables = false := by
  unfold requireTopUpRight at refused
  split at refused <;> cases refused
  rfl

/-- A top-up that is refused accuses no tables. -/
theorem topUpAmount_error {settings : Settings} {actor : Actor} {user : UserId} {value : Decimal}
    {rejection : Rejection} (refused : topUpAmount settings actor user value = .error rejection) :
    rejection.accusesTables = false := by
  rw [topUpAmount] at refused
  cases right : requireTopUpRight actor user with
  | error refusal =>
    rw [right] at refused
    cases refused
    exact requireTopUpRight_error right
  | ok =>
    rw [right] at refused
    exact Settings.depositAmount_error refused

/-- Tables are regular after every run. -/
theorem Run.regular {settings : Settings} {steps : List Step} {service : Service}
    (run : Run settings steps service) : service.ledger.tables.Regular :=
  { sound := run.intact.sound, solvent := run.intact.solvent, agreed := run.agreed,
    balanced := run.balanced }

/-- The credits of the customer whose order is concerned are exact, and the one that the request
asks for is among them. -/
def Request.Exact (tables : Tables) : Request → Prop
  | .hold id | .capture id | .release id _ | .place _ id | .charge _ id | .cancel _ id _ =>
    tables.ExactFor id
  | .refund id | .repay _ id => tables.ExactWithRefund id
  | _ => True

section Requests

variable {settings : Settings} {stamp : Stamp} {tables : Tables} {gateway : Gateway}
    {rejection : Rejection}

/-- What the ledger answers is what the service answers. -/
theorem onLedger_answer {α : Type} (call : Ledger.Call α) (wrap : α → Answer) :
    ((wrap <$> onLedger call) { ledger := { tables }, gateway }).1 =
      (call { tables }).1.map wrap := by
  rw [map_apply]
  rfl

/-- No checkout accuses the tables. -/
theorem checkout_vouches (solvent : tables.Solvent) (actor : Actor) (user : UserId)
    (value : Decimal) :
    Vouches (checkout settings actor user value stamp { ledger := { tables }, gateway }).1 := by
  cases allowed : topUpAmount settings actor user value with
  | error rejection =>
    rw [checkout_of_error allowed]
    rintro _ ⟨⟩
    exact topUpAmount_error allowed
  | ok amount =>
    obtain ⟨receipt, done⟩ := exists_recordTopUp solvent user amount
      (gateway.openSession user amount settings.currency stamp).1.session stamp
    rw [checkout_of_ok allowed rfl (Prod.ext done rfl)]
    exact .of_ok

/-- A request vouches if its call does. -/
theorem onLedger_vouches {α : Type} {call : Ledger.Call α} {wrap : α → Answer}
    (vouches : Vouches (call { tables }).1) :
    Vouches ((wrap <$> onLedger call) { ledger := { tables }, gateway }).1 := by
  rw [onLedger_answer]
  exact vouches.map wrap

/-- Only a release with a precondition of its own can be refused by accusing the tables. -/
theorem Request.vouches (regular : tables.Regular) {request : Request}
    (exactly : request.Exact tables)
    (other : ∀ id precondition, request ≠ .release id precondition) :
    Vouches (request.perform settings stamp { ledger := { tables }, gateway }).1 := by
  cases request with
  | release id precondition => exact (other id precondition rfl).elim
  | deposit user value =>
    exact onLedger_vouches (deposit_vouches regular.solvent settings user value)
  | recordTopUp user amount session =>
    exact onLedger_vouches (recordTopUp_vouches regular.solvent user amount session)
  | confirmTopUp session payment =>
    exact onLedger_vouches (confirmTopUp_vouches regular.sound session payment)
  | hold id => exact onLedger_vouches (hold_vouches regular exactly)
  | capture id => exact onLedger_vouches (capture_vouches regular exactly)
  | refund id => exact onLedger_vouches (refund_vouches regular exactly)
  | register new => exact onLedger_vouches (register_vouches new)
  | place actor id => exact onLedger_vouches (place_vouches regular exactly actor)
  | prepare actor id =>
    refine onLedger_vouches (.rule (fun _ => requireStaff_error) fun _ _ => ?_)
    exact advance_vouches regular.sound (by decide) .prepare
  | charge actor id =>
    refine onLedger_vouches (.rule (fun _ => requireStaff_error) fun _ _ => ?_)
    exact capture_vouches regular exactly
  | complete actor id =>
    refine onLedger_vouches (.rule (fun _ => requireStaff_error) fun _ _ => ?_)
    exact advance_vouches regular.sound (by decide) .complete
  | repay actor id =>
    refine onLedger_vouches (.rule (fun _ => requireStaff_error) fun _ _ => ?_)
    exact refund_vouches regular exactly
  | cancel actor id now =>
    refine onLedger_vouches (.rule (fun _ => Settings.cutoff_error) fun cutoff _ => ?_)
    exact (release_ruled regular exactly _ stamp).vouches fun _ _ => cancellable_error
  | checkout actor user value =>
    rw [perform, map_apply]
    exact (checkout_vouches regular.solvent actor user value).map _
  | deliver body signature =>
    cases verified : gateway.verify body signature with
    | error rejection =>
      rw [deliver_unverified verified]
      rintro _ ⟨⟩
      exact Gateway.verify_error verified
    | ok notice =>
      rw [deliver_apply verified]
      exact (process_vouches regular.sound notice).map _
  | reconcile session =>
    rw [perform, map_apply]
    exact (reconcile_vouches regular.sound gateway session).map _

end Requests

/-- The requests about an order are answered exactly as the order and its customer's account call
for, as long as what the customer has been credited is exact. A capture finds no hold only for a
pending order, a release finds none only if its precondition says so, and no request at all is
refused by accusing the tables. -/
theorem order_requests_ruled {settings : Settings} {service : Service}
    (reachable : Reachable settings service) (stamp : Stamp) :
    (∀ id, service.ledger.tables.ExactFor id →
      Ruling service.ledger.tables id [.pending] .hold
        (fun order => order.total.cents ≤ service.ledger.tables.freeOf order.customer)
        (fun order rejection => ∃ available : Money,
          available.cents = service.ledger.tables.freeOf order.customer ∧
            rejection = .insufficientFunds available order.total.money)
        (Step.of settings service (.hold id) stamp).answer ∧
      Ruling service.ledger.tables id unpaid .capture (fun order => order.status ≠ .pending)
        (fun _ rejection => rejection = .missingHold id)
        (Step.of settings service (.capture id) stamp).answer ∧
      ((Step.of settings service (.capture id) stamp).answer =
        .error (.rejected (.missingHold id)) ↔
        ∃ order, service.ledger.tables.orders.get? id = some order ∧ order.status = .pending) ∧
      ∀ precondition, Ruling service.ledger.tables id unpaid .release
        (fun order => precondition order = .ok ())
        (fun order rejection => precondition order = .error rejection)
        (Step.of settings service (.release id precondition) stamp).answer) ∧
    (∀ id, service.ledger.tables.ExactWithRefund id →
      Ruling service.ledger.tables id [.paid, .completed] .refund (fun _ => True) (fun _ _ => False)
        (Step.of settings service (.refund id) stamp).answer) ∧
    ∀ request rejection, request.Exact service.ledger.tables →
      (Step.of settings service request stamp).answer = .error (.rejected rejection) →
      (rejection.accusesTables = true → ∃ id precondition order,
        request = .release id precondition ∧
        service.ledger.tables.orders.get? id = some order ∧ precondition order = .error rejection) ∧
      ∀ id precondition missing, request = .release id precondition →
        rejection = .missingHold missing →
        ∃ order, service.ledger.tables.orders.get? id = some order ∧
          precondition order = .error rejection := by
  obtain ⟨steps, run⟩ := reachable
  have regular := run.regular
  obtain ⟨⟨tables, outages⟩, gateway⟩ := service
  obtain rfl : outages = [] := run.intact.outages
  simp only [Step.of]
  have released (id : OrderId) (exactly : tables.ExactFor id)
      (precondition : Order → Except Rejection Unit) :
      Ruling tables id unpaid .release (fun order => precondition order = .ok ())
        (fun order rejection => precondition order = .error rejection)
        ((Request.release id precondition).perform settings stamp
          { ledger := { tables }, gateway }).1 := by
    rw [Request.perform, onLedger_answer]
    exact (release_ruled regular exactly precondition stamp).map _
  refine ⟨fun id exactly => ⟨?_, ?_, ?_, released id exactly⟩, fun id exactly => ?_, ?_⟩
  · rw [Request.perform, onLedger_answer]
    exact (hold_ruled regular exactly stamp).map _
  · rw [Request.perform, onLedger_answer]
    exact (capture_ruled regular exactly stamp).map _
  · rw [Request.perform, onLedger_answer, map_eq_error]
    exact capture_missingHold_iff regular exactly stamp
  · rw [Request.perform, onLedger_answer]
    exact (refund_ruled regular exactly stamp).map _
  · intro request rejection exactly rejected
    by_cases own : ∃ id precondition, request = .release id precondition
    · obtain ⟨id, precondition, rfl⟩ := own
      have cases := (released id exactly precondition).rejection_cases rejected
      constructor
      · intro accuses
        rcases cases with rfl | ⟨status, rfl⟩ | ⟨order, known, refused⟩
        · cases accuses
        · cases accuses
        · exact ⟨id, precondition, order, rfl, known, refused⟩
      · rintro _ _ missing ⟨⟩ rfl
        rcases cases with absurdly | ⟨status, absurdly⟩ | finds
        · cases absurdly
        · cases absurdly
        · exact finds
    · have other (id : OrderId) (precondition : Order → Except Rejection Unit) :
          request ≠ .release id precondition := fun same => own ⟨id, precondition, same⟩
      refine ⟨fun accuses => ?_, fun id precondition _ same => (other id precondition same).elim⟩
      have vouches := Request.vouches regular exactly other rejection rejected
      rw [accuses] at vouches
      cases vouches

/-- What is held for the order can be captured. -/
theorem heldOrder_captured :
    ∃ answer, (Step.of {} (performAll {} heldOrder { gateway := { secret := "" } }) (.capture ⟨7⟩)
      (stampOf 4)).answer = .ok answer := by
  have exactly : (performAll {} heldOrder { gateway := { secret := "" } }).ledger.tables.ExactFor
      ⟨7⟩ := by
    rintro order ⟨⟩
    decide
  have ruled := (order_requests_ruled heldOrder_reachable (stampOf 4)).1 ⟨7⟩ exactly
  exact ruled.2.1.succeeds_iff.mpr ⟨_, rfl, by decide, by decide⟩

end Service

end Prepaid
