import Prepaid.Proofs.Ledger.Cancellation
import Prepaid.Proofs.Service.Decisions
import Prepaid.Proofs.Service.Rulings

/-!
# Cancellations in every service that is reached

A service decides about a cancellation by its conditions in their order, whatever its
settings are and whatever the instant is that is asked for. A refusal leaves no trace.
-/

namespace Prepaid.Service

open Ledger

variable {settings earlier : Settings} {service : Service} {stamp : Stamp} {actor : Actor}
  {id : OrderId} {now : Instant}

/-- The answer to a cancellation is that of the ledger. -/
theorem Intact.cancel_answer (intact : service.Intact) :
    (Step.of settings service (.cancel actor id now) stamp).answer =
      (cancel settings actor id now stamp { tables := service.ledger.tables }).1.map .moved := by
  obtain ⟨⟨tables, outages⟩, gateway⟩ := service
  obtain rfl : outages = [] := intact.outages
  exact onLedger_answer _ _

/-- What a cancellation that goes through has done. -/
theorem Run.cancel_effect {steps : List Step} (run : Run earlier steps service)
    (fresh : Fresh stamp service.ledger.tables) (exactly : service.ledger.tables.ExactFor id)
    {answer : Answer}
    (done : (Step.of settings service (.cancel actor id now) stamp).answer = .ok answer) :
    ∃ order, service.ledger.tables.orders.get? id = some order ∧
      (Step.of settings service (.cancel actor id now) stamp).after.ledger.tables.orders =
        service.ledger.tables.orders.put id (order.moveTo .cancelled stamp.now) ∧
      (Step.of settings service (.cancel actor id now) stamp).after.ledger.tables.currentOf
        order.customer = service.ledger.tables.currentOf order.customer ∧
      ((Step.of settings service (.cancel actor id now) stamp).after.ledger.tables.heldOf
        order.customer).cents =
        (service.ledger.tables.heldOf order.customer).cents -
          service.ledger.tables.heldFor order := by
  have regular := run.regular
  obtain ⟨⟨tables, outages⟩, gateway⟩ := service
  obtain rfl : outages = [] := run.intact.outages
  have enacts :
      (Request.cancel actor id now).perform settings stamp { ledger := { tables }, gateway } = _ :=
    Request.perform_enacts rfl regular.sound fresh
  simp only [Step.of, enacts] at done ⊢
  cases decided : Decision.cancel settings actor id now stamp tables with
  | error failure =>
    rw [decided] at done
    cases done
  | ok decision =>
    simp only [Decision.cancel, bind_result_eq_ok] at decided
    obtain ⟨_, _, released⟩ := decided
    exact release_effect regular exactly released

/-- A cancellation succeeds exactly if all its conditions are met, and is refused for the first that
is not; it never fails for a sum that is too large. Refused, it changes nothing. Done, it leaves the
order cancelled and its customer's money where it was, less what was held for the order. -/
theorem cancel_decided (reachable : Reachable earlier service)
    (fresh : Fresh stamp service.ledger.tables) (exactly : service.ledger.tables.ExactFor id)
    (settings : Settings) (actor : Actor) (now : Instant) :
    let before := service.ledger.tables
    let step := Step.of settings service (.cancel actor id now) stamp
    ((∃ answer, step.answer = .ok answer) ↔ settings.UsableCutoff ∧
      ∃ order, before.orders.get? id = some order ∧ Cancels settings actor now order) ∧
    (∀ failure, step.answer = .error failure → step.after = service ∧
      ∃ rejection, failure = .rejected rejection ∧ Hinders settings actor id now before rejection) ∧
    (∀ rejection, Hinders settings actor id now before rejection →
      step.answer = .error (.rejected rejection)) ∧
    ∀ answer, step.answer = .ok answer → ∃ order, before.orders.get? id = some order ∧
      step.after.ledger.tables.orders = before.orders.put id (order.moveTo .cancelled stamp.now) ∧
      step.after.ledger.tables.currentOf order.customer = before.currentOf order.customer ∧
      (step.after.ledger.tables.heldOf order.customer).cents =
        (before.heldOf order.customer).cents - before.heldFor order ∧
      before.heldFor order = if order.status = .pending then 0 else order.total.cents := by
  intro before step
  obtain ⟨steps, run⟩ := reachable
  have regular := run.regular
  have answered : step.answer =
      (cancel settings actor id now stamp { tables := before }).1.map .moved :=
    run.intact.cancel_answer
  have rejected_iff (rejection : Rejection) :
      step.answer = .error (.rejected rejection) ↔
      Hinders settings actor id now before rejection := by
    rw [answered, map_eq_error, cancel_rejected_iff regular exactly]
  have succeeds_iff : (∃ answer, step.answer = .ok answer) ↔ settings.UsableCutoff ∧
      ∃ order, before.orders.get? id = some order ∧ Cancels settings actor now order := by
    rw [answered]
    simpa [map_eq_ok] using cancel_succeeds_iff regular exactly
  refine ⟨succeeds_iff, fun failure failed => ?_, fun rejection => (rejected_iff rejection).mpr,
    fun answer done => ?_⟩
  · cases failure with
    | overflow overflow =>
      rw [answered, map_eq_error] at failed
      exact (cancel_computed regular exactly overflow failed).elim
    | rejected rejection =>
      exact ⟨Request.unchanged_of_rejected run.intact fresh rfl failed, rejection, rfl,
        (rejected_iff rejection).mp failed⟩
  · obtain ⟨order, known, moved, current, held⟩ := run.cancel_effect fresh exactly done
    obtain ⟨_, _, foundAt, cancels⟩ := succeeds_iff.mp ⟨answer, done⟩
    obtain rfl := Option.some.inj (known.symm.trans foundAt)
    obtain rfl := regular.sound.order_id known
    exact ⟨order, known, moved, current, held,
      regular.heldFor_eq known (exactly order known) cancels.unpaid stamp⟩

/-- The deadline of the order for ten is a quarter of an hour before 1970. At that instant it can
still be cancelled by its customer. -/
theorem heldOrder_cancelled :
    ∃ answer,
      (Step.of {} (performAll {} heldOrder { gateway := { secret := "" } })
        (.cancel (.customer ⟨1⟩) ⟨7⟩ { seconds := -900, nanos := 0 }) (stampOf 4)).answer =
        .ok answer := by
  have exactly : (performAll {} heldOrder { gateway := { secret := "" } }).ledger.tables.ExactFor
      ⟨7⟩ := by
    rintro order ⟨⟩
    decide
  have fresh :
      Fresh (stampOf 4)
        (performAll {} heldOrder { gateway := { secret := "" } }).ledger.tables := by
    decide
  have decided := cancel_decided heldOrder_reachable fresh exactly {} (.customer ⟨1⟩)
    { seconds := -900, nanos := 0 }
  refine decided.1.mpr
    ⟨⟨by decide, by decide⟩, _, rfl, by decide, by decide, { seconds := -900, nanos := 0 }, ?_,
    by decide⟩
  exact ⟨by decide, by decide, by decide⟩

end Prepaid.Service
