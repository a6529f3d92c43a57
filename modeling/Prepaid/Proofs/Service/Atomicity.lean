import Prepaid.Proofs.Ledger.Dues
import Prepaid.Proofs.Service.Run

/-!
# Requests that are rejected

A request that is rejected leaves the service as it was. Deliveries are the only
exception, since they keep the record of a notice that cannot be applied; of a notice
that fails this record is all that changes. What is not rejected, but answers that
there is nothing left to do, changes nothing either.
-/

namespace Prepaid

namespace Ledger

/-- A confirmation that is rejected changes nothing. -/
theorem Confirmation.unchanged_of_rejected {session : String} {payment : Option String}
    {stamp : Stamp} {tables after : Tables} {rejection : Rejection}
    (confirmation : Confirmation session payment stamp tables
      (.error (.rejected rejection)) after) :
    after = tables := by
  generalize same : (Except.error (.rejected rejection) : Except Failure (Option Receipt)) = result
    at confirmation
  cases confirmation with
  | unknown => rfl
  | settled | overflowed => cases same
  | credited => exact (orOverflow_ne_rejected (map_eq_error.mp same.symm)).elim

/-- Only a session that nobody has been told of is refused. -/
theorem Confirmation.not_rejected {session : String} {payment : Option String} {stamp : Stamp}
    {tables after : Tables} {result : Except Failure (Option Receipt)} {entry : Entry}
    (named : tables.entryForSession? session = some entry)
    (confirmation : Confirmation session payment stamp tables result after)
    (rejection : Rejection) :
    result ≠ .error (.rejected rejection) := by
  cases confirmation with
  | unknown unnamed =>
    rw [unnamed] at named
    cases named
  | settled | overflowed => rintro ⟨⟩
  | credited => exact fun refused => orOverflow_ne_rejected (map_eq_error.mp refused)

/-- A confirmation of a session that is settled already changes nothing. -/
theorem Confirmation.unchanged_of_none {session : String} {payment : Option String} {stamp : Stamp}
    {tables after : Tables}
    (confirmation : Confirmation session payment stamp tables (.ok none) after) :
    after = tables := by
  generalize same : (Except.ok none : Except Failure (Option Receipt)) = result at confirmation
  cases confirmation with
  | unknown | overflowed => cases same
  | settled => rfl
  | credited =>
    obtain ⟨balance, _, absurdly⟩ := map_eq_ok.mp same.symm
    cases absurdly

section Notices

variable {notice : Notice} {stamp : Stamp} {tables after : Tables}

/-- A notice that cannot be handled changes nothing. -/
theorem Handling.unchanged_of_rejected {rejection : Rejection}
    (handling : Handling notice stamp tables (.error (.rejected rejection)) after) :
    after = tables := by
  generalize same :
    (Except.error (.rejected rejection) : Except Failure (Outcome × Option Balance)) = result
    at handling
  cases handling with
  | ignored => cases same
  | malformed => rfl
  | confirmed completed names confirmation =>
    have refused := map_eq_error.mp same.symm
    subst refused
    exact confirmation.unchanged_of_rejected

/-- Applying a notice never finds that it has been applied before. -/
theorem Handling.not_duplicate {result : Outcome × Option Balance}
    (handling : Handling notice stamp tables (.ok result) after) : result.1 ≠ .duplicate := by
  generalize same : (Except.ok result : Except Failure (Outcome × Option Balance)) =
    answer at handling
  cases handling with
  | ignored =>
    cases same
    simp
  | malformed => cases same
  | confirmed completed names confirmation =>
    obtain ⟨receipt, _, rfl⟩ := map_eq_ok.mp same.symm
    cases receipt <;> simp [confirmationOutcome]

/-- Of a notice that is rejected the record is kept, as failed and with the words of the
rejection. -/
theorem process_of_rejected (sound : tables.Sound) {rejection : Rejection}
    (rejected : (process notice stamp { tables }).1 = .error (.rejected rejection)) :
    (process notice stamp { tables }).2 =
      { tables := tables.putNotice
          ((openRecord notice stamp tables).markFailed rejection.message stamp.now) } := by
  cases done : (noticeRecord notice stamp.now { tables }).isCompleted with
  | true =>
    rw [process_of_completed done] at rejected
    cases rejected
  | false =>
    obtain ⟨result, middle, handling, run⟩ := process_of_open sound done
    rw [run] at rejected ⊢
    have refused := map_eq_error.mp rejected
    subst refused
    obtain rfl := handling.unchanged_of_rejected
    simp only [closeNotice]
    rw [Tables.putNotice_putNotice]
    rfl

/-- Only a notice that has been processed to the end is a duplicate. -/
theorem process_of_duplicate (sound : tables.Sound) {delivery : Delivery}
    (answered : (process notice stamp { tables }).1 = .ok delivery)
    (duplicate : delivery.outcome = .duplicate) :
    (process notice stamp { tables }).2 = { tables } := by
  cases done : (noticeRecord notice stamp.now { tables }).isCompleted with
  | true => rw [process_of_completed done]
  | false =>
    obtain ⟨result, middle, handling, run⟩ := process_of_open sound done
    rw [run] at answered
    obtain ⟨answer, rfl, rfl⟩ := map_eq_ok.mp answered
    exact (handling.not_duplicate duplicate).elim

end Notices

end Ledger

namespace Service

open Ledger

variable {settings : Settings} {stamp : Stamp} {service : Service}

/-- Whether a request delivers a notice. -/
def Request.isDelivery : Request → Bool
  | .deliver _ _ => true
  | _ => false

/-- A plain request that is rejected changes nothing. -/
theorem Request.unchanged_of_plain {tables : Tables} {gateway : Gateway} (sound : tables.Sound)
    (fresh : Fresh stamp tables) {request : Request} (plain : request.isPlain = true)
    {rejection : Rejection}
    (rejected : (request.perform settings stamp { ledger := { tables }, gateway }).1 =
      .error (.rejected rejection)) :
    (request.perform settings stamp { ledger := { tables }, gateway }).2 =
      { ledger := { tables }, gateway } := by
  obtain ⟨α, call, wrap, performs, result, after, run, _, _, kept⟩ :=
    request.plain_commits settings sound fresh plain
  simp only [performs, map_apply, onLedger_of_run run, map_eq_error] at rejected ⊢
  rw [kept rejection rejected]

/-- A request that is rejected changes nothing, unless it delivers a notice. -/
theorem Request.unchanged_of_rejected (intact : service.Intact)
    (fresh : Fresh stamp service.ledger.tables) {request : Request}
    (other : request.isDelivery = false) {rejection : Rejection}
    (rejected : (request.perform settings stamp service).1 = .error (.rejected rejection)) :
    (request.perform settings stamp service).2 = service := by
  obtain ⟨⟨tables, outages⟩, gateway⟩ := service
  obtain rfl : outages = [] := intact.outages
  cases request with
  | deliver => cases other
  | recordTopUp user amount session =>
    obtain ⟨wallet, first, _, _, _, run⟩ := recordTopUp_apply fresh user amount session
    simp only [perform, map_apply, onLedger_of_run run, map_eq_error] at rejected
    exact (orOverflow_ne_rejected rejected).elim
  | confirmTopUp session payment =>
    obtain ⟨result, after, run, confirmation⟩ :=
      confirmTopUp_apply intact.sound session payment stamp
    simp only [perform, map_apply, onLedger_of_run run, map_eq_error] at rejected ⊢
    subst rejected
    rw [confirmation.unchanged_of_rejected]
  | checkout actor user value =>
    rcases checkout_apply settings gateway fresh actor user value with
      ⟨refusal, _, run⟩ | ⟨_, _, _, _, _, _, _, _, _, _, _, run⟩
    · simp only [perform, map_apply, run]
    · simp only [perform, map_apply, run, map_eq_error] at rejected
      exact (orOverflow_ne_rejected rejected).elim
  | reconcile session =>
    by_cases paid : ∃ known, gateway.sessions.get? session = some known ∧ known.state = .paid
    · obtain ⟨known, found, paid⟩ := paid
      obtain ⟨result, after, confirmation, run⟩ := reconcile_of_paid intact.sound stamp found paid
      simp only [perform, map_apply, reconcile_of_run run, map_eq_error] at rejected ⊢
      subst rejected
      rw [confirmation.unchanged_of_rejected]
    · simp only [not_exists, not_and] at paid
      obtain ⟨result, run, _⟩ := reconcile_of_unpaid stamp tables paid
      simp only [perform, map_apply, reconcile_of_run run]
  | _ => exact unchanged_of_plain intact.sound fresh rfl rejected

/-- A confirmation that finds nothing to confirm changes nothing. -/
theorem Request.unchanged_of_unconfirmed (intact : service.Intact) {request : Request}
    (answered : (request.perform settings stamp service).1 = .ok (.confirmed none)) :
    (request.perform settings stamp service).2 = service := by
  obtain ⟨⟨tables, outages⟩, gateway⟩ := service
  obtain rfl : outages = [] := intact.outages
  cases request with
  | confirmTopUp session payment =>
    obtain ⟨result, after, run, confirmation⟩ :=
      confirmTopUp_apply intact.sound session payment stamp
    simp only [perform, map_apply, onLedger_of_run run, map_eq_ok] at answered ⊢
    obtain ⟨_, rfl, ⟨⟩⟩ := answered
    rw [confirmation.unchanged_of_none]
  | _ =>
    simp only [perform, map_apply, map_eq_ok] at answered
    obtain ⟨_, _, ⟨⟩⟩ := answered

/-- The delivery of a verified notice processes it. -/
theorem Request.deliver_apply {ledger : Ledger} {gateway : Gateway} {body : List UInt8}
    {signature : String} {notice : Notice} (verified : gateway.verify body signature = .ok notice) :
    (Request.deliver body signature).perform settings stamp { ledger, gateway } =
      ((process notice stamp ledger).1.map .delivered,
        { ledger := (process notice stamp ledger).2, gateway }) := by
  have run : Ledger.deliver gateway body signature stamp ledger =
      ((process notice stamp ledger).1, (process notice stamp ledger).2) :=
    deliver_of_ok verified stamp ledger
  rw [perform, map_apply, deliver_of_run run]

/-- A delivery that is not verified changes nothing. -/
theorem Request.deliver_unverified {gateway : Gateway} {body : List UInt8} {signature : String}
    {rejection : Rejection} (refused : gateway.verify body signature = .error rejection)
    (ledger : Ledger) :
    (Request.deliver body signature).perform settings stamp { ledger, gateway } =
      (.error (.rejected rejection), { ledger, gateway }) := by
  rw [perform, map_apply, deliver_of_run (deliver_of_error refused stamp ledger)]
  rfl

/-- The delivery of a duplicate changes nothing. -/
theorem Request.unchanged_of_duplicate (intact : service.Intact) {request : Request}
    {delivery : Delivery}
    (answered : (request.perform settings stamp service).1 = .ok (.delivered delivery))
    (duplicate : delivery.outcome = .duplicate) :
    (request.perform settings stamp service).2 = service := by
  obtain ⟨⟨tables, outages⟩, gateway⟩ := service
  obtain rfl : outages = [] := intact.outages
  cases request with
  | deliver body signature =>
    cases verified : gateway.verify body signature with
    | error rejection => rw [deliver_unverified verified]
    | ok notice =>
      rw [deliver_apply verified] at answered ⊢
      obtain ⟨_, processed, ⟨⟩⟩ := map_eq_ok.mp answered
      rw [process_of_duplicate intact.sound processed duplicate]
  | _ =>
    simp only [perform, map_apply, map_eq_ok] at answered
    obtain ⟨_, _, ⟨⟩⟩ := answered

/-- A signed notice that is rejected leaves its record behind, as failed, and nothing else. -/
theorem Request.failed_of_rejected (intact : service.Intact) {body : List UInt8}
    {signature : String} {notice : Notice}
    (verified : service.gateway.verify body signature = .ok notice) {rejection : Rejection}
    (rejected : ((Request.deliver body signature).perform settings stamp service).1 =
      .error (.rejected rejection)) :
    ∃ record : NoticeRecord, record.id = notice.id ∧ record.status = .failed ∧
      record.fault = some rejection.message ∧
      ((Request.deliver body signature).perform settings stamp service).2 = { service with
        ledger := { service.ledger with tables := service.ledger.tables.putNotice record } } := by
  obtain ⟨⟨tables, outages⟩, gateway⟩ := service
  obtain rfl : outages = [] := intact.outages
  rw [deliver_apply verified] at rejected ⊢
  refine ⟨(openRecord notice stamp tables).markFailed rejection.message stamp.now, ?_, rfl, rfl, ?_⟩
  · exact openRecord_id intact.sound
  · rw [process_of_rejected intact.sound (map_eq_error.mp rejected)]

/-- The notice that a step delivers, if it is signed correctly. -/
def Step.notice? (step : Step) : Option Notice :=
  match step.request with
  | .deliver body signature => (step.before.gateway.verify body signature).toOption
  | _ => none

/-- No step of a run that is rejected leaves a trace, but for the record of a notice that fails. Nor
does a confirmation that answers with nothing, or the delivery of a duplicate. -/
theorem rejected_steps_without_trace {steps : List Step} (run : Run settings steps service) :
    ∀ step ∈ steps,
      (∀ rejection, step.answer = .error (.rejected rejection) →
        (step.notice? = none → step.after = step.before) ∧
        ∀ notice, step.notice? = some notice → ∃ record : NoticeRecord, record.id = notice.id ∧
          record.status = .failed ∧ record.fault = some rejection.message ∧
          step.after = { step.before with
            ledger := { step.before.ledger with
              tables := step.before.ledger.tables.putNotice record } }) ∧
      (step.answer = .ok (.confirmed none) → step.after = step.before) ∧
      ∀ delivery, step.answer = .ok (.delivered delivery) → delivery.outcome = .duplicate →
        step.after = step.before := by
  refine run.forall_steps ?_
  intro steps service prior request stamp fresh
  refine ⟨fun rejection rejected => ?_, Request.unchanged_of_unconfirmed prior.intact,
    fun _ answered => Request.unchanged_of_duplicate prior.intact answered⟩
  cases delivers : request.isDelivery with
  | false =>
    refine ⟨fun _ => Request.unchanged_of_rejected prior.intact fresh delivers rejected, ?_⟩
    intro notice noticed
    cases request <;> first | cases noticed | cases delivers
  | true =>
    cases request with
    | deliver body signature =>
      cases verified : service.gateway.verify body signature with
      | error refusal =>
        have silent : (Step.of settings service (.deliver body signature) stamp).notice? =
            none := by
          simp [Step.notice?, Step.of, verified, Except.toOption]
        refine ⟨fun _ => ?_, by simp [silent]⟩
        simp only [Step.of, Request.deliver_unverified verified]
      | ok notice =>
        have told : (Step.of settings service (.deliver body signature) stamp).notice? =
            some notice := by
          simp [Step.notice?, Step.of, verified, Except.toOption]
        refine ⟨by simp [told], ?_⟩
        intro same noticed
        obtain rfl : notice = same := Option.some.inj (told.symm.trans noticed)
        exact Request.failed_of_rejected prior.intact verified rejected
    | _ => cases delivers

/-- An order that its customer, who has no wallet, cannot pay for. -/
def unpaidOrder : List (Request × Stamp) :=
  [(.register ⟨⟨7⟩, ⟨1⟩, centsOf 1000, .epoch⟩, stampOf 1), (.hold ⟨7⟩, stampOf 2)]

/-- The placement that fails opens no wallet. -/
theorem unpaidOrder_without_trace :
    (performAll {} unpaidOrder { gateway := { secret := "" } }).ledger.tables.wallets =
      (performAll {} (unpaidOrder.take 1)
        { gateway := { secret := "" } }).ledger.tables.wallets := by
  have run : Run {} _ _ := (Run.start { secret := "" }).performAll unpaidOrder (by decide)
  let last := Step.of {} (performAll {} (unpaidOrder.take 1) { gateway := { secret := "" } })
    (.hold ⟨7⟩) (stampOf 2)
  have member : last ∈ stepsOf {} unpaidOrder { gateway := { secret := "" } } := by
    simp [last, stepsOf, unpaidOrder, performAll]
  obtain ⟨rejection, rejected⟩ : ∃ rejection, last.answer = .error (.rejected rejection) := ⟨_, rfl⟩
  have kept := ((rejected_steps_without_trace run last member).1 rejection rejected).1 rfl
  exact congrArg (·.ledger.tables.wallets) kept

end Service

end Prepaid
