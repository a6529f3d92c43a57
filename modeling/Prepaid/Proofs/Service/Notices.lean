import Prepaid.Proofs.Ledger.Notices
import Prepaid.Proofs.Service.Atomicity
import Prepaid.Proofs.Service.Decisions
import Prepaid.Proofs.Service.TopUps

/-!
# The records of notices over a run

Only deliveries write the records of notices. As long as no sum of money is too
large to compute with, the record of a notice shows the answer to its last signed
delivery, and a notice without a record has never been delivered.
-/

namespace Prepaid.Service

open Ledger

section Requests

variable {settings : Settings} {stamp : Stamp} {service : Service}

/-- Only deliveries write records of notices. -/
theorem Request.keeps_notices (intact : service.Intact) (fresh : Fresh stamp service.ledger.tables)
    {request : Request} (other : request.isDelivery = false) :
    (request.perform settings stamp service).2.ledger.tables.notices =
      service.ledger.tables.notices := by
  obtain ⟨⟨tables, outages⟩, gateway⟩ := service
  obtain rfl : outages = [] := intact.outages
  have sound : tables.Sound := intact.sound
  cases decided : request.decision? settings with
  | some decide =>
    rw [perform_enacts decided sound fresh]
    exact enact_notices _ tables
  | none =>
    cases request with
    | deliver => cases other
    | checkout actor user value =>
      cases allowed : topUpAmount settings actor user value with
      | error rejection => simp only [perform, map_apply, checkout_of_error allowed]
      | ok amount =>
        let opening := gateway.openSession user amount settings.currency stamp
        simp only [perform, map_apply,
          checkout_of_ok allowed rfl (recordTopUp_booked sound fresh user amount opening.1.session)]
        exact Tables.book_notices _ tables
    | reconcile session =>
      by_cases paid : ∃ known, gateway.sessions.get? session = some known ∧ known.state = .paid
      · obtain ⟨known, found, paid⟩ := paid
        obtain ⟨result, after, confirmation, run⟩ := reconcile_of_paid sound stamp found paid
        simp only [perform, map_apply, reconcile_of_run run]
        exact confirmation.notices
      · simp only [not_exists, not_and] at paid
        obtain ⟨result, run, _⟩ := reconcile_of_unpaid stamp tables paid
        simp only [perform, map_apply, reconcile_of_run run]
    | _ => cases decided

/-- A notice whose record is completed is refused as a duplicate, and nothing is changed. -/
theorem Request.deliver_closed (intact : service.Intact) {body : List UInt8} {signature : String}
    {notice : Notice} (verified : service.gateway.verify body signature = .ok notice)
    (closed : service.ledger.tables.Closed notice.id) :
    (Request.deliver body signature).perform settings stamp service =
      (.ok (.delivered ⟨notice.id, .duplicate, none⟩), service) := by
  obtain ⟨⟨tables, outages⟩, gateway⟩ := service
  obtain rfl : outages = [] := intact.outages
  rw [deliver_apply verified, process_of_completed (isCompleted_noticeRecord.mpr closed)]
  rfl

/-- A delivery that is signed correctly, of a notice that is not completed, closes the record of the
notice. -/
theorem Request.deliver_going (intact : service.Intact) {body : List UInt8} {signature : String}
    {notice : Notice} (verified : service.gateway.verify body signature = .ok notice)
    (going : ¬ service.ledger.tables.Closed notice.id) :
    ((Request.deliver body signature).perform settings stamp service).2.ledger.tables.notices =
      service.ledger.tables.notices.put notice.id
        ((openRecord notice stamp service.ledger.tables).close stamp.now
          ((Request.deliver body signature).perform settings stamp service).1) := by
  obtain ⟨⟨tables, outages⟩, gateway⟩ := service
  obtain rfl : outages = [] := intact.outages
  rw [deliver_apply verified]
  refine (process_notices intact.sound stamp going).trans ?_
  rcases (process notice stamp { tables }).1 with (rejection | overflow) | delivery <;> rfl

end Requests

/-! ## Runs -/

section Steps

variable {settings : Settings} {stamp : Stamp} {service : Service} {request : Request} {id : String}

/-- The step delivers a notice of the given name, signed correctly. -/
def Step.delivers (id : String) (step : Step) : Bool :=
  step.notice?.map Notice.id = some id

/-- What it is for a step to deliver a notice. -/
theorem Step.delivers_iff : (Step.of settings service request stamp).delivers id = true ↔
    ∃ body signature notice, request = .deliver body signature ∧
      service.gateway.verify body signature = .ok notice ∧ notice.id = id := by
  cases request with
  | deliver body signature =>
    cases verified : service.gateway.verify body signature with
    | error rejection => simp [delivers, notice?, of, verified, Except.toOption]
    | ok notice => simp [delivers, notice?, of, verified, Except.toOption]
  | _ => simp [delivers, notice?, of]

/-- A step writes the record of a notice only if it delivers the notice, and not if that is
completed. -/
theorem Step.keeps_notice (intact : service.Intact) (fresh : Fresh stamp service.ledger.tables)
    (done : (Step.of settings service request stamp).delivers id = true →
      service.ledger.tables.Closed id) :
    (Step.of settings service request stamp).after.ledger.tables.notices.get? id =
      service.ledger.tables.notices.get? id := by
  cases delivery : request.isDelivery with
  | false => exact congrArg (Table.get? id) (Request.keeps_notices intact fresh delivery)
  | true =>
    cases request with
    | deliver body signature =>
      cases verified : service.gateway.verify body signature with
      | error rejection =>
        obtain ⟨ledger, gateway⟩ := service
        simp only [of, Request.deliver_unverified verified]
      | ok notice =>
        by_cases closed : service.ledger.tables.Closed notice.id
        · simp only [of, Request.deliver_closed intact verified closed]
        · have apart : notice.id ≠ id := by
            rintro rfl
            exact closed (done (delivers_iff.mpr ⟨_, _, _, rfl, verified, rfl⟩))
          simp only [of, Request.deliver_going intact verified closed, Table.get?_put, if_neg apart]
    | _ => cases delivery

end Steps

/-- The last step that delivers a notice. -/
def lastDelivery? (id : String) (steps : List Step) : Option Step :=
  (steps.filter (·.delivers id)).getLast?

/-- The last step to deliver a notice is the latest that does. -/
theorem lastDelivery?_snoc (id : String) (steps : List Step) (step : Step) :
    lastDelivery? id (steps ++ [step]) = if step.delivers id then some step
      else lastDelivery? id steps := by
  rw [lastDelivery?, List.filter_append, List.filter_singleton]
  cases step.delivers id
  · simp [lastDelivery?]
  · simp

/-- No sum of money in the step was too large to compute with. -/
def Step.Computed (step : Step) : Prop :=
  ∀ overflow, step.answer ≠ .error (.overflow overflow)

instance {α : Type} (answer : Except Failure α) :
    Decidable (∀ overflow, answer ≠ .error (.overflow overflow)) :=
  match answer with
  | .error (.overflow overflow) => .isFalse fun computed => computed overflow rfl
  | .error (.rejected _) => .isTrue fun _ => nofun
  | .ok _ => .isTrue fun _ => nofun

instance (step : Step) : Decidable step.Computed :=
  match answered : step.answer with
  | .error (.overflow overflow) => .isFalse fun computed => computed overflow answered
  | .error (.rejected _) => .isTrue fun _ full => nomatch answered.symm.trans full
  | .ok _ => .isTrue fun _ full => nomatch answered.symm.trans full

section Runs

variable {settings : Settings} {steps further : List Step} {service later : Service}

/-- The record of a notice shows the answer to its last delivery. -/
theorem Run.shows (run : Run settings steps service) (computed : ∀ step ∈ steps, step.Computed)
    {id : String} {record : NoticeRecord}
    (found : service.ledger.tables.notices.get? id = some record) :
    ∃ step, lastDelivery? id steps = some step ∧ record.Shows step.answer := by
  induction run generalizing record with
  | start gateway => cases found
  | elsewhere prior gateway ih => exact ih computed found
  | @step steps service prior request stamp fresh ih =>
    have before := @ih fun step member => computed step (List.mem_append_left _ member)
    have calm := computed _ (List.mem_append_right _ (List.mem_singleton_self _))
    rw [lastDelivery?_snoc]
    split
    · next delivers =>
      refine ⟨_, rfl, ?_⟩
      obtain ⟨body, signature, notice, rfl, verified, rfl⟩ := Step.delivers_iff.mp delivers
      by_cases closed : service.ledger.tables.Closed notice.id
      · -- The record is completed, so the last delivery succeeded, as this one does.
        rw [Step.keeps_notice prior.intact fresh fun _ => closed] at found
        obtain ⟨known, knownAt, completed⟩ := closed
        cases found.symm.trans knownAt
        obtain ⟨step, _, shows⟩ := before found
        simp only [Step.of, Request.deliver_closed prior.intact verified ⟨_, knownAt, completed⟩]
        exact shows.of_completed completed _
      · have unprocessed : (openRecord notice stamp service.ledger.tables).processedAt = none := by
          refine openRecord_unprocessed fun record found => ?_
          obtain ⟨step, _, shows⟩ := before found
          refine shows.unprocessed
            (Bool.eq_false_iff.mpr fun completed => closed ⟨_, found, completed⟩)
        simp only [Step.of, Request.deliver_going prior.intact verified closed, Table.get?_put,
          if_true] at found
        cases found
        exact NoticeRecord.shows_close unprocessed stamp.now calm
    · next silent =>
      rw [Step.keeps_notice prior.intact fresh fun delivers => (silent delivers).elim] at found
      exact before found

/-- A notice that has been delivered has a record. -/
theorem Run.never_delivered (run : Run settings steps service) {id : String}
    (absent : service.ledger.tables.notices.get? id = none) : lastDelivery? id steps = none := by
  induction run with
  | start gateway => rfl
  | elsewhere prior gateway ih => exact ih absent
  | @step steps service prior request stamp fresh ih =>
    rw [lastDelivery?_snoc]
    split
    · next delivers =>
      exfalso
      obtain ⟨body, signature, notice, rfl, verified, rfl⟩ := Step.delivers_iff.mp delivers
      by_cases closed : service.ledger.tables.Closed notice.id
      · rw [Step.keeps_notice prior.intact fresh fun _ => closed] at absent
        obtain ⟨record, found, _⟩ := closed
        rw [absent] at found
        cases found
      · simp only [Step.of, Request.deliver_going prior.intact verified closed, Table.get?_put,
          if_true] at absent
        cases absent
    · next silent =>
      rw [Step.keeps_notice prior.intact fresh fun delivers => (silent delivers).elim] at absent
      exact ih absent

/-- A record that is completed never changes again. -/
theorem Run.keeps_completed (run : Run settings steps service)
    (onward : Onward settings service further later) {id : String} {record : NoticeRecord}
    (found : service.ledger.tables.notices.get? id = some record)
    (completed : record.isCompleted = true) :
    later.ledger.tables.notices.get? id = some record := by
  induction onward with
  | here => exact found
  | elsewhere prior gateway ih => exact ih
  | step prior request fresh ih =>
    have intact := (run.onward prior).intact
    rw [Step.keeps_notice intact fresh fun _ => ⟨record, ih, completed⟩]
    exact ih

end Runs

/-- The service as if a notice had never been delivered to it. -/
def forget (notice : String) (service : Service) : Service :=
  { service with ledger := service.ledger.forget notice }

/-- The record of a failed notice makes no difference to its next delivery. -/
theorem Request.deliver_forget {settings : Settings} {stamp : Stamp} {service : Service}
    (intact : service.Intact) {body : List UInt8} {signature : String} {notice : Notice}
    (verified : service.gateway.verify body signature = .ok notice)
    (going : ¬ service.ledger.tables.Closed notice.id) :
    ((Request.deliver body signature).perform settings stamp (service.forget notice.id)).1 =
        ((Request.deliver body signature).perform settings stamp service).1 ∧
      ((Request.deliver body signature).perform settings stamp (service.forget notice.id)).2.forget
        notice.id = ((Request.deliver body signature).perform settings stamp service).2.forget
          notice.id := by
  obtain ⟨⟨tables, outages⟩, gateway⟩ := service
  obtain rfl : outages = [] := intact.outages
  obtain ⟨same, left⟩ := process_forget intact.sound stamp going
  rw [deliver_apply verified, forget, deliver_apply verified]
  exact ⟨congrArg (Except.map Answer.delivered) same, congrArg (Service.mk · gateway) left⟩

/-- What is on record of the notices of a run, as long as no sum of money is too large to compute
with. There is one record at most for each notice, and none for a notice that has not been
delivered. A record shows the answer to the last signed delivery: it is completed if that succeeded,
and has failed with its words if that was rejected. Once it is completed it stays as it is, and
every further delivery is a duplicate that changes nothing; while it has failed, a delivery does
what it would do if the notice had never been seen. What is not signed correctly changes nothing. -/
theorem notices_on_record {settings : Settings} {steps : List Step} {service : Service}
    (run : Run settings steps service) (computed : ∀ step ∈ steps, step.Computed) :
    (service.ledger.tables.notices.values.map NoticeRecord.id).Nodup ∧
    (∀ id, service.ledger.tables.notices.get? id = none → lastDelivery? id steps = none) ∧
    (∀ record ∈ service.ledger.tables.notices.values,
      (∃ step, lastDelivery? record.id steps = some step ∧ record.Shows step.answer) ∧
      (record.status = .completed → ∀ further later, Onward settings service further later →
        later.ledger.tables.notices.get? record.id = some record ∧
        ∀ body signature notice stamp, later.gateway.verify body signature = .ok notice →
          notice.id = record.id → (Request.deliver body signature).perform settings stamp later =
            (.ok (.delivered ⟨record.id, .duplicate, none⟩), later)) ∧
      (record.status = .failed → ∀ body signature notice stamp,
        service.gateway.verify body signature = .ok notice → notice.id = record.id →
          let seen := (Request.deliver body signature).perform settings stamp service
          let unseen :=
            (Request.deliver body signature).perform settings stamp (service.forget record.id)
          unseen.1 = seen.1 ∧ unseen.2.forget record.id = seen.2.forget record.id)) ∧
    ∀ body signature rejection stamp, service.gateway.verify body signature = .error rejection →
      (Request.deliver body signature).perform settings stamp service =
        (.error (.rejected rejection), service) := by
  have intact := run.intact
  have kept {record : NoticeRecord} (member : record ∈ service.ledger.tables.notices.values) :
      service.ledger.tables.notices.get? record.id = some record := by
    obtain ⟨id, found⟩ := Table.exists_key member
    rwa [intact.sound.notice_id found]
  refine ⟨Table.nodup_map_values fun _ _ => intact.sound.notice_id, fun id => run.never_delivered,
    fun record member => ⟨?_, ?_, ?_⟩, ?_⟩
  · exact run.shows computed (kept member)
  · intro completed further later onward
    have stays := run.keeps_completed onward (kept member) (decide_eq_true completed)
    refine ⟨stays, fun body signature notice stamp verified same => ?_⟩
    rw [← same] at stays ⊢
    exact Request.deliver_closed (run.onward onward).intact verified
      ⟨record, stays, decide_eq_true completed⟩
  · intro failed body signature notice stamp verified same
    rw [← same]
    refine Request.deliver_forget intact verified ?_
    rintro ⟨other, found, completed⟩
    rw [same, kept member] at found
    cases found
    simp [NoticeRecord.isCompleted, failed] at completed
  · intro body signature rejection stamp refused
    exact Request.deliver_unverified refused service.ledger

/-- The step that delivers a verified notice processes it. -/
theorem Step.of_deliver {settings : Settings} {stamp : Stamp} {ledger : Ledger} {gateway : Gateway}
    {body : List UInt8} {signature : String} {notice : Notice}
    (verified : gateway.verify body signature = .ok notice) :
    Step.of settings { ledger, gateway } (.deliver body signature) stamp =
      { before := { ledger, gateway }, request := .deliver body signature, stamp
        answer := (process notice stamp ledger).1.map .delivered
        after := { ledger := (process notice stamp ledger).2, gateway } } := by
  rw [Step.of, Request.deliver_apply verified]

/-- The step that records a top-up calls the ledger. -/
theorem Step.of_recordTopUp {settings : Settings} {ledger : Ledger} {gateway : Gateway}
    (user : UserId) (amount : Amount) (session : String) (stamp : Stamp) :
    Step.of settings { ledger, gateway } (.recordTopUp user amount session) stamp =
      { before := { ledger, gateway }, request := .recordTopUp user amount session, stamp
        answer := (recordTopUp user amount session stamp ledger).1.map .moved
        after := { ledger := (recordTopUp user amount session stamp ledger).2, gateway } } := by
  rcases run : recordTopUp user amount session stamp ledger with ⟨result, after⟩
  rw [Step.of, Request.perform, map_apply, onLedger_of_run run]

/-- A notice about a session, under a name that all of them share. -/
def noticeAbout (session : String) : Notice :=
  ⟨"evt", Notice.sessionCompleted, Notice.completedBody "evt" session none⟩

/-- The delivery of that notice, as the gateway writes and signs it. -/
def deliveryAbout (session : String) : Request :=
  let body := Text.bytes (paidGateway.completedBody "evt" session)
  .deliver body (paidGateway.sign body)

/-- The delivery of the gateway's own notice is verified. -/
theorem verify_deliveryAbout (session : String) :
    paidGateway.verify (Text.bytes (paidGateway.completedBody "evt" session))
      (paidGateway.sign (Text.bytes (paidGateway.completedBody "evt" session))) =
        .ok (noticeAbout session) := by
  have unpaid : (paidGateway.sessions.get? session).bind (·.payment) = none := by
    rw [paidGateway, Table.get?_put]
    split <;> rfl
  refine (Gateway.verify_own "evt" session paidGateway).trans ?_
  rw [unpaid]
  rfl

/-- The step that delivers the gateway's own notice processes it. -/
theorem of_deliveryAbout (session : String) (stamp : Stamp) (ledger : Ledger) :
    Step.of {} { ledger, gateway := paidGateway } (deliveryAbout session) stamp =
      { before := { ledger, gateway := paidGateway }, request := deliveryAbout session, stamp
        answer := (process (noticeAbout session) stamp ledger).1.map .delivered
        after :=
          { ledger := (process (noticeAbout session) stamp ledger).2, gateway := paidGateway } } :=
  Step.of_deliver (verify_deliveryAbout session)

/-- The notice of a paid session. -/
def paidNotice : Request :=
  let body := Text.bytes (paidGateway.completedBody "evt" "cs")
  .deliver body (paidGateway.sign body)

/-- A notice that comes too early, the top-up that it is about, and the notice once more. -/
def earlyNotice : List (Request × Stamp) :=
  [(paidNotice, stampOf 1), (waitingTopUp, stampOf 2), (paidNotice, stampOf 3)]

/-- The notice that came too early is completed when it comes again. -/
theorem earlyNotice_on_record :
    (∀ step ∈ stepsOf {} earlyNotice { gateway := paidGateway }, step.Computed) ∧
      ∃ record,
        (performAll {} earlyNotice { gateway := paidGateway }).ledger.tables.notices.values =
          [record] ∧
        record.status = .completed ∧
        ∃ step,
          lastDelivery? record.id (stepsOf {} earlyNotice { gateway := paidGateway }) = some step ∧
          record.Shows step.answer := by
  -- Which request has the notice worked on makes no difference, so its signature need not be
  -- computed.
  have evaluated : ∀ request : Request, (∀ stamp ledger,
      Step.of {} { ledger, gateway := paidGateway } request stamp =
        { before := { ledger, gateway := paidGateway }, request, stamp
          answer := (process (noticeAbout "cs") stamp ledger).1.map .delivered
          after :=
            { ledger := (process (noticeAbout "cs") stamp ledger).2, gateway := paidGateway } }) →
      AllFresh {} [(request, stampOf 1), (waitingTopUp, stampOf 2), (request, stampOf 3)]
          { gateway := paidGateway } ∧
        (∀ step ∈ stepsOf {} [(request, stampOf 1), (waitingTopUp, stampOf 2), (request, stampOf 3)]
          { gateway := paidGateway }, step.Computed) ∧
        (performAll {} [(request, stampOf 1), (waitingTopUp, stampOf 2), (request, stampOf 3)]
          { gateway := paidGateway }).ledger.tables.notices.values.map NoticeRecord.status =
            [.completed] := by
    intro request delivers
    simp only [AllFresh, stepsOf, performAll, delivers, waitingTopUp, Step.of_recordTopUp,
      Step.Computed, List.forall_mem_cons]
    exact ⟨by decide +kernel,
      ⟨by decide +kernel, by decide +kernel, by decide +kernel, List.forall_mem_nil _⟩,
      by decide +kernel⟩
  have paid := evaluated paidNotice fun stamp ledger => of_deliveryAbout "cs" stamp ledger
  rw [← earlyNotice] at paid
  obtain ⟨fresh, computed, statuses⟩ := paid
  obtain ⟨record, only, completed⟩ := List.map_eq_singleton_iff.mp statuses
  have shown :=
    (notices_on_record (.performAll earlyNotice (.start paidGateway) fresh) computed).2.2.1
  exact ⟨computed, record, only, completed, (shown record (by simp [only])).1⟩

end Prepaid.Service
