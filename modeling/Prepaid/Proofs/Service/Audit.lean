import Prepaid.Proofs.Gateway.Verification
import Prepaid.Proofs.Service.Notices

/-!
# What completed records show

A notice may be delivered under one name with different bodies, as long as its
deliveries fail. Its record keeps the type and the body that came first. One
delivery completes the record, and the record shows the notice that was applied by
it exactly if that is also the notice that came first.
-/

namespace Prepaid

/-- The record has the type and the body of a notice. -/
def NoticeRecord.Keeps (record : NoticeRecord) (notice : Notice) : Prop :=
  record.type = notice.type ∧ record.body = notice.body

/-- Closing a record does not change what it keeps. -/
theorem NoticeRecord.keeps_close {α : Type} {record : NoticeRecord} {notice : Notice}
    (now : Instant) (result : Except Failure α) : (record.close now result).Keeps notice ↔
    record.Keeps notice := by
  rcases result with (rejection | overflow) | value <;> rfl

namespace Ledger

variable {tables : Tables} {notice first : Notice} {stamp : Stamp}

/-- The record of a notice that has been delivered before keeps what it had. -/
theorem openRecord_keeps_of_some {record : NoticeRecord}
    (found : tables.notices.get? notice.id = some record) (keeps : record.Keeps first) :
    (openRecord notice stamp tables).Keeps first := by
  have same : noticeRecord notice stamp.now { tables } = record := by
    rw [noticeRecord, found, Option.getD_some]
  rwa [openRecord, same]

/-- A notice that has not come before is recorded as it is. -/
theorem openRecord_keeps_of_none (absent : tables.notices.get? notice.id = none) :
    (openRecord notice stamp tables).Keeps notice := by
  have same : noticeRecord notice stamp.now { tables } = .ofNotice notice stamp.now := by
    rw [noticeRecord, absent, Option.getD_none]
  rw [openRecord, same]
  exact ⟨rfl, rfl⟩

/-- Working on a notice that is not completed never finds a duplicate. -/
theorem process_not_duplicate (sound : tables.Sound) (going : ¬ tables.Closed notice.id)
    {delivery : Delivery} (answered : (process notice stamp { tables }).1 = .ok delivery) :
    delivery.outcome ≠ .duplicate := by
  have unfinished : (noticeRecord notice stamp.now { tables }).isCompleted = false :=
    Bool.eq_false_iff.mpr fun done => going (isCompleted_noticeRecord.mp done)
  obtain ⟨result, middle, handling, run⟩ := process_of_open sound unfinished
  rw [run] at answered
  obtain ⟨answer, rfl, rfl⟩ := map_eq_ok.mp answered
  exact handling.not_duplicate

end Ledger

/-- A notice is read from its body. -/
theorem Notice.ofBody?_body {body : Json} {notice : Notice}
    (read : Notice.ofBody? body = some notice) :
    Notice.ofBody? notice.body = some notice := by
  have kept : notice.body = body := by
    unfold Notice.ofBody? at read
    split at read
    · simp only [Option.bind_eq_bind, Option.bind_eq_some_iff, Option.pure_def, Option.some.injEq]
        at read
      obtain ⟨id, _, type, _, rfl⟩ := read
      rfl
    · cases read
  rw [kept, read]

/-- A verified notice is what its body says. -/
theorem Gateway.ofBody?_of_verify {gateway : Gateway} {body : List UInt8} {signature : String}
    {notice : Notice} (verified : gateway.verify body signature = .ok notice) :
    Notice.ofBody? notice.body = some notice := by
  have found := (verify_eq_ok_iff.mp verified).2
  rw [Gateway.notice] at found
  split at found
  · cases found
  · next value _ =>
    split at found
    · cases found
    · next read =>
      cases found
      exact Notice.ofBody?_body read

namespace Service

open Ledger

/-! ## The first delivery, and the one that completes -/

/-- The notice of the first delivery under a name, if it is signed correctly. -/
def Step.firstOf (id : String) (step : Step) : Option Notice :=
  step.notice?.filter (·.id = id)

/-- The notice that was delivered first under a name. -/
def firstNotice? (id : String) (steps : List Step) : Option Notice :=
  steps.findSome? (·.firstOf id)

/-- The step is the delivery of a notice that was not known to be completed, and it succeeded: what
the notice asks for has been done or acknowledged. -/
def Step.applies (step : Step) : Bool :=
  match step.answer with
  | .ok (.delivered delivery) => delivery.outcome ≠ .duplicate
  | _ => false

section Steps

variable {settings : Settings} {stamp : Stamp} {service : Service} {request : Request} {id : String}
    {step : Step}

/-- A step that does not deliver a notice is not the first to deliver it. -/
theorem Step.firstOf_eq_none (silent : step.delivers id ≠ true) : step.firstOf id = none := by
  rw [firstOf, Option.filter_eq_none_iff]
  intro notice told same
  refine silent ?_
  rw [delivers, told, Option.map_some, decide_eq_true_iff, of_decide_eq_true same]

/-- The delivery of a verified notice delivers it. -/
theorem Step.notice?_deliver {body : List UInt8} {signature : String} {notice : Notice}
    (verified : service.gateway.verify body signature = .ok notice) :
    (Step.of settings service (.deliver body signature) stamp).notice? = some notice := by
  simp only [notice?, of, verified, Except.toOption]

/-- The delivery of a verified notice may be the first one. -/
theorem Step.firstOf_deliver {body : List UInt8} {signature : String} {notice : Notice}
    (verified : service.gateway.verify body signature = .ok notice) :
    (Step.of settings service (.deliver body signature) stamp).firstOf notice.id = some notice := by
  rw [firstOf, notice?_deliver verified, Option.filter_some, if_pos (decide_eq_true rfl)]

/-- A notice that is delivered is what its body says. -/
theorem Step.ofBody?_of_notice? {notice : Notice} (told : step.notice? = some notice) :
    Notice.ofBody? notice.body = some notice := by
  rw [notice?] at told
  split at told
  · next body signature _ =>
    cases verified : step.before.gateway.verify body signature with
    | error rejection =>
      rw [verified] at told
      cases told
    | ok same =>
      rw [verified] at told
      cases told
      exact Gateway.ofBody?_of_verify verified
  · cases told

/-- A later step comes first only if none before it did. -/
theorem firstNotice?_snoc (id : String) (steps : List Step) (step : Step) :
    firstNotice? id (steps ++ [step]) = (firstNotice? id steps).or (step.firstOf id) := by
  rw [firstNotice?, List.findSome?_append, List.findSome?_singleton]
  rfl

/-- The first notice is what its body says. -/
theorem ofBody?_of_firstNotice? {steps : List Step} {first : Notice}
    (came : firstNotice? id steps = some first) :
    Notice.ofBody? first.body = some first := by
  obtain ⟨step, _, told⟩ := List.exists_of_findSome?_eq_some came
  exact Step.ofBody?_of_notice? (Option.eq_some_of_filter_eq_some told)

end Steps

section Runs

variable {settings : Settings} {steps : List Step} {service : Service} {id : String}
    {record : NoticeRecord}

/-- Nothing has been delivered under a name that has no record. -/
theorem Run.firstNotice?_of_none (run : Run settings steps service)
    (absent : service.ledger.tables.notices.get? id = none) : firstNotice? id steps = none := by
  have last := run.never_delivered absent
  rw [lastDelivery?, List.getLast?_eq_none_iff, List.filter_eq_nil_iff] at last
  exact List.findSome?_eq_none_iff.mpr fun step member => Step.firstOf_eq_none (last step member)

/-- The record of a notice keeps what was delivered first. -/
theorem Run.keeps_first (run : Run settings steps service)
    (found : service.ledger.tables.notices.get? id = some record) :
    ∃ first, firstNotice? id steps = some first ∧ record.Keeps first := by
  induction run generalizing record with
  | start gateway => cases found
  | elsewhere prior gateway ih => exact ih found
  | @step steps service prior request stamp fresh ih =>
    rw [firstNotice?_snoc]
    by_cases delivers : (Step.of settings service request stamp).delivers id = true ∧
        ¬ service.ledger.tables.Closed id
    · obtain ⟨delivers, going⟩ := delivers
      obtain ⟨body, signature, notice, rfl, verified, rfl⟩ := Step.delivers_iff.mp delivers
      simp only [Step.of, Request.deliver_going prior.intact verified going, Table.get?_put,
        if_true] at found
      cases found
      rw [Step.firstOf_deliver verified]
      cases known : service.ledger.tables.notices.get? notice.id with
      | none =>
        rw [prior.firstNotice?_of_none known]
        exact ⟨notice, rfl, (NoticeRecord.keeps_close _ _).mpr (openRecord_keeps_of_none known)⟩
      | some old =>
        obtain ⟨first, came, keeps⟩ := ih known
        rw [came]
        exact ⟨first, rfl,
          (NoticeRecord.keeps_close _ _).mpr (openRecord_keeps_of_some known keeps)⟩
    · rw [Step.keeps_notice prior.intact fresh fun sent => by_contra fun going =>
        delivers ⟨sent, going⟩] at found
      obtain ⟨first, came, keeps⟩ := ih found
      rw [came]
      exact ⟨first, rfl, keeps⟩

end Runs

/-! ## The delivery that completes a record -/

section Steps

variable {settings : Settings} {stamp : Stamp} {service : Service} {request : Request} {id : String}

/-- A notice that is completed stays so. -/
theorem Step.closed_of_closed (intact : service.Intact) (fresh : Fresh stamp service.ledger.tables)
    (closed : service.ledger.tables.Closed id) :
    (Step.of settings service request stamp).after.ledger.tables.Closed id := by
  rw [Tables.Closed, keeps_notice intact fresh fun _ => closed]
  exact closed

/-- A delivery of a notice that is not completed completes it exactly if it succeeds. -/
theorem Step.closed_deliver (intact : service.Intact) {body : List UInt8} {signature : String}
    {notice : Notice} (verified : service.gateway.verify body signature = .ok notice)
    (going : ¬ service.ledger.tables.Closed notice.id) :
    (Step.of settings service (.deliver body signature) stamp).after.ledger.tables.Closed
      notice.id ↔ ((Request.deliver body signature).perform settings stamp service).1.isOk =
        true := by
  have opened : (openRecord notice stamp service.ledger.tables).isCompleted = false := rfl
  simp only [Tables.Closed, of, Request.deliver_going intact verified going, Table.get?_put,
    if_true, Option.some.injEq, exists_eq_left', NoticeRecord.isCompleted_close opened]

/-- A delivery of a notice that is completed is answered as a duplicate and leaves the ledger
alone. -/
def Step.IsRepetition (step : Step) (id : String) : Prop :=
  step.answer = .ok (.delivered ⟨id, .duplicate, none⟩) ∧ step.after.ledger = step.before.ledger

/-- Once a notice is closed its deliveries are repetitions. -/
theorem Step.repetition_of_closed (intact : service.Intact)
    (closed : service.ledger.tables.Closed id)
    (delivers : (Step.of settings service request stamp).delivers id = true) :
    (Step.of settings service request stamp).IsRepetition id := by
  obtain ⟨body, signature, notice, rfl, verified, rfl⟩ := delivers_iff.mp delivers
  simp only [IsRepetition, of, Request.deliver_closed intact verified closed, and_self]

/-- A step closes the record of a notice only if it delivers the notice and applies it. -/
theorem Step.applies_of_closes (intact : service.Intact) (fresh : Fresh stamp service.ledger.tables)
    (going : ¬ service.ledger.tables.Closed id)
    (closes : (Step.of settings service request stamp).after.ledger.tables.Closed id) :
    (Step.of settings service request stamp).delivers id = true ∧
      (Step.of settings service request stamp).applies = true := by
  by_cases delivers : (Step.of settings service request stamp).delivers id = true
  · refine ⟨delivers, ?_⟩
    obtain ⟨body, signature, notice, rfl, verified, rfl⟩ := delivers_iff.mp delivers
    have succeeds := (closed_deliver intact verified going).mp closes
    obtain ⟨⟨tables, outages⟩, gateway⟩ := service
    obtain rfl : outages = [] := intact.outages
    simp only [applies, of]
    rw [Request.deliver_apply verified] at succeeds ⊢
    cases answered : (process notice stamp { tables }).1 with
    | error failure =>
      rw [answered] at succeeds
      cases succeeds
    | ok delivery => exact decide_eq_true (process_not_duplicate intact.sound going answered)
  · rw [Tables.Closed, keeps_notice intact fresh fun sent => (delivers sent).elim] at closes
    exact (going closes).elim

/-- A delivery after which a notice is still not completed has failed. -/
theorem Step.failed_of_going (intact : service.Intact) (going : ¬ service.ledger.tables.Closed id)
    (still : ¬ (Step.of settings service request stamp).after.ledger.tables.Closed id)
    (delivers : (Step.of settings service request stamp).delivers id = true) :
    ∃ failure, (Step.of settings service request stamp).answer = .error failure := by
  obtain ⟨body, signature, notice, rfl, verified, rfl⟩ := delivers_iff.mp delivers
  rw [closed_deliver intact verified going] at still
  cases answered : ((Request.deliver body signature).perform settings stamp service).1 with
  | error failure => exact ⟨failure, answered⟩
  | ok answer =>
    rw [answered] at still
    exact (still rfl).elim

end Steps

/-- Of the deliveries of a notice one has applied it: all before have failed, all after are
repetitions. -/
structure Applied (id : String) (earlier : List Step) (step : Step) (later : List Step) : Prop where
  delivers : step.delivers id = true
  applies : step.applies = true
  failed : ∀ other ∈ earlier, other.delivers id = true → ∃ failure, other.answer = .error failure
  repeated : ∀ other ∈ later, other.delivers id = true → other.IsRepetition id

section Runs

variable {settings : Settings} {steps : List Step} {service : Service} {id : String}

/-- As long as a notice is not completed all its deliveries have failed. -/
theorem Run.failed_of_going (run : Run settings steps service)
    (going : ¬ service.ledger.tables.Closed id) :
    ∀ step ∈ steps, step.delivers id = true → ∃ failure, step.answer = .error failure := by
  induction run with
  | start gateway => simp
  | elsewhere prior gateway ih => exact ih going
  | @step steps service prior request stamp fresh ih =>
    have before : ¬ service.ledger.tables.Closed id := fun closed =>
      going (Step.closed_of_closed prior.intact fresh closed)
    intro step member delivers
    rcases List.mem_append.mp member with past | last
    · exact ih before step past delivers
    · obtain rfl := List.mem_singleton.mp last
      exact Step.failed_of_going prior.intact before going delivers

/-- A notice that is completed has been applied by one of its deliveries. -/
theorem Run.applied (run : Run settings steps service) (closed : service.ledger.tables.Closed id) :
    ∃ earlier step later, steps = earlier ++ step :: later ∧ Applied id earlier step later := by
  induction run with
  | start gateway =>
    obtain ⟨record, found, _⟩ := closed
    cases found
  | elsewhere prior gateway ih => exact ih closed
  | @step steps service prior request stamp fresh ih =>
    by_cases before : service.ledger.tables.Closed id
    · obtain ⟨earlier, step, later, rfl, applied⟩ := ih before
      refine ⟨earlier, step, later ++ [.of settings service request stamp], by simp,
        { applied with repeated := fun other member delivers => ?_ }⟩
      rcases List.mem_append.mp member with past | last
      · exact applied.repeated other past delivers
      · obtain rfl := List.mem_singleton.mp last
        exact Step.repetition_of_closed prior.intact before delivers
    · obtain ⟨delivers, applies⟩ := Step.applies_of_closes prior.intact fresh before closed
      exact ⟨steps, _, [], rfl, delivers, applies, prior.failed_of_going before, by simp⟩

end Runs

/-- What a completed record shows of the notice that was applied. Among the deliveries of the notice
there is one that applied it; all before it have failed, and all after it are repetitions that
change nothing. The record has the type and the body of the notice that was delivered first, and so
it shows what was applied exactly if the notice that was applied is the one that was delivered
first. -/
theorem completed_record_shows_first {settings : Settings} {steps : List Step} {service : Service}
    (run : Run settings steps service) {record : NoticeRecord}
    (member : record ∈ service.ledger.tables.notices.values)
    (completed : record.status = .completed) :
    ∃ earlier step later applied first, steps = earlier ++ step :: later ∧
      Applied record.id earlier step later ∧ step.notice? = some applied ∧
      firstNotice? record.id steps = some first ∧ record.Keeps first ∧
      (record.Keeps applied ↔ first = applied) := by
  obtain ⟨id, found⟩ := Table.exists_key member
  obtain rfl : record.id = id := run.intact.sound.notice_id found
  obtain ⟨earlier, step, later, split, application⟩ :=
    run.applied ⟨record, found, decide_eq_true completed⟩
  obtain ⟨first, came, keeps⟩ := run.keeps_first found
  have told := of_decide_eq_true application.delivers
  obtain ⟨applied, told, -⟩ := Option.map_eq_some_iff.mp told
  refine ⟨earlier, step, later, applied, first, split, application, told, came, keeps,
    fun shown => ?_, ?_⟩
  · -- A body says all there is to a notice.
    have same : first.body = applied.body := keeps.2.symm.trans shown.2
    have read := ofBody?_of_firstNotice? came
    rw [same, Step.ofBody?_of_notice? told] at read
    exact (Option.some.inj read).symm
  · rintro rfl
    exact keeps

/-- The delivery about a session leaves the ledger that processing leaves. -/
theorem after_deliveryAbout (session : String) (stamp : Stamp) (ledger : Ledger) :
    (Step.of {} { ledger, gateway := paidGateway } (deliveryAbout session) stamp).after =
      { ledger := (process (noticeAbout session) stamp ledger).2, gateway := paidGateway } :=
  congrArg Step.after (of_deliveryAbout session stamp ledger)

/-- The ledger with a top-up that waits for the session. -/
def waitingLedger : Ledger :=
  (waitingTopUp.perform {} (stampOf 1) { gateway := paidGateway }).2.ledger

/-- The ledger after a notice about another session, which fails. -/
def failedLedger : Ledger :=
  (process (noticeAbout "lost") (stampOf 2) waitingLedger).2

/-- The ledger after a notice about the right session, which credits the top-up. -/
def creditedLedger : Ledger :=
  (process (noticeAbout "cs") (stampOf 3) failedLedger).2

/-- The step that credits the top-up. -/
def creditingStep : Step :=
  .of {} { ledger := failedLedger, gateway := paidGateway } (deliveryAbout "cs") (stampOf 3)

/-- A top-up that waits, a notice about another session, and one about the right one. -/
def mistakenSteps : List Step :=
  [.of {} { gateway := paidGateway } waitingTopUp (stampOf 1),
    .of {} { ledger := waitingLedger, gateway := paidGateway } (deliveryAbout "lost") (stampOf 2),
    creditingStep]

/-- The mistaken steps are a run. -/
theorem mistakenSteps_run :
    Run {} mistakenSteps { ledger := creditedLedger, gateway := paidGateway } := by
  have freshOpening : Fresh (stampOf 1) ({} : Tables) := ⟨rfl, rfl⟩
  have freshFirst : Fresh (stampOf 2) waitingLedger.tables := by decide +kernel
  have freshSecond : Fresh (stampOf 3) failedLedger.tables := by decide +kernel
  have opened : Run {} _ { ledger := waitingLedger, gateway := paidGateway } :=
    .step (.start paidGateway) waitingTopUp freshOpening
  have failed := opened.step (deliveryAbout "lost") freshFirst
  rw [after_deliveryAbout] at failed
  have credited := failed.step (deliveryAbout "cs") freshSecond
  rwa [after_deliveryAbout] at credited

/-- The record of the credited ledger is completed, and names the session of the notice that failed.
-/
theorem creditedLedger_record : creditedLedger.tables.notices.values.map
    (fun record => (record.id, record.status,
      Notice.session? ⟨record.id, record.type, record.body⟩)) =
      [("evt", .completed, some ⟨"lost", none⟩)] := by
  decide +kernel

/-- The step that credits the top-up has applied its notice. -/
theorem creditingStep_applies : creditingStep.applies = true := by
  rw [creditingStep, of_deliveryAbout]
  decide +kernel

/-- The record shows the notice of the first delivery, which failed. -/
theorem mistakenSteps_show_first :
    ∃ record, creditedLedger.tables.notices.values = [record] ∧
      ∃ earlier step later applied first, mistakenSteps = earlier ++ step :: later ∧
        Applied record.id earlier step later ∧ step.notice? = some applied ∧
        firstNotice? record.id mistakenSteps = some first ∧ record.Keeps first ∧
        (record.Keeps applied ↔ first = applied) := by
  obtain ⟨record, only, shown⟩ := List.map_eq_singleton_iff.mp creditedLedger_record
  have completed : record.status = .completed := congrArg (·.2.1) shown
  have member : record ∈ creditedLedger.tables.notices.values := by
    rw [only]; exact List.mem_cons_self
  exact ⟨record, only, completed_record_shows_first mistakenSteps_run member completed⟩

/-- The record of a notice need not show the notice that was applied. -/
theorem mistakenSteps_hide_applied :
    ∃ steps service record, Run {} steps service ∧ record ∈ service.ledger.tables.notices.values ∧
      record.status = .completed ∧ ∃ step ∈ steps, step.delivers record.id = true ∧
        step.applies = true ∧ ∃ applied, step.notice? = some applied ∧ ¬ record.Keeps applied := by
  obtain ⟨record, only, shown⟩ := List.map_eq_singleton_iff.mp creditedLedger_record
  have named : record.id = "evt" := congrArg (·.1) shown
  have lost : Notice.session? ⟨record.id, record.type, record.body⟩ = some ⟨"lost", none⟩ :=
    congrArg (·.2.2) shown
  have member : record ∈ creditedLedger.tables.notices.values := by
    rw [only]; exact List.mem_cons_self
  have told : creditingStep.notice? = some (noticeAbout "cs") :=
    Step.notice?_deliver (verify_deliveryAbout "cs")
  have delivers : creditingStep.delivers record.id = true := by
    rw [Step.delivers, told, named]
    rfl
  have last : creditingStep ∈ mistakenSteps := List.mem_of_getLast? rfl
  refine ⟨mistakenSteps, _, record, mistakenSteps_run, member, congrArg (·.2.1) shown,
    creditingStep, last, delivers, creditingStep_applies, _, told, fun keeps => ?_⟩
  -- The session that a notice is about is read from its body.
  have same : Notice.session? ⟨record.id, record.type, record.body⟩ =
      (noticeAbout "cs").session? := by
    simp only [Notice.session?, keeps.2]
  rw [lost, noticeAbout, Notice.session?_completedBody] at same
  exact absurd same (by decide)

end Service

end Prepaid
