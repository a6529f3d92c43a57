import Prepaid.Proofs.Ledger.Bookings

/-!
# The records of notices

A delivery has one decision about the notice, whatever its record says, and the
record shows in the end what has come of it. A notice that is completed is left
alone; of any other the record is as good as none, since nothing that is decided
depends on it.
-/

namespace Prepaid

namespace NoticeRecord

variable {α : Type}

/-- The record after the result of a delivery. An overflow leaves it as it is. -/
def close (now : Instant) (record : NoticeRecord) : Except Failure α → NoticeRecord
  | .ok _ => record.markCompleted now
  | .error (.rejected rejection) => record.markFailed rejection.message now
  | .error (.overflow _) => record

/-- The record shows the result of a delivery: it is completed with an instant and without a fault,
or it has failed with the words of the rejection and without an instant. No record shows an
overflow. -/
def Shows (record : NoticeRecord) : Except Failure α → Prop
  | .ok _ => record.status = .completed ∧ record.fault = none ∧
    ∃ time, record.processedAt = some time
  | .error (.rejected rejection) =>
    record.status = .failed ∧ record.fault = some rejection.message ∧ record.processedAt = none
  | .error (.overflow _) => False

/-- Closing a record keeps its identifier. -/
theorem close_id (now : Instant) (record : NoticeRecord) (result : Except Failure α) :
    (record.close now result).id = record.id := by
  rcases result with (rejection | overflow) | value <;> rfl

/-- A record is completed by a success and by nothing else. -/
theorem isCompleted_close {record : NoticeRecord} (going : record.isCompleted = false)
    (now : Instant) (result : Except Failure α) :
    (record.close now result).isCompleted = result.isOk := by
  rcases result with (rejection | overflow) | value
  · rfl
  · exact going
  · rfl

/-- A closed record shows the result that it was closed with. -/
theorem shows_close {record : NoticeRecord} (unprocessed : record.processedAt = none)
    (now : Instant) {result : Except Failure α}
    (computed : ∀ overflow, result ≠ .error (.overflow overflow)) :
    (record.close now result).Shows result := by
  rcases result with (rejection | overflow) | value
  · exact ⟨rfl, rfl, unprocessed⟩
  · exact (computed overflow rfl).elim
  · exact ⟨rfl, rfl, now, rfl⟩

section Shows

variable {record : NoticeRecord} {result : Except Failure α}

/-- A record that is completed shows every success alike. -/
theorem Shows.of_completed {β : Type} (shows : record.Shows result)
    (completed : record.isCompleted = true) (value : β) :
    record.Shows (.ok value : Except Failure β) := by
  rcases result with (rejection | overflow) | done
  · simp [isCompleted, shows.1] at completed
  · exact shows.elim
  · exact shows

/-- A record that has failed bears no instant. -/
theorem Shows.unprocessed (shows : record.Shows result) (going : record.isCompleted = false) :
    record.processedAt = none := by
  rcases result with (rejection | overflow) | done
  · exact shows.2.2
  · exact shows.elim
  · simp [isCompleted, shows.1] at going

end Shows

end NoticeRecord

namespace Ledger

/-! ## What a delivery comes to -/

section Process

variable {tables : Tables} {notice : Notice} {stamp : Stamp}

/-- A notice is completed if its record is there and says so. -/
theorem isCompleted_noticeRecord {now : Instant} :
    (noticeRecord notice now { tables }).isCompleted = true ↔ tables.Closed notice.id := by
  rw [noticeRecord, Tables.Closed]
  cases tables.notices.get? notice.id with
  | none => simp [NoticeRecord.ofNotice, NoticeRecord.isCompleted]
  | some record => simp

/-- A record that is opened again bears no instant. -/
theorem openRecord_unprocessed
    (unprocessed : ∀ record, tables.notices.get? notice.id = some record →
    record.processedAt = none) : (openRecord notice stamp tables).processedAt = none := by
  change ((tables.notices.get? notice.id).getD (.ofNotice notice stamp.now)).processedAt = none
  cases found : tables.notices.get? notice.id with
  | none => rfl
  | some record => exact unprocessed record found

/-- Other rows are put beside the records of notices. -/
theorem Tables.book_withNotices (booking : Booking) (tables : Tables)
    (notices : Table String NoticeRecord) :
    { tables with notices }.book booking = { tables.book booking with notices } := by
  have entered (entry : Entry) (tables : Tables) :
      { tables with notices }.putEntry entry = { tables.putEntry entry with notices } := by
    unfold putEntry
    split <;> rfl
  obtain ⟨wallet?, order?, row?⟩ := booking
  cases row? with
  | none => cases wallet? <;> cases order? <;> rfl
  | some entry =>
    cases wallet? with
    | none =>
      cases order? with
      | none => exact entered entry tables
      | some order => exact entered entry (tables.putOrder order)
    | some wallet =>
      cases order? with
      | none => exact entered entry (tables.putWallet wallet)
      | some order => exact entered entry ((tables.putWallet wallet).putOrder order)

/-- What is decided for a call is the same whatever has become of other notices. -/
theorem enact_withNotices {α : Type} (decision : Except Failure (Decision α)) (tables : Tables)
    (notices : Table String NoticeRecord) :
    enact { tables with notices } decision =
      ((enact tables decision).1,
        { tables := { (enact tables decision).2.tables with notices } }) := by
  cases decision with
  | error failure => rfl
  | ok decision => simp only [enact, Tables.book_withNotices]

/-- Decisions record no notices. -/
@[simp] theorem enact_notices {α : Type} (decision : Except Failure (Decision α))
    (tables : Tables) :
    (enact tables decision).2.tables.notices = tables.notices := by
  cases decision with
  | error failure => rfl
  | ok decision => exact Tables.book_notices _ _

/-- Decisions are enacted alike whether a notice is recorded before or after. -/
theorem enact_putNotice {α : Type} (decision : Except Failure (Decision α)) (tables : Tables)
    (record : NoticeRecord) :
    enact (tables.putNotice record) decision =
      ((enact tables decision).1,
        { tables := (enact tables decision).2.tables.putNotice record }) := by
  rw [Tables.putNotice, enact_withNotices, Tables.putNotice, enact_notices]

/-- A notice that is not completed has its decision enacted, and its record closed. -/
theorem process_enacts (sound : tables.Sound) (stamp : Stamp) (going : ¬ tables.Closed notice.id) :
    process notice stamp { tables } =
      ((enact tables (Decision.handle notice stamp tables)).1.map
        fun answer => ⟨notice.id, answer.1, answer.2⟩,
        { tables := (enact tables (Decision.handle notice stamp tables)).2.tables.putNotice
            ((openRecord notice stamp tables).close stamp.now
              (enact tables (Decision.handle notice stamp tables)).1) }) := by
  let record := openRecord notice stamp tables
  let outcome := enact tables (Decision.handle notice stamp tables)
  have applied : Ledger.apply notice stamp { tables := tables.putNotice record } =
      (outcome.1, { tables := outcome.2.tables.putNotice record }) :=
    (apply_enacts (sound.putNotice record) notice stamp).trans (enact_putNotice _ tables record)
  -- The record is put when the delivery begins, and put again, on top of that, when it ends.
  have closes {α : Type} (answer : Except Failure α) {later : NoticeRecord}
      (id : later.id = record.id) :
      (answer, ({ tables := (outcome.2.tables.putNotice record).putNotice later } : Ledger)) =
        (answer, { tables := outcome.2.tables.putNotice later }) := by
    rw [Tables.putNotice_putNotice id]
  change (if _ then _ else _ : Call Delivery) { tables } = _
  rw [if_neg (fun done => going (isCompleted_noticeRecord.mp done)),
    bind_of_ok (saveNotice_apply _ _)]
  rw [← openRecord, bind_of_ok (attempt_of_run applied)]
  rcases result : outcome.1 with (rejection | overflow) | answer
  · exact (bind_of_ok (attempt_of_run (saveNotice_apply _ _))).trans (closes _ rfl)
  · rfl
  · exact (bind_of_ok (saveNotice_apply _ _)).trans (closes _ rfl)

/-- Of the records of notices a delivery changes its own only. -/
theorem process_notices (sound : tables.Sound) (stamp : Stamp) (going : ¬ tables.Closed notice.id) :
    (process notice stamp { tables }).2.tables.notices = tables.notices.put notice.id
      ((openRecord notice stamp tables).close stamp.now (process notice stamp { tables }).1) := by
  rw [process_enacts sound stamp going]
  simp only [Tables.putNotice, enact_notices, NoticeRecord.close_id, openRecord_id sound]
  rcases (enact tables (Decision.handle notice stamp tables)).1
    with (rejection | overflow) | answer <;> rfl

end Process

/-! ## Notices that are not known -/

namespace Tables

/-- The tables as if a notice had never been seen. -/
def forget (notice : String) (tables : Tables) : Tables :=
  { tables with notices := tables.notices.erase notice }

/-- Forgetting a notice keeps tables sound. -/
theorem Sound.forget {tables : Tables} (sound : tables.Sound) (notice : String) :
    (tables.forget notice).Sound :=
  { sound with
    notice_id := by
      intro id record found
      simp only [Tables.forget, Table.get?_erase] at found
      split at found
      · cases found
      · exact sound.notice_id found }

/-- A forgotten notice is not closed. -/
theorem not_closed_forget (notice : String) (tables : Tables) :
    ¬ (tables.forget notice).Closed notice := by
  simp [Closed, forget]

/-- A record is forgotten with its notice. -/
theorem forget_putNotice {notice : String} {record : NoticeRecord} (id : record.id = notice)
    (tables : Tables) : (tables.putNotice record).forget notice = tables.forget notice := by
  simp only [forget, putNotice, id, Table.erase_put]

/-- A notice is forgotten once. -/
@[simp] theorem forget_forget (notice : String) (tables : Tables) :
    (tables.forget notice).forget notice = tables.forget notice := by
  simp only [forget, Table.erase_erase]

end Tables

/-- The ledger as if a notice had never been seen. -/
def forget (notice : String) (ledger : Ledger) : Ledger :=
  { ledger with tables := ledger.tables.forget notice }

/-- Enacting a decision leaves no outage to come. -/
theorem enact_outages {α : Type} (decision : Except Failure (Decision α)) (tables : Tables) :
    (enact tables decision).2.outages = [] := by
  cases decision <;> rfl

section Forget

variable {tables : Tables} {notice : Notice} {stamp : Stamp}

/-- Apart from its own record, processing a notice enacts the decision on it. -/
theorem process_forgets (sound : tables.Sound) (stamp : Stamp) (going : ¬ tables.Closed notice.id) :
    (process notice stamp { tables }).2.forget notice.id =
      (enact tables (Decision.handle notice stamp tables)).2.forget notice.id := by
  rw [process_enacts sound stamp going, Ledger.forget, Ledger.forget, enact_outages]
  congr 1
  refine Tables.forget_putNotice ?_ _
  rw [NoticeRecord.close_id, openRecord_id sound]

/-- Decisions do not look at notices. -/
theorem enact_forget {α : Type} (decision : Except Failure (Decision α)) (tables : Tables)
    (notice : String) :
    enact (tables.forget notice) decision =
      ((enact tables decision).1,
        { tables := (enact tables decision).2.tables.forget notice }) := by
  rw [Tables.forget, enact_withNotices, Tables.forget, enact_notices]

/-- Unless a notice is completed its record makes no difference: had it never been seen, its
delivery would have the same result, and would leave the same behind but for that record. -/
theorem process_forget (sound : tables.Sound) (stamp : Stamp) (going : ¬ tables.Closed notice.id) :
    (process notice stamp { tables := tables.forget notice.id }).1 =
      (process notice stamp { tables }).1 ∧
        (process notice stamp { tables := tables.forget notice.id }).2.forget notice.id =
          (process notice stamp { tables }).2.forget notice.id := by
  have unseen := Tables.not_closed_forget notice.id tables
  -- What is decided is read from other tables than those of the records.
  have decided : Decision.handle notice stamp (tables.forget notice.id) =
      Decision.handle notice stamp tables :=
    rfl
  constructor
  · rw [process_enacts sound stamp going, process_enacts (sound.forget _) stamp unseen, decided,
      enact_forget]
  · rw [process_forgets sound stamp going, process_forgets (sound.forget _) stamp unseen, decided,
      enact_forget]
    simp only [Ledger.forget, Tables.forget_forget, enact_outages]

end Forget

end Ledger

end Prepaid
