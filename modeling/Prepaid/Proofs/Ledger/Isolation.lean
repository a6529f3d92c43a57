import Prepaid.Proofs.Ledger.Concord

/-!
# What a call leaves of a user

Calls that concern a user leave the same of the user behind in two ledgers, if they
have found the same there. All other calls leave what there is of the user alone.
-/

namespace Prepaid.Ledger

variable {user : UserId} {own : Name → Prop} {tables twins : Tables}

namespace Tables.Alike

/-- Tables are alike with themselves. -/
theorem refl (user : UserId) (own : Name → Prop) (tables : Tables) : tables.Alike user own tables :=
  ⟨rfl, fun _ _ => rfl, rfl, fun _ _ => .rfl⟩

/-- Tables are alike both ways. -/
theorem symm (alike : tables.Alike user own twins) : twins.Alike user own tables :=
  ⟨alike.wallet.symm, fun id named => (alike.order id named).symm, alike.rows.symm,
    fun id named => (alike.notice id named).symm⟩

/-- What is alike with tables in between is alike. -/
theorem trans {others : Tables} (alike : tables.Alike user own twins)
    (same : twins.Alike user own others) :
    tables.Alike user own others :=
  ⟨alike.wallet.trans same.wallet,
    fun id named => (alike.order id named).trans (same.order id named), alike.rows.trans same.rows,
    fun id named => (alike.notice id named).trans (same.notice id named)⟩

/-! ## Bookings -/

section Book

variable {α β : Type} {shown : α → β} {decision other : Decision α}

/-- The same is booked in the place of what was the same. -/
theorem book (alike : tables.Alike user own twins) (sound : tables.Sound) (twinSound : twins.Sound)
    (decided : decision.Alike user own True tables twins shown other)
    (within : other.booking.Within user own True twins)
    (after : (tables.book decision.booking).Sound) (twinAfter : (twins.book other.booking).Sound) :
    (tables.book decision.booking).Alike user own (twins.book other.booking) where
  wallet := by
    rw [book_wallets, book_wallets]
    rcases (Option.Rel.of_map_eq decided.wallet).none_or_some with
      ⟨silent, still⟩ | ⟨wallet, twin, put, placed, same⟩
    · rw [silent, still]
      exact alike.wallet
    · have owner := (decided.within.wallet wallet put).1.mpr trivial
      have twinOwner := (within.wallet twin placed).1.mpr trivial
      rw [put, placed, Option.elim_some, Option.elim_some, owner, twinOwner, Table.get?_put,
        Table.get?_put, if_pos rfl, if_pos rfl, Option.map_some, Option.map_some, same]
  order := by
    intro id named
    rw [book_orders, book_orders]
    rcases (Option.Rel.of_map_eq decided.order).none_or_some with
      ⟨silent, still⟩ | ⟨order, moved, put, placed, same⟩
    · rw [silent, still]
      exact alike.order id named
    · rw [put, placed, Option.elim_some, Option.elim_some, Table.get?_put, Table.get?_put,
        ← (Order.anonymous_eq_iff.mp same).1]
      split
      · rw [Option.map_some, Option.map_some, same]
      · exact alike.order id named
  rows := by
    rcases decided.row.none_or_some with ⟨silent, still⟩ | ⟨entry, twin, put, placed, same, place⟩
    · rw [decided.within.rowsOf_of_none sound after silent,
        within.rowsOf_of_none twinSound twinAfter still]
      exact alike.rows
    · cases place trivial with
      | added unused free =>
        rw [decided.within.rowsOf_of_new sound after put unused trivial,
          within.rowsOf_of_new twinSound twinAfter placed free trivial, List.map_append,
          List.map_append, alike.rows, List.map_singleton, List.map_singleton, same]
      | @changed old older abreast id twinId =>
        obtain ⟨member, twinMember⟩ := abreast.mem
        have known := sound.entry_of_mem (sound.mem_values member)
        have twinKnown := twinSound.entry_of_mem (twinSound.mem_values twinMember)
        rw [id] at known
        rw [twinId] at twinKnown
        obtain ⟨place, oldAt, olderAt⟩ := abreast
        rw [decided.within.rowsOf_of_known sound after put known,
          within.rowsOf_of_known twinSound twinAfter placed twinKnown,
          Abreast.map_eq_set (sound.nodup_rowsOf user) oldAt id,
          Abreast.map_eq_set (twinSound.nodup_rowsOf user) olderAt twinId, List.map_set,
          List.map_set, alike.rows, same]
  notice := by
    intro id named
    rw [Tables.Closed, Tables.Closed, book_notices, book_notices]
    exact alike.notice id named

end Book

/-! ## Records of notices -/

/-- The record of a notice is put in both ledgers. -/
theorem putNotice (alike : tables.Alike user own twins) {record twin : NoticeRecord}
    (id : record.id = twin.id) (completed : record.isCompleted = twin.isCompleted) :
    (tables.putNotice record).Alike user own (twins.putNotice twin) :=
  { alike with
    notice := by
      intro name named
      rw [closed_putNotice, closed_putNotice, id, completed]
      split
      · exact .rfl
      · exact alike.notice name named }

/-- The record of a notice that is nothing to the user is put. -/
theorem putForeign (alike : tables.Alike user own twins) {record : NoticeRecord}
    (foreign : ¬ own (.notice record.id)) : (tables.putNotice record).Alike user own twins :=
  { alike with
    notice := by
      intro name named
      rw [closed_putNotice, if_neg]
      · exact alike.notice name named
      · rintro rfl
        exact foreign named }

end Tables.Alike

/-! ## Calls -/

section Enact

variable {α β : Type} {mine : Prop} {shown : α → β} {decide decided : Except Failure (Decision α)}

/-- Enacting a decision that is alike in both ledgers keeps the portion of a user apart. -/
theorem enact_parted (portioned : tables.Portioned user own)
    (parallel : Parallel (Decision.Alike user own mine tables twins shown) decide decided) :
    (enact tables decide).2.tables.Parted user own := by
  cases parallel with
  | failed failure => exact portioned.parted
  | done alike => exact alike.within.parted portioned.sound portioned.parted

/-- A call that is not the user's leaves what there is of the user alone. -/
theorem enact_foreign (sound : tables.Sound) (after : (enact tables decide).2.tables.Sound)
    (parallel : Parallel (Decision.Alike user own False tables twins shown) decide decided) :
    (enact tables decide).2.tables.Alike user own tables := by
  cases parallel with
  | failed failure => exact .refl _ _ _
  | done alike =>
    refine ⟨?_, fun id named => ?_, ?_, fun id _ => ?_⟩
    · exact congrArg _ alike.within.wallets_of_foreign
    · exact congrArg _ (alike.within.orders_of_foreign named)
    · exact congrArg _ (alike.within.rowsOf_of_foreign sound after)
    · rw [Tables.Closed, enact_notices]
      rfl

/-- A call that is the user's is answered the same in both ledgers, and leaves the same of the
user. -/
theorem enact_alike (alike : tables.Alike user own twins) (sound : tables.Sound)
    (twinSound : twins.Sound)
    (parallel : Parallel (Decision.Alike user own True tables twins shown) decide decided)
    (turned : Parallel (Decision.Alike user own True twins tables shown) decided decide)
    (after : (enact tables decide).2.tables.Sound)
    (twinAfter : (enact twins decided).2.tables.Sound) :
    (enact tables decide).1.map shown = (enact twins decided).1.map shown ∧
      (enact tables decide).2.tables.Alike user own (enact twins decided).2.tables := by
  cases parallel with
  | failed failure => exact ⟨rfl, alike⟩
  | done same =>
    cases turned with
    | done back => exact ⟨same.answer, alike.book sound twinSound same back.within after twinAfter⟩

end Enact

section Process

variable {notice : Notice} {stamp later : Stamp}

/-- Tables are as sound as they are without the record of a notice. -/
theorem Tables.Sound.of_putNotice {record : NoticeRecord} (after : (tables.putNotice record).Sound)
    (named : ∀ {id found}, tables.notices.get? id = some found → found.id = id) : tables.Sound :=
  { after with notice_id := named }

/-- Processing a notice keeps the portion of a user apart. -/
theorem process_parted (portioned : tables.Portioned user own) {mine : Prop}
    (beside : Beside user own mine tables twins) (stamp : Stamp)
    (named : ∀ session, notice.session? = some session → (own (.session session.id) ↔ mine)) :
    (process notice stamp { tables }).2.tables.Parted user own := by
  by_cases closed : tables.Closed notice.id
  · rw [process_of_completed (isCompleted_noticeRecord.mpr closed)]
    exact portioned.parted
  · rw [process_enacts portioned.sound stamp closed]
    have parted := enact_parted portioned (handle_alike beside portioned stamp stamp named)
    exact ⟨parted.order, parted.session⟩

/-- What is left behind is as sound as it is with the record of the notice. -/
theorem sound_of_process (sound : tables.Sound) (going : ¬ tables.Closed notice.id)
    (after : (process notice stamp { tables }).2.tables.Sound) :
    (enact tables (Decision.handle notice stamp tables)).2.tables.Sound := by
  rw [process_enacts sound stamp going] at after
  refine after.of_putNotice ?_
  rw [enact_notices]
  exact sound.notice_id

/-- A notice that is not the user's leaves what there is of the user alone. -/
theorem process_foreign (portioned : tables.Portioned user own)
    (foreign : ¬ own (.notice notice.id))
    (named : ∀ session, notice.session? = some session → (own (.session session.id) ↔ False))
    (after : (process notice stamp { tables }).2.tables.Sound) :
    (process notice stamp { tables }).2.tables.Alike user own tables := by
  have sound := portioned.sound
  by_cases closed : tables.Closed notice.id
  · rw [process_of_completed (isCompleted_noticeRecord.mpr closed)]
    exact .refl _ _ _
  · have left := sound_of_process sound closed after
    rw [process_enacts sound stamp closed]
    refine (enact_foreign sound left
      (handle_alike (.refl user own tables) portioned stamp stamp named)).putForeign ?_
    rwa [NoticeRecord.close_id, openRecord_id sound]

/-- A notice that is the user's is answered the same in both ledgers, and leaves the same of the
user. -/
theorem process_alike (alike : tables.Alike user own twins) (portioned : tables.Portioned user own)
    (other : twins.Portioned user own) (mine : own (.notice notice.id))
    (named : ∀ session, notice.session? = some session → (own (.session session.id) ↔ True))
    (after : (process notice stamp { tables }).2.tables.Sound)
    (twinAfter : (process notice later { tables := twins }).2.tables.Sound) :
    (process notice stamp { tables }).1 = (process notice later { tables := twins }).1 ∧
      (process notice stamp { tables }).2.tables.Alike user own
        (process notice later { tables := twins }).2.tables := by
  by_cases closed : tables.Closed notice.id
  · have twinClosed := (alike.notice notice.id mine).mp closed
    rw [process_of_completed (isCompleted_noticeRecord.mpr closed),
      process_of_completed (isCompleted_noticeRecord.mpr twinClosed)]
    exact ⟨rfl, alike⟩
  · have going := fun twinClosed => closed ((alike.notice notice.id mine).mpr twinClosed)
    have left := sound_of_process portioned.sound closed after
    have right := sound_of_process other.sound going twinAfter
    obtain ⟨answers, remains⟩ := enact_alike alike portioned.sound other.sound
      (handle_alike (alike.beside portioned other) portioned stamp later named)
      (handle_alike (alike.symm.beside other portioned) other later stamp named) left right
    have whole (result : Except Failure (Outcome × Option Balance)) :
        result.map (fun answer => answer) = result := by
      cases result <;> rfl
    rw [whole, whole] at answers
    rw [process_enacts portioned.sound stamp closed, process_enacts other.sound later going,
      answers]
    refine ⟨rfl, remains.putNotice ?_ ?_⟩
    · rw [NoticeRecord.close_id, NoticeRecord.close_id, openRecord_id portioned.sound,
        openRecord_id other.sound]
    · rw [NoticeRecord.isCompleted_close rfl, NoticeRecord.isCompleted_close rfl]

end Process

end Prepaid.Ledger
