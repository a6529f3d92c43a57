import Prepaid.Proofs.Ledger.Posting

/-!
# Sessions of entries

An entry keeps the checkout session that it was opened under. A change that opens no
entry under a session leaves every session where it leads; one that does makes the
session lead to the new entry, whether or not it has led to another one before.
-/

namespace Prepaid.Ledger

namespace Tables

/-- The checkout session that an entry carries. -/
def sessionOf (id : EntryId) (tables : Tables) : Option String :=
  (tables.entries.get? id).bind fun entry => entry.reference.session

/-- All entries carry the sessions that they carried, and all sessions lead where they led. -/
structure SameSessions (before after : Tables) : Prop where
  carried : ∀ id, after.sessionOf id = before.sessionOf id
  lookup : after.entryOfSession = before.entryOfSession

/-- A new entry carries a session, which leads to it. Everything else is as it was. -/
structure OpensSession (session : String) (id : EntryId) (before after : Tables) : Prop where
  new : before.sessionOf id = none
  carried : ∀ other, after.sessionOf other = if id = other then some session
    else before.sessionOf other
  lookup : ∀ other, after.entryOfSession.get? other =
    if session = other then some id else before.entryOfSession.get? other

/-- What a change does to the sessions, by the one under which it opens an entry. -/
inductive Names (before after : Tables) : Option String → Prop where
  | same (same : before.SameSessions after) : Names before after none
  | opened {session : String} {id : EntryId} (opens : before.OpensSession session id after) :
      Names before after (some session)

section Writes

variable {tables before middle after : Tables} {entry old : Entry} {id : EntryId} {session : String}

/-- An entry carries a session exactly if its reference says so. -/
theorem sessionOf_eq_some : tables.sessionOf id = some session ↔
    ∃ entry, tables.entries.get? id = some entry ∧ entry.reference.session = some session :=
  Option.bind_eq_some_iff

/-- A session leads to an entry that carries it. -/
theorem Sound.sessionOf_of_lookup (sound : tables.Sound)
    (leads : tables.entryOfSession.get? session = some id) :
    tables.sessionOf id = some session :=
  sessionOf_eq_some.mpr (sound.session_named leads)

/-- A session that an entry carries leads somewhere. -/
theorem Sound.exists_lookup (sound : tables.Sound) (carries : tables.sessionOf id = some session) :
    ∃ known, tables.entryOfSession.get? session = some known := by
  obtain ⟨entry, present, carries⟩ := sessionOf_eq_some.mp carries
  exact sound.session_known present carries

/-- An entry that is put carries its own session, and all others what they carried. -/
theorem sessionOf_putEntry (entry : Entry) (tables : Tables) (other : EntryId) :
    (tables.putEntry entry).sessionOf other =
      if entry.id = other then entry.reference.session else tables.sessionOf other := by
  simp only [sessionOf, putEntry_entries, Table.get?_put]
  split <;> rfl

/-- An entry that is not there carries no session. -/
theorem sessionOf_of_none (new : tables.entries.get? id = none) : tables.sessionOf id = none := by
  rw [sessionOf, new]
  rfl

/-- Tables have their own sessions. -/
@[refl] theorem SameSessions.refl (tables : Tables) : tables.SameSessions tables :=
  ⟨fun _ => rfl, rfl⟩

/-- Sessions that are kept twice are kept. -/
theorem SameSessions.trans (first : before.SameSessions middle)
    (second : middle.SameSessions after) :
    before.SameSessions after where
  carried id := (second.carried id).trans (first.carried id)
  lookup := second.lookup.trans first.lookup

/-- A session may be opened after changes that keep the others. -/
theorem SameSessions.opens (first : before.SameSessions middle)
    (opens : middle.OpensSession session id after) :
    before.OpensSession session id after where
  new := (first.carried id).symm.trans opens.new
  carried other := by rw [opens.carried, first.carried]
  lookup other := by rw [opens.lookup, first.lookup]

/-- A wallet carries no session. -/
theorem SameSessions.putWallet (same : before.SameSessions middle) (wallet : Wallet) :
    before.SameSessions (middle.putWallet wallet) :=
  ⟨same.carried, same.lookup⟩

/-- An order carries no session. -/
theorem SameSessions.putOrder (same : before.SameSessions middle) (order : Order) :
    before.SameSessions (middle.putOrder order) :=
  ⟨same.carried, same.lookup⟩

/-- A notice carries no session. -/
theorem SameSessions.putNotice (same : before.SameSessions middle) (record : NoticeRecord) :
    before.SameSessions (middle.putNotice record) :=
  ⟨same.carried, same.lookup⟩

/-- An entry that carries no session may be new. -/
theorem SameSessions.putEntry_of_none (same : before.SameSessions middle)
    (new : middle.entries.get? entry.id = none) (nameless : entry.reference.session = none) :
    before.SameSessions (middle.putEntry entry) where
  carried other := by
    rw [sessionOf_putEntry, ← same.carried]
    split
    · next own => rw [← own, nameless, sessionOf_of_none new]
    · rfl
  lookup := by simp [Tables.putEntry_of_none new, index, nameless, same.lookup]

/-- An entry that keeps its session may change. -/
theorem SameSessions.putEntry_of_some (same : before.SameSessions middle)
    (known : middle.entries.get? entry.id = some old)
    (kept : entry.reference.session = old.reference.session) :
    before.SameSessions (middle.putEntry entry) where
  carried other := by
    rw [sessionOf_putEntry, ← same.carried]
    split
    · next own =>
      rw [← own, kept, sessionOf, known]
      rfl
    · rfl
  lookup := by rw [Tables.putEntry_of_some known, same.lookup]

/-- A new entry that carries a session opens it. -/
theorem OpensSession.putEntry (new : tables.entries.get? entry.id = none)
    (carries : entry.reference.session = some session) :
    tables.OpensSession session entry.id (tables.putEntry entry) where
  new := sessionOf_of_none new
  carried other := by rw [sessionOf_putEntry, carries]
  lookup other := by simp only [session_putEntry_of_none new, carries, Option.some.injEq]

end Writes

/-! ## What becomes of the sessions -/

/-- No two entries carry the same session. -/
def DistinctSessions (tables : Tables) : Prop :=
  ∀ ⦃first second session⦄, tables.sessionOf first = some session →
    tables.sessionOf second = some session →
    first = second

section Names

variable {before after : Tables} {opened : Option String} {id : EntryId} {session : String}

/-- An entry never changes its session. -/
theorem Names.keeps (names : before.Names after opened)
    (carries : before.sessionOf id = some session) :
    after.sessionOf id = some session := by
  cases names with
  | same same => rw [same.carried, carries]
  | @opened _ new opens =>
    have apart : new ≠ id := by
      rintro rfl
      rw [opens.new] at carries
      cases carries
    rw [opens.carried, if_neg apart, carries]

/-- The sessions that entries carry are those that were carried, and the one that is opened. -/
theorem Names.exists_iff (names : before.Names after opened) :
    (∃ id, after.sessionOf id = some session) ↔
      (∃ id, before.sessionOf id = some session) ∨ opened = some session := by
  cases names with
  | same same => simp [same.carried]
  | @opened name new opens =>
    constructor
    · rintro ⟨id, carries⟩
      rw [opens.carried] at carries
      split at carries
      · exact .inr carries
      · exact .inl ⟨id, carries⟩
    · rintro (⟨id, carries⟩ | same)
      · exact ⟨id, Names.keeps (.opened opens) carries⟩
      · exact ⟨new, by rw [opens.carried, if_pos rfl, same]⟩

/-- Sessions stay distinct exactly if no entry is opened under one that another entry carries. -/
theorem Names.distinct_iff (names : before.Names after opened) :
    after.DistinctSessions ↔
      before.DistinctSessions ∧ ∀ id session, opened = some session →
      before.sessionOf id ≠ some session := by
  cases names with
  | same same => simp [DistinctSessions, same.carried]
  | @opened name new opens =>
    constructor
    · intro distinct
      constructor
      · intro first second session carries again
        exact distinct (Names.keeps (.opened opens) carries) (Names.keeps (.opened opens) again)
      · rintro id _ ⟨⟩ carries
        have arrived : after.sessionOf new = some name := by rw [opens.carried, if_pos rfl]
        have same := distinct arrived (Names.keeps (.opened opens) carries)
        rw [← same, opens.new] at carries
        cases carries
    · rintro ⟨distinct, unused⟩ first second session carries again
      rw [opens.carried] at carries again
      split at carries <;> split at again
      · next own same => rw [← own, same]
      · exact (unused second session carries again).elim
      · exact (unused first session again carries).elim
      · exact distinct carries again

/-- A session leads where it led exactly if no entry is opened under it. -/
theorem Names.lookup_iff (names : before.Names after opened) (sound : before.Sound)
    (leads : before.entryOfSession.get? session = some id) :
    after.entryOfSession.get? session = some id ↔ opened ≠ some session := by
  cases names with
  | same same => simp [same.lookup, leads]
  | @opened name new opens =>
    rw [opens.lookup]
    split
    · next same =>
      subst same
      have carries := sound.sessionOf_of_lookup leads
      have apart : new ≠ id := by
        rintro rfl
        rw [opens.new] at carries
        cases carries
      simp [apart]
    · next other => simp [leads, other]

end Names

end Tables

/-- Upkeep keeps the sessions of entries. -/
theorem Upkeep.sameSessions {stamp : Stamp} {tables after : Tables}
    (upkeep : Upkeep stamp tables after) :
    tables.SameSessions after := by
  cases upkeep with
  | opened => exact (Tables.SameSessions.refl tables).putWallet _
  | noted => exact (Tables.SameSessions.refl tables).putNotice _

/-- Any amount of upkeep keeps the sessions of entries. -/
theorem Upkeeps.sameSessions {stamp : Stamp} {tables after : Tables}
    (upkeeps : Upkeeps stamp tables after) :
    tables.SameSessions after := by
  induction upkeeps with
  | refl => exact .refl _
  | tail _ upkeep ih => exact ih.trans upkeep.sameSessions

end Prepaid.Ledger
