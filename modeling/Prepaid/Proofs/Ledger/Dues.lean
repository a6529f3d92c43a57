import Prepaid.Proofs.Ledger.Accounting
import Prepaid.Proofs.Ledger.Credit
import Prepaid.Proofs.Ledger.Delivery

/-!
# What is due when sessions are paid

Of the entries that wait for a checkout session, those are due to a user which some
paid session leads to. `Tables.expected` adds them to what the user has. Confirming
a session turns what is due for it into money that is there, and whoever has been
paid is not paid again: what the user can expect stays the same.
-/

namespace Prepaid

/-- A credit that keeps within what money is exact with always succeeds. -/
theorem Wallet.exists_credit {wallet : Wallet} {amount : Amount} (nonneg : 0 ≤ wallet.current.cents)
    (fits : wallet.current.cents + amount.cents ≤ Money.maxCents) (now : Instant) :
    ∃ after, wallet.credit amount now = .ok after := by
  have worth : amount.money.cents = amount.cents := rfl
  have positive : 0 < amount.cents := amount.positive
  have within : (wallet.current.cents + amount.money.cents).natAbs ≤ Money.maxCents := by omega
  obtain ⟨current, added, _⟩ := Money.add_exact within
  exact ⟨_, Wallet.credit_eq_ok.mpr ⟨current, added, rfl⟩⟩

namespace Ledger

namespace Tables

/-- An entry is due to a user once one of the sessions is paid: it is pending in the user's wallet,
and it is the entry that the session leads to. -/
def IsDue (user : UserId) (sessions : List String) (tables : Tables) (entry : Entry) : Prop :=
  entry.status = .pending ∧ tables.owners.get? entry.wallet = some user ∧
    ∃ session ∈ sessions, tables.entryForSession? session = some entry

instance (user : UserId) (sessions : List String) (tables : Tables) (entry : Entry) :
    Decidable (tables.IsDue user sessions entry) :=
  inferInstanceAs (Decidable (_ ∧ _ ∧ _))

/-- All that is due to a user once the sessions are paid, in cents. -/
def due (user : UserId) (sessions : List String) (tables : Tables) : Int :=
  tables.entries.total fun entry => if tables.IsDue user sessions entry then entry.amount.cents
    else 0

/-- What a user has, and what is due to the user. -/
def expected (user : UserId) (sessions : List String) (tables : Tables) : Int :=
  (tables.currentOf user).cents + tables.due user sessions

/-- No entry waits for a session any more. -/
def Settled (session : String) (tables : Tables) : Prop :=
  ∀ entry, tables.entryForSession? session = some entry → entry.status ≠ .pending

section Due

variable {tables after : Tables} {user : UserId} {session : String} {sessions : List String}
  {entry : Entry}

/-- Nothing is due before a session is paid. -/
theorem due_nil : tables.due user [] = 0 :=
  Table.total_eq_zero fun entry _ => by simp [IsDue]

/-- What is due is at least each amount that is due. -/
theorem due_le (isDue : tables.IsDue user sessions entry)
    (present : entry ∈ tables.entries.values) :
    entry.amount.cents ≤ tables.due user sessions := by
  have nonneg : ∀ row ∈ tables.entries.values,
      0 ≤ if tables.IsDue user sessions row then row.amount.cents else 0 := by
    intro row _
    split
    · exact Int.le_of_lt row.amount.positive
    · exact Int.le_refl 0
  have counted := Table.le_total nonneg present
  rwa [if_pos isDue] at counted

/-- What is expected covers the wallet and each amount that is due to it. -/
theorem amount_le_expected {wallet : Wallet} (known : tables.wallets.get? user = some wallet)
    (isDue : tables.IsDue user sessions entry) (present : entry ∈ tables.entries.values) :
    wallet.current.cents + entry.amount.cents ≤ tables.expected user sessions := by
  have enough := due_le isDue present
  have has : tables.currentOf user = wallet.current := by simp [currentOf, known]
  rw [expected, has]
  omega

/-- A session that leads to nothing that is due makes no difference. -/
theorem due_cons (none : ∀ entry, tables.entryForSession? session = some entry →
      entry.status = .pending → tables.owners.get? entry.wallet ≠ some user) :
    tables.due user (session :: sessions) = tables.due user sessions := by
  apply Table.total_congr
  intro entry _
  have same : tables.IsDue user (session :: sessions) entry ↔ tables.IsDue user sessions entry := by
    constructor
    · rintro ⟨pending, owned, name, member, leads⟩
      rcases List.mem_cons.mp member with rfl | later
      · exact (none entry leads pending owned).elim
      · exact ⟨pending, owned, name, later, leads⟩
    · rintro ⟨pending, owned, name, member, leads⟩
      exact ⟨pending, owned, name, List.mem_cons_of_mem session member, leads⟩
  simp only [same]

/-- A session that is settled makes nothing due. -/
theorem due_of_settled (settled : tables.Settled session) :
    tables.due user (session :: sessions) = tables.due user sessions :=
  due_cons fun entry leads pending => (settled entry leads pending).elim

/-- In sound tables it is enough that the index of a session has the identifier of the entry. -/
theorem Sound.leads_iff (sound : tables.Sound) (present : entry ∈ tables.entries.values) :
    tables.entryForSession? session = some entry ↔ tables.entryOfSession.get? session =
      some entry.id := by
  constructor
  · intro leads
    exact (sound.entryForSession?_spec leads).1
  · intro named
    rw [entryForSession?, named]
    exact sound.entry_of_mem present

/-- What an entry counts for among all that is due to a user. Unlike `IsDue` this does not look at
the other entries. -/
def claim (user : UserId) (sessions : List String) (tables : Tables) (entry : Entry) : Int :=
  if entry.status = .pending ∧ tables.owners.get? entry.wallet = some user ∧
      ∃ session ∈ sessions, tables.entryOfSession.get? session = some entry.id then
    entry.amount.cents
  else 0

/-- An entry that is not pending counts for nothing. -/
theorem claim_of_settled (settled : entry.status ≠ .pending) :
    tables.claim user sessions entry = 0 := by
  simp [claim, settled]

/-- An entry in the wallet of another user counts for nothing. -/
theorem claim_of_other (other : tables.owners.get? entry.wallet ≠ some user) :
    tables.claim user sessions entry = 0 := by
  simp [claim, other]

/-- What is due is what all entries claim. -/
theorem Sound.due_eq (sound : tables.Sound) (user : UserId) (sessions : List String) :
    tables.due user sessions = tables.entries.total (tables.claim user sessions) := by
  apply Table.total_congr
  intro entry present
  simp only [IsDue, claim, sound.leads_iff present]

end Due

/-! ## Confirming a session -/

section Confirm

variable {tables : Tables} {owner : UserId} {wallet credited : Wallet} {entry : Entry}
    {stamp : Stamp}

/-- The indexes are as they were after an entry has been credited to its wallet. -/
theorem Sound.confirm_eq (sound : tables.Sound) (known : tables.wallets.get? owner = some wallet)
    (credit : wallet.credit entry.amount stamp.now = .ok credited)
    (present : tables.entries.get? entry.id = some entry) (payment : Option String) :
    (tables.putWallet credited).putEntry (entry.confirm payment credited.current stamp.now) =
      { tables with
        wallets := tables.wallets.put owner credited
        entries := tables.entries.put entry.id
          (entry.confirm payment credited.current stamp.now) } := by
  obtain ⟨sameId, sameOwner⟩ := Wallet.same_of_credit credit
  have claimed : tables.owners.get? credited.id = some credited.owner := by
    rw [sameId, sameOwner, sound.wallet_owner known]
    exact sound.owner_iff.mpr ⟨wallet, known, rfl⟩
  have presentToo : (tables.putWallet credited).entries.get?
      (entry.confirm payment credited.current stamp.now).id = some entry := present
  rw [Tables.putEntry_of_some presentToo, Tables.putWallet, Table.put_self claimed, sameOwner,
    sound.wallet_owner known]
  rfl

/-- What is due falls by what the entry was good for. -/
theorem Sound.due_confirm (sound : tables.Sound) (known : tables.wallets.get? owner = some wallet)
    (credit : wallet.credit entry.amount stamp.now = .ok credited)
    (present : tables.entries.get? entry.id = some entry) (payment : Option String) (user : UserId)
    (sessions : List String) :
    ((tables.putWallet credited).putEntry (entry.confirm payment credited.current stamp.now)).due
        user sessions =
      tables.due user sessions - tables.claim user sessions entry := by
  obtain ⟨sameId, sameOwner⟩ := Wallet.same_of_credit credit
  have presentToo : (tables.putWallet credited).entries.get?
      (entry.confirm payment credited.current stamp.now).id = some entry := present
  have soundAfter :=
    (sound.putSameWallet known sameId sameOwner).putEntry_of_some presentToo rfl rfl rfl
  have settled : (entry.confirm payment credited.current stamp.now).status ≠ .pending := by
    simp [Entry.confirm]
  rw [soundAfter.due_eq, sound.due_eq, sound.confirm_eq known credit present]
  change (tables.entries.put entry.id _).total (tables.claim user sessions) = _
  rw [Table.total_put_of_some _ _ present, claim_of_settled settled, Int.add_zero]

/-- Sessions lead to the entries that they led to before. -/
theorem Sound.leads_confirm (sound : tables.Sound) (known : tables.wallets.get? owner = some wallet)
    (credit : wallet.credit entry.amount stamp.now = .ok credited)
    (present : tables.entries.get? entry.id = some entry) (payment : Option String)
    (session : String) :
    ((tables.putWallet credited).putEntry
        (entry.confirm payment credited.current stamp.now)).entryForSession? session =
      if tables.entryOfSession.get? session = some entry.id then
        some (entry.confirm payment credited.current stamp.now)
      else tables.entryForSession? session := by
  rw [sound.confirm_eq known credit present, entryForSession?, entryForSession?]
  cases named : tables.entryOfSession.get? session with
  | none => simp
  | some id => simp only [Option.bind_some, Table.get?_put, Option.some.injEq, eq_comm]

/-- Only the owner of the wallet has more. -/
theorem Sound.currentOf_confirm (sound : tables.Sound)
    (known : tables.wallets.get? owner = some wallet)
    (credit : wallet.credit entry.amount stamp.now = .ok credited)
    (present : tables.entries.get? entry.id = some entry) (payment : Option String)
    (user : UserId) :
    ((tables.putWallet credited).putEntry
        (entry.confirm payment credited.current stamp.now)).currentOf user =
      if owner = user then credited.current else tables.currentOf user := by
  rw [sound.confirm_eq known credit present]
  simp only [currentOf, Table.get?_put]
  split <;> rfl

end Confirm

end Tables

section Confirmation

variable {stamp : Stamp} {tables after : Tables} {session : String} {payment : Option String}
  {result : Except Failure (Option Receipt)}

/-- What is settled stays settled whatever is confirmed. -/
theorem Confirmation.keeps_settled (sound : tables.Sound)
    (confirmation : Confirmation session payment stamp tables result after) {other : String}
    (settled : tables.Settled other) : after.Settled other := by
  cases confirmation with
  | unknown | settled | overflowed => exact settled
  | credited named pending known owned credit =>
    obtain ⟨_, present, _⟩ := sound.entryForSession?_spec named
    intro entry leads
    rw [sound.leads_confirm known credit present] at leads
    split at leads
    · cases leads
      simp [Entry.confirm]
    · exact settled entry leads

/-- A session is settled once its top-up is credited. -/
theorem Confirmation.settled_of_credited (sound : tables.Sound) {entry : Entry} {owner : UserId}
    {wallet credited : Wallet} (named : tables.entryForSession? session = some entry)
    (known : tables.wallets.get? owner = some wallet)
    (credit : wallet.credit entry.amount stamp.now = .ok credited) (payment : Option String) :
    ((tables.putWallet credited).putEntry
      (entry.confirm payment credited.current stamp.now)).Settled session := by
  obtain ⟨leads, present, _⟩ := sound.entryForSession?_spec named
  intro other found
  rw [sound.leads_confirm known credit present, if_pos leads] at found
  cases found
  simp [Entry.confirm]

/-- A session that is confirmed without a failure is settled. -/
theorem Confirmation.settles (sound : tables.Sound)
    (confirmation : Confirmation session payment stamp tables result after)
    (succeeds : ∃ receipt, result = .ok receipt) : after.Settled session := by
  cases confirmation with
  | unknown | overflowed =>
    obtain ⟨receipt, failed⟩ := succeeds
    cases failed
  | @settled entry named settled =>
    intro other leads
    cases named.symm.trans leads
    exact settled
  | credited named pending known owned credit =>
    exact settled_of_credited sound named known credit payment

/-- A confirmation does not look at notices. -/
theorem Confirmation.notices
    (confirmation : Confirmation session payment stamp tables result after) :
    after.notices = tables.notices := by
  cases confirmation with
  | unknown | settled | overflowed => rfl
  | credited =>
    rw [Tables.putEntry_notices]
    rfl

/-- A confirmation pays what is due for its session: what a user can expect stays the same. -/
theorem Confirmation.pays (sound : tables.Sound) (solvent : tables.Solvent) {user : UserId}
    {sessions : List String} (fits : tables.expected user (session :: sessions) ≤ Money.maxCents)
    (confirmation : Confirmation session payment stamp tables result after) :
    after.expected user sessions = tables.expected user (session :: sessions) := by
  cases confirmation with
  | unknown unnamed =>
    rw [Tables.expected, Tables.expected, Tables.due_cons]
    intro entry leads
    rw [unnamed] at leads
    cases leads
  | settled named settled =>
    rw [Tables.expected, Tables.expected, Tables.due_cons]
    intro entry leads pending
    cases named.symm.trans leads
    exact (settled pending).elim
  | @overflowed entry owner wallet overflow named pending known owned full =>
    have claimed : tables.owners.get? entry.wallet = some owner :=
      sound.owner_iff.mpr ⟨wallet, known, owned⟩
    have apart : owner ≠ user := by
      rintro rfl
      have isDue : tables.IsDue owner (session :: sessions) entry :=
        ⟨pending, claimed, session, List.mem_cons_self, named⟩
      have present := Table.mem_values (sound.entryForSession?_spec named).2.1
      have enough := Tables.amount_le_expected known isDue present
      obtain ⟨credited, credit⟩ :=
        Wallet.exists_credit (solvent known).current (Int.le_trans enough fits) stamp.now
      rw [full] at credit
      cases credit
    rw [Tables.expected, Tables.expected, Tables.due_cons]
    intro other leads _
    cases named.symm.trans leads
    rw [claimed]
    exact fun same => apart (Option.some.inj same)
  | @credited entry owner wallet credited named pending known owned credit =>
    have claimed : tables.owners.get? entry.wallet = some owner :=
      sound.owner_iff.mpr ⟨wallet, known, owned⟩
    obtain ⟨leads, present, _⟩ := sound.entryForSession?_spec named
    have settled := Confirmation.settled_of_credited sound named known credit payment
    rw [Tables.expected, ← Tables.due_of_settled settled, sound.due_confirm known credit present,
      sound.currentOf_confirm known credit present]
    split
    · next same =>
      subst same
      have isDue : tables.IsDue owner (session :: sessions) entry :=
        ⟨pending, claimed, session, List.mem_cons_self, named⟩
      have counted : tables.claim owner (session :: sessions) entry = entry.amount.cents :=
        if_pos ⟨pending, claimed, session, List.mem_cons_self, leads⟩
      have enough := Tables.amount_le_expected known isDue (Table.mem_values present)
      have has : tables.currentOf owner = wallet.current := by simp [Tables.currentOf, known]
      have exactly := Wallet.credit_exact credit (solvent known).current (Int.le_trans enough fits)
      rw [Tables.expected, counted, has, exactly.1]
      omega
    · next apart =>
      have other : tables.owners.get? entry.wallet ≠ some user := by
        rw [claimed]
        exact fun same => apart (Option.some.inj same)
      rw [Tables.expected, Tables.claim_of_other other, Int.sub_zero]

end Confirmation

/-! ## Notices

A notice is closed when its record is completed, and is not worked on again then. What
makes this safe is that a notice is closed only when the session that it names is settled.
-/

/-- The session that a notice says is paid. -/
def paidSession? (notice : Notice) : Option String :=
  if notice.type = Notice.sessionCompleted then notice.session?.map PaidSession.id else none

namespace Tables

/-- A notice is not worked on any more. -/
def Closed (notice : String) (tables : Tables) : Prop :=
  ∃ record, tables.notices.get? notice = some record ∧ record.isCompleted = true

/-- What a signal does to the tables. It may be a notice, and it may name a session that is paid. -/
structure Honors (notice? session? : Option String) (tables after : Tables) : Prop where
  sound : after.Sound
  solvent : after.Solvent
  settled : ∀ session, tables.Settled session → after.Settled session
  closed : ∀ notice, after.Closed notice → tables.Closed notice ∨
    notice? = some notice ∧ ∀ session, session? = some session → after.Settled session
  pays : (∀ notice session, notice? = some notice → session? = some session → tables.Closed notice →
      tables.Settled session) →
    ∀ user sessions, tables.expected user (session?.toList ++ sessions) ≤ Money.maxCents →
      after.expected user sessions = tables.expected user (session?.toList ++ sessions)

section Honors

variable {tables after : Tables} {stamp : Stamp}

/-- A signal that names no paid session changes no dues. -/
theorem Honors.silent (sound : tables.Sound) (solvent : tables.Solvent) (notice? : Option String) :
    tables.Honors notice? none tables where
  sound := sound
  solvent := solvent
  settled _ := id
  closed _ := .inl
  pays _ _ _ _ := rfl

/-- A notice that is closed can be left alone, since its session is settled. -/
theorem Honors.duplicate (sound : tables.Sound) (solvent : tables.Solvent) {notice : String}
    (closed : tables.Closed notice) (session? : Option String) :
    tables.Honors (some notice) session? tables where
  sound := sound
  solvent := solvent
  settled _ := id
  closed _ := .inl
  pays := by
    intro safe user sessions _
    cases session? with
    | none => rfl
    | some session =>
      have settled := safe notice session rfl rfl closed
      rw [expected, expected]
      exact congrArg _ (due_of_settled settled).symm

/-- Confirming a session honors whoever says that it is paid. -/
theorem Honors.confirm {session : String} {payment : Option String}
    {result : Except Failure (Option Receipt)} (sound : tables.Sound) (solvent : tables.Solvent)
    (confirmation : Confirmation session payment stamp tables result after) :
    tables.Honors none (some session) after := by
  obtain ⟨topUp, change, _⟩ := confirmation.changes sound solvent
  exact {
    sound := change.sound sound
    solvent := change.solvent solvent
    settled := fun other => confirmation.keeps_settled sound
    closed := by
      intro notice closed
      rw [Closed, confirmation.notices] at closed
      exact .inl closed
    pays := fun _ user sessions fits => confirmation.pays sound solvent fits }

end Honors

end Tables

section Notices

variable {stamp : Stamp} {tables after : Tables} {notice : Notice}

/-- Whatever is done about a notice confirms the session that it names, and settles it or fails. -/
theorem Handling.honors {result : Except Failure (Outcome × Option Balance)} (sound : tables.Sound)
    (solvent : tables.Solvent) (handling : Handling notice stamp tables result after) :
    tables.Honors none (paidSession? notice) after ∧
      ∀ answer, result = .ok answer → ∀ session, paidSession? notice = some session →
        after.Settled session := by
  cases handling with
  | ignored other =>
    have nameless : paidSession? notice = none := if_neg other
    rw [nameless]
    exact ⟨.silent sound solvent none, by simp⟩
  | malformed completed nameless =>
    have nameless : paidSession? notice = none := by
      rw [paidSession?, if_pos completed, nameless]; rfl
    rw [nameless]
    exact ⟨.silent sound solvent none, by simp⟩
  | @confirmed session result _ completed names confirmation =>
    have named : paidSession? notice = some session.id := by
      rw [paidSession?, if_pos completed, names]
      rfl
    rw [named]
    refine ⟨.confirm sound solvent confirmation, ?_⟩
    rintro answer succeeds _ ⟨⟩
    apply confirmation.settles sound
    cases result with
    | error failure => cases succeeds
    | ok receipt => exact ⟨receipt, rfl⟩

/-- A notice is recorded under its own identifier. -/
theorem openRecord_id (sound : tables.Sound) : (openRecord notice stamp tables).id = notice.id := by
  change ((tables.notices.get? notice.id).getD (.ofNotice notice stamp.now)).id = notice.id
  cases found : tables.notices.get? notice.id with
  | none => rfl
  | some record => exact sound.notice_id found

/-- A record that is put decides whether its own notice is closed, and no other. -/
theorem Tables.closed_putNotice {record : NoticeRecord} {name : String} :
    (tables.putNotice record).Closed name ↔
      if record.id = name then record.isCompleted = true else tables.Closed name := by
  simp only [Closed, putNotice, Table.get?_put]
  split <;> simp

/-- Working on a notice honors it. The record is kept around what is done about the notice, and is
completed only if that succeeds. -/
theorem Tables.Honors.process {result : Except Failure (Outcome × Option Balance)}
    (sound : tables.Sound)
    (honors : (tables.putNotice (openRecord notice stamp tables)).Honors none
      (paidSession? notice) after) (settles : ∀ answer, result = .ok answer →
      ∀ session, paidSession? notice = some session → after.Settled session) :
    tables.Honors (some notice.id) (paidSession? notice)
      (closeNotice (openRecord notice stamp tables) stamp.now after result) := by
  have named : (openRecord notice stamp tables).id = notice.id := openRecord_id sound
  have opened : (openRecord notice stamp tables).isCompleted = false := rfl
  -- While the notice is worked on it is not closed, and other notices are as they were.
  have middle : ∀ name, after.Closed name → tables.Closed name ∧ notice.id ≠ name := by
    intro name closed
    rcases honors.closed name closed with before | ⟨absurdly, _⟩
    · rw [closed_putNotice, named] at before
      split at before
      · rw [opened] at before
        cases before
      · next apart => exact ⟨before, apart⟩
    · cases absurdly
  have pays : ∀ user sessions,
      tables.expected user ((paidSession? notice).toList ++ sessions) ≤ Money.maxCents →
        after.expected user sessions =
          tables.expected user ((paidSession? notice).toList ++ sessions) :=
    honors.pays (by rintro name session ⟨⟩)
  rcases result with (rejection | overflow) | answer
  · refine ⟨honors.sound.putNotice _, honors.solvent, honors.settled, ?_, fun _ => pays⟩
    intro name closed
    rw [closeNotice, closed_putNotice] at closed
    split at closed
    · cases closed
    · exact .inl (middle name closed).1
  · exact ⟨honors.sound, honors.solvent, honors.settled,
      fun name closed => .inl (middle name closed).1, fun _ => pays⟩
  · refine ⟨honors.sound.putNotice _, honors.solvent, honors.settled, ?_, fun _ => pays⟩
    intro name closed
    rw [closeNotice, closed_putNotice] at closed
    split at closed
    · next same =>
      refine .inr ⟨?_, settles answer rfl⟩
      rw [← same]
      exact congrArg some named.symm
    · exact .inl (middle name closed).1

/-- Processing a notice honors the session that it says is paid. -/
theorem process_honors (sound : tables.Sound) (solvent : tables.Solvent) (notice : Notice) :
    ∃ result after, process notice stamp { tables } = (result, { tables := after }) ∧
      tables.Honors (some notice.id) (paidSession? notice) after := by
  cases done : (noticeRecord notice stamp.now { tables }).isCompleted with
  | true =>
    refine ⟨_, tables, process_of_completed done, .duplicate sound solvent ?_ _⟩
    change ((tables.notices.get? notice.id).getD (.ofNotice notice stamp.now)).isCompleted =
      true at done
    cases found : tables.notices.get? notice.id with
    | none =>
      rw [found] at done
      cases done
    | some record =>
      rw [found] at done
      exact ⟨record, found, done⟩
  | false =>
    obtain ⟨result, middle, handling, run⟩ := process_of_open sound done
    obtain ⟨honors, settles⟩ := handling.honors (sound.putNotice _) (by exact solvent)
    exact ⟨_, _, run, honors.process sound settles⟩

end Notices

end Ledger

end Prepaid
