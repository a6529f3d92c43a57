import Prepaid.Ledger.Delivery
import Prepaid.Proofs.Ledger.Movement
import Prepaid.Proofs.Ledger.Solvent

/-!
# Confirmations and deliveries

What becomes of a checkout session that is confirmed, in full: `Confirmation` has
one case for each result, and exactly one of them credits the owner of the session's
entry. A delivery and a reconciliation confirm at most once each; around it a
delivery only keeps the record of its notice.
-/

namespace Prepaid.Ledger

/-- The result of confirming a session, and the tables afterwards. -/
inductive Confirmation (session : String) (payment : Option String) (stamp : Stamp)
    (tables : Tables) :
    Except Failure (Option Receipt) → Tables → Prop where
  | unknown (unnamed : tables.entryForSession? session = none) :
      Confirmation session payment stamp tables (.error (.rejected (.sessionNotFound session)))
        tables
  | settled {entry : Entry} (named : tables.entryForSession? session = some entry)
      (settled : entry.status ≠ .pending) : Confirmation session payment stamp tables
        (.ok none) tables
  | overflowed {entry : Entry} {user : UserId} {wallet : Wallet} {overflow : Overflow}
      (named : tables.entryForSession? session = some entry) (pending : entry.status = .pending)
      (known : tables.wallets.get? user = some wallet) (owned : wallet.id = entry.wallet)
      (full : wallet.credit entry.amount stamp.now = .error overflow) :
      Confirmation session payment stamp tables (.error (.overflow overflow)) tables
  | credited {entry : Entry} {user : UserId} {wallet credited : Wallet}
      (named : tables.entryForSession? session = some entry) (pending : entry.status = .pending)
      (known : tables.wallets.get? user = some wallet) (owned : wallet.id = entry.wallet)
      (credit : wallet.credit entry.amount stamp.now = .ok credited) :
      Confirmation session payment stamp tables
        ((orOverflow credited.balance).map fun balance =>
          some ⟨balance, some (entry.confirm payment credited.current stamp.now), none⟩)
        ((tables.putWallet credited).putEntry (entry.confirm payment credited.current stamp.now))

/-- A session that no entry is named after is not found. -/
theorem Work.sessionEntry_of_none {tables : Tables} {session : String}
    (unnamed : tables.entryForSession? session = none) :
    (Work.sessionEntry session).run { base := tables } =
      .error (.rejected (.sessionNotFound session)) := by
  rw [Work.sessionEntry, StateT.run_bind]
  simp only [StateT.run_get, pure_bind, unnamed]
  rfl

/-- The wallet of an entry is found by its identifier and by its owner alike. -/
theorem Work.walletById_of_sound {tables : Tables} (sound : Tables.Sound tables) {user : UserId}
    {wallet : Wallet} (known : tables.wallets.get? user = some wallet) (stamp : Stamp)
    {draft : Draft} (base : draft.base = tables) (unread : draft.kept.wallets = .empty) :
    (Work.walletById wallet.id stamp).run draft =
      .ok (wallet, draft.keepWallet wallet.owner wallet) := by
  refine Work.walletById_eq_ok.mpr ⟨wallet, ?_, ?_⟩
  · rw [base, sound.walletById?_of_get? known]
  · refine Work.wallet_eq_ok.mpr (.inl ⟨?_, rfl⟩)
    rw [Draft.walletAt?_of_clean unread, base, sound.wallet_owner known, known]

/-- The confirmation of a session comes to one of the confirmations. -/
theorem confirmTopUp_apply {tables : Tables} (sound : Tables.Sound tables) (session : String)
    (payment : Option String) (stamp : Stamp) :
    ∃ result after, confirmTopUp session payment stamp { tables } = (result, { tables := after }) ∧
      Confirmation session payment stamp tables result after := by
  cases named : tables.entryForSession? session with
  | none =>
    refine ⟨_, tables, ?_, .unknown named⟩
    rw [confirmTopUp, transact_bind_apply,
      finish_of_error (Work.bind_of_error (Work.sessionEntry_of_none named))]
  | some entry =>
    obtain ⟨_, present, _⟩ := sound.entryForSession?_spec named
    have found : (Work.sessionEntry session).run { base := tables } =
        .ok (entry, Draft.keepEntry entry.id entry { base := tables }) :=
      Work.sessionEntry_eq_ok.mpr ⟨entry, named, present, rfl⟩
    by_cases pending : entry.status = .pending
    · obtain ⟨user, wallet, known, owned⟩ := sound.entry_wallet present
      have opened := Work.walletById_of_sound sound known stamp
        (show (Draft.keepEntry entry.id entry { base := tables }).base = tables from rfl) rfl
      rw [owned] at opened
      cases credit : wallet.credit entry.amount stamp.now with
      | error overflow =>
        refine ⟨_, tables, ?_, .overflowed named pending known owned credit⟩
        rw [confirmTopUp, transact_bind_apply, finish_bind found, if_pos pending,
          finish_bind opened, credit]
        rfl
      | ok credited =>
        refine ⟨_, _, ?_, .credited named pending known owned credit⟩
        rw [confirmTopUp, transact_bind_apply, finish_bind found, if_pos pending,
          finish_bind opened, credit]
        change (some <$> receipt credited (some (entry.confirm payment credited.current stamp.now))
          none) _ = _
        rw [map_apply, receipt_apply]
        cases credited.balance <;> rfl
    · refine ⟨_, tables, ?_, .settled named pending⟩
      rw [confirmTopUp, transact_bind_apply, finish_bind found, if_neg pending]
      rfl

/-- What a delivery answers when a session is confirmed. -/
def confirmationOutcome : Option Receipt → Outcome × Option Balance
  | some receipt => (.credited, some receipt.balance)
  | none => (.alreadyCredited, none)

/-- The result of applying a notice, and the tables afterwards. -/
inductive Handling (notice : Notice) (stamp : Stamp) (tables : Tables) :
    Except Failure (Outcome × Option Balance) → Tables → Prop where
  | ignored (other : notice.type ≠ Notice.sessionCompleted) :
      Handling notice stamp tables (.ok (.ignored, none)) tables
  | malformed (completed : notice.type = Notice.sessionCompleted)
      (nameless : notice.session? = none) : Handling notice stamp tables
        (.error (.rejected .malformedJson)) tables
  | confirmed {session : PaidSession} {result : Except Failure (Option Receipt)} {after : Tables}
      (completed : notice.type = Notice.sessionCompleted) (names : notice.session? = some session)
      (confirmation : Confirmation session.id session.payment stamp tables result after) :
      Handling notice stamp tables (result.map confirmationOutcome) after

/-- Applying a notice comes to one of the ways to handle it. -/
theorem apply_apply {tables : Tables} (sound : Tables.Sound tables) (notice : Notice)
    (stamp : Stamp) :
    ∃ result after, apply notice stamp { tables } = (result, { tables := after }) ∧
      Handling notice stamp tables result after := by
  unfold apply
  by_cases completed : notice.type = Notice.sessionCompleted
  · rw [if_pos completed]
    cases names : notice.session? with
    | none => exact ⟨_, tables, rule_apply _ _, .malformed completed names⟩
    | some session =>
      obtain ⟨result, after, run, confirmation⟩ :=
        confirmTopUp_apply sound session.id session.payment stamp
      refine ⟨_, after, ?_, .confirmed completed names confirmation⟩
      simp only [bind_apply, run]
      rcases result with _ | _ | _ <;> rfl
  · rw [if_neg completed]
    exact ⟨_, tables, rfl, .ignored completed⟩

/-- Saving a notice puts its record and nothing else. -/
theorem saveNotice_apply (record : NoticeRecord) (tables : Tables) :
    saveNotice record { tables } = (.ok (), { tables := tables.putNotice record }) := by
  rw [saveNotice, transact_apply]
  rfl

/-- An attempt has what it attempts as its result. -/
theorem attempt_of_run {α : Type} {call : Call α} {ledger after : Ledger}
    {result : Except Failure α} (run : call ledger = (result, after)) :
    attempt call ledger = (.ok result, after) := by
  rw [attempt, run]

/-- The last word of a delivery on the record of its notice. An overflow leaves it as it is. -/
def closeNotice {α : Type} (record : NoticeRecord) (now : Instant) (tables : Tables) :
    Except Failure α → Tables
  | .ok _ => tables.putNotice (record.markCompleted now)
  | .error (.rejected rejection) => tables.putNotice (record.markFailed rejection.message now)
  | .error (.overflow _) => tables

/-- The record under which a notice is kept while it is worked on. -/
def openRecord (notice : Notice) (stamp : Stamp) (tables : Tables) : NoticeRecord :=
  (noticeRecord notice stamp.now { tables }).markProcessing stamp.now

/-- A notice that has been completed is a duplicate. -/
theorem process_of_completed {notice : Notice} {stamp : Stamp} {tables : Tables}
    (completed : (noticeRecord notice stamp.now { tables }).isCompleted = true) :
    process notice stamp { tables } = (.ok ⟨notice.id, .duplicate, none⟩, { tables }) := by
  change (if _ then _ else _ : Call Delivery) { tables } = _
  rw [if_pos completed]
  rfl

/-- Any other notice is recorded, handled, and closed with what came of it. -/
theorem process_of_open {notice : Notice} {stamp : Stamp} {tables : Tables}
    (sound : Tables.Sound tables)
    (fresh : (noticeRecord notice stamp.now { tables }).isCompleted = false) :
    ∃ result middle, Handling notice stamp (tables.putNotice (openRecord notice stamp tables))
      result middle ∧ process notice stamp { tables } =
        (result.map fun answer => ⟨notice.id, answer.1, answer.2⟩,
          { tables := closeNotice (openRecord notice stamp tables) stamp.now middle result }) := by
  obtain ⟨result, middle, run, handling⟩ :=
    apply_apply (sound.putNotice (openRecord notice stamp tables)) notice stamp
  refine ⟨result, middle, handling, ?_⟩
  change (if _ then _ else _ : Call Delivery) { tables } = _
  rw [if_neg (by rw [fresh]; exact Bool.false_ne_true), bind_of_ok (saveNotice_apply _ _)]
  rw [← openRecord, bind_of_ok (attempt_of_run run)]
  cases result with
  | ok answer => exact bind_of_ok (saveNotice_apply _ _)
  | error failure =>
    cases failure with
    | rejected rejection => exact bind_of_ok (attempt_of_run (saveNotice_apply _ _))
    | overflow overflow => rfl

/-- A body that is verified is processed. -/
theorem deliver_of_ok {gateway : Gateway} {body : List UInt8} {signature : String} {notice : Notice}
    (verified : gateway.verify body signature = .ok notice) (stamp : Stamp) (ledger : Ledger) :
    deliver gateway body signature stamp ledger = process notice stamp ledger := by
  rw [deliver, verified]
  exact bind_of_ok (rule_apply _ _)

/-- A body that is refused changes nothing. -/
theorem deliver_of_error {gateway : Gateway} {body : List UInt8} {signature : String}
    {rejection : Rejection} (refused : gateway.verify body signature = .error rejection)
    (stamp : Stamp) (ledger : Ledger) :
    deliver gateway body signature stamp ledger = (.error (.rejected rejection), ledger) := by
  rw [deliver, refused]
  exact bind_of_error (rule_apply _ _)

/-- A reconciliation confirms a session that the gateway knows as paid, and nothing otherwise. -/
theorem reconcile_of_paid {gateway : Gateway} {session : String} {known : CheckoutSession}
    {tables : Tables} (sound : Tables.Sound tables) (stamp : Stamp)
    (found : gateway.sessions.get? session = some known) (paid : known.state = .paid) :
    ∃ result after, Confirmation session known.payment stamp tables result after ∧
      reconcile gateway session stamp { tables } =
        (result.map fun receipt => (confirmationOutcome receipt).1, { tables := after }) := by
  obtain ⟨result, after, run, confirmation⟩ := confirmTopUp_apply sound session known.payment stamp
  refine ⟨result, after, confirmation, ?_⟩
  have located : gateway.session session = .ok known := by rw [Gateway.session, found]
  rw [reconcile, located, bind_of_ok (rule_apply _ _), if_pos paid, bind_apply, run]
  rcases result with _ | _ | _ <;> rfl

/-- A session that is not paid is not credited, and nothing changes. -/
theorem reconcile_of_unpaid {gateway : Gateway} {session : String} (stamp : Stamp) (tables : Tables)
    (unpaid : ∀ known, gateway.sessions.get? session = some known → known.state ≠ .paid) :
    ∃ result, reconcile gateway session stamp { tables } = (result, { tables }) ∧
      result ≠ .ok .credited := by
  cases found : gateway.sessions.get? session with
  | none =>
    have missing : gateway.session session = .error (.gateway (.unknownSession session)) := by
      rw [Gateway.session, found]
    rw [reconcile, missing, bind_of_error (rule_apply _ _)]
    exact ⟨_, rfl, by rintro ⟨⟩⟩
  | some known =>
    have located : gateway.session session = .ok known := by rw [Gateway.session, found]
    rw [reconcile, located, bind_of_ok (rule_apply _ _), if_neg (unpaid known found)]
    exact ⟨_, rfl, by rintro ⟨⟩⟩

/-! ## What confirmations and deliveries commit

Each commits one change. It confirms the top-up of the session exactly if the result says
that it has been credited: the receipt behind the commit never fails, since all wallets
are solvent. -/

section Changes

variable {stamp : Stamp} {tables after : Tables}

/-- A confirmation is one change, marked with the top-up that it credits. -/
theorem Confirmation.changes {session : String} {payment : Option String}
    {result : Except Failure (Option Receipt)} (sound : Tables.Sound tables)
    (solvent : tables.Solvent)
    (confirmation : Confirmation session payment stamp tables result after) :
    ∃ topUp, Change stamp tables topUp after ∧ ∀ id, topUp = some id ↔
      (∃ receipt, result = .ok (some receipt)) ∧ tables.entryOfSession.get? session = some id := by
  cases confirmation with
  | unknown unnamed => exact ⟨none, .unchanged, by simp⟩
  | settled named settled => exact ⟨none, .unchanged, by simp⟩
  | overflowed named pending known owned full => exact ⟨none, .unchanged, by simp⟩
  | @credited entry user wallet credited named pending known owned credit =>
    refine ⟨some entry.id, (Posting.confirmed known owned named pending credit).change, ?_⟩
    obtain ⟨balance, total⟩ := ((solvent known).credit credit).balance
    obtain ⟨leads, _⟩ := sound.entryForSession?_spec named
    simp [total, orOverflow, Except.map, leads]

/-- Handling a notice is one change, marked with the top-up that it credits. -/
theorem Handling.changes {notice : Notice} {result : Except Failure (Outcome × Option Balance)}
    (sound : Tables.Sound tables) (solvent : tables.Solvent)
    (handling : Handling notice stamp tables result after) :
    ∃ topUp, Change stamp tables topUp after ∧ ∀ id, topUp = some id ↔
      (∃ balance, result = .ok (.credited, balance)) ∧
        ∃ session, notice.session? = some session ∧ tables.entryOfSession.get? session.id =
          some id := by
  cases handling with
  | ignored other => exact ⟨none, .unchanged, by simp⟩
  | malformed completed nameless => exact ⟨none, .unchanged, by simp⟩
  | @confirmed session result _ completed names confirmation =>
    obtain ⟨topUp, change, credits⟩ := confirmation.changes sound solvent
    refine ⟨topUp, change, ?_⟩
    intro id
    rw [credits id]
    simp only [names, Option.some.injEq, exists_eq_left']
    rcases result with _ | _ | _ <;> simp [Except.map, confirmationOutcome]

/-- Processing a notice is one change, marked with the top-up that it reports as credited. -/
theorem process_changes (sound : Tables.Sound tables) (solvent : tables.Solvent) (notice : Notice) :
    ∃ topUp result after, process notice stamp { tables } = (result, { tables := after }) ∧
      Change stamp tables topUp after ∧ ∀ id, topUp = some id ↔
        (∃ delivery, result = .ok delivery ∧ delivery.outcome = .credited) ∧
          ∃ session, notice.session? = some session ∧ tables.entryOfSession.get? session.id =
            some id := by
  cases done : (noticeRecord notice stamp.now { tables }).isCompleted with
  | true =>
    refine ⟨none, _, tables, process_of_completed done, .unchanged, ?_⟩
    simp
  | false =>
    obtain ⟨result, middle, handling, run⟩ := process_of_open sound done
    have noted : Upkeep stamp tables (tables.putNotice (openRecord notice stamp tables)) := .noted
    obtain ⟨topUp, change, credits⟩ := handling.changes (noted.sound sound) (noted.solvent solvent)
    refine ⟨topUp, _, _, run, ?_, ?_⟩
    · refine .before (.single noted) (change.behind ?_)
      rcases result with (rejection | overflow) | answer
      · exact .single .noted
      · exact .refl
      · exact .single .noted
    · intro id
      rw [credits id]
      rcases result with failure | ⟨outcome, balance⟩ <;> simp [Except.map, Tables.putNotice]

/-! None of this opens an entry. -/

/-- A confirmation keeps the sessions of entries. -/
theorem Confirmation.sameSessions {session : String} {payment : Option String}
    {result : Except Failure (Option Receipt)} (sound : Tables.Sound tables)
    (confirmation : Confirmation session payment stamp tables result after) :
    tables.SameSessions after := by
  cases confirmation with
  | unknown | settled | overflowed => exact .refl tables
  | @credited entry user wallet credited named pending known owned credit =>
    have present : (tables.putWallet credited).entries.get? entry.id = some entry :=
      (sound.entryForSession?_spec named).2.1
    exact ((Tables.SameSessions.refl tables).putWallet credited).putEntry_of_some present rfl

/-- Handling a notice keeps the sessions of entries. -/
theorem Handling.sameSessions {notice : Notice} {result : Except Failure (Outcome × Option Balance)}
    (sound : Tables.Sound tables) (handling : Handling notice stamp tables result after) :
    tables.SameSessions after := by
  cases handling with
  | ignored | malformed => exact .refl tables
  | confirmed completed names confirmation => exact confirmation.sameSessions sound

/-- Processing a notice keeps the sessions of entries. -/
theorem process_sameSessions (sound : Tables.Sound tables) (notice : Notice) (stamp : Stamp) :
    ∃ result after, process notice stamp { tables } = (result, { tables := after }) ∧
      tables.SameSessions after := by
  cases done : (noticeRecord notice stamp.now { tables }).isCompleted with
  | true => exact ⟨_, tables, process_of_completed done, .refl tables⟩
  | false =>
    obtain ⟨result, middle, handling, run⟩ := process_of_open sound done
    have noted := (Tables.SameSessions.refl tables).putNotice (openRecord notice stamp tables)
    have handled := noted.trans (handling.sameSessions (sound.putNotice _))
    refine ⟨_, _, run, ?_⟩
    rcases result with (rejection | overflow) | answer
    · exact handled.putNotice _
    · exact handled
    · exact handled.putNotice _

end Changes

end Prepaid.Ledger
