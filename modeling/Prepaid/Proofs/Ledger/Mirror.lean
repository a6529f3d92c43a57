import Prepaid.Proofs.Ledger.Credit
import Prepaid.Proofs.Ledger.Delivery
import Prepaid.Proofs.Ledger.Lifecycle

/-!
# The ledger and the sessions of the gateway

Sessions are kept twice, by the gateway and by the entries that carry them.
`Tables.Mirrored` says that the two agree, session by session. Most of what the
ledger does leaves alone the entries that carry a session; the rest opens one, or
completes one whose session is paid.
-/

namespace Prepaid.Ledger

namespace Tables

/-- An entry and the session that it carries agree: a deposit for the user of the session, over its
amount, that is completed only if the session is paid, and under the payment of the session. -/
structure Mirrors (known : CheckoutSession) (entry : Entry) (tables : Tables) : Prop where
  deposit : entry.kind = .deposit
  home : ∃ wallet, tables.wallets.get? known.user = some wallet ∧ wallet.id = entry.wallet
  amount : entry.amount = known.amount
  named : known.state = .paid → known.payment.isSome
  progress : entry.status = .pending ∨
    entry.status = .completed ∧ known.state = .paid ∧ entry.reference.payment = known.payment

/-- The sessions of the gateway are those that entries carry, each is carried by one entry, and the
two agree. -/
structure Mirrored (sessions : Table String CheckoutSession) (tables : Tables) : Prop where
  distinct : tables.DistinctSessions
  carried : ∀ {session known}, sessions.get? session = some known →
    ∃ id, tables.sessionOf id = some session
  mirrors : ∀ {id entry session}, tables.entries.get? id = some entry →
    entry.reference.session = some session →
      ∃ known, sessions.get? session = some known ∧ tables.Mirrors known entry

/-- No entry that carries a session is touched, and the wallets keep their identifiers. -/
structure SameTopUps (before after : Tables) : Prop where
  sessions : before.SameSessions after
  rows : ∀ {id entry}, before.entries.get? id = some entry → entry.reference.session.isSome →
    after.entries.get? id = some entry
  homes : ∀ {user wallet}, before.wallets.get? user = some wallet →
    ∃ held, after.wallets.get? user = some held ∧ held.id = wallet.id

variable {sessions : Table String CheckoutSession} {tables before middle after : Tables}
  {entry : Entry} {known next : CheckoutSession} {session : String} {id : EntryId}

/-! ## What leaves the top-ups alone -/

/-- A notice touches no top-up. -/
theorem SameTopUps.putNotice (record : NoticeRecord) :
    tables.SameTopUps (tables.putNotice record) where
  sessions := (SameSessions.refl tables).putNotice record
  rows found _ := found
  homes found := ⟨_, found, rfl⟩

/-- A change leaves alone every entry that carries a session, except the one that it is marked
with. -/
theorem Moves.keeps_topUp {topUp : Option EntryId} (moves : before.Moves after topUp)
    (other : topUp ≠ some id) (found : before.entries.get? id = some entry)
    (waits : entry.reference.session.isSome) :
    after.entries.get? id = some entry := by
  cases moves with
  | still entries => rw [entries, found]
  | @moved _ user wallet row home owned entries others effect =>
    rw [entries, Table.get?_put]
    split
    · next same =>
      subst same
      rw [found] at effect
      -- Of the effects only a confirmation is about an entry that is there and carries a session.
      cases effect with
      | confirm => exact (other rfl).elim
      | credit new | await new => cases new
      | spend same _ kept nameless | free same kept nameless =>
        cases same
        rw [← kept, nameless] at waits
        cases waits
    · exact found

end Tables

open Tables

section Changes

variable {stamp : Stamp} {tables after : Tables}

/-- Upkeep touches no top-up. -/
theorem Upkeeps.sameTopUps (upkeeps : Upkeeps stamp tables after) : tables.SameTopUps after where
  sessions := upkeeps.sameSessions
  rows found _ := by rw [upkeeps.entries, found]
  homes found := ⟨_, upkeeps.keepsWallet found, rfl⟩

/-- A change that neither opens nor confirms a top-up leaves all of them alone. -/
theorem Change.sameTopUps (change : Change stamp tables none after) (sound : tables.Sound)
    (agreed : tables.Agreed) (same : tables.SameSessions after) : tables.SameTopUps after where
  sessions := same
  rows := (change.moves sound agreed).keeps_topUp (by simp)
  homes found := by
    obtain ⟨held, heldAt, id, _⟩ := (change.continues sound agreed).wallet found
    exact ⟨held, heldAt, id⟩

end Changes

namespace Tables

variable {sessions : Table String CheckoutSession} {tables after : Tables} {entry : Entry}
  {known next : CheckoutSession} {session : String} {id : EntryId} {stamp : Stamp}

/-- An entry mirrors its session wherever the wallets keep their identifiers. -/
theorem Mirrors.mono (mirrors : tables.Mirrors known entry)
    (homes : ∀ {user wallet}, tables.wallets.get? user = some wallet →
      ∃ held, after.wallets.get? user = some held ∧ held.id = wallet.id) :
      after.Mirrors known entry :=
  { mirrors with
    home := by
      obtain ⟨wallet, found, owned⟩ := mirrors.home
      obtain ⟨held, heldAt, same⟩ := homes found
      exact ⟨held, heldAt, same.trans owned⟩ }

/-- The entry of an expired session waits for ever. -/
theorem Mirrors.pending_of_expired (mirrors : tables.Mirrors known entry)
    (expired : known.state = .expired) :
    entry.status = .pending := by
  rcases mirrors.progress with pending | ⟨_, paid, _⟩
  · exact pending
  · rw [expired] at paid
    cases paid

/-- A completed entry has the payment of its session, which is paid. -/
theorem Mirrors.of_completed (mirrors : tables.Mirrors known entry)
    (completed : entry.status = .completed) :
    known.state = .paid ∧ entry.reference.payment = known.payment := by
  rcases mirrors.progress with pending | ⟨_, agrees⟩
  · rw [completed] at pending
    cases pending
  · exact agrees

/-- Paying a session once more leaves its payment as it is. -/
theorem Mirrors.pay (mirrors : tables.Mirrors known entry) :
    tables.Mirrors (known.pay stamp) entry where
  deposit := mirrors.deposit
  home := mirrors.home
  amount := mirrors.amount
  named _ := rfl
  progress := by
    rcases mirrors.progress with pending | ⟨completed, paid, agrees⟩
    · exact .inl pending
    · obtain ⟨payment, named⟩ := Option.isSome_iff_exists.mp (mirrors.named paid)
      exact .inr ⟨completed, rfl, by simp [agrees, CheckoutSession.pay, named]⟩

/-- The entry of an unpaid session mirrors the expired one as well. -/
theorem Mirrors.expire (mirrors : tables.Mirrors known entry) (unpaid : known.state = .unpaid) :
    tables.Mirrors { known with state := .expired } entry where
  deposit := mirrors.deposit
  home := mirrors.home
  amount := mirrors.amount
  named := by rintro ⟨⟩
  progress := by
    rcases mirrors.progress with pending | ⟨_, paid, _⟩
    · exact .inl pending
    · rw [unpaid] at paid
      cases paid

namespace Mirrored

/-- There are neither sessions nor entries in the beginning. -/
theorem empty : Mirrored .empty {} where
  distinct := by
    intro first second session carries
    cases carries
  carried found := by cases found
  mirrors found := by cases found

/-- The gateway may change a session as long as the entry that carries it agrees. -/
theorem putSession (mirrored : tables.Mirrored sessions)
    (present : sessions.get? session = some known)
    (agrees : ∀ {entry}, tables.Mirrors known entry → tables.Mirrors next entry) :
    tables.Mirrored (sessions.put session next) where
  distinct := mirrored.distinct
  carried := by
    intro other _ found
    rw [Table.get?_put] at found
    split at found
    · next same => exact mirrored.carried (same ▸ present)
    · exact mirrored.carried found
  mirrors := by
    intro id entry other found carries
    obtain ⟨old, oldAt, mirrors⟩ := mirrored.mirrors found carries
    rw [Table.get?_put]
    split
    · next same =>
      subst same
      cases present.symm.trans oldAt
      exact ⟨next, rfl, agrees mirrors⟩
    · exact ⟨old, oldAt, mirrors⟩

/-- What leaves the top-ups alone leaves them as they are at the gateway. -/
theorem same (mirrored : tables.Mirrored sessions) (same : tables.SameTopUps after) :
    after.Mirrored sessions where
  distinct := by
    intro first second session carries again
    rw [same.sessions.carried] at carries again
    exact mirrored.distinct carries again
  carried found := by
    obtain ⟨id, carries⟩ := mirrored.carried found
    exact ⟨id, (same.sessions.carried id).trans carries⟩
  mirrors := by
    intro id entry session found carries
    have named : tables.sessionOf id = some session := by
      rw [← same.sessions.carried]
      exact sessionOf_eq_some.mpr ⟨entry, found, carries⟩
    obtain ⟨old, oldAt, carried⟩ := sessionOf_eq_some.mp named
    cases (same.rows oldAt (by rw [carried]; rfl)).symm.trans found
    obtain ⟨known, knownAt, mirrors⟩ := mirrored.mirrors oldAt carries
    exact ⟨known, knownAt, mirrors.mono same.homes⟩

/-- A new session at the gateway and a new entry that waits for it. -/
theorem openSession (mirrored : tables.Mirrored sessions) {user : UserId} {wallet : Wallet}
    {amount : Amount} {currency : String} (owned : tables.wallets.get? user = some wallet)
    (unused : tables.entries.get? stamp.entry = none) (new : sessions.get? session = none) :
    (tables.putEntry
        (.pendingDeposit stamp.entry wallet.id amount wallet.current session stamp.now)).Mirrored
      (sessions.put session { user, amount, currency, state := .unpaid, payment := none }) := by
  let entry : Entry := .pendingDeposit stamp.entry wallet.id amount wallet.current session stamp.now
  have opens : tables.OpensSession session entry.id (tables.putEntry entry) := .putEntry unused rfl
  have uncarried {id : EntryId} : tables.sessionOf id ≠ some session := by
    intro carries
    obtain ⟨old, oldAt, carried⟩ := sessionOf_eq_some.mp carries
    obtain ⟨known, knownAt, _⟩ := mirrored.mirrors oldAt carried
    rw [new] at knownAt
    cases knownAt
  refine ⟨?_, ?_, ?_⟩
  · refine (Names.distinct_iff (.opened opens)).mpr ⟨mirrored.distinct, ?_⟩
    rintro id _ ⟨⟩
    exact uncarried
  · intro other known found
    rw [Table.get?_put] at found
    rw [Names.exists_iff (.opened opens)]
    split at found
    · next same => exact .inr (congrArg some same)
    · exact .inl (mirrored.carried found)
  · intro id row other found carries
    rcases entry_of_putEntry found with ⟨_, rfl⟩ | before
    · cases carries
      refine ⟨_, by rw [Table.get?_put, if_pos rfl], rfl, ⟨wallet, ?_, rfl⟩, rfl, by rintro ⟨⟩,
        .inl rfl⟩
      rw [putEntry_wallets]
      exact owned
    · obtain ⟨known, knownAt, mirrors⟩ := mirrored.mirrors before carries
      have apart : session ≠ other := by
        rintro rfl
        exact uncarried (sessionOf_eq_some.mpr ⟨row, before, carries⟩)
      refine ⟨known, by rw [Table.get?_put, if_neg apart, knownAt], mirrors.mono ?_⟩
      intro user held heldAt
      rw [putEntry_wallets]
      exact ⟨held, heldAt, rfl⟩

/-- A session that is paid may be confirmed. -/
theorem confirm (mirrored : tables.Mirrored sessions) (sound : tables.Sound)
    {result : Except Failure (Option Receipt)} (present : sessions.get? session = some known)
    (paid : known.state = .paid)
    (confirmation : Confirmation session known.payment stamp tables result after) :
    after.Mirrored sessions := by
  have same := confirmation.sameSessions sound
  cases confirmation with
  | unknown | settled | overflowed => exact mirrored
  | @credited entry user wallet credited named pending owned home credit =>
    have homes {user : UserId} {wallet : Wallet} (found : tables.wallets.get? user = some wallet) :
        ∃ held,
          ((tables.putWallet credited).putEntry
            (entry.confirm known.payment credited.current stamp.now)).wallets.get? user =
            some held ∧
          held.id = wallet.id := by
      have continues : tables.Continues 0 (tables.putWallet credited) :=
        .putSameWallet sound owned (Wallet.same_of_credit credit)
      obtain ⟨held, heldAt, id, _⟩ := continues.wallet found
      rw [putEntry_wallets]
      exact ⟨held, heldAt, id⟩
    refine ⟨?_, ?_, ?_⟩
    · intro first second session carries again
      rw [same.carried] at carries again
      exact mirrored.distinct carries again
    · intro session known found
      obtain ⟨id, carries⟩ := mirrored.carried found
      exact ⟨id, (same.carried id).trans carries⟩
    · intro id row other found carries
      rcases entry_of_putEntry found with ⟨_, rfl⟩ | before
      · obtain ⟨_, entryAt, carried⟩ := sound.entryForSession?_spec named
        cases carried.symm.trans carries
        obtain ⟨mirror, mirrorAt, mirrors⟩ := mirrored.mirrors entryAt carried
        cases present.symm.trans mirrorAt
        exact ⟨known, present, { mirrors.mono homes with progress := .inr ⟨rfl, paid, rfl⟩ }⟩
      · obtain ⟨mirror, mirrorAt, mirrors⟩ := mirrored.mirrors before carries
        exact ⟨mirror, mirrorAt, mirrors.mono homes⟩

/-- Closing a notice touches neither. -/
theorem closeNotice {α : Type} (mirrored : tables.Mirrored sessions) (record : NoticeRecord)
    (now : Instant) (result : Except Failure α) :
    (Ledger.closeNotice record now tables result).Mirrored sessions := by
  rcases result with (rejection | overflow) | done
  · exact mirrored.same (.putNotice _)
  · exact mirrored
  · exact mirrored.same (.putNotice _)

/-- A notice may be delivered that says of a paid session what the gateway knows. -/
theorem process (mirrored : tables.Mirrored sessions) (sound : tables.Sound) {notice : Notice}
    {told : PaidSession} (names : notice.session? = some told)
    (present : sessions.get? told.id = some known) (paid : known.state = .paid)
    (agrees : told.payment = known.payment) :
    (Ledger.process notice stamp { tables }).2.tables.Mirrored sessions := by
  cases done : (noticeRecord notice stamp.now { tables }).isCompleted with
  | true =>
    rw [process_of_completed done]
    exact mirrored
  | false =>
    obtain ⟨result, middle, handling, run⟩ := process_of_open sound done
    rw [run]
    have noted := mirrored.same (.putNotice (openRecord notice stamp tables))
    have handled : middle.Mirrored sessions := by
      cases handling with
      | ignored | malformed => exact noted
      | confirmed _ namesToo confirmation =>
        cases names.symm.trans namesToo
        rw [agrees] at confirmation
        exact noted.confirm (sound.putNotice _) present paid confirmation
    exact handled.closeNotice _ _ _

end Mirrored

end Tables

end Prepaid.Ledger
