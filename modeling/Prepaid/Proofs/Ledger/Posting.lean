import Mathlib.Logic.Relation
import Prepaid.Ledger.Movement
import Prepaid.Proofs.Ledger.Sound

/-!
# Postings

`Posting` lists the changes of money that a call can commit, one constructor for
each kind. A call that deals with a user for the first time opens an empty wallet,
and a delivery keeps the record of its notice; these move no money and are
`Upkeep`. A call commits at most one posting, with upkeep around it: a `Change`.
Invariants of the ledger are proved once for each upkeep and each posting.
-/

namespace Prepaid

/-! ## The steps of a wallet and of an order -/

namespace Wallet

variable {wallet after : Wallet} {amount : Amount} {now : Instant}

/-- A credit succeeds exactly if the sum can be computed. -/
theorem credit_eq_ok :
    wallet.credit amount now = .ok after ↔
      ∃ current, wallet.current.add amount.money = .ok current ∧
        { wallet with current, updatedAt := now } = after := by
  unfold credit
  cases wallet.current.add amount.money <;> simp [bind, Except.bind, pure, Except.pure]

/-- A credit fails exactly as its sum does. -/
theorem credit_eq_error {overflow : Overflow} :
    wallet.credit amount now = .error overflow ↔ wallet.current.add amount.money =
      .error overflow := by
  unfold credit
  cases wallet.current.add amount.money <;> simp [bind, Except.bind, pure, Except.pure]

/-- A reservation succeeds exactly if what is left covers the amount, and both sums can be computed.
-/
theorem reserve_eq_ok :
    wallet.reserve amount now = .ok after ↔
      ∃ available held, wallet.current.sub wallet.held = .ok available ∧
        amount.cents ≤ available.cents ∧ wallet.held.add amount.money = .ok held ∧
        { wallet with held, updatedAt := now } = after := by
  unfold reserve Wallet.available
  cases wallet.current.sub wallet.held with
  | error overflow => simp [orOverflow, bind, Except.bind]
  | ok available =>
    by_cases short : available < amount.money
    · have less : ¬ amount.cents ≤ available.cents := Int.not_le.mpr short
      simp [orOverflow, bind, Except.bind, short, less, throw, throwThe, MonadExceptOf.throw]
    · have enough : amount.cents ≤ available.cents := Int.not_lt.mp short
      cases wallet.held.add amount.money <;>
        simp [orOverflow, bind, Except.bind, pure, Except.pure, short, enough]

/-- The amount must be covered by what is held and by what there is. -/
theorem requireHeld_eq_ok :
    wallet.requireHeld amount = .ok () ↔
      amount.cents ≤ wallet.held.cents ∧ amount.cents ≤ wallet.current.cents := by
  unfold requireHeld
  split
  · next short =>
    simp only [reduceCtorEq, false_iff, not_and_or, Int.not_le]
    exact short
  · next enough =>
    simp only [true_iff]
    exact ⟨Int.not_lt.mp fun less => enough (.inl less),
      Int.not_lt.mp fun less => enough (.inr less)⟩

/-- A release succeeds exactly if the amount is covered and the difference can be computed. -/
theorem release_eq_ok :
    wallet.release amount now = .ok after ↔
      (amount.cents ≤ wallet.held.cents ∧ amount.cents ≤ wallet.current.cents) ∧
        ∃ held, wallet.held.sub amount.money = .ok held ∧
          { wallet with held, updatedAt := now } = after := by
  rw [← requireHeld_eq_ok, release]
  cases wallet.requireHeld amount with
  | error failure => simp [bind, Except.bind]
  | ok _ =>
    cases wallet.held.sub amount.money <;>
      simp [orOverflow, bind, Except.bind, pure, Except.pure]

/-- A settlement succeeds exactly if the amount is covered and both differences can be computed. -/
theorem settle_eq_ok :
    wallet.settle amount now = .ok after ↔
      (amount.cents ≤ wallet.held.cents ∧ amount.cents ≤ wallet.current.cents) ∧
        ∃ held current, wallet.held.sub amount.money = .ok held ∧
          wallet.current.sub amount.money = .ok current ∧
          { wallet with held, current, updatedAt := now } = after := by
  rw [← requireHeld_eq_ok, settle]
  cases wallet.requireHeld amount with
  | error failure => simp [bind, Except.bind]
  | ok _ =>
    cases wallet.held.sub amount.money <;> cases wallet.current.sub amount.money <;>
      simp [orOverflow, bind, Except.bind, pure, Except.pure]

/-! A wallet keeps its identifier and its owner through each of its steps. -/

/-- A credit leaves the wallet its owner's. -/
theorem same_of_credit (credit : wallet.credit amount now = .ok after) :
    after.id = wallet.id ∧ after.owner = wallet.owner := by
  obtain ⟨current, _, rfl⟩ := credit_eq_ok.mp credit
  exact ⟨rfl, rfl⟩

/-- A reservation leaves the wallet its owner's. -/
theorem same_of_reserve (reserve : wallet.reserve amount now = .ok after) :
    after.id = wallet.id ∧ after.owner = wallet.owner := by
  obtain ⟨available, held, _, _, _, rfl⟩ := reserve_eq_ok.mp reserve
  exact ⟨rfl, rfl⟩

/-- A release leaves the wallet its owner's. -/
theorem same_of_release (release : wallet.release amount now = .ok after) :
    after.id = wallet.id ∧ after.owner = wallet.owner := by
  obtain ⟨_, held, _, rfl⟩ := release_eq_ok.mp release
  exact ⟨rfl, rfl⟩

/-- A settlement leaves the wallet its owner's. -/
theorem same_of_settle (settle : wallet.settle amount now = .ok after) :
    after.id = wallet.id ∧ after.owner = wallet.owner := by
  obtain ⟨_, held, current, _, _, rfl⟩ := settle_eq_ok.mp settle
  exact ⟨rfl, rfl⟩

end Wallet

namespace Order

/-- The order in another state. -/
def moveTo (status : OrderStatus) (now : Instant) (order : Order) : Order :=
  { order with status, updatedAt := now }

/-- An order advances exactly to the states it can become. -/
theorem advance_eq_ok {order after : Order} {next : OrderStatus} {action : OrderAction}
    {now : Instant} :
    order.advance next action now = .ok after ↔
      order.status.canBecome next = true ∧ order.moveTo next now = after := by
  unfold advance
  split <;> simp_all [moveTo]

/-- A registered order is pending. -/
theorem pending_of_register {new : NewOrder} {now : Instant} {order : Order}
    (registered : register new now = .ok order) : order.status = .pending := by
  unfold register at registered
  cases total : Amount.ofDecimal new.total with
  | error rejection =>
    rw [total] at registered
    cases registered
  | ok amount =>
    rw [total] at registered
    cases registered
    rfl

/-- An order passes the check of its state exactly if the state is allowed. -/
theorem require_eq_ok {order : Order} {allowed : List OrderStatus} {action : OrderAction}
    {done : Unit} :
    order.require allowed action = .ok done ↔ order.status ∈ allowed := by
  unfold require
  split <;> simp_all

end Order

namespace Ledger

open Tables

/-- A change that moves no money and writes no entry. -/
inductive Upkeep (stamp : Stamp) (tables : Tables) : Tables → Prop where
  | opened {user : UserId} (absent : tables.wallets.get? user = none)
      (fresh : tables.owners.get? stamp.wallet = none) :
      Upkeep stamp tables (tables.putWallet (.empty stamp.wallet user stamp.now))
  | noted {record : NoticeRecord} : Upkeep stamp tables (tables.putNotice record)

/-- A change of wallets, orders and entries that belong together. It is marked with the entry of the
top-up that it confirms, if it confirms one. -/
inductive Posting (stamp : Stamp) (tables : Tables) : Option EntryId → Tables → Prop where
  | deposited {user : UserId} {wallet credited : Wallet} {amount : Amount}
      (known : tables.wallets.get? user = some wallet)
      (credit : wallet.credit amount stamp.now = .ok credited)
      (fresh : tables.entries.get? stamp.entry = none) :
      Posting stamp tables none ((tables.putWallet credited).putEntry
        (.deposit stamp.entry wallet.id amount credited.current stamp.now))
  | toppedUp {user : UserId} {wallet : Wallet} {amount : Amount} {session : String}
      (known : tables.wallets.get? user = some wallet)
      (fresh : tables.entries.get? stamp.entry = none) :
      Posting stamp tables none (tables.putEntry
        (.pendingDeposit stamp.entry wallet.id amount wallet.current session stamp.now))
  | confirmed {user : UserId} {wallet credited : Wallet} {session : String} {entry : Entry}
      {payment : Option String}
      (known : tables.wallets.get? user = some wallet) (owned : wallet.id = entry.wallet)
      (named : tables.entryForSession? session = some entry) (pending : entry.status = .pending)
      (credit : wallet.credit entry.amount stamp.now = .ok credited) :
      Posting stamp tables (some entry.id) ((tables.putWallet credited).putEntry
        (entry.confirm payment credited.current stamp.now))
  | held {order : Order} {wallet reserved : Wallet}
      (ordered : tables.orders.get? order.id = some order) (pending : order.status = .pending)
      (known : tables.wallets.get? order.customer = some wallet)
      (reserve : wallet.reserve order.total stamp.now = .ok reserved)
      (fresh : tables.entries.get? stamp.entry = none) :
      Posting stamp tables none
        (((tables.putWallet reserved).putOrder (order.moveTo .confirmed stamp.now)).putEntry
          (.hold stamp.entry wallet.id order.id order.total reserved.current stamp.now))
  | captured {order : Order} {wallet settled : Wallet} {entry : Entry}
      (ordered : tables.orders.get? order.id = some order) (unpaid : order.status ∈ unpaid)
      (known : tables.wallets.get? order.customer = some wallet)
      (holds : tables.pendingHold? order.id = some entry)
      (settle : wallet.settle entry.amount stamp.now = .ok settled) :
      Posting stamp tables none
        (((tables.putWallet settled).putOrder (order.moveTo .paid stamp.now)).putEntry
          (entry.capture settled.current stamp.now))
  | released {order : Order} {wallet freed : Wallet} {entry : Entry}
      (ordered : tables.orders.get? order.id = some order) (unpaid : order.status ∈ unpaid)
      (known : tables.wallets.get? order.customer = some wallet)
      (holds : tables.pendingHold? order.id = some entry)
      (release : wallet.release entry.amount stamp.now = .ok freed) :
      Posting stamp tables none
        (((tables.putWallet freed).putOrder (order.moveTo .cancelled stamp.now)).putEntry
          (entry.cancel stamp.now))
  | dropped {order : Order} (ordered : tables.orders.get? order.id = some order)
      (pending : order.status = .pending) :
      Posting stamp tables none (tables.putOrder (order.moveTo .cancelled stamp.now))
  | refunded {order : Order} {wallet credited : Wallet}
      (ordered : tables.orders.get? order.id = some order)
      (paid : order.status = .paid ∨ order.status = .completed)
      (known : tables.wallets.get? order.customer = some wallet)
      (credit : wallet.credit order.total stamp.now = .ok credited)
      (fresh : tables.entries.get? stamp.entry = none) :
      Posting stamp tables none
        (((tables.putWallet credited).putOrder (order.moveTo .cancelled stamp.now)).putEntry
          (.refund stamp.entry wallet.id order.id order.total credited.current stamp.now))
  | registered {order : Order} (new : tables.orders.get? order.id = none)
      (pending : order.status = .pending) :
      Posting stamp tables none (tables.putOrder order)
  | prepared {order : Order} (ordered : tables.orders.get? order.id = some order)
      (confirmed : order.status = .confirmed) :
      Posting stamp tables none (tables.putOrder (order.moveTo .preparing stamp.now))
  | completed {order : Order} (ordered : tables.orders.get? order.id = some order)
      (paid : order.status = .paid) :
      Posting stamp tables none (tables.putOrder (order.moveTo .completed stamp.now))

/-- Any number of changes of the first kind. -/
abbrev Upkeeps (stamp : Stamp) : Tables → Tables → Prop :=
  Relation.ReflTransGen (Upkeep stamp)

/-- What one call commits: at most one posting, and changes that move no money before and behind
it. -/
inductive Change (stamp : Stamp) (tables : Tables) : Option EntryId → Tables → Prop where
  | idle {after : Tables} (upkeeps : Upkeeps stamp tables after) : Change stamp tables none after
  | posted {first second after : Tables} {topUp : Option EntryId}
      (opening : Upkeeps stamp tables first) (posting : Posting stamp first topUp second)
      (closing : Upkeeps stamp second after) : Change stamp tables topUp after

section Change

variable {stamp : Stamp} {tables first after : Tables} {topUp : Option EntryId}

/-- To commit nothing is a change. -/
theorem Change.unchanged : Change stamp tables none tables :=
  .idle .refl

/-- A posting is a change. -/
theorem Posting.change (posting : Posting stamp tables topUp after) :
    Change stamp tables topUp after :=
  .posted .refl posting .refl

/-- Upkeep may come before a change. -/
theorem Change.before (upkeeps : Upkeeps stamp tables first)
    (change : Change stamp first topUp after) :
    Change stamp tables topUp after := by
  cases change with
  | idle closing => exact .idle (upkeeps.trans closing)
  | posted opening posting closing => exact .posted (upkeeps.trans opening) posting closing

/-- Upkeep may come behind a change. -/
theorem Change.behind (change : Change stamp tables topUp first)
    (upkeeps : Upkeeps stamp first after) :
    Change stamp tables topUp after := by
  cases change with
  | idle opening => exact .idle (opening.trans upkeeps)
  | posted opening posting closing => exact .posted opening posting (closing.trans upkeeps)

/-- What each piece of upkeep keeps, all of it keeps. -/
theorem Upkeeps.keeps {invariant : Tables → Prop}
    (each : ∀ {tables after}, Upkeep stamp tables after → invariant tables → invariant after)
    (upkeeps : Upkeeps stamp tables after) (holds : invariant tables) : invariant after := by
  induction upkeeps with
  | refl => exact holds
  | tail _ upkeep ih => exact each upkeep ih

/-- What every upkeep and every posting keeps is kept by the whole change. -/
theorem Change.keeps (invariant : Tables → Prop)
    (upkept : ∀ {tables after}, Upkeep stamp tables after → invariant tables → invariant after)
    (posted : ∀ {tables topUp after}, Posting stamp tables topUp after → invariant tables →
      invariant after)
    (change : Change stamp tables topUp after) (holds : invariant tables) : invariant after := by
  cases change with
  | idle upkeeps => exact upkeeps.keeps upkept holds
  | posted opening posting closing =>
    exact closing.keeps upkept (posted posting (opening.keeps upkept holds))

end Change

/-! ## Postings keep the tables sound -/

/-- A wallet that is put is its owner's then. -/
@[simp] theorem Tables.get?_putWallet_self (wallet : Wallet) (tables : Tables) :
    (tables.putWallet wallet).wallets.get? wallet.owner = some wallet := by
  simp [Tables.putWallet]

/-- What a wallet goes through leaves its identifier and its owner as they are. -/
theorem Tables.Sound.putSameWallet {tables : Tables} (sound : Sound tables) {user : UserId}
    {old new : Wallet} (known : tables.wallets.get? user = some old) (id : new.id = old.id)
    (owner : new.owner = old.owner) : Sound (tables.putWallet new) := by
  have home := sound.wallet_owner known
  apply sound.putWallet
  · intro other claimed
    rw [id, sound.owner_iff.mpr ⟨old, known, rfl⟩] at claimed
    cases claimed
    rw [owner, home]
  · intro held heldAt
    rw [owner, home, known] at heldAt
    cases heldAt
    exact id.symm

/-- Opening a wallet keeps tables sound. -/
theorem Tables.Sound.openWallet {tables : Tables} (sound : Sound tables) {stamp : Stamp}
    {user : UserId} (absent : tables.wallets.get? user = none)
    (fresh : tables.owners.get? stamp.wallet = none) :
    Sound (tables.putWallet (.empty stamp.wallet user stamp.now)) := by
  apply sound.putWallet
  · intro other claimed
    simp only [Wallet.empty, fresh, reduceCtorEq] at claimed
  · intro held heldAt
    simp only [Wallet.empty, absent, reduceCtorEq] at heldAt

/-- Upkeep keeps tables sound. -/
theorem Upkeep.sound {stamp : Stamp} {tables after : Tables} (upkeep : Upkeep stamp tables after)
    (sound : Sound tables) : Sound after := by
  cases upkeep with
  | opened absent fresh => exact sound.openWallet absent fresh
  | noted => exact sound.putNotice _

/-- A posting keeps tables sound. -/
theorem Posting.sound {stamp : Stamp} {tables after : Tables} {topUp : Option EntryId}
    (posting : Posting stamp tables topUp after) (sound : Sound tables) : Sound after := by
  cases posting with
  | deposited known credit fresh =>
    obtain ⟨sameId, sameOwner⟩ := Wallet.same_of_credit credit
    have moved := sound.putSameWallet known sameId sameOwner
    exact moved.putEntry_of_none fresh (get?_putWallet_self _ _) sameId
  | toppedUp known fresh => exact sound.putEntry_of_none fresh known rfl
  | @confirmed _ _ credited _ entry _ known owned named pending credit =>
    obtain ⟨sameId, sameOwner⟩ := Wallet.same_of_credit credit
    have moved := sound.putSameWallet known sameId sameOwner
    have present : (tables.putWallet credited).entries.get? entry.id = some entry :=
      (sound.entryForSession?_spec named).2.1
    exact moved.putEntry_of_some present rfl rfl rfl
  | held ordered pending known reserve fresh =>
    obtain ⟨sameId, sameOwner⟩ := Wallet.same_of_reserve reserve
    have moved := sound.putSameWallet known sameId sameOwner
    exact (moved.putOrder _).putEntry_of_none fresh (get?_putWallet_self _ _) sameId
  | @captured _ _ settled entry ordered unpaid known holds settle =>
    obtain ⟨sameId, sameOwner⟩ := Wallet.same_of_settle settle
    have moved := sound.putSameWallet known sameId sameOwner
    have present : (tables.putWallet settled).entries.get? entry.id = some entry :=
      (sound.pendingHold?_spec holds).2.1
    exact (moved.putOrder _).putEntry_of_some present rfl rfl rfl
  | @released _ _ freed entry ordered unpaid known holds release =>
    obtain ⟨sameId, sameOwner⟩ := Wallet.same_of_release release
    have moved := sound.putSameWallet known sameId sameOwner
    have present : (tables.putWallet freed).entries.get? entry.id = some entry :=
      (sound.pendingHold?_spec holds).2.1
    exact (moved.putOrder _).putEntry_of_some present rfl rfl rfl
  | refunded ordered paid known credit fresh =>
    obtain ⟨sameId, sameOwner⟩ := Wallet.same_of_credit credit
    have moved := sound.putSameWallet known sameId sameOwner
    exact (moved.putOrder _).putEntry_of_none fresh (get?_putWallet_self _ _) sameId
  | dropped | registered | prepared | completed => exact sound.putOrder _

/-- A change keeps tables sound. -/
theorem Change.sound {stamp : Stamp} {tables after : Tables} {topUp : Option EntryId}
    (change : Change stamp tables topUp after) (sound : Sound tables) : Sound after :=
  change.keeps Sound Upkeep.sound Posting.sound sound

end Ledger

end Prepaid
