import Prepaid.Proofs.Ledger.Agreement

/-!
# Life cycles

What the rows of the ledger go through once they are there. A wallet keeps its
identifier and its owner; an order keeps everything but how far it has come; an
entry stays as it is unless it is pending, and then a hold is captured or cancelled
and a deposit is confirmed. `Tables.Continues` says this of two states of the tables
and bounds the moves of every order in between: a posting moves an order once.
-/

namespace Prepaid

/-! ## Orders -/

/-- The states that an order goes on to in one move. The life of an order also allows the move from
pending to paid, but nothing is captured before it is held. -/
def OrderStatus.nexts : OrderStatus → List OrderStatus
  | .pending => [.confirmed, .cancelled]
  | .confirmed => [.preparing, .paid, .cancelled]
  | .preparing => [.paid, .cancelled]
  | .paid => [.completed, .cancelled]
  | .completed => [.cancelled]
  | .cancelled => []

/-- One state leads to another in no more than so many moves. -/
inductive OrderStatus.Leads : Nat → OrderStatus → OrderStatus → Prop where
  | stay {moves : Nat} {status : OrderStatus} : Leads moves status status
  | move {moves : Nat} {first second last : OrderStatus} (next : second ∈ first.nexts)
      (rest : Leads moves second last) : Leads (moves + 1) first last

/-- One move leads to the next states. -/
theorem OrderStatus.Leads.one {first last : OrderStatus} (next : last ∈ first.nexts) :
    Leads 1 first last :=
  .move next .stay

/-- What few moves lead to, more moves do. -/
theorem OrderStatus.Leads.mono {few many : Nat} {first last : OrderStatus}
    (leads : Leads few first last) (more : few ≤ many) : Leads many first last := by
  induction leads generalizing many with
  | stay => exact .stay
  | move next _ ih =>
    cases many with
    | zero => omega
    | succ many => exact .move next (ih (by omega))

/-- Moves add up. -/
theorem OrderStatus.Leads.trans {before behind : Nat} {first second last : OrderStatus}
    (leads : Leads before first second) (on : Leads behind second last) :
    Leads (before + behind) first last := by
  induction leads with
  | stay => exact on.mono (by omega)
  | @move moves _ _ _ next _ ih =>
    rw [Nat.add_right_comm]
    exact .move next (ih on)

/-- A later state of an order, no more than so many moves on. -/
structure Order.Continues (moves : Nat) (earlier later : Order) : Prop where
  id : later.id = earlier.id
  customer : later.customer = earlier.customer
  total : later.total = earlier.total
  windowStart : later.windowStart = earlier.windowStart
  createdAt : later.createdAt = earlier.createdAt
  status : earlier.status.Leads moves later.status

namespace Order.Continues

variable {moves before behind : Nat} {order first second last : Order}

/-- An order continues itself. -/
theorem refl : order.Continues moves order :=
  ⟨rfl, rfl, rfl, rfl, rfl, .stay⟩

/-- Later states have later states in turn, and the moves add up. -/
theorem trans (one : first.Continues before second) (other : second.Continues behind last) :
    first.Continues (before + behind) last where
  id := other.id.trans one.id
  customer := other.customer.trans one.customer
  total := other.total.trans one.total
  windowStart := other.windowStart.trans one.windowStart
  createdAt := other.createdAt.trans one.createdAt
  status := one.status.trans other.status

/-- An order that moves on is one move on. -/
theorem moveTo {status : OrderStatus} (next : status ∈ order.status.nexts) (now : Instant) :
    order.Continues 1 (order.moveTo status now) :=
  ⟨rfl, rfl, rfl, rfl, rfl, .one next⟩

end Order.Continues

/-! ## Entries -/

/-- What can become of an entry. Only a pending one has anything left to come. -/
def Entry.fates (entry : Entry) : List (EntryKind × EntryStatus) :=
  match entry.mark with
  | (.hold, .pending) => [(.payment, .completed), (.hold, .cancelled)]
  | (.deposit, .pending) => [(.deposit, .completed)]
  | _ => []

/-- A later state of an entry. -/
structure Entry.Continues (earlier later : Entry) : Prop where
  id : later.id = earlier.id
  wallet : later.wallet = earlier.wallet
  order : later.order = earlier.order
  amount : later.amount = earlier.amount
  session : later.reference.session = earlier.reference.session
  createdAt : later.createdAt = earlier.createdAt
  fate : later = earlier ∨ later.mark ∈ earlier.fates

namespace Entry

variable {entry first second last : Entry}

/-- Nothing is left to come of an entry that is not pending. -/
theorem fates_of_settled (settled : entry.status ≠ .pending) : entry.fates = [] := by
  unfold fates
  split
  · next marked => exact (settled (congrArg Prod.snd marked)).elim
  · next marked => exact (settled (congrArg Prod.snd marked)).elim
  · rfl

/-- Whatever becomes of a pending entry settles it. -/
theorem settled_of_fate (fate : second.mark ∈ first.fates) : second.status ≠ .pending := by
  intro pending
  have marked : second.mark = (second.kind, .pending) := by rw [mark, pending]
  rw [marked, fates] at fate
  split at fate <;> simp at fate

namespace Continues

/-- An entry continues itself. -/
theorem refl : entry.Continues entry :=
  ⟨rfl, rfl, rfl, rfl, rfl, rfl, .inl rfl⟩

/-- Later states have later states in turn. -/
theorem trans (one : first.Continues second) (other : second.Continues last) :
    first.Continues last where
  id := other.id.trans one.id
  wallet := other.wallet.trans one.wallet
  order := other.order.trans one.order
  amount := other.amount.trans one.amount
  session := other.session.trans one.session
  createdAt := other.createdAt.trans one.createdAt
  fate := by
    rcases one.fate with rfl | fate
    · exact other.fate
    · rcases other.fate with rfl | further
      · exact .inr fate
      · rw [fates_of_settled (settled_of_fate fate)] at further
        cases further

/-- An entry that is not pending stays as it is. -/
theorem eq_of_settled (continues : first.Continues last) (settled : first.status ≠ .pending) :
    last = first := by
  rcases continues.fate with same | fate
  · exact same
  · rw [fates_of_settled settled] at fate
    cases fate

/-- A captured hold is what can become of a hold. -/
theorem capture (hold : entry.kind = .hold) (pending : entry.status = .pending)
    (balanceAfter : Money) (now : Instant) : entry.Continues (entry.capture balanceAfter now) :=
  ⟨rfl, rfl, rfl, rfl, rfl, rfl, .inr (by simp [fates, mark, hold, pending, Entry.capture])⟩

/-- A cancelled hold is what can become of a hold. -/
theorem cancel (hold : entry.kind = .hold) (pending : entry.status = .pending) (now : Instant) :
    entry.Continues (entry.cancel now) :=
  ⟨rfl, rfl, rfl, rfl, rfl, rfl, .inr (by simp [fates, mark, hold, pending, Entry.cancel])⟩

/-- A confirmed deposit is what can become of a pending one. -/
theorem confirm (deposit : entry.kind = .deposit) (pending : entry.status = .pending)
    (payment : Option String) (balanceAfter : Money) (now : Instant) :
    entry.Continues (entry.confirm payment balanceAfter now) :=
  ⟨rfl, rfl, rfl, rfl, rfl, rfl, .inr (by simp [fates, mark, deposit, pending, Entry.confirm])⟩

end Continues

end Entry

/-! ## Tables -/

namespace Ledger

namespace Tables

/-- A later state of the tables, in which no order is more than so many moves on. -/
structure Continues (moves : Nat) (earlier later : Tables) : Prop where
  wallet : ∀ {user wallet}, earlier.wallets.get? user = some wallet →
    ∃ held, later.wallets.get? user = some held ∧ held.id = wallet.id ∧ held.owner = wallet.owner
  order : ∀ {id order}, earlier.orders.get? id = some order →
    ∃ moved, later.orders.get? id = some moved ∧ order.Continues moves moved
  entry : ∀ {id entry}, earlier.entries.get? id = some entry →
    ∃ row, later.entries.get? id = some row ∧ entry.Continues row

namespace Continues

variable {moves before behind : Nat} {tables first second last : Tables}

/-- Tables continue themselves. -/
theorem refl : tables.Continues moves tables where
  wallet found := ⟨_, found, rfl, rfl⟩
  order found := ⟨_, found, .refl⟩
  entry found := ⟨_, found, .refl⟩

/-- Later tables have later tables in turn, and the moves add up. -/
theorem trans (one : first.Continues before second) (other : second.Continues behind last) :
    first.Continues (before + behind) last where
  wallet found := by
    obtain ⟨held, heldAt, id, owner⟩ := one.wallet found
    obtain ⟨kept, keptAt, sameId, sameOwner⟩ := other.wallet heldAt
    exact ⟨kept, keptAt, sameId.trans id, sameOwner.trans owner⟩
  order found := by
    obtain ⟨moved, movedAt, continues⟩ := one.order found
    obtain ⟨further, furtherAt, on⟩ := other.order movedAt
    exact ⟨further, furtherAt, continues.trans on⟩
  entry found := by
    obtain ⟨row, rowAt, continues⟩ := one.entry found
    obtain ⟨further, furtherAt, on⟩ := other.entry rowAt
    exact ⟨further, furtherAt, continues.trans on⟩

/-- A bound on the moves can be raised. -/
theorem mono {few many : Nat} (continues : first.Continues few last) (more : few ≤ many) :
    first.Continues many last where
  wallet := continues.wallet
  order found := by
    obtain ⟨moved, movedAt, goesOn⟩ := continues.order found
    exact ⟨moved, movedAt, { goesOn with status := goesOn.status.mono more }⟩
  entry := continues.entry

/-- A wallet takes the place of one with the same identifier, or of none. -/
theorem putWallet {wallet : Wallet}
    (same : ∀ old, tables.wallets.get? wallet.owner = some old → wallet.id = old.id ∧
      wallet.owner = old.owner) :
    tables.Continues moves (tables.putWallet wallet) where
  wallet := by
    intro user old found
    simp only [Tables.putWallet, Table.get?_put]
    split
    · next owner =>
      rw [← owner] at found
      exact ⟨wallet, rfl, same old found⟩
    · exact ⟨old, found, rfl, rfl⟩
  order found := ⟨_, found, .refl⟩
  entry found := ⟨_, found, .refl⟩

/-- An order takes the place of an earlier state of it, or of none. -/
theorem putOrder {order : Order}
    (onto : ∀ old, tables.orders.get? order.id = some old → old.Continues moves order) :
    tables.Continues moves (tables.putOrder order) where
  wallet found := ⟨_, found, rfl, rfl⟩
  order := by
    intro id old found
    simp only [Tables.putOrder, Table.get?_put]
    split
    · next key =>
      rw [← key] at found
      exact ⟨order, rfl, onto old found⟩
    · exact ⟨old, found, .refl⟩
  entry found := ⟨_, found, .refl⟩

/-- An entry takes the place of an earlier state of it, or of none. -/
theorem putEntry {entry : Entry}
    (onto : ∀ old, tables.entries.get? entry.id = some old → old.Continues entry) :
    tables.Continues moves (tables.putEntry entry) where
  wallet := by
    intro user wallet found
    rw [putEntry_wallets]
    exact ⟨wallet, found, rfl, rfl⟩
  order := by
    intro id order found
    rw [putEntry_orders]
    exact ⟨order, found, .refl⟩
  entry := by
    intro id old found
    rw [putEntry_entries, Table.get?_put]
    split
    · next key =>
      rw [← key] at found
      exact ⟨entry, rfl, onto old found⟩
    · exact ⟨old, found, .refl⟩

/-- A notice moves no order. -/
theorem putNotice (record : NoticeRecord) : tables.Continues moves (tables.putNotice record) where
  wallet found := ⟨_, found, rfl, rfl⟩
  order found := ⟨_, found, .refl⟩
  entry found := ⟨_, found, .refl⟩

/-- The wallet of a user takes the place of itself. -/
theorem putSameWallet (sound : tables.Sound) {user : UserId} {old new : Wallet}
    (known : tables.wallets.get? user = some old) (same : new.id = old.id ∧ new.owner = old.owner) :
    tables.Continues moves (tables.putWallet new) := by
  apply putWallet
  intro held heldAt
  rw [same.2, sound.wallet_owner known, known] at heldAt
  cases heldAt
  exact same

/-- A known order makes a move. -/
theorem moveOrder {order : Order} {status : OrderStatus}
    (known : tables.orders.get? order.id = some order) (next : status ∈ order.status.nexts)
    (now : Instant) :
    tables.Continues 1 (tables.putOrder (order.moveTo status now)) := by
  apply putOrder
  intro old oldAt
  cases known.symm.trans oldAt
  exact .moveTo next now

/-- Where a known entry is put, it has to be a later state of it. -/
theorem onto_of_known {entry later : Entry} (known : tables.entries.get? entry.id = some entry)
    (continues : entry.Continues later) :
    ∀ old, tables.entries.get? later.id = some old → old.Continues later := by
  intro old oldAt
  rw [continues.id, known] at oldAt
  cases oldAt
  exact continues

/-- A wallet and an entry go on together. -/
theorem credit (sound : tables.Sound) {user : UserId} {old new : Wallet} {entry : Entry}
    (known : tables.wallets.get? user = some old) (same : new.id = old.id ∧ new.owner = old.owner)
    (onto : ∀ row, tables.entries.get? entry.id = some row → row.Continues entry) :
    tables.Continues 1 ((tables.putWallet new).putEntry entry) := by
  have owned : tables.Continues 0 (tables.putWallet new) := putSameWallet sound known same
  have entered : (tables.putWallet new).Continues 1 ((tables.putWallet new).putEntry entry) :=
    putEntry onto
  exact owned.trans entered

/-- A wallet, an order and an entry go on together. -/
theorem settle (sound : tables.Sound) {user : UserId} {old new : Wallet} {order : Order}
    {status : OrderStatus} {now : Instant} {entry : Entry}
    (known : tables.wallets.get? user = some old) (same : new.id = old.id ∧ new.owner = old.owner)
    (ordered : tables.orders.get? order.id = some order) (next : status ∈ order.status.nexts)
    (onto : ∀ row, tables.entries.get? entry.id = some row → row.Continues entry) :
    tables.Continues 1
      (((tables.putWallet new).putOrder (order.moveTo status now)).putEntry entry) := by
  have still : (tables.putWallet new).orders.get? order.id = some order := ordered
  have owned : tables.Continues 0 (tables.putWallet new) := putSameWallet sound known same
  have moved := owned.trans (moveOrder still next now)
  let written := (tables.putWallet new).putOrder (order.moveTo status now)
  have entered : written.Continues 0 (written.putEntry entry) := putEntry onto
  exact moved.trans entered

end Continues

end Tables

open Tables

/-- Upkeep moves no order. -/
theorem Upkeep.continues {stamp : Stamp} {tables after : Tables}
    (upkeep : Upkeep stamp tables after) :
    tables.Continues 0 after := by
  cases upkeep with
  | opened absent fresh => exact .putWallet (Table.forall_of_none absent)
  | noted => exact .putNotice _

/-- An order is pending only before anything is held for it. -/
theorem Tables.Agreed.not_pending_of_hold {tables : Tables} (agreed : tables.Agreed)
    (sound : tables.Sound) {order : Order} {wallet : Wallet} {entry : Entry}
    (ordered : tables.orders.get? order.id = some order)
    (known : tables.wallets.get? order.customer = some wallet)
    (holds : tables.pendingHold? order.id = some entry) : order.status ≠ .pending := by
  intro pending
  have none := (agreed.backed ordered).empty pending
  rw [(agreed.hold_spec sound ordered known holds).1] at none
  cases none

/-- An order is moved on once and an entry goes on as one of its kind can, as no hold is found for
an order that is still pending. -/
theorem Posting.continues {stamp : Stamp} {tables after : Tables} {topUp : Option EntryId}
    (posting : Posting stamp tables topUp after) (sound : tables.Sound) (agreed : tables.Agreed) :
    tables.Continues 1 after := by
  cases posting with
  | deposited known credit fresh =>
    exact .credit sound known (Wallet.same_of_credit credit) (Table.forall_of_none fresh)
  | toppedUp known fresh => exact .putEntry (Table.forall_of_none fresh)
  | confirmed known owned named pending credit =>
    obtain ⟨_, present, carries⟩ := sound.entryForSession?_spec named
    have confirm := Entry.Continues.confirm (agreed.named present carries) pending
    exact .credit sound known (Wallet.same_of_credit credit)
      (Continues.onto_of_known present (confirm _ _ _))
  | held ordered pending known reserve fresh =>
    refine .settle sound known (Wallet.same_of_reserve reserve) ordered ?_
      (Table.forall_of_none fresh)
    simp [pending, OrderStatus.nexts]
  | @captured order _ _ _ ordered unpaid known holds settle =>
    obtain ⟨_, present, _, hold, pending⟩ := sound.pendingHold?_spec holds
    refine .settle sound known (Wallet.same_of_settle settle) ordered ?_
      (Continues.onto_of_known present (.capture hold pending _ _))
    have held := agreed.not_pending_of_hold sound ordered known holds
    cases status : order.status <;> simp_all [Ledger.unpaid, OrderStatus.nexts]
  | @released order _ _ _ ordered unpaid known holds release =>
    obtain ⟨_, present, _, hold, pending⟩ := sound.pendingHold?_spec holds
    refine .settle sound known (Wallet.same_of_release release) ordered ?_
      (Continues.onto_of_known present (.cancel hold pending _))
    cases status : order.status <;> simp_all [Ledger.unpaid, OrderStatus.nexts]
  | refunded ordered paid known credit fresh =>
    refine .settle sound known (Wallet.same_of_credit credit) ordered ?_
      (Table.forall_of_none fresh)
    rcases paid with paid | paid <;> simp [paid, OrderStatus.nexts]
  | dropped ordered pending => exact .moveOrder ordered (by simp [pending, OrderStatus.nexts]) _
  | registered new pending => exact .putOrder (Table.forall_of_none new)
  | prepared ordered confirmed =>
    exact .moveOrder ordered (by simp [confirmed, OrderStatus.nexts]) _
  | completed ordered paid => exact .moveOrder ordered (by simp [paid, OrderStatus.nexts]) _

/-- Any amount of upkeep moves no order. -/
theorem Upkeeps.continues {stamp : Stamp} {tables after : Tables}
    (upkeeps : Upkeeps stamp tables after) :
    tables.Continues 0 after :=
  upkeeps.keeps (fun upkeep continues => continues.trans upkeep.continues) .refl

/-- A change moves orders by one move at most. -/
theorem Change.continues {stamp : Stamp} {tables after : Tables} {topUp : Option EntryId}
    (change : Change stamp tables topUp after) (sound : tables.Sound) (agreed : tables.Agreed) :
    tables.Continues 1 after := by
  cases change with
  | idle upkeeps => exact upkeeps.continues.mono (Nat.zero_le 1)
  | posted opening posting closing =>
    have posted :=
      posting.continues (opening.keeps Upkeep.sound sound) (opening.keeps Upkeep.agreed agreed)
    exact (opening.continues.trans posted).trans closing.continues

end Ledger

end Prepaid
