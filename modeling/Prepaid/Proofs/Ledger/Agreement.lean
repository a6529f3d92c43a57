import Prepaid.Proofs.Ledger.Posting

/-!
# Orders and their entries

The entries of an order follow from how far the order has come: `OrderStatus.trails`
lists what they may be. `Tables.Agreed` says so of all orders, and says that nothing
but a deposit is without an order. Every upkeep and every posting keeps it.
-/

namespace Prepaid

/-- What an entry shows of the order it belongs to. -/
def Entry.mark (entry : Entry) : EntryKind × EntryStatus :=
  (entry.kind, entry.status)

/-- What the entries of an order may be, oldest first, in each state of the order. -/
def OrderStatus.trails : OrderStatus → List (List (EntryKind × EntryStatus))
  | .pending => [[]]
  | .confirmed | .preparing => [[(.hold, .pending)]]
  | .paid | .completed => [[(.payment, .completed)]]
  | .cancelled => [[], [(.hold, .cancelled)], [(.payment, .completed), (.refund, .completed)]]

/-- Only a hold can be pending, and it is alone then. -/
theorem OrderStatus.trail_of_pending (status : OrderStatus) (kind : EntryKind) :
    ∀ trail ∈ status.trails, (kind, .pending) ∈ trail → trail = [(.hold, .pending)] := by
  cases status <;> cases kind <;> decide

namespace Ledger

namespace Tables

/-- The entries of an order are as its state asks for, over its total, and in its customer's
wallet. -/
structure Backs (order : Order) (tables : Tables) : Prop where
  trail : (tables.rowsOfOrder order.id).map Entry.mark ∈ order.status.trails
  total : ∀ entry ∈ tables.rowsOfOrder order.id, entry.amount = order.total
  wallet : ∀ entry ∈ tables.rowsOfOrder order.id,
    ∃ wallet, tables.wallets.get? order.customer = some wallet ∧ wallet.id = entry.wallet

/-- All orders are backed by their entries, and all entries but deposits belong to orders. -/
structure Agreed (tables : Tables) : Prop where
  backed : ∀ {id order}, tables.orders.get? id = some order → tables.Backs order
  deposit_iff : ∀ {id entry}, tables.entries.get? id = some entry →
    (entry.kind = .deposit ↔ entry.order = none)
  registered : ∀ {id entry order}, tables.entries.get? id = some entry → entry.order = some order →
    ∃ known, tables.orders.get? order = some known
  named : ∀ {id entry session}, tables.entries.get? id = some entry →
    entry.reference.session = some session → entry.kind = .deposit

/-! ## The entries of an order after a write -/

section Rows

variable {tables : Tables} {entry old : Entry} {order : OrderId}

/-- The rows of an order are the entries that name it. -/
theorem mem_rowsOfOrder : entry ∈ tables.rowsOfOrder order ↔
    entry ∈ tables.entries.values ∧ entry.order = some order := by
  simp [rowsOfOrder]

/-- After a write the entries of an order are old ones and the one that is put. -/
theorem mem_rowsOfOrder_putEntry {row : Entry}
    (member : row ∈ (tables.putEntry entry).rowsOfOrder order) :
    row = entry ∨ row ∈ tables.rowsOfOrder order := by
  obtain ⟨present, ordered⟩ := mem_rowsOfOrder.mp member
  obtain ⟨key, rowAt⟩ := Table.exists_key present
  rw [putEntry_entries, Table.get?_put] at rowAt
  split at rowAt
  · cases rowAt
    exact .inl rfl
  · exact .inr (mem_rowsOfOrder.mpr ⟨Table.mem_values rowAt, ordered⟩)

/-- A new entry is the last one of its order. -/
theorem rowsOfOrder_putEntry_of_none (new : tables.entries.get? entry.id = none)
    (ordered : entry.order = some order) :
    (tables.putEntry entry).rowsOfOrder order = tables.rowsOfOrder order ++ [entry] := by
  rw [rowsOfOrder, filter_putEntry_of_none _ new, if_pos (decide_eq_true ordered)]
  rfl

/-- An entry that changes while it is the only one of its order stays the only one. -/
theorem rowsOfOrder_putEntry_of_single (known : tables.entries.get? entry.id = some old)
    (ordered : entry.order = some order) (single : tables.rowsOfOrder order = [old]) :
    (tables.putEntry entry).rowsOfOrder order = [entry] := by
  have oldOrdered : old.order = some order := by
    have member : old ∈ tables.rowsOfOrder order := by simp [single]
    exact (mem_rowsOfOrder.mp member).2
  obtain ⟨front, back, before, after⟩ := filter_putEntry_of_some
    (fun entry => entry.order = some order) known (by rw [ordered, oldOrdered])
  rw [← rowsOfOrder, single, if_pos (decide_eq_true oldOrdered)] at before
  have lengths := congrArg List.length before
  simp only [List.length_append, List.length_singleton] at lengths
  have frontNil : front = [] := List.length_eq_zero_iff.mp (by omega)
  have backNil : back = [] := List.length_eq_zero_iff.mp (by omega)
  rw [rowsOfOrder, after, frontNil, backNil, if_pos (decide_eq_true oldOrdered)]
  rfl

/-- An entry of another order, or of none, does not count. -/
theorem rowsOfOrder_putEntry_other (other : entry.order ≠ some order)
    (same : ∀ old, tables.entries.get? entry.id = some old → old.order = entry.order) :
    (tables.putEntry entry).rowsOfOrder order = tables.rowsOfOrder order := by
  cases known : tables.entries.get? entry.id with
  | none =>
    rw [rowsOfOrder, filter_putEntry_of_none _ known, if_neg (by simp [other]), List.append_nil]
    rfl
  | some old =>
    obtain ⟨front, back, before, after⟩ := filter_putEntry_of_some
      (fun entry => entry.order = some order) known (by rw [same old known])
    have out : ¬ decide (old.order = some order) = true := by
      rw [same old known]
      simp [other]
    rw [rowsOfOrder, after, rowsOfOrder, before, if_neg out, if_neg out]

end Rows

/-! ## Writes that keep the agreement -/

/-- There are neither orders nor entries in the beginning. -/
theorem Agreed.empty : Agreed {} where
  backed := by simp
  deposit_iff := by simp
  registered := by simp
  named := by simp

namespace Agreed

variable {tables : Tables}

/-- Orders and entries do not depend on notices. -/
theorem putNotice (agreed : Agreed tables) (record : NoticeRecord) :
    Agreed (tables.putNotice record) where
  backed known := { agreed.backed known with }
  deposit_iff := agreed.deposit_iff
  registered := agreed.registered
  named := agreed.named

/-- A wallet that stays its owner's still backs the owner's orders. -/
theorem putWallet (agreed : Agreed tables) {wallet : Wallet}
    (same : ∀ old, tables.wallets.get? wallet.owner = some old → old.id = wallet.id) :
    Agreed (tables.putWallet wallet) where
  backed known :=
    { agreed.backed known with
      wallet := by
        intro entry member
        obtain ⟨old, oldAt, owned⟩ := (agreed.backed known).wallet entry member
        simp only [Tables.putWallet, Table.get?_put]
        split
        · next owner =>
          rw [← owner] at oldAt
          exact ⟨wallet, rfl, (same old oldAt).symm.trans owned⟩
        · exact ⟨old, oldAt, owned⟩ }
  deposit_iff := agreed.deposit_iff
  registered := agreed.registered
  named := agreed.named

/-- An order may move on if its entries are right for the new state as well. -/
theorem moveOrder (agreed : Agreed tables) {order : Order}
    (known : tables.orders.get? order.id = some order) {status : OrderStatus} {now : Instant}
    (right : ∀ trail ∈ order.status.trails, trail ∈ status.trails) :
    Agreed (tables.putOrder (order.moveTo status now)) where
  backed := by
    intro id found foundAt
    simp only [Tables.putOrder, Order.moveTo, Table.get?_put] at foundAt
    split at foundAt
    · cases foundAt
      have backs := agreed.backed known
      exact { trail := right _ backs.trail, total := backs.total, wallet := backs.wallet }
    · exact { agreed.backed foundAt with }
  deposit_iff := agreed.deposit_iff
  registered := by
    intro id entry other foundAt ordered
    obtain ⟨found, present⟩ := agreed.registered foundAt ordered
    simp only [Tables.putOrder, Table.get?_put]
    split
    · exact ⟨_, rfl⟩
    · exact ⟨found, present⟩
  named := agreed.named

/-- A new order has no entries yet. -/
theorem putNewOrder (agreed : Agreed tables) (sound : Sound tables) {order : Order}
    (new : tables.orders.get? order.id = none) (pending : order.status = .pending) :
    Agreed (tables.putOrder order) where
  backed := by
    intro id found foundAt
    simp only [Tables.putOrder, Table.get?_put] at foundAt
    split at foundAt
    · cases foundAt
      have none : tables.rowsOfOrder order.id = [] := by
        apply List.eq_nil_iff_forall_not_mem.mpr
        intro entry member
        obtain ⟨present, ordered⟩ := mem_rowsOfOrder.mp member
        obtain ⟨known, knownAt⟩ := agreed.registered (sound.entry_of_mem present) ordered
        rw [new] at knownAt
        cases knownAt
      have rows : (tables.putOrder order).rowsOfOrder order.id = [] := none
      exact { trail := by simp [rows, pending, OrderStatus.trails], total := by simp [rows]
              wallet := by simp [rows] }
    · exact { agreed.backed foundAt with }
  deposit_iff := agreed.deposit_iff
  registered := by
    intro id entry other foundAt ordered
    obtain ⟨found, present⟩ := agreed.registered foundAt ordered
    simp only [Tables.putOrder, Table.get?_put]
    split
    · exact ⟨_, rfl⟩
    · exact ⟨found, present⟩
  named := agreed.named

/-- A deposit concerns no order, whether it is new or takes the place of another one. -/
theorem putDeposit (agreed : Agreed tables) {entry : Entry} (deposit : entry.kind = .deposit)
    (free : entry.order = none)
    (same : ∀ old, tables.entries.get? entry.id = some old → old.order = none) :
    Agreed (tables.putEntry entry) where
  backed := by
    intro id order known
    rw [putEntry_orders] at known
    have backs := agreed.backed known
    have rows : (tables.putEntry entry).rowsOfOrder order.id = tables.rowsOfOrder order.id := by
      apply rowsOfOrder_putEntry_other (by simp [free])
      intro old oldAt
      rw [free, same old oldAt]
    exact { trail := by rw [rows]; exact backs.trail
            total := by rw [rows]; exact backs.total
            wallet := by rw [rows, putEntry_wallets]; exact backs.wallet }
  deposit_iff := by
    intro id found foundAt
    rcases entry_of_putEntry foundAt with ⟨_, rfl⟩ | before
    · simp [deposit, free]
    · exact agreed.deposit_iff before
  registered := by
    intro id found order foundAt ordered
    rw [putEntry_orders]
    rcases entry_of_putEntry foundAt with ⟨_, rfl⟩ | before
    · rw [free] at ordered
      cases ordered
    · exact agreed.registered before ordered
  named := by
    intro id found session foundAt carries
    rcases entry_of_putEntry foundAt with ⟨_, rfl⟩ | before
    · exact deposit
    · exact agreed.named before carries

/-- An order moves on together with an entry of its own. -/
theorem putOrdered (agreed : Agreed tables) (sound : Sound tables) {order : Order} {entry : Entry}
    {status : OrderStatus} {now : Instant} (known : tables.orders.get? order.id = some order)
    (ordered : entry.order = some order.id) (money : entry.kind ≠ .deposit)
    (nameless : entry.reference.session = none)
    (same : ∀ old, tables.entries.get? entry.id = some old → old.order = some order.id)
    (amount : entry.amount = order.total)
    (owned : ∃ wallet, tables.wallets.get? order.customer = some wallet ∧ wallet.id = entry.wallet)
    (trail : ((tables.putEntry entry).rowsOfOrder order.id).map Entry.mark ∈ status.trails) :
    Agreed ((tables.putOrder (order.moveTo status now)).putEntry entry) where
  backed := by
    intro id found foundAt
    simp only [putEntry_orders, Tables.putOrder, Order.moveTo, Table.get?_put] at foundAt
    have entries : ((tables.putOrder (order.moveTo status now)).putEntry entry).entries =
        (tables.putEntry entry).entries := by
      rw [putEntry_entries, putEntry_entries]
      rfl
    have rows (id : OrderId) :
        ((tables.putOrder (order.moveTo status now)).putEntry entry).rowsOfOrder id =
        (tables.putEntry entry).rowsOfOrder id := by
      rw [rowsOfOrder, entries, rowsOfOrder]
    split at foundAt
    · cases foundAt
      have backs := agreed.backed known
      refine { trail := by rw [rows]; exact trail, total := ?_, wallet := ?_ }
      · intro row member
        rw [rows] at member
        rcases mem_rowsOfOrder_putEntry member with rfl | old
        · exact amount
        · exact backs.total row old
      · intro row member
        rw [rows] at member
        rw [putEntry_wallets]
        rcases mem_rowsOfOrder_putEntry member with rfl | old
        · exact owned
        · exact backs.wallet row old
    · next apart =>
      have backs := agreed.backed foundAt
      have otherId : found.id ≠ order.id := by
        rw [sound.order_id foundAt]
        exact fun equal => apart equal.symm
      have untouched : (tables.putEntry entry).rowsOfOrder found.id =
          tables.rowsOfOrder found.id := by
        apply rowsOfOrder_putEntry_other
        · rw [ordered]
          intro equal
          exact otherId (Option.some.inj equal).symm
        · intro old oldAt
          rw [ordered, same old oldAt]
      exact { trail := by rw [rows, untouched]; exact backs.trail
              total := by rw [rows, untouched]; exact backs.total
              wallet := by rw [rows, untouched, putEntry_wallets]; exact backs.wallet }
  deposit_iff := by
    intro id found foundAt
    rcases entry_of_putEntry foundAt with ⟨_, rfl⟩ | before
    · simp [money, ordered]
    · exact agreed.deposit_iff before
  registered := by
    intro id found other foundAt foundOrdered
    rw [putEntry_orders]
    simp only [Tables.putOrder, Table.get?_put]
    split
    · exact ⟨_, rfl⟩
    · next apart =>
      rcases entry_of_putEntry foundAt with ⟨_, rfl⟩ | before
      · rw [ordered] at foundOrdered
        cases foundOrdered
        exact (apart rfl).elim
      · exact agreed.registered before foundOrdered
  named := by
    intro id found session foundAt carries
    rcases entry_of_putEntry foundAt with ⟨_, rfl⟩ | before
    · rw [nameless] at carries
      cases carries
    · exact agreed.named before carries

end Agreed

/-! ## The entries in each state -/

variable {tables : Tables} {order : Order}

/-- A pending order has no entries. -/
theorem Backs.empty (backs : Backs order tables) (pending : order.status = .pending) :
    tables.rowsOfOrder order.id = [] := by
  have trail := backs.trail
  simpa [pending, OrderStatus.trails] using trail

/-- A pending entry is the only one of its order. -/
theorem Backs.single (backs : Backs order tables) {entry : Entry}
    (member : entry ∈ tables.rowsOfOrder order.id) (pending : entry.status = .pending) :
    tables.rowsOfOrder order.id = [entry] := by
  have marked : (entry.kind, .pending) ∈ (tables.rowsOfOrder order.id).map Entry.mark := by
    rw [← pending]
    exact List.mem_map_of_mem member
  have alone := OrderStatus.trail_of_pending order.status entry.kind _ backs.trail marked
  obtain ⟨only, single⟩ := List.length_eq_one_iff.mp (by simpa using congrArg List.length alone)
  rw [single] at member ⊢
  rw [List.mem_singleton.mp member]

end Tables

/-! ## Every change keeps the agreement -/

/-- Upkeep touches neither orders nor entries. -/
theorem Upkeep.agreed {stamp : Stamp} {tables after : Tables} (upkeep : Upkeep stamp tables after)
    (agreed : tables.Agreed) : after.Agreed := by
  cases upkeep with
  | opened absent fresh =>
    apply agreed.putWallet
    intro old oldAt
    simp only [Wallet.empty, absent, reduceCtorEq] at oldAt
  | noted => exact agreed.putNotice _

/-- A wallet that is put in place of itself changes nothing for any order. -/
theorem Tables.Agreed.putSameWallet {tables : Tables} (agreed : tables.Agreed)
    (sound : tables.Sound) {user : UserId} {old new : Wallet}
    (known : tables.wallets.get? user = some old) (id : new.id = old.id)
    (owner : new.owner = old.owner) : (tables.putWallet new).Agreed := by
  apply agreed.putWallet
  intro held heldAt
  rw [owner, sound.wallet_owner known, known] at heldAt
  cases heldAt
  exact id.symm

/-- The wallet of a user after it has been put in place of itself. -/
theorem Tables.Sound.get?_putSameWallet {tables : Tables} (sound : tables.Sound) {user : UserId}
    {old new : Wallet} (known : tables.wallets.get? user = some old)
    (owner : new.owner = old.owner) :
    (tables.putWallet new).wallets.get? user = some new := by
  rw [← sound.wallet_owner known, ← owner]
  exact Tables.get?_putWallet_self new tables

/-- The hold of an order is the only entry of the order, over its total, in its customer's
wallet. -/
theorem Tables.Agreed.hold_spec {tables : Tables} (agreed : tables.Agreed) (sound : tables.Sound)
    {order : Order} {wallet : Wallet} {entry : Entry}
    (ordered : tables.orders.get? order.id = some order)
    (known : tables.wallets.get? order.customer = some wallet)
    (holds : tables.pendingHold? order.id = some entry) :
    tables.rowsOfOrder order.id = [entry] ∧ entry.amount = order.total ∧ wallet.id = entry.wallet ∧
      entry.reference.session = none := by
  obtain ⟨member, present, _, hold, pending⟩ := sound.pendingHold?_spec holds
  have backs := agreed.backed ordered
  refine ⟨backs.single member pending, backs.total entry member, ?_, ?_⟩
  · obtain ⟨owner, ownerAt, owned⟩ := backs.wallet entry member
    cases known.symm.trans ownerAt
    exact owned
  · cases carries : entry.reference.session with
    | none => rfl
    | some session =>
      have deposit := agreed.named present carries
      rw [hold] at deposit
      cases deposit

/-- An order moves on together with its hold, which stays about the same money of the same
wallet. -/
theorem Tables.Agreed.moveHold {tables : Tables} (agreed : tables.Agreed) (sound : tables.Sound)
    {order : Order} {wallet moved : Wallet} {entry changed : Entry} {status : OrderStatus}
    {now : Instant} (ordered : tables.orders.get? order.id = some order)
    (known : tables.wallets.get? order.customer = some wallet)
    (holds : tables.pendingHold? order.id = some entry) (sameId : moved.id = wallet.id)
    (sameOwner : moved.owner = wallet.owner)
    (same : (changed.id, changed.order, changed.amount, changed.wallet, changed.reference.session) =
      (entry.id, entry.order, entry.amount, entry.wallet, entry.reference.session))
    (money : changed.kind ≠ .deposit) (trail : [changed.mark] ∈ status.trails) :
    (((tables.putWallet moved).putOrder (order.moveTo status now)).putEntry changed).Agreed := by
  simp only [Prod.mk.injEq] at same
  obtain ⟨id, about, worth, inside, session⟩ := same
  obtain ⟨_, present, entryOrdered, _⟩ := sound.pendingHold?_spec holds
  obtain ⟨single, amount, owned, nameless⟩ := agreed.hold_spec sound ordered known holds
  have own : changed.order = some order.id := about.trans entryOrdered
  rw [← id] at present
  refine (agreed.putSameWallet sound known sameId sameOwner).putOrdered
    (sound.putSameWallet known sameId sameOwner) ordered own money (session.trans nameless) ?_
    (worth.trans amount)
    ⟨moved, sound.get?_putSameWallet known sameOwner, (sameId.trans owned).trans inside.symm⟩ ?_
  · intro old oldAt
    cases present.symm.trans oldAt
    exact entryOrdered
  · have alone : ((tables.putWallet moved).putEntry changed).rowsOfOrder order.id = [changed] :=
      Tables.rowsOfOrder_putEntry_of_single present own single
    rw [alone]
    exact trail

/-- A posting moves an order and writes the entry that its new state asks for. -/
theorem Posting.agreed {stamp : Stamp} {tables after : Tables} {topUp : Option EntryId}
    (posting : Posting stamp tables topUp after) (sound : tables.Sound) (agreed : tables.Agreed) :
    after.Agreed := by
  cases posting with
  | deposited known credit fresh =>
    obtain ⟨sameId, sameOwner⟩ := Wallet.same_of_credit credit
    exact (agreed.putSameWallet sound known sameId sameOwner).putDeposit rfl rfl
      (Table.forall_of_none fresh)
  | toppedUp known fresh => exact agreed.putDeposit rfl rfl (Table.forall_of_none fresh)
  | @confirmed _ _ credited _ entry _ known owned named pending credit =>
    obtain ⟨sameId, sameOwner⟩ := Wallet.same_of_credit credit
    obtain ⟨_, present, carries⟩ := sound.entryForSession?_spec named
    have deposit := agreed.named present carries
    have free := (agreed.deposit_iff present).mp deposit
    refine (agreed.putSameWallet sound known sameId sameOwner).putDeposit deposit free ?_
    intro old oldAt
    cases present.symm.trans oldAt
    exact free
  | @held order wallet reserved ordered pending known reserve fresh =>
    obtain ⟨sameId, sameOwner⟩ := Wallet.same_of_reserve reserve
    have moved := agreed.putSameWallet sound known sameId sameOwner
    have none := (moved.backed ordered).empty pending
    refine moved.putOrdered (sound.putSameWallet known sameId sameOwner) ordered rfl
      (by simp [Entry.hold]) rfl (Table.forall_of_none fresh) rfl
        ⟨reserved, sound.get?_putSameWallet known sameOwner, sameId⟩ ?_
    rw [Tables.rowsOfOrder_putEntry_of_none fresh rfl, none]
    simp [OrderStatus.trails, Entry.mark, Entry.hold]
  | captured ordered unpaid known holds settle =>
    obtain ⟨sameId, sameOwner⟩ := Wallet.same_of_settle settle
    refine agreed.moveHold sound ordered known holds sameId sameOwner rfl
      (by simp [Entry.capture]) ?_
    simp [OrderStatus.trails, Entry.mark, Entry.capture]
  | released ordered unpaid known holds release =>
    obtain ⟨sameId, sameOwner⟩ := Wallet.same_of_release release
    obtain ⟨_, _, _, hold, _⟩ := sound.pendingHold?_spec holds
    refine agreed.moveHold sound ordered known holds sameId sameOwner rfl
      (by simp [Entry.cancel, hold]) ?_
    simp [OrderStatus.trails, Entry.mark, Entry.cancel, hold]
  | @refunded order wallet credited ordered paid known credit fresh =>
    obtain ⟨sameId, sameOwner⟩ := Wallet.same_of_credit credit
    have moved := agreed.putSameWallet sound known sameId sameOwner
    have trail := (moved.backed ordered).trail
    refine moved.putOrdered (sound.putSameWallet known sameId sameOwner) ordered rfl
      (by simp [Entry.refund]) rfl (Table.forall_of_none fresh) rfl
      ⟨credited, sound.get?_putSameWallet known sameOwner, sameId⟩ ?_
    rw [Tables.rowsOfOrder_putEntry_of_none fresh rfl, List.map_append]
    rcases paid with paid | paid <;> rw [paid] at trail <;>
      simp only [OrderStatus.trails, List.mem_singleton] at trail <;>
      simp [OrderStatus.trails, Entry.mark, Entry.refund, trail]
  | dropped ordered pending =>
    apply agreed.moveOrder ordered
    simp [pending, OrderStatus.trails]
  | registered new pending => exact agreed.putNewOrder sound new pending
  | prepared ordered confirmed =>
    apply agreed.moveOrder ordered
    simp [confirmed, OrderStatus.trails]
  | completed ordered paid =>
    apply agreed.moveOrder ordered
    simp [paid, OrderStatus.trails]

end Ledger

end Prepaid
