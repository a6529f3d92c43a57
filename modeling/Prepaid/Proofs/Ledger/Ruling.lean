import Prepaid.Proofs.Ledger.Cover
import Prepaid.Proofs.Ledger.Dues
import Prepaid.Proofs.Ledger.Movement

/-!
# Rulings

What the calls about an order answer, exactly. Each looks for the order, looks at its
state, and then has one more reason at most to refuse. `Ruling` says so of an answer;
that nothing else is ever answered rests on the entries of the order and on the
account of its customer, as long as what the customer has been credited is exact.
-/

namespace Prepaid

/-! ## When a wallet takes a step -/

namespace Wallet

variable {wallet : Wallet} {amount : Amount}

/-- What is left of an exact wallet can be reserved. -/
theorem exists_reserve (solvent : wallet.Solvent) (fits : wallet.current.cents ≤ Money.maxCents)
    (enough : amount.cents ≤ wallet.current.cents - wallet.held.cents) (now : Instant) :
    ∃ after, wallet.reserve amount now = .ok after := by
  have worth : amount.money.cents = amount.cents := rfl
  have positive : 0 < amount.cents := amount.positive
  have nonneg := solvent.held
  have within : (wallet.current.cents - wallet.held.cents).natAbs ≤ Money.maxCents := by omega
  have heldWithin : (wallet.held.cents + amount.money.cents).natAbs ≤ Money.maxCents := by omega
  obtain ⟨available, left, availableEq⟩ := Money.sub_exact within
  obtain ⟨held, added, _⟩ := Money.add_exact heldWithin
  exact ⟨_, reserve_eq_ok.mpr ⟨available, held, left, by omega, added, rfl⟩⟩

/-- What is short is told exactly. -/
theorem reserve_of_short (solvent : wallet.Solvent) (fits : wallet.current.cents ≤ Money.maxCents)
    (covered : wallet.held.cents ≤ wallet.current.cents)
    (short : wallet.current.cents - wallet.held.cents < amount.cents) (now : Instant) :
    ∃ available, available.cents = wallet.current.cents - wallet.held.cents ∧
      wallet.reserve amount now =
        .error (.rejected (.insufficientFunds available amount.money)) := by
  have nonneg := solvent.held
  have within : (wallet.current.cents - wallet.held.cents).natAbs ≤ Money.maxCents := by omega
  obtain ⟨available, left, availableEq⟩ := Money.sub_exact within
  refine ⟨available, availableEq, ?_⟩
  have less : available < amount.money := by
    change available.cents < amount.cents
    omega
  rw [reserve, Wallet.available, left]
  simp [orOverflow, bind, Except.bind, less, throw, throwThe, MonadExceptOf.throw]

/-- What is held of a wallet can be settled. -/
theorem exists_settle (solvent : wallet.Solvent)
    (enough : amount.cents ≤ wallet.held.cents ∧ amount.cents ≤ wallet.current.cents)
    (now : Instant) :
    ∃ after, wallet.settle amount now = .ok after := by
  have positive : 0 ≤ amount.money.cents := Int.le_of_lt amount.positive
  obtain ⟨held, freed⟩ := Money.sub_isOk solvent.held positive
  obtain ⟨current, spent⟩ := Money.sub_isOk solvent.current positive
  exact ⟨_, settle_eq_ok.mpr ⟨enough, held, current, freed, spent, rfl⟩⟩

/-- What is held of a wallet can be released. -/
theorem exists_release (solvent : wallet.Solvent)
    (enough : amount.cents ≤ wallet.held.cents ∧ amount.cents ≤ wallet.current.cents)
    (now : Instant) :
    ∃ after, wallet.release amount now = .ok after := by
  obtain ⟨held, freed⟩ := Money.sub_isOk solvent.held (Int.le_of_lt amount.positive)
  exact ⟨_, release_eq_ok.mpr ⟨enough, held, freed, rfl⟩⟩

end Wallet

namespace Ledger

namespace Tables

/-- What a user can still have held. -/
def freeOf (user : UserId) (tables : Tables) : Int :=
  (tables.currentOf user).cents - (tables.heldOf user).cents

/-- All that a user has ever been credited; nothing for a user without a wallet. -/
def creditedTo (user : UserId) (tables : Tables) : Int :=
  (tables.wallets.get? user).elim 0 fun wallet => tables.credited wallet.id

/-- The wallet that a call finds for a user, who gets an empty one if there is none. -/
def walletOf (stamp : Stamp) (user : UserId) (tables : Tables) : Wallet :=
  (tables.wallets.get? user).getD (.empty stamp.wallet user stamp.now)

/-- What holds of all tables that a run leads to. -/
structure Regular (tables : Tables) : Prop where
  sound : tables.Sound
  solvent : tables.Solvent
  agreed : tables.Agreed
  balanced : tables.Balanced

section Wallets

variable {tables : Tables} {user : UserId} {stamp : Stamp}

/-- The wallet of a call has what the user has. -/
theorem current_walletOf : (tables.walletOf stamp user).current = tables.currentOf user := by
  unfold walletOf currentOf
  cases tables.wallets.get? user <;> rfl

/-- The wallet of a call has held what is held for the user. -/
theorem held_walletOf : (tables.walletOf stamp user).held = tables.heldOf user := by
  unfold walletOf heldOf
  cases tables.wallets.get? user <;> rfl

/-- The wallet of a call is solvent, whether it is there or new. -/
theorem Solvent.walletOf (solvent : tables.Solvent) (stamp : Stamp) (user : UserId) :
    (tables.walletOf stamp user).Solvent := by
  unfold Tables.walletOf
  cases known : tables.wallets.get? user with
  | none => exact .empty _ _ _
  | some wallet => exact solvent known

/-- What a user can have held is what the wallet of a call has left. -/
theorem freeOf_eq (stamp : Stamp) : tables.freeOf user =
    (tables.walletOf stamp user).current.cents - (tables.walletOf stamp user).held.cents := by
  rw [freeOf, current_walletOf, held_walletOf]

/-- What a user has been credited is what the wallet has. -/
theorem creditedTo_of_get? {wallet : Wallet} (known : tables.wallets.get? user = some wallet) :
    tables.creditedTo user = tables.credited wallet.id := by
  rw [creditedTo, known]
  rfl

/-- A user whose credits are exact has no more held than there is, and no more than was credited. -/
theorem Balanced.bounds (balanced : tables.Balanced)
    (exactly : tables.creditedTo user ≤ Money.maxCents) (stamp : Stamp) :
    (tables.walletOf stamp user).held.cents ≤ (tables.walletOf stamp user).current.cents ∧
      (tables.walletOf stamp user).current.cents ≤ tables.creditedTo user := by
  cases known : tables.wallets.get? user with
  | none => simp [walletOf, creditedTo, known, Wallet.empty]
  | some wallet =>
    rw [creditedTo_of_get? known] at exactly ⊢
    have accounts := balanced known exactly
    rw [walletOf, known]
    exact ⟨accounts.held_le, accounts.current_le⟩

end Wallets

/-! ## The hold of an order -/

section Holds

variable {tables : Tables} {order : Order}

/-- Nothing is held for a pending order. -/
theorem Regular.pendingHold?_of_pending (regular : tables.Regular)
    (known : tables.orders.get? order.id = some order) (pending : order.status = .pending) :
    tables.pendingHold? order.id = none := by
  rw [pendingHold?, regular.sound.orderEntries_eq, (regular.agreed.backed known).empty pending]
  rfl

/-- An order that is confirmed or being prepared has a hold, which its customer's wallet covers. -/
theorem Regular.exists_hold (regular : tables.Regular)
    (known : tables.orders.get? order.id = some order)
    (held : order.status = .confirmed ∨ order.status = .preparing)
    (exactly : tables.creditedTo order.customer ≤ Money.maxCents) (stamp : Stamp) :
    ∃ entry, tables.pendingHold? order.id = some entry ∧
      entry.amount.cents ≤ (tables.walletOf stamp order.customer).held.cents ∧
      entry.amount.cents ≤ (tables.walletOf stamp order.customer).current.cents := by
  have backs := regular.agreed.backed known
  have trail : (tables.rowsOfOrder order.id).map Entry.mark = [(.hold, .pending)] := by
    have trail := backs.trail
    rcases held with status | status <;> simpa [status, OrderStatus.trails] using trail
  obtain ⟨entry, single, marked⟩ := List.map_eq_singleton_iff.mp trail
  have member : entry ∈ tables.rowsOfOrder order.id := by
    rw [single]; exact List.mem_singleton_self entry
  obtain ⟨kind, status⟩ := Prod.mk.inj marked
  obtain ⟨wallet, owned, inside⟩ := backs.wallet entry member
  refine ⟨entry, ?_, ?_⟩
  · rw [pendingHold?, regular.sound.orderEntries_eq, single]
    simp [Entry.isPendingHold, kind, status]
  · -- The hold is one of those that make up what is held in the wallet.
    have share : entry.share wallet.id .hold .pending = entry.amount.cents := by
      rw [Entry.share, if_pos ⟨inside.symm, kind, status⟩]
    have part : entry.share wallet.id .hold .pending ≤ tables.sumOf wallet.id .hold .pending :=
      Table.le_total (fun row _ => row.share_nonneg _ _ _) (mem_rowsOfOrder.mp member).1
    rw [creditedTo_of_get? owned] at exactly
    have accounts := regular.balanced owned exactly
    have total := accounts.held
    have covered := accounts.held_le
    rw [walletOf, owned, Option.getD_some]
    omega

end Holds

end Tables

/-! ## What is answered about an order -/

/-- What is answered about an order. There is one reason at most to refuse besides that the order is
not there, or not in a state that allows the call; unless it applies the call succeeds. Sums that
are too large to compute with are never met. -/
structure Ruling {α : Type} (tables : Tables) (id : OrderId) (allowed : List OrderStatus)
    (action : OrderAction) (passes : Order → Prop) (reason : Order → Rejection → Prop)
    (result : Except Failure α) : Prop where
  succeeds_iff : (∃ value, result = .ok value) ↔
    ∃ order, tables.orders.get? id = some order ∧ order.status ∈ allowed ∧ passes order
  unknown : tables.orders.get? id = none → result = .error (.rejected (.orderNotFound id))
  misplaced : ∀ order, tables.orders.get? id = some order → order.status ∉ allowed →
    result = .error (.rejected (.invalidOrderState id order.status action))
  refused : ∀ order, tables.orders.get? id = some order → order.status ∈ allowed → ¬ passes order →
    ∃ rejection, reason order rejection ∧ result = .error (.rejected rejection)
  computed : ∀ overflow, result ≠ .error (.overflow overflow)

section Rulings

variable {α β : Type} {tables : Tables} {id : OrderId} {allowed : List OrderStatus}
  {action : OrderAction} {passes : Order → Prop} {reason : Order → Rejection → Prop}

/-- A ruling does not depend on how the answer is put. -/
theorem Ruling.map {result : Except Failure α}
    (ruling : Ruling tables id allowed action passes reason result) (change : α → β) :
    Ruling tables id allowed action passes reason (result.map change) where
  succeeds_iff := by
    rw [← ruling.succeeds_iff]
    simp [map_eq_ok]
  unknown absent := map_eq_error.mpr (ruling.unknown absent)
  misplaced order known other := map_eq_error.mpr (ruling.misplaced order known other)
  refused order known allowed fails := by
    obtain ⟨rejection, because, refused⟩ := ruling.refused order known allowed fails
    exact ⟨rejection, because, map_eq_error.mpr refused⟩
  computed overflow full := ruling.computed overflow (map_eq_error.mp full)

/-- A ruled call is refused for no other reasons. -/
theorem Ruling.rejection_cases {result : Except Failure α} {rejection : Rejection}
    (ruling : Ruling tables id allowed action passes reason result)
    (rejected : result = .error (.rejected rejection)) :
    rejection = .orderNotFound id ∨ (∃ status, rejection = .invalidOrderState id status action) ∨
      ∃ order, tables.orders.get? id = some order ∧ reason order rejection := by
  subst rejected
  cases known : tables.orders.get? id with
  | none =>
    cases ruling.unknown known
    exact .inl rfl
  | some order =>
    by_cases inState : order.status ∈ allowed
    · by_cases passed : passes order
      · obtain ⟨value, absurdly⟩ := ruling.succeeds_iff.mpr ⟨order, known, inState, passed⟩
        cases absurdly
      · obtain ⟨refusal, because, same⟩ := ruling.refused order known inState passed
        cases same
        exact .inr (.inr ⟨order, rfl, because⟩)
    · cases ruling.misplaced order known inState
      exact .inr (.inl ⟨order.status, rfl⟩)

/-- These four answers are all that there are. -/
theorem Ruling.of_answers {result : Except Failure α}
    (unknown : tables.orders.get? id = none → result = .error (.rejected (.orderNotFound id)))
    (misplaced : ∀ order, tables.orders.get? id = some order → order.status ∉ allowed →
      result = .error (.rejected (.invalidOrderState id order.status action)))
    (passing : ∀ order, tables.orders.get? id = some order → order.status ∈ allowed → passes order →
      ∃ value, result = .ok value)
    (failing : ∀ order, tables.orders.get? id = some order → order.status ∈ allowed →
      ¬ passes order → ∃ rejection, reason order rejection ∧
      result = .error (.rejected rejection)) :
    Ruling tables id allowed action passes reason result := by
  have answers :
      (∃ order, tables.orders.get? id = some order ∧ order.status ∈ allowed ∧ passes order) ∨
      ∃ rejection, result = .error (.rejected rejection) := by
    cases known : tables.orders.get? id with
    | none => exact .inr ⟨_, unknown known⟩
    | some order =>
      by_cases inState : order.status ∈ allowed
      · by_cases passed : passes order
        · exact .inl ⟨order, rfl, inState, passed⟩
        · obtain ⟨rejection, _, answered⟩ := failing order known inState passed
          exact .inr ⟨rejection, answered⟩
      · exact .inr ⟨_, misplaced order known inState⟩
  refine { succeeds_iff := ?_, unknown, misplaced, refused := failing, computed := ?_ }
  · constructor
    · rintro ⟨value, done⟩
      rcases answers with passed | ⟨rejection, answered⟩
      · exact passed
      · rw [done] at answered
        cases answered
    · rintro ⟨order, known, inState, passed⟩
      exact passing order known inState passed
  · intro overflow full
    rcases answers with ⟨order, known, inState, passed⟩ | ⟨rejection, answered⟩
    · obtain ⟨value, done⟩ := passing order known inState passed
      rw [full] at done
      cases done
    · rw [full] at answered
      cases answered

/-- Every call about an order begins by looking for it and at its state. -/
theorem Ruling.of_work (sound : tables.Sound) {rest : Order → Work α} {next : α → Call β}
    (granted : ∀ order start, start.Begun tables → tables.orders.get? order.id = some order →
      order.id = id → order.status ∈ allowed → passes order →
      ∃ value, (finish tables start (rest order) next).1 = .ok value)
    (refused : ∀ order start, start.Begun tables → tables.orders.get? order.id = some order →
      order.id = id → order.status ∈ allowed → ¬ passes order →
        ∃ rejection, reason order rejection ∧
        (finish tables start (rest order) next).1 = .error (.rejected rejection)) :
    Ruling tables id allowed action passes reason
      (((transact do
          let order ← Work.order id
          Work.rule (order.require allowed action)
          rest order) >>= next) { tables }).1 := by
  rw [transact_bind_apply]
  let work : Work α := do
    let order ← Work.order id
    Work.rule (order.require allowed action)
    rest order
  let start (order : Order) : Draft := Draft.keepOrder id order { base := tables }
  have clean (order : Order) : (start order).Begun tables :=
    (Draft.Begun.start tables).keepOrder id order
  have looked : Draft.orderAt? id { base := tables } = tables.orders.get? id :=
    Draft.orderAt?_of_clean rfl id
  have found {order : Order} (known : tables.orders.get? id = some order) :
      (Work.order id).run { base := tables } = .ok (order, start order) :=
    Work.order_eq_ok.mpr ⟨looked.trans known, rfl⟩
  have unknown (absent : tables.orders.get? id = none) :
      (finish tables { base := tables } work next).1 = .error (.rejected (.orderNotFound id)) := by
    rw [finish_of_error (Work.bind_of_error (Work.order_of_none (looked.trans absent)))]
  have misplaced (order : Order) (known : tables.orders.get? id = some order)
      (other : order.status ∉ allowed) : (finish tables { base := tables } work next).1 =
        .error (.rejected (.invalidOrderState id order.status action)) := by
    have wrong : order.require allowed action =
        .error (.invalidOrderState id order.status action) := by
      rw [Order.require, if_neg other, Order.refusal, sound.order_id known]
    rw [finish_bind (found known), finish_of_error (Work.bind_of_error (Work.rule_of_error wrong))]
  have begun (order : Order) (known : tables.orders.get? id = some order)
      (inState : order.status ∈ allowed) :
      finish tables { base := tables } work next =
        finish tables (start order) (rest order) next := by
    have checked : (Work.rule (order.require allowed action)).run (start order) =
        .ok ((), start order) :=
      Work.rule_eq_ok.mpr ⟨Order.require_eq_ok.mpr inState, rfl⟩
    rw [finish_bind (found known), finish_bind checked]
  have located {order : Order} (known : tables.orders.get? id = some order) :
      tables.orders.get? order.id = some order := by rwa [sound.order_id known]
  have passing (order : Order) (known : tables.orders.get? id = some order)
      (inState : order.status ∈ allowed) (passed : passes order) :
      ∃ value, (finish tables { base := tables } work next).1 = .ok value := by
    rw [begun order known inState]
    exact granted order _ (clean order) (located known) (sound.order_id known) inState passed
  have failing (order : Order) (known : tables.orders.get? id = some order)
      (inState : order.status ∈ allowed) (fails : ¬ passes order) :
      ∃ rejection, reason order rejection ∧
        (finish tables { base := tables } work next).1 = .error (.rejected rejection) := by
    rw [begun order known inState]
    exact refused order _ (clean order) (located known) (sound.order_id known) inState fails
  exact .of_answers unknown misplaced passing failing

/-- A call that gets as far as its receipt succeeds. -/
theorem receipt_of_run {start draft : Draft} {work : Work α} {next : α → Call Receipt} {value : α}
    {wallet : Wallet} {entry : Option Entry} {order : Option Order}
    (run : work.run start = .ok (value, draft)) (answer : next value = receipt wallet entry order)
    (solvent : wallet.Solvent) : ∃ result, (finish tables start work next).1 = .ok result := by
  obtain ⟨balance, shown⟩ := solvent.balance
  refine ⟨⟨balance, entry, order⟩, ?_⟩
  rw [finish_of_ok run, answer, receipt_apply, shown]
  rfl

/-- A unit of work finds the wallet of every user, and behind it the holds that are in the
tables. -/
theorem Work.wallet_run (stamp : Stamp) (user : UserId) {start : Draft}
    (begun : start.Begun tables) :
    ∃ draft, (Work.wallet user stamp).run start = .ok (tables.walletOf stamp user, draft) ∧
      ∀ order, (Work.pendingHold? order).run draft =
        .ok (tables.pendingHold? order, draft.keepHold (tables.pendingHold? order)) := by
  have looked := Draft.walletAt?_of_clean begun.wallets user
  rw [begun.base] at looked
  have finds {draft : Draft} (unread : draft.kept.entries = .empty) (base : draft.base = tables)
      (order : OrderId) : (Work.pendingHold? order).run draft =
        .ok (tables.pendingHold? order, draft.keepHold (tables.pendingHold? order)) := by
    refine Work.pendingHold?_eq_ok.mpr ⟨?_, rfl⟩
    rw [Draft.pendingHold?_of_clean unread, base]
  cases known : tables.wallets.get? user with
  | some wallet =>
    refine ⟨_, Work.wallet_eq_ok.mpr (.inl ⟨?_, rfl⟩), finds begun.entries begun.base⟩
    rw [looked, known, Tables.walletOf, known, Option.getD_some]
  | none =>
    refine ⟨_, Work.wallet_eq_ok.mpr (.inr ⟨looked.trans known, ?_, rfl⟩),
      finds begun.entries begun.base⟩
    rw [Tables.walletOf, known, Option.getD_none]

/-- An order that can become what it shall advances. -/
theorem Work.advance_run {order : Order} {next : OrderStatus}
    (can : order.status.canBecome next = true) (action : OrderAction) (now : Instant)
    (draft : Draft) :
    (Work.rule (order.advance next action now)).run draft = .ok (order.moveTo next now, draft) :=
  Work.rule_eq_ok.mpr ⟨Order.advance_eq_ok.mpr ⟨can, rfl⟩, rfl⟩

end Rulings

section Calls

variable {tables : Tables} {id : OrderId}

/-- What the customer of an order has been credited is exact. -/
def Tables.ExactFor (id : OrderId) (tables : Tables) : Prop :=
  ∀ order, tables.orders.get? id = some order → tables.creditedTo order.customer ≤ Money.maxCents

/-- What the customer of an order has been credited stays exact when the total is given back. -/
def Tables.ExactWithRefund (id : OrderId) (tables : Tables) : Prop :=
  ∀ order, tables.orders.get? id = some order →
    tables.creditedTo order.customer + order.total.cents ≤ Money.maxCents

/-- A hold succeeds if the order is pending and its customer has enough that is not held. -/
theorem hold_ruled (regular : tables.Regular) (exactly : tables.ExactFor id) (stamp : Stamp) :
    Ruling tables id [.pending] .hold
      (fun order => order.total.cents ≤ tables.freeOf order.customer)
      (fun order rejection => ∃ available : Money,
        available.cents = tables.freeOf order.customer ∧
        rejection = .insufficientFunds available order.total.money)
      (hold id stamp { tables }).1 := by
  refine .of_work regular.sound ?_ ?_
  · rintro order start begun known rfl pending enough
    obtain ⟨draft, found, _⟩ := Work.wallet_run stamp order.customer begun
    obtain ⟨_, bounded⟩ := regular.balanced.bounds (exactly order known) stamp
    have solvent := regular.solvent.walletOf stamp order.customer
    rw [Tables.freeOf_eq stamp] at enough
    obtain ⟨reserved, reserve⟩ :=
      Wallet.exists_reserve solvent (Int.le_trans bounded (exactly order known)) enough stamp.now
    have can : order.status.canBecome .confirmed = true := by
      rw [List.mem_singleton.mp pending]; rfl
    apply receipt_of_run
    · rw [Work.bind_of_ok found, Work.bind_of_ok (Work.liftM_eq_ok.mpr ⟨reserve, rfl⟩),
        Work.bind_of_ok (Work.advance_run can .hold stamp.now _)]
      rfl
    · rfl
    · exact solvent.reserve reserve
  · rintro order start begun known rfl pending short
    obtain ⟨draft, found, _⟩ := Work.wallet_run stamp order.customer begun
    obtain ⟨covered, bounded⟩ := regular.balanced.bounds (exactly order known) stamp
    have solvent := regular.solvent.walletOf stamp order.customer
    rw [Tables.freeOf_eq stamp] at short ⊢
    obtain ⟨available, worth, refused⟩ := Wallet.reserve_of_short solvent
      (Int.le_trans bounded (exactly order known)) covered (Int.not_le.mp short) stamp.now
    refine ⟨_, ⟨available, worth, rfl⟩, ?_⟩
    rw [finish_bind found, finish_of_error (Work.bind_of_error (Work.liftM_of_error refused))]

/-- A capture succeeds if the order is not pending any more; a pending one has no hold yet. -/
theorem capture_ruled (regular : tables.Regular) (exactly : tables.ExactFor id) (stamp : Stamp) :
    Ruling tables id unpaid .capture (fun order => order.status ≠ .pending)
      (fun _ rejection => rejection = .missingHold id) (capture id stamp { tables }).1 := by
  refine .of_work regular.sound ?_ ?_
  · rintro order start begun known rfl going confirmed
    obtain ⟨draft, found, finds⟩ := Work.wallet_run stamp order.customer begun
    have solvent := regular.solvent.walletOf stamp order.customer
    have held : order.status = .confirmed ∨ order.status = .preparing := by
      simpa [unpaid, confirmed] using going
    obtain ⟨entry, holds, enough⟩ := regular.exists_hold known held (exactly order known) stamp
    obtain ⟨settled, settle⟩ := Wallet.exists_settle solvent enough stamp.now
    have can : order.status.canBecome .paid = true := by
      rcases held with status | status <;> rw [status] <;> rfl
    apply receipt_of_run
    · rw [Work.bind_of_ok found, Work.bind_of_ok (finds order.id), holds,
        Work.bind_of_ok (Work.demand_eq_ok.mpr ⟨rfl, rfl⟩),
        Work.bind_of_ok (Work.liftM_eq_ok.mpr ⟨settle, rfl⟩),
        Work.bind_of_ok (Work.advance_run can .capture stamp.now _)]
      rfl
    · rfl
    · exact .settle settle
  · rintro order start begun known rfl going pending
    obtain ⟨draft, found, finds⟩ := Work.wallet_run stamp order.customer begun
    refine ⟨_, rfl, ?_⟩
    rw [finish_bind found, finish_bind (finds order.id),
      regular.pendingHold?_of_pending known (not_not.mp pending)]
    rfl

/-- A capture misses its hold exactly if the order is pending still. -/
theorem capture_missingHold_iff (regular : tables.Regular) (exactly : tables.ExactFor id)
    (stamp : Stamp) :
    (capture id stamp { tables }).1 = .error (.rejected (.missingHold id)) ↔
      ∃ order, tables.orders.get? id = some order ∧ order.status = .pending := by
  have ruling := capture_ruled regular exactly stamp
  constructor
  · intro missing
    cases known : tables.orders.get? id with
    | none =>
      rw [ruling.unknown known] at missing
      cases missing
    | some order =>
      refine ⟨order, rfl, Classical.byContradiction fun going => ?_⟩
      by_cases inState : order.status ∈ unpaid
      · obtain ⟨receipt, done⟩ := ruling.succeeds_iff.mpr ⟨order, known, inState, going⟩
        rw [done] at missing
        cases missing
      · rw [ruling.misplaced order known inState] at missing
        cases missing
  · rintro ⟨order, known, pending⟩
    have going : order.status ∈ unpaid := by rw [pending]; decide
    obtain ⟨rejection, rfl, refused⟩ := ruling.refused order known going (not_not.mpr pending)
    exact refused

/-- A release succeeds if the precondition accepts the order. -/
theorem release_ruled (regular : tables.Regular) (exactly : tables.ExactFor id)
    (precondition : Order → Except Rejection Unit) (stamp : Stamp) :
    Ruling tables id unpaid .release (fun order => precondition order = .ok ())
      (fun order rejection => precondition order = .error rejection)
      (release id precondition stamp { tables }).1 := by
  refine .of_work regular.sound ?_ ?_
  · rintro order start begun known rfl going accepts
    obtain ⟨draft, found, finds⟩ := Work.wallet_run stamp order.customer begun
    have solvent := regular.solvent.walletOf stamp order.customer
    have accepted : (Work.rule (precondition order)).run start = .ok ((), start) :=
      Work.rule_eq_ok.mpr ⟨accepts, rfl⟩
    have can : order.status.canBecome .cancelled = true := by
      revert going
      cases order.status <;> decide
    by_cases pending : order.status = .pending
    · apply receipt_of_run
      · rw [Work.bind_of_ok accepted, Work.bind_of_ok found, Work.bind_of_ok (finds order.id),
          regular.pendingHold?_of_pending known pending]
        simp only [if_pos pending]
        rw [Work.bind_of_ok (Work.pure_eq_ok.mpr ⟨rfl, rfl⟩),
          Work.bind_of_ok (Work.advance_run can .release stamp.now _)]
        rfl
      · rfl
      · exact solvent
    · have held : order.status = .confirmed ∨ order.status = .preparing := by
        simpa [unpaid, pending] using going
      obtain ⟨entry, holds, enough⟩ := regular.exists_hold known held (exactly order known) stamp
      obtain ⟨freed, release⟩ := Wallet.exists_release solvent enough stamp.now
      have given (draft : Draft) : (Work.putWallet freed).run draft =
          .ok ((), draft.putWallet freed) :=
        Work.putWallet_eq_ok.mpr rfl
      have cancelled (draft : Draft) : (Work.putEntry (entry.cancel stamp.now)).run draft =
          .ok ((), draft.putEntry (entry.cancel stamp.now)) := Work.putEntry_eq_ok.mpr rfl
      apply receipt_of_run
      · rw [Work.bind_of_ok accepted, Work.bind_of_ok found, Work.bind_of_ok (finds order.id),
          holds]
        simp only
        rw [Work.bind_of_ok (Work.liftM_eq_ok.mpr ⟨release, rfl⟩), Work.bind_of_ok (given _),
          Work.bind_of_ok (cancelled _), Work.bind_of_ok (Work.pure_eq_ok.mpr ⟨rfl, rfl⟩),
          Work.bind_of_ok (Work.advance_run can .release stamp.now _)]
        rfl
      · rfl
      · exact solvent.release release
  · rintro order start begun known rfl going fails
    obtain ⟨rejection, refused⟩ : ∃ rejection, precondition order = .error rejection := by
      cases asked : precondition order with
      | ok => exact (fails asked).elim
      | error rejection => exact ⟨rejection, rfl⟩
    refine ⟨rejection, refused, ?_⟩
    rw [finish_of_error (Work.bind_of_error (Work.rule_of_error refused))]

/-- A refund of an order that is paid or completed always succeeds. -/
theorem refund_ruled (regular : tables.Regular) (exactly : tables.ExactWithRefund id)
    (stamp : Stamp) :
    Ruling tables id [.paid, .completed] .refund (fun _ => True) (fun _ _ => False)
      (refund id stamp { tables }).1 := by
  refine .of_work regular.sound ?_ (fun _ _ _ _ _ _ fails => (fails trivial).elim)
  rintro order start begun known rfl paid _
  obtain ⟨draft, found, _⟩ := Work.wallet_run stamp order.customer begun
  have fits := exactly order known
  have positive : 0 < order.total.cents := order.total.positive
  have before : tables.creditedTo order.customer ≤ Money.maxCents := by omega
  obtain ⟨_, bounded⟩ := regular.balanced.bounds before stamp
  have solvent := regular.solvent.walletOf stamp order.customer
  obtain ⟨credited, credit⟩ :
      ∃ after, (tables.walletOf stamp order.customer).credit order.total stamp.now =
      .ok after := Wallet.exists_credit solvent.current (by omega) stamp.now
  have can : order.status.canBecome .cancelled = true := by
    revert paid
    cases order.status <;> decide
  apply receipt_of_run
  · rw [Work.bind_of_ok found, Work.bind_of_ok (Work.arithmetic_eq_ok.mpr ⟨credit, rfl⟩),
      Work.bind_of_ok (Work.advance_run can .refund stamp.now _)]
    rfl
  · rfl
  · exact solvent.credit credit

/-- An order is moved on without money whenever it is in the state for it. -/
theorem advance_ruled (sound : tables.Sound) {allowed : List OrderStatus} {next : OrderStatus}
    (can : ∀ status ∈ allowed, status.canBecome next = true) (action : OrderAction)
    (stamp : Stamp) :
    Ruling tables id allowed action (fun _ => True) (fun _ _ => False)
      (advance id allowed next action stamp { tables }).1 := by
  rw [advance, ← bind_pure (transact _)]
  refine .of_work sound ?_ (fun _ _ _ _ _ _ fails => (fails trivial).elim)
  rintro order start begun known rfl inState _
  rw [finish_bind (Work.advance_run (can _ inState) action stamp.now _)]
  exact ⟨_, rfl⟩

/-- A top-up is always recorded. -/
theorem exists_recordTopUp (solvent : tables.Solvent) (user : UserId) (amount : Amount)
    (session : String) (stamp : Stamp) :
    ∃ receipt, (recordTopUp user amount session stamp { tables }).1 = .ok receipt := by
  obtain ⟨draft, found, _⟩ := Work.wallet_run stamp user (.start tables)
  rw [recordTopUp, transact_bind_apply]
  apply receipt_of_run
  · rw [Work.bind_of_ok found]
    rfl
  · rfl
  · exact solvent.walletOf stamp user

/-- Of an amount that may be deposited only the sum can be too large. -/
theorem deposit_of_ok (solvent : tables.Solvent) {settings : Settings} {value : Decimal}
    {amount : Amount} (allowed : settings.depositAmount value = .ok amount) (user : UserId)
    (stamp : Stamp) :
    (∃ receipt, (deposit settings user value stamp { tables }).1 = .ok receipt) ∨
      ∃ overflow, (deposit settings user value stamp { tables }).1 =
        .error (.overflow overflow) := by
  rw [deposit, allowed, bind_of_ok (rule_apply _ _), transact_bind_apply]
  obtain ⟨draft, found, _⟩ := Work.wallet_run stamp user (.start tables)
  have own := solvent.walletOf stamp user
  cases credit : (tables.walletOf stamp user).credit amount stamp.now with
  | error overflow =>
    have full : (Work.arithmetic ((tables.walletOf stamp user).credit amount stamp.now)).run draft =
        .error (.overflow overflow) := by
      rw [credit]
      rfl
    right
    refine ⟨overflow, ?_⟩
    rw [finish_bind found, finish_of_error (Work.bind_of_error full)]
  | ok credited =>
    left
    apply receipt_of_run
    · rw [Work.bind_of_ok found, Work.bind_of_ok (Work.arithmetic_eq_ok.mpr ⟨credit, rfl⟩)]
      rfl
    · rfl
    · exact own.credit credit

/-- An order is refused for its total, or because its identifier is taken. -/
theorem register_rejected {new : NewOrder} {stamp : Stamp} {rejection : Rejection}
    (rejected : (register new stamp { tables }).1 = .error (.rejected rejection)) :
    Order.register new stamp.now = .error rejection ∨ ∃ id, rejection = .orderExists id := by
  unfold register at rejected
  cases registered : Order.register new stamp.now with
  | error refusal =>
    rw [registered, bind_of_error (rule_apply _ _)] at rejected
    cases rejected
    exact .inl rfl
  | ok order =>
    rw [registered, bind_of_ok (rule_apply _ _), transact_apply] at rejected
    have looked : Draft.orderAt? order.id { base := tables } = tables.orders.get? order.id :=
      Draft.orderAt?_of_clean rfl order.id
    cases taken : tables.orders.get? order.id with
    | none =>
      have free : (Work.newOrder order.id).run { base := tables } = .ok ((), { base := tables }) :=
        Work.newOrder_eq_ok.mpr ⟨looked.trans taken, rfl⟩
      rw [Work.bind_of_ok free] at rejected
      cases rejected
    | some other =>
      have refused : (Work.newOrder order.id).run { base := tables } =
          .error (.rejected (.orderExists order.id)) := Work.newOrder_of_some (looked.trans taken)
      rw [Work.bind_of_error refused] at rejected
      cases rejected
      exact .inr ⟨order.id, rfl⟩

end Calls

end Ledger

end Prepaid
