import Prepaid.Proofs.Ledger.Ruling

/-!
# Bookings

What a call does, as a function of the tables that it finds. It fails and leaves
them, or it books at most one wallet, one order and one entry and answers. Each
call has its decision, which reads the tables and writes nothing; the calls are
shown to enact their decisions, so that what they read and what they write can be
told apart.
-/

namespace Prepaid.Ledger

/-- The rows that a call puts. -/
structure Booking where
  wallet? : Option Wallet := none
  order? : Option Order := none
  row? : Option Entry := none

/-- What is decided for a call that does not fail: the rows that it puts, and what it answers. -/
structure Decision (α : Type) where
  booking : Booking
  answer : Except Failure α

namespace Tables

/-- Puts the rows of a booking. -/
def book (booking : Booking) (tables : Tables) : Tables :=
  let tables := booking.wallet?.elim tables fun wallet => tables.putWallet wallet
  let tables := booking.order?.elim tables fun order => tables.putOrder order
  booking.row?.elim tables fun entry => tables.putEntry entry

section Book

variable (booking : Booking) (tables : Tables)

/-- A booking records no notice. -/
@[simp] theorem book_notices : (tables.book booking).notices = tables.notices := by
  obtain ⟨_ | wallet, _ | order, _ | entry⟩ := booking <;> simp [book, putWallet, putOrder]

/-- A booking puts at most one wallet. -/
theorem book_wallets : (tables.book booking).wallets =
    booking.wallet?.elim tables.wallets fun wallet => tables.wallets.put wallet.owner wallet := by
  obtain ⟨_ | wallet, _ | order, _ | entry⟩ := booking <;> simp [book, putWallet, putOrder]

/-- The wallet that is put is found under its owner. -/
theorem book_owners : (tables.book booking).owners =
    booking.wallet?.elim tables.owners fun wallet => tables.owners.put wallet.id wallet.owner := by
  obtain ⟨_ | wallet, _ | order, _ | entry⟩ := booking <;> simp [book, putWallet, putOrder]

/-- A booking puts at most one order. -/
theorem book_orders : (tables.book booking).orders =
    booking.order?.elim tables.orders fun order => tables.orders.put order.id order := by
  obtain ⟨_ | wallet, _ | order, _ | entry⟩ := booking <;> simp [book, putWallet, putOrder]

/-- A booking puts at most one entry. -/
theorem book_entries : (tables.book booking).entries =
    booking.row?.elim tables.entries fun entry => tables.entries.put entry.id entry := by
  obtain ⟨_ | wallet, _ | order, _ | entry⟩ := booking <;> simp [book, putWallet, putOrder]

end Book

/-- A wallet that is there can be put again. -/
theorem putWallet_self {tables : Tables} (sound : tables.Sound) {user : UserId} {wallet : Wallet}
    (known : tables.wallets.get? user = some wallet) : tables.putWallet wallet = tables := by
  have owner := sound.wallet_owner known
  have home : tables.owners.get? wallet.id = some wallet.owner := by
    rw [owner]
    exact sound.owner_iff.mpr ⟨wallet, known, rfl⟩
  rw [← owner] at known
  rw [putWallet, Table.put_self home, Table.put_self known]

end Tables

/-- What comes of a decision. -/
def enact {α : Type} (tables : Tables) : Except Failure (Decision α) → Except Failure α × Ledger
  | .error failure => (.error failure, { tables })
  | .ok decision => (decision.answer, { tables := tables.book decision.booking })

/-! ## What the calls decide -/

namespace Decision

/-- The answer of a call that moves money. -/
def receipt (wallet : Wallet) (entry : Option Entry) (order : Option Order) :
    Except Failure Receipt :=
  (orOverflow wallet.balance).map fun balance => ⟨balance, entry, order⟩

/-- A deposit credits the wallet of its user, who gets one if there is none. -/
def deposit (settings : Settings) (user : UserId) (value : Decimal) (stamp : Stamp)
    (tables : Tables) : Except Failure (Decision Receipt) := do
  let amount ← orReject (settings.depositAmount value)
  let credited ← orOverflow ((tables.walletOf stamp user).credit amount stamp.now)
  let entry := Entry.deposit stamp.entry credited.id amount credited.current stamp.now
  pure ⟨{ wallet? := some credited, row? := some entry }, receipt credited (some entry) none⟩

/-- A top-up is recorded as an entry that waits for its session, and moves no money yet. -/
def recordTopUp (user : UserId) (amount : Amount) (session : String) (stamp : Stamp)
    (tables : Tables) : Decision Receipt :=
  let wallet := tables.walletOf stamp user
  let entry := Entry.pendingDeposit stamp.entry wallet.id amount wallet.current session stamp.now
  ⟨{ wallet? := some wallet, row? := some entry }, receipt wallet (some entry) none⟩

/-- The decision with another answer. -/
def map {α β : Type} (change : α → β) (decision : Decision α) : Decision β :=
  ⟨decision.booking, decision.answer.map change⟩

/-- The top-up of a session is credited, unless it has been settled before. -/
def confirmTopUp (session : String) (payment : Option String) (stamp : Stamp) (tables : Tables) :
    Except Failure (Decision (Option Receipt)) :=
  match tables.entryForSession? session with
  | none => .error (.rejected (.sessionNotFound session))
  | some entry =>
    if entry.status = .pending then
      match tables.walletById? entry.wallet with
      | none => .error (.rejected (.storage (.missingWallet entry.wallet)))
      | some wallet => do
        let credited ← orOverflow (wallet.credit entry.amount stamp.now)
        let confirmed := entry.confirm payment credited.current stamp.now
        pure ⟨{ wallet? := some credited, row? := some confirmed },
          (receipt credited (some confirmed) none).map some⟩
    else .ok ⟨{}, .ok none⟩

/-- What is done about a notice. -/
def handle (notice : Notice) (stamp : Stamp) (tables : Tables) :
    Except Failure (Decision (Outcome × Option Balance)) :=
  if notice.type = Notice.sessionCompleted then
    match notice.session? with
    | none => .error (.rejected .malformedJson)
    | some session => (confirmTopUp session.id session.payment stamp tables).map
      (map confirmationOutcome)
  else .ok ⟨{}, .ok (.ignored, none)⟩

/-- An order is registered under a number that is not taken. -/
def register (new : NewOrder) (stamp : Stamp) (tables : Tables) :
    Except Failure (Decision Order) := do
  let order ← orReject (Order.register new stamp.now)
  match tables.orders.get? order.id with
  | some _ => .error (.rejected (.orderExists order.id))
  | none => pure ⟨{ order? := some order }, .ok order⟩

/-- An order that has to be there, in one of the given states. -/
def orderIn (allowed : List OrderStatus) (action : OrderAction) (id : OrderId) (tables : Tables) :
    Except Failure Order := do
  let order ← orReject ((tables.orders.get? id).elim (.error (.orderNotFound id)) .ok)
  orReject (order.require allowed action)
  pure order

/-- An order moves on, and no money does. -/
def advance (id : OrderId) (allowed : List OrderStatus) (next : OrderStatus) (action : OrderAction)
    (stamp : Stamp) (tables : Tables) : Except Failure (Decision Order) := do
  let order ← orderIn allowed action id tables
  let moved ← orReject (order.advance next action stamp.now)
  pure ⟨{ order? := some moved }, .ok moved⟩

/-! The calls that move the money of an order have this in common: the wallet of its customer
takes a step, which may write an entry, and the order moves on. -/

/-- The end of such a call: the wallet as it has stepped, its entry, and the order in its next
state. -/
def conclude (next : OrderStatus) (action : OrderAction) (now : Instant)
    (shown : Option Entry → Option Entry) (order : Order)
    (stepped : Except Failure (Wallet × Option Entry)) : Except Failure (Decision Receipt) := do
  let (wallet, row?) ← stepped
  let moved ← orReject (order.advance next action now)
  pure ⟨{ wallet? := some wallet, order? := some moved, row? },
    receipt wallet (shown row?) (some moved)⟩

/-- The total of the order is reserved. -/
def holdStep (stamp : Stamp) (order : Order) (wallet : Wallet) :
    Except Failure (Wallet × Option Entry) := do
  let reserved ← wallet.reserve order.total stamp.now
  pure (reserved,
    some (.hold stamp.entry reserved.id order.id order.total reserved.current stamp.now))

/-- What is held for the order is settled, and its hold becomes a payment. -/
def captureStep (stamp : Stamp) (tables : Tables) (order : Order) (wallet : Wallet) :
    Except Failure (Wallet × Option Entry) :=
  match tables.pendingHold? order.id with
  | none => .error (.rejected (.missingHold order.id))
  | some entry => do
    let settled ← wallet.settle entry.amount stamp.now
    pure (settled, some (entry.capture settled.current stamp.now))

/-- What is held for the order is given back. A pending order may have no hold. -/
def releaseStep (precondition : Order → Except Rejection Unit) (stamp : Stamp) (tables : Tables)
    (order : Order) (wallet : Wallet) : Except Failure (Wallet × Option Entry) := do
  orReject (precondition order)
  match tables.pendingHold? order.id with
  | none =>
    if order.status = .pending then pure (wallet, none)
    else .error (.rejected (.missingHold order.id))
  | some entry =>
    let freed ← wallet.release entry.amount stamp.now
    pure (freed, some (entry.cancel stamp.now))

/-- The total of the order is credited again. -/
def refundStep (stamp : Stamp) (order : Order) (wallet : Wallet) :
    Except Failure (Wallet × Option Entry) := do
  let credited ← orOverflow (wallet.credit order.total stamp.now)
  pure (credited,
    some (.refund stamp.entry credited.id order.id order.total credited.current stamp.now))

/-- A hold reserves the total of a pending order. -/
def hold (id : OrderId) (stamp : Stamp) (tables : Tables) : Except Failure (Decision Receipt) := do
  let order ← orderIn [.pending] .hold id tables
  conclude .confirmed .hold stamp.now (fun row? => row?) order
    (holdStep stamp order (tables.walletOf stamp order.customer))

/-- A capture settles what is held for an unpaid order. -/
def capture (id : OrderId) (stamp : Stamp) (tables : Tables) :
    Except Failure (Decision Receipt) := do
  let order ← orderIn unpaid .capture id tables
  conclude .paid .capture stamp.now (fun row? => row?) order
    (captureStep stamp tables order (tables.walletOf stamp order.customer))

/-- The hold that is given back is not shown. -/
def release (id : OrderId) (precondition : Order → Except Rejection Unit) (stamp : Stamp)
    (tables : Tables) : Except Failure (Decision Receipt) := do
  let order ← orderIn unpaid .release id tables
  conclude .cancelled .release stamp.now (fun _ => none) order
    (releaseStep precondition stamp tables order (tables.walletOf stamp order.customer))

/-- A refund credits the total of an order that has been paid. -/
def refund (id : OrderId) (stamp : Stamp) (tables : Tables) :
    Except Failure (Decision Receipt) := do
  let order ← orderIn [.paid, .completed] .refund id tables
  conclude .cancelled .refund stamp.now (fun row? => row?) order
    (refundStep stamp order (tables.walletOf stamp order.customer))

/-- Customers have their own orders held. -/
def place (actor : Actor) (id : OrderId) (stamp : Stamp) (tables : Tables) :
    Except Failure (Decision Receipt) :=
  match tables.orders.get? id with
  | none => .error (.rejected (.orderNotFound id))
  | some order =>
    if actor.owns order.customer then hold id stamp tables
    else .error (.rejected (.forbidden .placeOrderOfOther))

/-- Staff have a confirmed order prepared. -/
def prepare (actor : Actor) (id : OrderId) (stamp : Stamp) (tables : Tables) :
    Except Failure (Decision Order) := do
  orReject (requireStaff actor .prepare)
  advance id [.confirmed] .preparing .prepare stamp tables

/-- Staff have an order paid. -/
def charge (actor : Actor) (id : OrderId) (stamp : Stamp) (tables : Tables) :
    Except Failure (Decision Receipt) := do
  orReject (requireStaff actor .capture)
  capture id stamp tables

/-- Staff hand a paid order out. -/
def complete (actor : Actor) (id : OrderId) (stamp : Stamp) (tables : Tables) :
    Except Failure (Decision Order) := do
  orReject (requireStaff actor .complete)
  advance id [.paid] .completed .complete stamp tables

/-- Staff have an order refunded. -/
def repay (actor : Actor) (id : OrderId) (stamp : Stamp) (tables : Tables) :
    Except Failure (Decision Receipt) := do
  orReject (requireStaff actor .refund)
  refund id stamp tables

/-- A cancellation releases what is held, as long as the order can be cancelled. -/
def cancel (settings : Settings) (actor : Actor) (id : OrderId) (now : Instant) (stamp : Stamp)
    (tables : Tables) : Except Failure (Decision Receipt) := do
  let cutoff ← orReject settings.cutoff
  release id (cancellable actor cutoff now) stamp tables

end Decision

/-! ## The calls enact what is decided -/

section Enact

variable {α β : Type} {stamp : Stamp} {tables : Tables}

/-- A check comes before the decision as it comes before the call. -/
theorem enact_rule {result : Except Rejection α} {next : α → Call β}
    {decide : α → Except Failure (Decision β)}
    (passed : ∀ value, result = .ok value → next value { tables } = enact tables (decide value)) :
    (rule result >>= next) { tables } = enact tables (orReject result >>= decide) := by
  cases result with
  | error rejection => exact bind_of_error (rule_apply _ _)
  | ok value => exact (bind_of_ok (rule_apply _ _)).trans (passed value rfl)

/-- A unit that fails is a decision that fails. -/
theorem enact_of_error {start : Draft} {work : Work α} {next : α → Call β} {failure : Failure}
    {decision : Except Failure (Decision β)} (run : work.run start = .error failure)
    (decided : decision = .error failure) :
    finish tables start work next = enact tables decision := by
  rw [finish_of_error run, decided]
  rfl

/-- A unit that succeeds books what it writes. -/
theorem enact_of_ok {start draft : Draft} {work : Work α} {next : α → Call Receipt} {value : α}
    {wallet : Wallet} {entry : Option Entry} {order : Option Order} {booking : Booking}
    {decision : Except Failure (Decision Receipt)} (run : work.run start = .ok (value, draft))
    (answer : next value = receipt wallet entry order)
    (decided : decision = .ok ⟨booking, Decision.receipt wallet entry order⟩)
    (written : tables.write draft.batch = tables.book booking) :
    finish tables start work next = enact tables decision := by
  rw [finish_of_ok run, answer, receipt_apply, written, decided]
  rfl

/-- The wallet that a unit of work opens for a user is the one the user has, or a new one. -/
theorem Opens.wallet_eq {user : UserId} {wallet : Wallet} {first : Tables} {draft : Draft}
    (opens : Opens stamp tables user wallet first draft) : wallet = tables.walletOf stamp user := by
  cases opens with
  | known found => simp [Tables.walletOf, found]
  | opened absent fresh => simp [Tables.walletOf, absent]

/-- Whether the wallet of a unit is new or not, what counts is its last version. -/
theorem Opens.putWallet_eq {user : UserId} {wallet later : Wallet} {first : Tables} {draft : Draft}
    (opens : Opens stamp tables user wallet first draft)
    (same : later.id = wallet.id ∧ later.owner = wallet.owner) :
    first.putWallet later = tables.putWallet later := by
  cases opens with
  | known found => rfl
  | opened absent fresh => exact Tables.putWallet_putWallet same.1 same.2 tables

/-- The holds of orders are found as they are in the tables. -/
theorem Opens.finds {user : UserId} {wallet : Wallet} {first : Tables} {draft : Draft}
    (opens : Opens stamp tables user wallet first draft) (unread : draft.kept.entries = .empty)
    (order : OrderId) :
    (Work.pendingHold? order).run draft =
      .ok (tables.pendingHold? order, draft.keepHold (tables.pendingHold? order)) := by
  refine Work.pendingHold?_eq_ok.mpr ⟨?_, rfl⟩
  rw [Draft.pendingHold?_of_clean unread, opens.base]

/-- A wallet that a unit only asks for is as good as put. -/
theorem Opens.first_eq (sound : tables.Sound) {user : UserId} {wallet : Wallet} {first : Tables}
    {draft : Draft} (opens : Opens stamp tables user wallet first draft) :
    first = tables.putWallet wallet := by
  cases opens with
  | known found => exact (Tables.putWallet_self sound found).symm
  | opened absent fresh => rfl

/-- A deposit enacts its decision. -/
theorem deposit_apply (fresh : Fresh stamp tables) (settings : Settings) (user : UserId)
    (value : Decimal) :
    Ledger.deposit settings user value stamp { tables } =
      enact tables (Decision.deposit settings user value stamp tables) := by
  refine enact_rule fun amount _ => ?_
  rw [transact_bind_apply]
  obtain ⟨wallet, first, draft, found, opens, _⟩ := Work.exists_wallet fresh (.start tables) user
  obtain rfl := opens.wallet_eq
  cases credit : (tables.walletOf stamp user).credit amount stamp.now with
  | error overflow =>
    refine enact_of_error ?_ rfl
    rw [Work.bind_of_ok found, credit]
    rfl
  | ok credited =>
    have same := Wallet.same_of_credit credit
    refine enact_of_ok (by rw [Work.bind_of_ok found, credit]; rfl) rfl rfl ?_
    rw [opens.write_moved same.1 same.2, opens.putWallet_eq same]
    rfl

/-- A top-up that is recorded enacts its decision, which is always taken. -/
theorem recordTopUp_booked (sound : tables.Sound) (fresh : Fresh stamp tables) (user : UserId)
    (amount : Amount) (session : String) : Ledger.recordTopUp user amount session stamp { tables } =
      enact tables (.ok (Decision.recordTopUp user amount session stamp tables)) := by
  rw [Ledger.recordTopUp, transact_bind_apply]
  obtain ⟨wallet, first, draft, found, opens, _⟩ := Work.exists_wallet fresh (.start tables) user
  obtain rfl := opens.wallet_eq
  refine enact_of_ok (by rw [Work.bind_of_ok found]; rfl) rfl rfl ?_
  rw [opens.write_putEntry, opens.first_eq sound]
  rfl

/-- The confirmation of a top-up enacts its decision. -/
theorem confirmTopUp_enacts (sound : tables.Sound) (session : String) (payment : Option String)
    (stamp : Stamp) : Ledger.confirmTopUp session payment stamp { tables } =
      enact tables (Decision.confirmTopUp session payment stamp tables) := by
  obtain ⟨result, after, run, confirmation⟩ := confirmTopUp_apply sound session payment stamp
  rw [run, Decision.confirmTopUp]
  cases confirmation with
  | unknown unnamed =>
    simp only [unnamed]
    rfl
  | settled named settled =>
    simp only [named, if_neg settled]
    rfl
  | overflowed named pending known owned full =>
    have located := sound.walletById?_of_get? known
    rw [owned] at located
    simp only [named, if_pos pending, located, full]
    rfl
  | @credited _ _ _ credited named pending known owned credit =>
    have located := sound.walletById?_of_get? known
    rw [owned] at located
    simp only [named, if_pos pending, located, credit, orOverflow, bind, Except.bind, pure,
      Except.pure, enact, Decision.receipt]
    cases credited.balance <;> rfl

/-- Changing the answer of a decision changes the answer alone. -/
theorem enact_map (change : α → β) (decision : Except Failure (Decision α)) (tables : Tables) :
    enact tables (decision.map (Decision.map change)) =
      ((enact tables decision).1.map change, (enact tables decision).2) := by
  cases decision <;> rfl

/-- The handling of a notice enacts its decision. -/
theorem apply_enacts (sound : tables.Sound) (notice : Notice) (stamp : Stamp) :
    Ledger.apply notice stamp { tables } = enact tables (Decision.handle notice stamp tables) := by
  unfold Ledger.apply Decision.handle
  split
  · cases notice.session? with
    | none => exact rule_apply _ _
    | some session =>
      simp only [enact_map, bind_apply, confirmTopUp_enacts sound]
      rcases enact tables (Decision.confirmTopUp session.id session.payment stamp tables) with
        ⟨_ | _ | _, after⟩ <;> rfl
  · rfl

/-- The registration of an order enacts its decision. -/
theorem register_apply (new : NewOrder) :
    Ledger.register new stamp { tables } = enact tables (Decision.register new stamp tables) := by
  refine enact_rule fun order _ => ?_
  have looked : Draft.orderAt? order.id { base := tables } = tables.orders.get? order.id :=
    Draft.orderAt?_of_clean rfl order.id
  rw [transact_apply]
  cases taken : tables.orders.get? order.id with
  | some other =>
    rw [Work.bind_of_error (Work.newOrder_of_some (looked.trans taken))]
    rfl
  | none =>
    have free : (Work.newOrder order.id).run { base := tables } = .ok ((), { base := tables }) :=
      Work.newOrder_eq_ok.mpr ⟨looked.trans taken, rfl⟩
    rw [Work.bind_of_ok free]
    rfl

/-- A unit that begins with an order goes on only with one that is in the right state. -/
theorem enact_orderIn (sound : tables.Sound) {id : OrderId} {allowed : List OrderStatus}
    {action : OrderAction} {rest : Order → Work α} {next : α → Call β}
    {decide : Order → Except Failure (Decision β)}
    (found : ∀ order start, start.Begun tables → tables.orders.get? order.id = some order →
      order.id = id → finish tables start (rest order) next = enact tables (decide order)) :
    (transact (Work.order id >>= fun order =>
        Work.rule (order.require allowed action) >>= fun _ => rest order) >>= next) { tables } =
      enact tables (Decision.orderIn allowed action id tables >>= decide) := by
  rw [transact_bind_apply]
  have looked : Draft.orderAt? id { base := tables } = tables.orders.get? id :=
    Draft.orderAt?_of_clean rfl id
  cases known : tables.orders.get? id with
  | none =>
    refine enact_of_error (Work.bind_of_error (Work.order_of_none (looked.trans known))) ?_
    rw [Decision.orderIn, known]
    rfl
  | some order =>
    have finds : (Work.order id).run { base := tables } =
        .ok (order, Draft.keepOrder id order { base := tables }) :=
      Work.order_eq_ok.mpr ⟨looked.trans known, rfl⟩
    rw [finish_bind finds]
    cases required : order.require allowed action with
    | error rejection =>
      refine enact_of_error (Work.bind_of_error (Work.rule_of_error rfl)) ?_
      rw [Decision.orderIn, known]
      simp only [Option.elim_some, orReject, bind, Except.bind, required]
    | ok done =>
      have decided : Decision.orderIn allowed action id tables = .ok order := by
        rw [Decision.orderIn, known]
        simp only [Option.elim_some, orReject, bind, Except.bind, required]
        rfl
      obtain rfl := sound.order_id known
      rw [decided, finish_bind (Work.rule_eq_ok.mpr ⟨rfl, rfl⟩)]
      exact found order _ ((Draft.Begun.start tables).keepOrder _ _) known rfl

section Settle

variable {order : Order} {wallet later : Wallet} {first : Tables} {draft : Draft} {entry : Entry}
  {status : OrderStatus} {action : OrderAction}

/-- Behind the step of the wallet the order moves on, and the rows are put. -/
theorem enact_conclude {start : Draft}
    (opens : Opens stamp tables order.customer wallet first draft)
    (same : later.id = wallet.id ∧ later.owner = wallet.owner)
    {work : Work (Wallet × Entry × Order)} (run : work.run start =
      (do
        let order ← Work.rule (order.advance status action stamp.now)
        Work.putWallet later
        Work.putEntry entry
        Work.putOrder order
        pure (later, entry, order) : Work (Wallet × Entry × Order)).run draft) :
    finish tables start work
      (fun (wallet, entry, order) => receipt wallet (some entry) (some order)) =
        enact tables (Decision.conclude status action stamp.now (fun row? => row?) order
        (.ok (later, some entry))) := by
  cases moves : order.advance status action stamp.now with
  | error rejection =>
    refine enact_of_error (run.trans (Work.bind_of_error (Work.rule_of_error moves))) ?_
    simp only [Decision.conclude, moves]
    rfl
  | ok moved =>
    have moving : (Work.rule (order.advance status action stamp.now)).run draft =
        .ok (moved, draft) :=
      Work.rule_eq_ok.mpr ⟨moves, rfl⟩
    have written : tables.write (((draft.putWallet later).putEntry entry).putOrder moved).batch =
        tables.book { wallet? := some later, order? := some moved, row? := some entry } := by
      rw [opens.write_ordered same.1 same.2, opens.putWallet_eq same]
      rfl
    refine enact_of_ok (run.trans (Work.bind_of_ok moving)) rfl ?_ written
    simp only [Decision.conclude, moves]
    rfl

/-- The same where no entry is shown, and the wallet and its entry are put before the order moves
on. -/
theorem enact_release {later : Wallet} {row? : Option Entry} {start : Draft}
    {work : Work (Wallet × Order)} (middle : Draft)
    (run : work.run start =
      (do
        let order ← Work.rule (order.advance status action stamp.now)
        Work.putOrder order
        pure (later, order) : Work (Wallet × Order)).run middle)
    (written : ∀ moved, tables.write (middle.putOrder moved).batch =
      tables.book { wallet? := some later, order? := some moved, row? }) :
    finish tables start work (fun (wallet, order) => receipt wallet none (some order)) =
      enact tables (Decision.conclude status action stamp.now (fun _ => none) order
        (.ok (later, row?))) := by
  cases moves : order.advance status action stamp.now with
  | error rejection =>
    refine enact_of_error (run.trans (Work.bind_of_error (Work.rule_of_error moves))) ?_
    simp only [Decision.conclude, moves]
    rfl
  | ok moved =>
    have moving : (Work.rule (order.advance status action stamp.now)).run middle =
        .ok (moved, middle) :=
      Work.rule_eq_ok.mpr ⟨moves, rfl⟩
    refine enact_of_ok (run.trans (Work.bind_of_ok moving)) rfl ?_ (written moved)
    simp only [Decision.conclude, moves]
    rfl

end Settle

/-- A hold enacts its decision. -/
theorem hold_apply (sound : tables.Sound) (fresh : Fresh stamp tables) (id : OrderId) :
    Ledger.hold id stamp { tables } = enact tables (Decision.hold id stamp tables) := by
  refine enact_orderIn sound fun order start begun known same => ?_
  subst same
  obtain ⟨wallet, first, draft, found, opens, unread⟩ :=
    Work.exists_wallet fresh begun order.customer
  obtain rfl := opens.wallet_eq
  rw [Decision.holdStep]
  cases reserve : (tables.walletOf stamp order.customer).reserve order.total stamp.now with
  | error failure =>
    exact enact_of_error
      ((Work.bind_of_ok found).trans (Work.bind_of_error (Work.liftM_of_error reserve))) rfl
  | ok reserved =>
    refine enact_conclude opens (Wallet.same_of_reserve reserve) ?_
    rw [Work.bind_of_ok found, Work.bind_of_ok (Work.liftM_eq_ok.mpr ⟨reserve, rfl⟩)]

/-- A capture enacts its decision. -/
theorem capture_apply (sound : tables.Sound) (fresh : Fresh stamp tables) (id : OrderId) :
    Ledger.capture id stamp { tables } = enact tables (Decision.capture id stamp tables) := by
  refine enact_orderIn sound fun order start begun known same => ?_
  subst same
  obtain ⟨wallet, first, draft, found, opens, unread⟩ :=
    Work.exists_wallet fresh begun order.customer
  obtain rfl := opens.wallet_eq
  have finds := opens.finds unread order.id
  rw [Decision.captureStep]
  cases holds : tables.pendingHold? order.id with
  | none =>
    refine enact_of_error ?_ rfl
    rw [Work.bind_of_ok found, Work.bind_of_ok finds, holds]
    rfl
  | some entry =>
    rw [holds] at finds
    cases settle : (tables.walletOf stamp order.customer).settle entry.amount stamp.now with
    | error failure =>
      refine enact_of_error ?_ (by simp only [settle]; rfl)
      rw [Work.bind_of_ok found, Work.bind_of_ok finds,
        Work.bind_of_ok (Work.demand_eq_ok.mpr ⟨rfl, rfl⟩),
        Work.bind_of_error (Work.liftM_of_error settle)]
    | ok settled =>
      simp only [settle]
      refine enact_conclude (opens.keepHold (some entry)) (Wallet.same_of_settle settle) ?_
      rw [Work.bind_of_ok found, Work.bind_of_ok finds,
        Work.bind_of_ok (Work.demand_eq_ok.mpr ⟨rfl, rfl⟩),
        Work.bind_of_ok (Work.liftM_eq_ok.mpr ⟨settle, rfl⟩)]

/-- A refund enacts its decision. -/
theorem refund_apply (sound : tables.Sound) (fresh : Fresh stamp tables) (id : OrderId) :
    Ledger.refund id stamp { tables } = enact tables (Decision.refund id stamp tables) := by
  refine enact_orderIn sound fun order start begun known same => ?_
  subst same
  obtain ⟨wallet, first, draft, found, opens, unread⟩ :=
    Work.exists_wallet fresh begun order.customer
  obtain rfl := opens.wallet_eq
  rw [Decision.refundStep]
  cases credit : (tables.walletOf stamp order.customer).credit order.total stamp.now with
  | error overflow =>
    refine enact_of_error ?_ rfl
    rw [Work.bind_of_ok found, credit]
    rfl
  | ok credited =>
    refine enact_conclude opens (Wallet.same_of_credit credit) ?_
    rw [Work.bind_of_ok found, Work.bind_of_ok (Work.arithmetic_eq_ok.mpr ⟨credit, rfl⟩)]

/-- A release enacts its decision, whatever its precondition. -/
theorem release_apply (sound : tables.Sound) (fresh : Fresh stamp tables) (id : OrderId)
    (precondition : Order → Except Rejection Unit) :
    Ledger.release id precondition stamp { tables } =
      enact tables (Decision.release id precondition stamp tables) := by
  refine enact_orderIn sound fun order start begun known same => ?_
  subst same
  rw [Decision.releaseStep]
  cases asked : precondition order with
  | error rejection => exact enact_of_error (Work.bind_of_error (Work.rule_of_error rfl)) rfl
  | ok accepted =>
    have accepts : (Work.rule (.ok accepted : Except Rejection Unit)).run start =
        .ok (accepted, start) := Work.rule_eq_ok.mpr ⟨rfl, rfl⟩
    obtain ⟨wallet, first, draft, found, opens, unread⟩ :=
      Work.exists_wallet fresh begun order.customer
    obtain rfl := opens.wallet_eq
    have finds := opens.finds unread order.id
    cases holds : tables.pendingHold? order.id with
    | none =>
      rw [holds] at finds
      by_cases pending : order.status = .pending
      · simp only [if_pos pending]
        refine enact_release (draft.keepHold none) ?_ fun moved => ?_
        · rw [Work.bind_of_ok accepts, Work.bind_of_ok found, Work.bind_of_ok finds]
          simp only
          rw [Work.bind_of_ok (Work.pure_eq_ok.mpr ⟨rfl, rfl⟩)]
        · rw [(opens.keepHold none).write_putOrder, opens.first_eq sound]
          rfl
      · refine enact_of_error ?_ (by simp only [if_neg pending]; rfl)
        rw [Work.bind_of_ok accepts, Work.bind_of_ok found, Work.bind_of_ok finds]
        simp only [if_neg pending]
        rfl
    | some entry =>
      rw [holds] at finds
      cases release : (tables.walletOf stamp order.customer).release entry.amount stamp.now with
      | error failure =>
        refine enact_of_error ?_ (by simp only [release]; rfl)
        rw [Work.bind_of_ok accepts, Work.bind_of_ok found, Work.bind_of_ok finds]
        exact Work.bind_of_error (Work.liftM_of_error release)
      | ok freed =>
        have same := Wallet.same_of_release release
        simp only [release]
        let middle := ((draft.keepHold (some entry)).putWallet freed).putEntry
          (entry.cancel stamp.now)
        refine enact_release middle ?_ fun moved => ?_
        · rw [Work.bind_of_ok accepts, Work.bind_of_ok found, Work.bind_of_ok finds]
          simp only
          rw [release]
          rfl
        · refine ((opens.keepHold _).write_ordered same.1 same.2
            (entry.cancel stamp.now) moved).trans ?_
          rw [opens.putWallet_eq same]
          rfl

/-- An advance of an order enacts its decision. -/
theorem advance_apply (sound : tables.Sound) (id : OrderId) (allowed : List OrderStatus)
    (next : OrderStatus) (action : OrderAction) :
    Ledger.advance id allowed next action stamp { tables } =
      enact tables (Decision.advance id allowed next action stamp tables) := by
  rw [advance, ← bind_pure (transact _)]
  refine enact_orderIn sound fun order start begun known same => ?_
  cases moves : order.advance next action stamp.now with
  | error rejection => exact enact_of_error (Work.bind_of_error (Work.rule_of_error rfl)) rfl
  | ok moved =>
    have put : (do Work.putOrder moved; pure moved : Work Order).run start =
        .ok (moved, start.putOrder moved) := rfl
    rw [finish_bind (Work.rule_eq_ok.mpr ⟨rfl, rfl⟩), finish_of_ok put]
    simp only [Draft.putOrder, begun.batch]
    rfl

/-! Ordering puts checks in front. -/

/-- The placement of an order enacts the decision of its hold, once the actor may do it. -/
theorem place_apply (sound : tables.Sound) (fresh : Fresh stamp tables) (actor : Actor)
    (id : OrderId) :
    Ledger.place actor id stamp { tables } =
      enact tables (Decision.place actor id stamp tables) := by
  unfold place Decision.place
  rw [bind_apply, get_apply]
  cases known : tables.orders.get? id with
  | none => simp only [known]; exact rule_apply _ _
  | some order =>
    simp only [known]
    by_cases owns : actor.owns order.customer = true
    · simp only [if_pos owns]
      exact hold_apply sound fresh id
    · simp only [if_neg owns]
      exact rule_apply _ _

/-- The preparation of an order enacts its decision. -/
theorem prepare_apply (sound : tables.Sound) (actor : Actor) (id : OrderId) :
    Ledger.prepare actor id stamp { tables } =
      enact tables (Decision.prepare actor id stamp tables) :=
  enact_rule fun _ _ => advance_apply sound id _ _ _

/-- A charge enacts the decision of its capture, once the actor may do it. -/
theorem charge_apply (sound : tables.Sound) (fresh : Fresh stamp tables) (actor : Actor)
    (id : OrderId) :
    Ledger.charge actor id stamp { tables } =
      enact tables (Decision.charge actor id stamp tables) :=
  enact_rule fun _ _ => capture_apply sound fresh id

/-- The completion of an order enacts its decision. -/
theorem complete_apply (sound : tables.Sound) (actor : Actor) (id : OrderId) :
    Ledger.complete actor id stamp { tables } =
      enact tables (Decision.complete actor id stamp tables) :=
  enact_rule fun _ _ => advance_apply sound id _ _ _

/-- A repayment enacts the decision of its refund, once the actor may do it. -/
theorem repay_apply (sound : tables.Sound) (fresh : Fresh stamp tables) (actor : Actor)
    (id : OrderId) :
    Ledger.repay actor id stamp { tables } = enact tables (Decision.repay actor id stamp tables) :=
  enact_rule fun _ _ => refund_apply sound fresh id

/-- A cancellation enacts the decision of its release, once the settings can be used. -/
theorem cancel_apply (sound : tables.Sound) (fresh : Fresh stamp tables) (settings : Settings)
    (actor : Actor) (id : OrderId) (now : Instant) :
    Ledger.cancel settings actor id now stamp { tables } =
      enact tables (Decision.cancel settings actor id now stamp tables) :=
  enact_rule fun _ _ => release_apply sound fresh id _

end Enact

end Prepaid.Ledger
