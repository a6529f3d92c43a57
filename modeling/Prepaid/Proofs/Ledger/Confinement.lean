import Prepaid.Proofs.Ledger.Bookings

/-!
# What a call may touch

Every call that books has a scope: the wallet of one user, and one order. It touches
no other wallet and no other order, no record of a notice, and of all entries at most
one, which is in the wallet of that user. What it answers is what is stored then. Both
are read off the decision of a call: `Decision.Kept` says what the rows of a decision
have to be like, and each decision that is reached is kept within its scope.
-/

namespace Prepaid.Ledger

/-! ## Results of steps -/

/-- A sequence of results succeeds if both parts do. -/
theorem bind_result_eq_ok {α β : Type} {result : Except Failure α} {next : α → Except Failure β}
    {value : β} :
    (result >>= next) = .ok value ↔ ∃ reached, result = .ok reached ∧ next reached = .ok value := by
  cases result <;> simp [bind, Except.bind]

/-- A rule that is passed gives its value. -/
theorem orReject_eq_ok {α : Type} {result : Except Rejection α} {value : α} :
    orReject result = .ok value ↔ result = .ok value := by
  cases result <;> simp [orReject]

/-- A sum that is computed gives its value. -/
theorem orOverflow_eq_ok {α : Type} {result : Except Overflow α} {value : α} :
    orOverflow result = .ok value ↔ result = .ok value := by
  cases result <;> simp [orOverflow]

/-- A pure result is its value. -/
theorem pure_eq_ok {α : Type} {value result : α} :
    (pure value : Except Failure α) = .ok result ↔ value = result := by
  simp [pure, Except.pure]

/-! ## Scopes -/

/-- What a call is about: the user whose wallet it may move, and the order that it names. -/
structure Scope where
  holder? : Option UserId := none
  order? : Option OrderId := none

/-- An entry is in the wallet of the user of a scope. -/
def Scope.Holds (scope : Scope) (tables : Tables) (entry : Entry) : Prop :=
  ∃ user wallet, scope.holder? = some user ∧ tables.wallets.get? user = some wallet ∧
    entry.wallet = wallet.id

/-- All rows but those of a scope are the same, and of the entries in the wallet of the scope at
most one has changed or is new. -/
structure Tables.Confined (scope : Scope) (tables after : Tables) : Prop where
  wallets : ∀ user, scope.holder? ≠ some user → after.wallets.get? user = tables.wallets.get? user
  orders : ∀ id, scope.order? ≠ some id → after.orders.get? id = tables.orders.get? id
  entries : after.entries = tables.entries ∨
    ∃ entry, after.entries.get? entry.id = some entry ∧ scope.Holds after entry ∧
      (∀ old, tables.entries.get? entry.id = some old → old.wallet = entry.wallet) ∧
      ∀ id, id ≠ entry.id → after.entries.get? id = tables.entries.get? id
  notices : after.notices = tables.notices

/-- The order that a call answers with is stored, and it is the one of the scope. -/
def Scope.StoresOrder (scope : Scope) (tables : Tables) (order : Order) : Prop :=
  scope.order? = some order.id ∧ tables.orders.get? order.id = some order

/-- A balance shows a wallet: its owner, what there is, what is held of it, and the difference of
both. -/
structure Shows (balance : Balance) (wallet : Wallet) : Prop where
  owner : balance.owner = wallet.owner
  current : balance.current = wallet.current
  held : balance.held = wallet.held
  available : wallet.current.sub wallet.held = .ok balance.available

/-- What a receipt shows is stored, in the rows of the scope. -/
structure Scope.Stores (scope : Scope) (tables : Tables) (receipt : Receipt) : Prop where
  balance : ∃ user wallet, scope.holder? = some user ∧ tables.wallets.get? user = some wallet ∧
    wallet.balance = .ok receipt.balance ∧ Shows receipt.balance wallet
  entry : ∀ entry, receipt.entry = some entry → tables.entries.get? entry.id = some entry
  order : ∀ order, receipt.order = some order → scope.StoresOrder tables order

/-- The rows of a booking are those of a scope. An entry is booked together with its wallet. -/
structure Booking.Kept (scope : Scope) (tables : Tables) (booking : Booking) : Prop where
  wallet : ∀ wallet, booking.wallet? = some wallet → scope.holder? = some wallet.owner
  order : ∀ order, booking.order? = some order → scope.order? = some order.id
  row : ∀ entry, booking.row? = some entry → ∃ wallet, booking.wallet? = some wallet ∧
    entry.wallet = wallet.id ∧ ∀ old, tables.entries.get? entry.id = some old →
    old.wallet = entry.wallet

/-- A decision books within a scope and answers with what is stored then. -/
structure Decision.Kept {α : Type} (scope : Scope) (tables : Tables) (stored : Tables → α → Prop)
    (decision : Decision α) : Prop where
  booking : decision.booking.Kept scope tables
  answer : ∀ answer, decision.answer = .ok answer → stored (tables.book decision.booking) answer

section Book

variable {scope : Scope} {tables : Tables} {booking : Booking}

/-- No change is confined to any scope. -/
theorem Tables.Confined.refl (scope : Scope) (tables : Tables) : tables.Confined scope tables where
  wallets _ _ := rfl
  orders _ _ := rfl
  entries := .inl rfl
  notices := rfl

/-- A booking of nothing is kept within any scope. -/
theorem Booking.Kept.idle (scope : Scope) (tables : Tables) : Booking.Kept scope tables {} where
  wallet _ put := by cases put
  order _ put := by cases put
  row _ put := by cases put

/-- The wallet that is booked is stored. -/
theorem Tables.get?_book_wallet {wallet : Wallet} (put : booking.wallet? = some wallet) :
    (tables.book booking).wallets.get? wallet.owner = some wallet := by
  simp [Tables.book_wallets, put]

/-- The order that is booked is stored. -/
theorem Tables.get?_book_order {order : Order} (put : booking.order? = some order) :
    (tables.book booking).orders.get? order.id = some order := by
  simp [Tables.book_orders, put]

/-- The entry that is booked is stored. -/
theorem Tables.get?_book_entry {entry : Entry} (put : booking.row? = some entry) :
    (tables.book booking).entries.get? entry.id = some entry := by
  simp [Tables.book_entries, put]

namespace Booking.Kept

variable (kept : booking.Kept scope tables)

include kept

/-- A booking within a scope leaves all other rows as they were. -/
theorem confined : tables.Confined scope (tables.book booking) where
  wallets user other := by
    rw [Tables.book_wallets]
    cases put : booking.wallet? with
    | none => rfl
    | some wallet =>
      rw [Option.elim_some, Table.get?_put, if_neg]
      rintro rfl
      exact other (kept.wallet wallet put)
  orders id other := by
    rw [Tables.book_orders]
    cases put : booking.order? with
    | none => rfl
    | some order =>
      rw [Option.elim_some, Table.get?_put, if_neg]
      rintro rfl
      exact other (kept.order order put)
  entries := by
    cases put : booking.row? with
    | none => exact .inl (by rw [Tables.book_entries, put]; rfl)
    | some entry =>
      obtain ⟨wallet, walletAt, inside, replaced⟩ := kept.row entry put
      refine .inr ⟨entry, Tables.get?_book_entry put, ?_, replaced, ?_⟩
      · exact ⟨wallet.owner, wallet, kept.wallet wallet walletAt, Tables.get?_book_wallet walletAt,
          inside⟩
      · intro id other
        rw [Tables.book_entries, put, Option.elim_some, Table.get?_put,
          if_neg fun same => other same.symm]
  notices := Tables.book_notices booking tables

/-- A receipt that shows what is booked shows what is stored. -/
theorem receipt {wallet : Wallet} (put : booking.wallet? = some wallet) {shown : Option Entry}
    (shows : ∀ entry, shown = some entry → booking.row? = some entry) :
    Decision.Kept scope tables scope.Stores ⟨booking, Decision.receipt wallet shown booking.order?⟩
      where
  booking := kept
  answer answer answered := by
    obtain ⟨balance, balanced, rfl⟩ := map_eq_ok.mp answered
    have summed := orOverflow_eq_ok.mp balanced
    obtain ⟨available, left, rfl⟩ := Wallet.balance_eq_ok.mp summed
    exact
      { balance := ⟨wallet.owner, wallet, kept.wallet wallet put, Tables.get?_book_wallet put,
          summed, ⟨rfl, rfl, rfl, left⟩⟩
        entry := fun entry shown => Tables.get?_book_entry (shows entry shown)
        order := fun order moved => ⟨kept.order order moved, Tables.get?_book_order moved⟩ }

/-- A call that answers with the order it has booked stores that order. -/
theorem ordered {order : Order} (put : booking.order? = some order) :
    Decision.Kept scope tables scope.StoresOrder ⟨booking, .ok order⟩ where
  booking := kept
  answer _ := by
    rintro ⟨⟩
    exact ⟨kept.order order put, Tables.get?_book_order put⟩

end Booking.Kept

/-- An answer that is wrapped stores what the answer stores. -/
theorem Decision.Kept.map {α β : Type} {change : α → β} {stored : Tables → α → Prop}
    {shown : Tables → β → Prop} {decision : Decision α} (kept : decision.Kept scope tables stored)
    (wraps : ∀ tables answer, stored tables answer → shown tables (change answer)) :
    (decision.map change).Kept scope tables shown where
  booking := kept.booking
  answer wrapped answered := by
    obtain ⟨answer, inner, rfl⟩ := map_eq_ok.mp answered
    exact wraps _ _ (kept.answer answer inner)

end Book

/-! ## What is decided is kept -/

/-- Only staff pass where staff is required. -/
theorem requireStaff_eq_ok {actor : Actor} {action : OrderAction} {done : Unit} :
    requireStaff actor action = .ok done ↔ actor.isStaff = true := by
  unfold requireStaff
  split <;> simp_all

/-- Only its customer may cancel an order. -/
theorem cancellable_eq_ok {actor : Actor} {cutoff : Int} {now : Instant} {order : Order}
    {done : Unit} (accepted : cancellable actor cutoff now order = .ok done) :
    order.customer = actor.user := by
  unfold cancellable at accepted
  split at accepted
  · next owns => exact (of_decide_eq_true owns).symm
  · cases accepted

/-- A call of this user, who has a wallet or gets one. -/
abbrev Scope.ofUser (user : UserId) : Scope := { holder? := some user }

/-- A call about the money of an order. -/
def Scope.ofOrder (id : OrderId) (tables : Tables) : Scope where
  holder? := (tables.orders.get? id).map Order.customer
  order? := some id

/-- A call about the top-up of a session. -/
def Scope.ofSession (session : String) (tables : Tables) : Scope where
  holder? := (tables.entryForSession? session).bind fun entry => tables.owners.get? entry.wallet

section Decided

variable {stamp : Stamp} {tables : Tables} {user : UserId} {id : OrderId}

/-- The wallet of a user is the user's, whether it is there or new. -/
theorem owner_walletOf (sound : tables.Sound) (stamp : Stamp) (user : UserId) :
    (tables.walletOf stamp user).owner = user := by
  rw [Tables.walletOf]
  cases known : tables.wallets.get? user with
  | none => rfl
  | some wallet => exact sound.wallet_owner known

/-- A user's wallet is booked, with a new entry. -/
theorem Booking.Kept.new {wallet : Wallet} {entry : Entry} (fresh : Fresh stamp tables)
    (owner : wallet.owner = user) (inside : entry.wallet = wallet.id)
    (key : entry.id = stamp.entry) :
    Booking.Kept (.ofUser user) tables { wallet? := some wallet, row? := some entry } where
  wallet := by
    rintro _ ⟨⟩
    exact congrArg some owner.symm
  order _ put := by cases put
  row := by
    rintro _ ⟨⟩
    refine ⟨wallet, rfl, inside, Table.forall_of_none ?_⟩
    rw [key]
    exact fresh.entry

/-- A deposit keeps to its user. -/
theorem deposit_kept (sound : tables.Sound) (fresh : Fresh stamp tables) {settings : Settings}
    {value : Decimal} {decision : Decision Receipt}
    (decided : Decision.deposit settings user value stamp tables = .ok decision) :
    decision.Kept (.ofUser user) tables (Scope.Stores (.ofUser user)) := by
  simp only [Decision.deposit, bind_result_eq_ok, orReject_eq_ok, orOverflow_eq_ok, pure_eq_ok]
    at decided
  obtain ⟨amount, _, credited, credit, rfl⟩ := decided
  have owner := (Wallet.same_of_credit credit).2.trans (owner_walletOf sound stamp user)
  exact (Booking.Kept.new fresh owner rfl rfl).receipt rfl fun _ shown => shown

/-- A top-up that is recorded keeps to its user. -/
theorem recordTopUp_kept (sound : tables.Sound) (fresh : Fresh stamp tables) (amount : Amount)
    (session : String) :
    (Decision.recordTopUp user amount session stamp tables).Kept (.ofUser user) tables
      (Scope.Stores (.ofUser user)) :=
  (Booking.Kept.new fresh (owner_walletOf sound stamp user) rfl rfl).receipt rfl fun _ shown =>
    shown

/-- A confirmation keeps to the user and the order of its session's entry. -/
theorem confirmTopUp_kept (sound : tables.Sound) {session : String} {payment : Option String}
    {decision : Decision (Option Receipt)}
    (decided : Decision.confirmTopUp session payment stamp tables = .ok decision) :
    decision.Kept (.ofSession session tables) tables
      fun after answer => ∀ receipt, answer = some receipt →
      (Scope.ofSession session tables).Stores after receipt := by
  unfold Decision.confirmTopUp at decided
  cases named : tables.entryForSession? session with
  | none => simp only [named, reduceCtorEq] at decided
  | some entry =>
    simp only [named] at decided
    split at decided
    · cases located : tables.walletById? entry.wallet with
      | none => simp only [located, reduceCtorEq] at decided
      | some wallet =>
        simp only [located, bind_result_eq_ok, orOverflow_eq_ok, pure_eq_ok] at decided
        obtain ⟨credited, credit, rfl⟩ := decided
        obtain ⟨owner, owned, known⟩ := Option.bind_eq_some_iff.mp located
        obtain ⟨sameId, sameOwner⟩ := Wallet.same_of_credit credit
        have home := sound.wallet_owner known
        have same : wallet.id = entry.wallet := by
          obtain ⟨held, heldAt, heldId⟩ := sound.owner_iff.mp owned
          rw [known] at heldAt
          cases heldAt
          exact heldId
        have present := (sound.entryForSession?_spec named).2.1
        have kept : Booking.Kept (.ofSession session tables) tables
            { wallet? := some credited,
              row? := some (entry.confirm payment credited.current stamp.now) } :=
          { wallet := by
              rintro _ ⟨⟩
              simp only [Scope.ofSession, named, Option.bind_some, owned, sameOwner, home]
            order := fun _ put => by cases put
            row := by
              rintro _ ⟨⟩
              refine ⟨credited, rfl, (sameId.trans same).symm, fun old oldAt => ?_⟩
              rw [show (entry.confirm payment credited.current stamp.now).id = entry.id from rfl,
                present] at oldAt
              cases oldAt
              rfl }
        have stores :=
          kept.receipt rfl
            (fun row (shown : some (entry.confirm payment credited.current stamp.now) = some row) =>
            shown)
        exact stores.map fun _ _ stored _ shown => by
          cases shown
          exact stored
    · cases decided
      exact ⟨.idle _ _, by rintro _ ⟨⟩ _ ⟨⟩⟩

/-- A registration keeps to its order. -/
theorem register_kept {new : NewOrder} {decision : Decision Order}
    (decided : Decision.register new stamp tables = .ok decision) :
    decision.Kept { order? := some new.id } tables
      (Scope.StoresOrder { order? := some new.id }) := by
  simp only [Decision.register, bind_result_eq_ok, orReject_eq_ok] at decided
  obtain ⟨order, registered, decided⟩ := decided
  have named : order.id = new.id := by
    simp only [Order.register, bind, Except.bind] at registered
    split at registered <;> cases registered
    rfl
  cases taken : tables.orders.get? order.id with
  | some other => simp only [taken, reduceCtorEq] at decided
  | none =>
    simp only [taken, pure_eq_ok] at decided
    subst decided
    have kept : Booking.Kept { order? := some new.id } tables { order? := some order } :=
      { wallet := fun _ put => by cases put
        order := by
          rintro _ ⟨⟩
          rw [named]
        row := fun _ put => by cases put }
    exact kept.ordered rfl

/-- An order that is asked for is there, in one of the states that are allowed. -/
theorem orderIn_eq_ok {allowed : List OrderStatus} {action : OrderAction} {order : Order} :
    Decision.orderIn allowed action id tables = .ok order ↔
      tables.orders.get? id = some order ∧ order.status ∈ allowed := by
  simp only [Decision.orderIn, bind_result_eq_ok, orReject_eq_ok, pure_eq_ok, Order.require_eq_ok]
  cases tables.orders.get? id <;> simp [and_comm]

/-- An advance keeps to its order. -/
theorem advance_kept (sound : tables.Sound) {allowed : List OrderStatus} {next : OrderStatus}
    {action : OrderAction} {decision : Decision Order}
    (decided : Decision.advance id allowed next action stamp tables = .ok decision) :
    decision.Kept (.ofOrder id tables) tables (Scope.StoresOrder (.ofOrder id tables)) := by
  simp only [Decision.advance, bind_result_eq_ok, orReject_eq_ok, pure_eq_ok, orderIn_eq_ok]
    at decided
  obtain ⟨order, ⟨known, _⟩, moved, advanced, rfl⟩ := decided
  obtain ⟨_, rfl⟩ := Order.advance_eq_ok.mp advanced
  have kept :
      Booking.Kept (.ofOrder id tables) tables { order? := some (order.moveTo next stamp.now) } :=
    { wallet := fun _ put => by cases put
      order := by
        rintro _ ⟨⟩
        exact congrArg some (sound.order_id known).symm
      row := fun _ put => by cases put }
  exact kept.ordered rfl

/-! The money of an order moves in its customer's wallet. -/

/-- A step of a wallet keeps it the same wallet, and writes at most an entry of its own. -/
structure Strides (tables : Tables) (wallet : Wallet) (after : Wallet × Option Entry) : Prop where
  same : after.1.id = wallet.id ∧ after.1.owner = wallet.owner
  row : ∀ entry, after.2 = some entry → entry.wallet = after.1.id ∧
    ∀ old, tables.entries.get? entry.id = some old → old.wallet = entry.wallet

/-- A step that writes a new entry takes no other entry's place. -/
theorem Strides.new {wallet later : Wallet} {entry : Entry} (fresh : Fresh stamp tables)
    (same : later.id = wallet.id ∧ later.owner = wallet.owner) (inside : entry.wallet = later.id)
    (key : entry.id = stamp.entry) : Strides tables wallet (later, some entry) where
  same := same
  row := by
    rintro _ ⟨⟩
    refine ⟨inside, Table.forall_of_none ?_⟩
    rw [key]
    exact fresh.entry

/-- The hold of an order is in the wallet of its customer, and so is what it is settled with. -/
theorem Strides.settled {order : Order} {later : Wallet} {entry changed : Entry}
    (sound : tables.Sound) (agreed : tables.Agreed)
    (known : tables.orders.get? order.id = some order)
    (holds : tables.pendingHold? order.id = some entry)
    (same : later.id = (tables.walletOf stamp order.customer).id ∧
      later.owner = (tables.walletOf stamp order.customer).owner)
    (key : changed.id = entry.id) (inside : changed.wallet = entry.wallet) :
    Strides tables (tables.walletOf stamp order.customer) (later, some changed) where
  same := same
  row := by
    obtain ⟨own, present, _⟩ := sound.pendingHold?_spec holds
    obtain ⟨wallet, found, owned⟩ := (agreed.backed known).wallet entry own
    have home : tables.walletOf stamp order.customer = wallet := by
      rw [Tables.walletOf, found, Option.getD_some]
    rintro _ ⟨⟩
    refine ⟨by rw [same.1, home, owned, inside], fun old oldAt => ?_⟩
    rw [key, present] at oldAt
    cases oldAt
    exact inside.symm

/-- A hold writes a new entry in its wallet. -/
theorem holdStep_strides (fresh : Fresh stamp tables) {order : Order} {wallet : Wallet}
    {after : Wallet × Option Entry} (stepped : Decision.holdStep stamp order wallet = .ok after) :
    Strides tables wallet after := by
  simp only [Decision.holdStep, bind_result_eq_ok, pure_eq_ok] at stepped
  obtain ⟨reserved, reserve, rfl⟩ := stepped
  exact .new fresh (Wallet.same_of_reserve reserve) rfl rfl

/-- A refund writes a new entry in its wallet. -/
theorem refundStep_strides (fresh : Fresh stamp tables) {order : Order} {wallet : Wallet}
    {after : Wallet × Option Entry} (stepped : Decision.refundStep stamp order wallet = .ok after) :
    Strides tables wallet after := by
  simp only [Decision.refundStep, bind_result_eq_ok, orOverflow_eq_ok, pure_eq_ok] at stepped
  obtain ⟨credited, credit, rfl⟩ := stepped
  exact .new fresh (Wallet.same_of_credit credit) rfl rfl

/-- A capture rewrites the hold, which is in the same wallet. -/
theorem captureStep_strides (sound : tables.Sound) (agreed : tables.Agreed) {order : Order}
    (known : tables.orders.get? order.id = some order) {after : Wallet × Option Entry}
    (stepped : Decision.captureStep stamp tables order (tables.walletOf stamp order.customer) =
      .ok after) :
    Strides tables (tables.walletOf stamp order.customer) after := by
  unfold Decision.captureStep at stepped
  cases holds : tables.pendingHold? order.id with
  | none => simp only [holds, reduceCtorEq] at stepped
  | some entry =>
    simp only [holds, bind_result_eq_ok, pure_eq_ok] at stepped
    obtain ⟨settled, settle, rfl⟩ := stepped
    exact .settled sound agreed known holds (Wallet.same_of_settle settle) rfl rfl

/-- A release rewrites the hold in the same wallet, once its precondition is met. -/
theorem releaseStep_strides (sound : tables.Sound) (agreed : tables.Agreed) {order : Order}
    (known : tables.orders.get? order.id = some order)
    {precondition : Order → Except Rejection Unit} {after : Wallet × Option Entry}
    (stepped : Decision.releaseStep precondition stamp tables order
      (tables.walletOf stamp order.customer) = .ok after) :
    precondition order = .ok () ∧ Strides tables (tables.walletOf stamp order.customer) after := by
  simp only [Decision.releaseStep, bind_result_eq_ok, orReject_eq_ok] at stepped
  obtain ⟨_, accepted, stepped⟩ := stepped
  refine ⟨accepted, ?_⟩
  cases holds : tables.pendingHold? order.id with
  | none =>
    simp only [holds] at stepped
    split at stepped
    · obtain rfl := pure_eq_ok.mp stepped
      exact ⟨⟨rfl, rfl⟩, by rintro _ ⟨⟩⟩
    · cases stepped
  | some entry =>
    simp only [holds, bind_result_eq_ok, pure_eq_ok] at stepped
    obtain ⟨freed, release, rfl⟩ := stepped
    exact .settled sound agreed known holds (Wallet.same_of_release release) rfl rfl

/-- What concludes a step of a wallet keeps to the order and its customer. -/
theorem conclude_kept (sound : tables.Sound) {order : Order}
    (known : tables.orders.get? id = some order) {next : OrderStatus} {action : OrderAction}
    {now : Instant} {shown : Option Entry → Option Entry}
    (shows : ∀ row? entry, shown row? = some entry → row? = some entry)
    {stepped : Except Failure (Wallet × Option Entry)} {decision : Decision Receipt}
    (decided : Decision.conclude next action now shown order stepped = .ok decision)
    (strides : ∀ after, stepped = .ok after →
      Strides tables (tables.walletOf stamp order.customer) after) :
    decision.Kept (.ofOrder id tables) tables (Scope.Stores (.ofOrder id tables)) := by
  simp only [Decision.conclude, bind_result_eq_ok, orReject_eq_ok, pure_eq_ok] at decided
  obtain ⟨⟨wallet, row?⟩, taken, moved, advanced, rfl⟩ := decided
  obtain ⟨_, rfl⟩ := Order.advance_eq_ok.mp advanced
  have stride := strides _ taken
  have kept : Booking.Kept (.ofOrder id tables) tables
      { wallet? := some wallet, order? := some (order.moveTo next now), row? } :=
    { wallet := by
        rintro _ ⟨⟩
        have owner := stride.same.2.trans (owner_walletOf sound stamp order.customer)
        simp only [Scope.ofOrder, known, Option.map_some]
        exact congrArg some owner.symm
      order := by
        rintro _ ⟨⟩
        exact congrArg some (sound.order_id known).symm
      row := fun entry put => ⟨wallet, rfl, stride.row entry put⟩ }
  exact kept.receipt rfl (shows row?)

variable (sound : tables.Sound) {decision : Decision Receipt}

include sound

/-- A hold keeps to its order. -/
theorem hold_kept (fresh : Fresh stamp tables)
    (decided : Decision.hold id stamp tables = .ok decision) :
    decision.Kept (.ofOrder id tables) tables (Scope.Stores (.ofOrder id tables)) := by
  simp only [Decision.hold, bind_result_eq_ok, orderIn_eq_ok] at decided
  obtain ⟨order, ⟨known, _⟩, decided⟩ := decided
  exact conclude_kept sound known (fun _ _ shown => shown) decided fun _ stepped =>
    holdStep_strides fresh stepped

/-- A refund keeps to its order. -/
theorem refund_kept (fresh : Fresh stamp tables)
    (decided : Decision.refund id stamp tables = .ok decision) :
    decision.Kept (.ofOrder id tables) tables (Scope.Stores (.ofOrder id tables)) := by
  simp only [Decision.refund, bind_result_eq_ok, orderIn_eq_ok] at decided
  obtain ⟨order, ⟨known, _⟩, decided⟩ := decided
  exact conclude_kept sound known (fun _ _ shown => shown) decided fun _ stepped =>
    refundStep_strides fresh stepped

variable (agreed : tables.Agreed)

include agreed

/-- A capture keeps to its order. -/
theorem capture_kept (decided : Decision.capture id stamp tables = .ok decision) :
    decision.Kept (.ofOrder id tables) tables (Scope.Stores (.ofOrder id tables)) := by
  simp only [Decision.capture, bind_result_eq_ok, orderIn_eq_ok] at decided
  obtain ⟨order, ⟨known, _⟩, decided⟩ := decided
  obtain rfl := sound.order_id known
  exact conclude_kept sound known (fun _ _ shown => shown) decided fun _ stepped =>
    captureStep_strides sound agreed known stepped

/-- A release that goes through has met its precondition, besides. -/
theorem release_kept {precondition : Order → Except Rejection Unit}
    (decided : Decision.release id precondition stamp tables = .ok decision) :
    (∃ order, tables.orders.get? id = some order ∧ precondition order = .ok ()) ∧
      decision.Kept (.ofOrder id tables) tables (Scope.Stores (.ofOrder id tables)) := by
  simp only [Decision.release, bind_result_eq_ok, orderIn_eq_ok] at decided
  obtain ⟨order, ⟨known, _⟩, decided⟩ := decided
  obtain rfl := sound.order_id known
  constructor
  · obtain ⟨_, stepped, _⟩ := bind_result_eq_ok.mp decided
    exact ⟨order, known, (releaseStep_strides sound agreed known stepped).1⟩
  · exact conclude_kept sound known (fun _ _ shown => by cases shown) decided fun _ stepped =>
      (releaseStep_strides sound agreed known stepped).2

end Decided

end Prepaid.Ledger
