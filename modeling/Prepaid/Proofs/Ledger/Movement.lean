import Prepaid.Proofs.Ledger.Calls

/-!
# What movements commit

Every call of `Prepaid.Ledger.Movement` and `Prepaid.Ledger.Ordering` commits one
change and nothing if it is rejected, provided the tables are sound and the stamp
is fresh. What opens a top-up is said in full by `recordTopUp_apply`; confirmations
of top-ups are left to `Prepaid.Proofs.Ledger.Delivery`.
-/

namespace Prepaid.Ledger

/-! ## The wallet of a unit of work -/

/-- A unit of work has asked for the wallet of a user. `first` are the tables as if the wallet, in
case it is new, had been written on its own. -/
inductive Opens (stamp : Stamp) (tables : Tables) (user : UserId) : Wallet → Tables → Draft →
    Prop where
  | known {wallet : Wallet} {draft : Draft} (found : tables.wallets.get? user = some wallet)
      (base : draft.base = tables) (batch : draft.batch = {}) : Opens stamp tables user wallet
        tables draft
  | opened {draft : Draft} (absent : tables.wallets.get? user = none)
      (fresh : tables.owners.get? stamp.wallet = none) (base : draft.base = tables)
      (batch : draft.batch =
        { wallets := Table.empty.put user (.empty stamp.wallet user stamp.now) }) :
      Opens stamp tables user (.empty stamp.wallet user stamp.now)
        (tables.putWallet (.empty stamp.wallet user stamp.now)) draft

/-- A unit of work that asks for a wallet gets the user's, or opens one. -/
theorem Work.wallet_opens {stamp : Stamp} {tables : Tables} {user : UserId} {wallet : Wallet}
    {start draft : Draft} (fresh : Fresh stamp tables) (begun : start.Begun tables)
    (run : (Work.wallet user stamp).run start = .ok (wallet, draft)) :
    (∃ first, Opens stamp tables user wallet first draft) ∧ draft.kept.entries = .empty := by
  have looked := Draft.walletAt?_of_clean begun.wallets user
  rw [begun.base] at looked
  rcases Work.wallet_eq_ok.mp run with ⟨found, rfl⟩ | ⟨absent, rfl, rfl⟩
  · exact ⟨⟨tables, .known (looked.symm.trans found) begun.base begun.batch⟩, begun.entries⟩
  · refine ⟨⟨_, .opened (looked.symm.trans absent) fresh.wallet begun.base ?_⟩, begun.entries⟩
    simp only [Draft.putWallet, begun.batch]
    rfl

/-- Every user has a wallet when it is asked for. -/
theorem Work.exists_wallet {stamp : Stamp} {tables : Tables} {start : Draft}
    (fresh : Fresh stamp tables) (begun : start.Begun tables) (user : UserId) :
    ∃ wallet first draft, (Work.wallet user stamp).run start = .ok (wallet, draft) ∧
      Opens stamp tables user wallet first draft ∧ draft.kept.entries = .empty := by
  obtain ⟨wallet, draft, run⟩ : ∃ wallet draft, (Work.wallet user stamp).run start =
      .ok (wallet, draft) := by
    cases known : start.walletAt? user with
    | some wallet => exact ⟨wallet, _, Work.wallet_eq_ok.mpr (.inl ⟨known, rfl⟩)⟩
    | none => exact ⟨_, _, Work.wallet_eq_ok.mpr (.inr ⟨known, rfl, rfl⟩)⟩
  obtain ⟨⟨first, opens⟩, unread⟩ := Work.wallet_opens fresh begun run
  exact ⟨wallet, first, draft, run, opens, unread⟩

namespace Tables

/-- The last version of a wallet is the only one that counts. -/
theorem putWallet_putWallet {old new : Wallet} (id : new.id = old.id)
    (owner : new.owner = old.owner) (tables : Tables) :
    (tables.putWallet old).putWallet new = tables.putWallet new := by
  simp only [putWallet, id, owner, Table.put_put]

end Tables

namespace Opens

variable {stamp : Stamp} {tables first : Tables} {user : UserId} {wallet : Wallet} {draft : Draft}

/-- Opening a wallet is upkeep. -/
theorem upkeeps (opens : Opens stamp tables user wallet first draft) :
    Upkeeps stamp tables first := by
  cases opens with
  | known => exact .refl
  | opened absent fresh => exact .single (.opened absent fresh)

/-- The wallet is the user's then. -/
theorem found (opens : Opens stamp tables user wallet first draft) :
    first.wallets.get? user = some wallet := by
  cases opens with
  | known found => exact found
  | opened absent fresh =>
    exact Tables.get?_putWallet_self (.empty stamp.wallet user stamp.now) tables

/-- The draft still stands on the tables it began with. -/
theorem base (opens : Opens stamp tables user wallet first draft) : draft.base = tables := by
  cases opens <;> assumption

/-- What else is read does not matter. -/
theorem keepHold (opens : Opens stamp tables user wallet first draft) (hold : Option Entry) :
    Opens stamp tables user wallet first (draft.keepHold hold) := by
  have base : (draft.keepHold hold).base = draft.base := by cases hold <;> rfl
  cases opens with
  | known found same batch =>
    exact .known found (base.trans same) ((Draft.batch_keepHold hold).trans batch)
  | opened absent fresh same batch =>
    exact .opened absent fresh (base.trans same) ((Draft.batch_keepHold hold).trans batch)

/-- Opening a wallet touches no orders. -/
theorem orders (opens : Opens stamp tables user wallet first draft) :
    first.orders = tables.orders := by
  cases opens <;> rfl

/-- Opening a wallet touches no entries. -/
theorem entries (opens : Opens stamp tables user wallet first draft) :
    first.entries = tables.entries := by
  cases opens <;> rfl

/-- A draft that has read no entries finds the holds of its tables. -/
theorem pendingHold? (opens : Opens stamp tables user wallet first draft)
    (unread : draft.kept.entries = .empty) (order : OrderId) :
    draft.pendingHold? order = first.pendingHold? order := by
  rw [Draft.pendingHold?_of_clean unread, opens.base]
  cases opens <;> rfl

/-- A hold that is found is among the entries. -/
theorem hold_found (opens : Opens stamp tables user wallet first draft) (sound : tables.Sound)
    {order : OrderId} {entry : Entry} (holds : first.pendingHold? order = some entry) :
    first.entries.get? entry.id = some entry :=
  ((opens.upkeeps.keeps Upkeep.sound sound).pendingHold?_spec holds).2.1

/-! What is written in the end is what is put on top of `first`. -/

/-- An entry that is put is written behind the wallet. -/
theorem write_putEntry (opens : Opens stamp tables user wallet first draft) (entry : Entry) :
    tables.write (draft.putEntry entry).batch = first.putEntry entry := by
  cases opens with
  | known _ _ batch | opened _ _ _ batch =>
    simp only [Draft.putEntry, batch]
    rfl

/-- An order that is put is written behind the wallet. -/
theorem write_putOrder (opens : Opens stamp tables user wallet first draft) (order : Order) :
    tables.write (draft.putOrder order).batch = first.putOrder order := by
  cases opens with
  | known _ _ batch | opened _ _ _ batch =>
    simp only [Draft.putOrder, batch]
    rfl

/-- A moved wallet and its entry are written as if the wallet had been opened before. -/
theorem write_moved (opens : Opens stamp tables user wallet first draft) {later : Wallet}
    (id : later.id = wallet.id) (owner : later.owner = wallet.owner) (entry : Entry) :
    tables.write ((draft.putWallet later).putEntry entry).batch =
      (first.putWallet later).putEntry entry := by
  cases opens with
  | known _ _ batch =>
    simp only [Draft.putWallet, Draft.putEntry, batch]
    rfl
  | opened _ _ _ batch =>
    rw [Tables.putWallet_putWallet id owner]
    simp only [Draft.putWallet, Draft.putEntry, batch, owner, Wallet.empty, Table.put_put]
    rfl

/-- A moved wallet, its entry and an order are written as if the wallet had been opened before. -/
theorem write_ordered (opens : Opens stamp tables user wallet first draft) {later : Wallet}
    (id : later.id = wallet.id) (owner : later.owner = wallet.owner) (entry : Entry)
    (order : Order) :
    tables.write (((draft.putWallet later).putEntry entry).putOrder order).batch =
      ((first.putWallet later).putOrder order).putEntry entry := by
  cases opens with
  | known _ _ batch =>
    simp only [Draft.putWallet, Draft.putEntry, Draft.putOrder, batch]
    rfl
  | opened _ _ _ batch =>
    rw [Tables.putWallet_putWallet id owner]
    simp only [Draft.putWallet, Draft.putEntry, Draft.putOrder, batch, owner, Wallet.empty,
      Table.put_put]
    rfl

end Opens

/-! ## Movements of money -/

section Movements

variable {stamp : Stamp} {tables : Tables}

/-- A deposit commits one change. -/
theorem deposit_commits (fresh : Fresh stamp tables) (settings : Settings) (user : UserId)
    (value : Decimal) : Commits stamp tables (deposit settings user value stamp) := by
  refine .rule fun amount _ => .receipt ?_ fun (wallet, entry) => ⟨_, _, _, rfl⟩
  refine .transact fun run => ?_
  simp only [Work.bind_eq_ok, Work.arithmetic_eq_ok, Work.putWallet_eq_ok, Work.putEntry_eq_ok,
    Work.pure_eq_ok] at run
  obtain ⟨wallet, _, found, credited, _, ⟨credit, rfl⟩, _, _, rfl, _, _, rfl, rfl, rfl⟩ := run
  obtain ⟨⟨first, opens⟩, _⟩ := Work.wallet_opens fresh (.start tables) found
  obtain ⟨sameId, sameOwner⟩ := Wallet.same_of_credit credit
  rw [opens.write_moved sameId sameOwner, sameId]
  have unused : first.entries.get? stamp.entry = none := by rw [opens.entries, fresh.entry]
  exact ⟨.before opens.upkeeps (Posting.deposited opens.found credit unused).change,
    (opens.upkeeps.sameSessions.putWallet _).putEntry_of_none unused rfl⟩

/-- A top-up is always recorded: the entry that waits for the session is put into the user's
wallet. -/
theorem recordTopUp_apply (fresh : Fresh stamp tables) (user : UserId) (amount : Amount)
    (session : String) :
    ∃ wallet first, Upkeeps stamp tables first ∧ first.wallets.get? user = some wallet ∧
      first.entries.get? stamp.entry = none ∧
      recordTopUp user amount session stamp { tables } =
        ((orOverflow wallet.balance).map fun balance =>
          ⟨balance,
            some (.pendingDeposit stamp.entry wallet.id amount wallet.current session stamp.now),
            none⟩,
        { tables := first.putEntry
            (.pendingDeposit stamp.entry wallet.id amount wallet.current session stamp.now) }) := by
  obtain ⟨wallet, first, draft, found, opens, _⟩ := Work.exists_wallet fresh (.start tables) user
  have unused : first.entries.get? stamp.entry = none := by rw [opens.entries, fresh.entry]
  refine ⟨wallet, first, opens.upkeeps, opens.found, unused, ?_⟩
  rw [recordTopUp, bind_apply, transact_apply, Work.bind_of_ok found]
  change receipt wallet
    (some (.pendingDeposit stamp.entry wallet.id amount wallet.current session stamp.now)) none
    { tables := tables.write (draft.putEntry _).batch } = _
  rw [receipt_apply, opens.write_putEntry]

/-- An order that is found without anything put is the one in the tables. -/
theorem order_found (sound : Tables.Sound tables) {id : OrderId} {order : Order}
    (found : Draft.orderAt? id { base := tables } = some order) :
    tables.orders.get? order.id = some order ∧ order.id = id := by
  rw [Draft.orderAt?_of_clean rfl] at found
  have same := sound.order_id found
  rw [same]
  exact ⟨found, rfl⟩

/-- A hold commits one change. -/
theorem hold_commits (sound : Tables.Sound tables) (fresh : Fresh stamp tables) (id : OrderId) :
    Commits stamp tables (hold id stamp) := by
  refine .receipt ?_ fun (wallet, entry, order) => ⟨_, _, _, rfl⟩
  refine .transact fun run => ?_
  simp only [Work.bind_eq_ok, Work.order_eq_ok, Work.rule_eq_ok, Order.require_eq_ok,
    Work.liftM_eq_ok, Order.advance_eq_ok, Work.putWallet_eq_ok, Work.putEntry_eq_ok,
    Work.putOrder_eq_ok, Work.pure_eq_ok] at run
  obtain ⟨order, _, ⟨ordered, rfl⟩, _, _, ⟨pending, rfl⟩, wallet, _, found, reserved, _,
    ⟨reserve, rfl⟩, _, _, ⟨⟨_, rfl⟩, rfl⟩, _, _, rfl, _, _, rfl, _, _, rfl, rfl, rfl⟩ := run
  obtain ⟨located, rfl⟩ := order_found sound ordered
  obtain ⟨⟨first, opens⟩, unread⟩ :=
    Work.wallet_opens fresh ((Draft.Begun.start tables).keepOrder _ _) found
  obtain ⟨sameId, sameOwner⟩ := Wallet.same_of_reserve reserve
  rw [opens.write_ordered sameId sameOwner, sameId]
  have present : first.orders.get? order.id = some order := by rw [opens.orders, located]
  have unused : first.entries.get? stamp.entry = none := by rw [opens.entries, fresh.entry]
  have waiting : order.status = .pending := List.mem_singleton.mp pending
  exact ⟨.before opens.upkeeps (Posting.held present waiting opens.found reserve unused).change,
    ((opens.upkeeps.sameSessions.putWallet _).putOrder _).putEntry_of_none unused rfl⟩

/-- A capture commits one change. -/
theorem capture_commits (sound : Tables.Sound tables) (fresh : Fresh stamp tables) (id : OrderId) :
    Commits stamp tables (capture id stamp) := by
  refine .receipt ?_ fun (wallet, entry, order) => ⟨_, _, _, rfl⟩
  refine .transact fun run => ?_
  simp only [Work.bind_eq_ok, Work.order_eq_ok, Work.rule_eq_ok, Order.require_eq_ok,
    Work.liftM_eq_ok, Work.pendingHold?_eq_ok, Work.demand_eq_ok, Order.advance_eq_ok,
    Work.putWallet_eq_ok, Work.putEntry_eq_ok, Work.putOrder_eq_ok, Work.pure_eq_ok] at run
  obtain ⟨order, _, ⟨ordered, rfl⟩, _, _, ⟨going, rfl⟩, wallet, _, found, _, _, ⟨rfl, rfl⟩, entry,
    _, ⟨holds, rfl⟩, settled, _, ⟨settle, rfl⟩, _, _, ⟨⟨_, rfl⟩, rfl⟩, _, _, rfl, _, _, rfl, _, _,
    rfl, rfl, rfl⟩ := run
  obtain ⟨located, rfl⟩ := order_found sound ordered
  obtain ⟨⟨first, opens⟩, unread⟩ :=
    Work.wallet_opens fresh ((Draft.Begun.start tables).keepOrder _ _) found
  obtain ⟨sameId, sameOwner⟩ := Wallet.same_of_settle settle
  rw [(opens.keepHold _).write_ordered sameId sameOwner]
  rw [opens.pendingHold? unread] at holds
  have present : first.orders.get? order.id = some order := by rw [opens.orders, located]
  have kept := (opens.upkeeps.sameSessions.putWallet settled).putOrder
    (order.moveTo .paid stamp.now)
  have known := opens.hold_found sound holds
  exact ⟨.before opens.upkeeps (Posting.captured present going opens.found holds settle).change,
    kept.putEntry_of_some known rfl⟩

/-- A release commits one change, whatever its precondition. -/
theorem release_commits (sound : Tables.Sound tables) (fresh : Fresh stamp tables) (id : OrderId)
    (precondition : Order → Except Rejection Unit) :
    Commits stamp tables (release id precondition stamp) := by
  refine .receipt ?_ fun (wallet, order) => ⟨_, _, _, rfl⟩
  refine .transact fun run => ?_
  simp only [Work.bind_eq_ok, Work.order_eq_ok, Work.rule_eq_ok, Order.require_eq_ok,
    Work.pendingHold?_eq_ok] at run
  obtain ⟨order, _, ⟨ordered, rfl⟩, _, _, ⟨going, rfl⟩, _, _, ⟨_, rfl⟩, wallet, _, found, hold?, _,
    ⟨holds, rfl⟩, run⟩ := run
  obtain ⟨located, rfl⟩ := order_found sound ordered
  obtain ⟨⟨first, opens⟩, unread⟩ :=
    Work.wallet_opens fresh ((Draft.Begun.start tables).keepOrder _ _) found
  rw [opens.pendingHold? unread] at holds
  have present : first.orders.get? order.id = some order := by rw [opens.orders, located]
  cases hold? with
  | some entry =>
    simp only [Work.bind_eq_ok, Work.liftM_eq_ok, Work.rule_eq_ok, Order.advance_eq_ok,
      Work.putWallet_eq_ok, Work.putEntry_eq_ok, Work.putOrder_eq_ok, Work.pure_eq_ok] at run
    obtain ⟨freed, _, ⟨release, rfl⟩, _, _, rfl, _, _, rfl, _, _, ⟨rfl, rfl⟩, _, _, ⟨⟨_, rfl⟩, rfl⟩,
      _, _, rfl, rfl, rfl⟩ := run
    obtain ⟨sameId, sameOwner⟩ := Wallet.same_of_release release
    rw [(opens.keepHold _).write_ordered sameId sameOwner]
    have kept := (opens.upkeeps.sameSessions.putWallet freed).putOrder
      (order.moveTo .cancelled stamp.now)
    have known := opens.hold_found sound holds
    exact ⟨.before opens.upkeeps (Posting.released present going opens.found holds release).change,
      kept.putEntry_of_some known rfl⟩
  | none =>
    simp only at run
    split at run
    · next pending =>
      simp only [Work.bind_eq_ok, Work.rule_eq_ok, Order.advance_eq_ok, Work.putOrder_eq_ok,
        Work.pure_eq_ok] at run
      obtain ⟨_, _, ⟨rfl, rfl⟩, _, _, ⟨⟨_, rfl⟩, rfl⟩, _, _, rfl, rfl, rfl⟩ := run
      rw [(opens.keepHold none).write_putOrder]
      exact ⟨.before opens.upkeeps (Posting.dropped present pending).change,
        opens.upkeeps.sameSessions.putOrder _⟩
    · simp only [Work.bind_eq_ok, Work.reject_eq_ok, false_and, exists_false] at run

/-- A refund commits one change. -/
theorem refund_commits (sound : Tables.Sound tables) (fresh : Fresh stamp tables) (id : OrderId) :
    Commits stamp tables (refund id stamp) := by
  refine .receipt ?_ fun (wallet, entry, order) => ⟨_, _, _, rfl⟩
  refine .transact fun run => ?_
  simp only [Work.bind_eq_ok, Work.order_eq_ok, Work.rule_eq_ok, Order.require_eq_ok,
    Work.arithmetic_eq_ok, Order.advance_eq_ok, Work.putWallet_eq_ok, Work.putEntry_eq_ok,
    Work.putOrder_eq_ok, Work.pure_eq_ok] at run
  obtain ⟨order, _, ⟨ordered, rfl⟩, _, _, ⟨paid, rfl⟩, wallet, _, found, credited, _,
    ⟨credit, rfl⟩, _, _, ⟨⟨_, rfl⟩, rfl⟩, _, _, rfl, _, _, rfl, _, _, rfl, rfl, rfl⟩ := run
  obtain ⟨located, rfl⟩ := order_found sound ordered
  obtain ⟨⟨first, opens⟩, unread⟩ :=
    Work.wallet_opens fresh ((Draft.Begun.start tables).keepOrder _ _) found
  obtain ⟨sameId, sameOwner⟩ := Wallet.same_of_credit credit
  rw [opens.write_ordered sameId sameOwner, sameId]
  have present : first.orders.get? order.id = some order := by rw [opens.orders, located]
  have unused : first.entries.get? stamp.entry = none := by rw [opens.entries, fresh.entry]
  simp only [List.mem_cons, List.not_mem_nil, or_false] at paid
  exact ⟨.before opens.upkeeps (Posting.refunded present paid opens.found credit unused).change,
    ((opens.upkeeps.sameSessions.putWallet _).putOrder _).putEntry_of_none unused rfl⟩

/-! ## Ordering -/

/-- A registration commits one change. -/
theorem register_commits (order : NewOrder) : Commits stamp tables (register order stamp) := by
  refine .rule fun order registered => .transact fun run => ?_
  simp only [Work.bind_eq_ok, Work.newOrder_eq_ok, Work.putOrder_eq_ok, Work.pure_eq_ok] at run
  obtain ⟨_, _, ⟨new, rfl⟩, _, _, rfl, rfl, rfl⟩ := run
  rw [Draft.orderAt?_of_clean rfl] at new
  exact ⟨(Posting.registered new (Order.pending_of_register registered)).change,
    (Tables.SameSessions.refl tables).putOrder order⟩

/-- Moving an order on without money is one of the two postings that do so. -/
theorem advance_commits (sound : Tables.Sound tables) (id : OrderId) {allowed : List OrderStatus}
    {next : OrderStatus} (action : OrderAction)
    (step : allowed = [.confirmed] ∧ next = .preparing ∨ allowed = [.paid] ∧ next = .completed) :
    Commits stamp tables (advance id allowed next action stamp) := by
  refine .transact fun run => ?_
  simp only [Work.bind_eq_ok, Work.order_eq_ok, Work.rule_eq_ok, Order.require_eq_ok,
    Order.advance_eq_ok, Work.putOrder_eq_ok, Work.pure_eq_ok] at run
  obtain ⟨order, _, ⟨ordered, rfl⟩, _, _, ⟨member, rfl⟩, _, _, ⟨⟨_, rfl⟩, rfl⟩, _, _, rfl, rfl,
      rfl⟩ := run
  obtain ⟨located, rfl⟩ := order_found sound ordered
  refine ⟨?_, (Tables.SameSessions.refl tables).putOrder (order.moveTo next stamp.now)⟩
  rcases step with ⟨rfl, rfl⟩ | ⟨rfl, rfl⟩
  · exact (Posting.prepared located (List.mem_singleton.mp member)).change
  · exact (Posting.completed located (List.mem_singleton.mp member)).change

/-- A placement commits what its hold does. -/
theorem place_commits (sound : Tables.Sound tables) (fresh : Fresh stamp tables) (actor : Actor)
    (id : OrderId) : Commits stamp tables (place actor id stamp) := by
  refine .read ?_
  simp only
  split
  · exact .refused _
  · split
    · exact hold_commits sound fresh id
    · exact .refused _

/-- A preparation commits one change. -/
theorem prepare_commits (sound : Tables.Sound tables) (actor : Actor) (id : OrderId) :
    Commits stamp tables (prepare actor id stamp) :=
  .rule fun _ _ => advance_commits sound id .prepare (.inl ⟨rfl, rfl⟩)

/-- A charge commits what its capture does. -/
theorem charge_commits (sound : Tables.Sound tables) (fresh : Fresh stamp tables) (actor : Actor)
    (id : OrderId) : Commits stamp tables (charge actor id stamp) :=
  .rule fun _ _ => capture_commits sound fresh id

/-- A completion commits one change. -/
theorem complete_commits (sound : Tables.Sound tables) (actor : Actor) (id : OrderId) :
    Commits stamp tables (complete actor id stamp) :=
  .rule fun _ _ => advance_commits sound id .complete (.inr ⟨rfl, rfl⟩)

/-- A repayment commits what its refund does. -/
theorem repay_commits (sound : Tables.Sound tables) (fresh : Fresh stamp tables) (actor : Actor)
    (id : OrderId) : Commits stamp tables (repay actor id stamp) :=
  .rule fun _ _ => refund_commits sound fresh id

/-- A cancellation commits what its release does. -/
theorem cancel_commits (sound : Tables.Sound tables) (fresh : Fresh stamp tables)
    (settings : Settings) (actor : Actor) (id : OrderId) (now : Instant) :
    Commits stamp tables (cancel settings actor id now stamp) :=
  .rule fun _ _ => release_commits sound fresh id _

end Movements

end Prepaid.Ledger
