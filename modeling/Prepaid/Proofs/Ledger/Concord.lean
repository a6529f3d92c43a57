import Prepaid.Proofs.Ledger.Twins

/-!
# Calls that find the same

What is decided for a call in two ledgers in which it finds the same: it fails in both
for the same reason, or it books the same, but for identifiers and times, and answers
the same. All that it books belongs to the user whom the call is about.
-/

namespace Prepaid.Ledger

/-- Two entries are new to their ledgers, or take the places of entries that stand at the same
place. -/
inductive Placed (user : UserId) (tables twins : Tables) (entry twin : Entry) : Prop where
  | added (unused : tables.entries.get? entry.id = none)
      (free : twins.entries.get? twin.id = none) : Placed user tables twins entry twin
  | changed {old older : Entry}
      (abreast : Abreast (tables.rowsOf user) (twins.rowsOf user) old older)
      (id : old.id = entry.id) (other : older.id = twin.id) : Placed user tables twins entry twin

/-- Two entries that are put are the same but for identifiers and times, and so are their places if
they are the user's. -/
def Matching (user : UserId) (mine : Prop) (tables twins : Tables) (entry twin : Entry) : Prop :=
  entry.anonymous = twin.anonymous ∧ (mine → Placed user tables twins entry twin)

namespace Decision

/-- Two decisions book the same and answer the same, but for identifiers and times; the first one
books nothing but what belongs to the user, or nothing that does. -/
structure Alike {α β : Type} (user : UserId) (own : Name → Prop) (mine : Prop)
    (tables twins : Tables) (shown : α → β) (decision other : Decision α) : Prop where
  within : decision.booking.Within user own mine tables
  wallet : decision.booking.wallet?.map Wallet.anonymous =
    other.booking.wallet?.map Wallet.anonymous
  order : decision.booking.order?.map Order.anonymous = other.booking.order?.map Order.anonymous
  row : Option.Rel (Matching user mine tables twins) decision.booking.row? other.booking.row?
  answer : decision.answer.map shown = other.answer.map shown

end Decision

section Calls

variable {user customer : UserId} {own : Name → Prop} {mine : Prop} {tables twins : Tables}
  {stamp later : Stamp} {id : OrderId} {order moved : Order} {wallet twin : Wallet}

/-! ## What is put -/

/-- Entries that change alike keep their places in both ledgers. -/
theorem Counterparts.matching {entry other changed altered : Entry}
    (counterparts : Counterparts user mine tables twins entry other)
    (alike : changed.anonymous = altered.anonymous) (id : changed.id = entry.id)
    (same : altered.id = other.id) :
    Matching user mine tables twins changed altered :=
  ⟨alike, fun own => .changed (counterparts.2 own) id.symm same.symm⟩

namespace Tables

/-- The wallet that a call finds for a user is the user's, or the user's first one. -/
theorem Sound.walletOf_spec (sound : tables.Sound) (fresh : Fresh stamp tables)
    (customer : UserId) :
    (tables.walletOf stamp customer).owner = customer ∧
    tables.Admits (tables.walletOf stamp customer) := by
  rw [walletOf]
  cases known : tables.wallets.get? customer with
  | none => exact ⟨rfl, .inr ⟨known, fresh.wallet⟩⟩
  | some wallet =>
    have owner := sound.wallet_owner known
    refine ⟨owner, .inl (sound.owner_iff.mpr ⟨wallet, ?_, rfl⟩)⟩
    rw [Option.getD_some, owner, known]

end Tables

/-- The wallet of a user is alike in both ledgers, whether it is there or new. -/
theorem Beside.walletOf (beside : Beside user own mine tables twins)
    (about : customer = user ↔ mine) (stamp later : Stamp) :
    (tables.walletOf stamp customer).anonymous = (twins.walletOf later customer).anonymous := by
  rw [Tables.walletOf, Tables.walletOf]
  rcases (Option.Rel.of_map_eq (beside.wallet customer about)).none_or_some with
    ⟨absent, missing⟩ | ⟨wallet, twin, known, other, same⟩
  · rw [absent, missing]
    rfl
  · rw [known, other]
    exact same

/-- A wallet takes the same step in both ledgers. The entry that is written belongs to it, and any
entry that it takes the place of did. -/
structure Stepped (user : UserId) (own : Name → Prop) (mine : Prop) (tables twins : Tables)
    (wallet : Wallet) (after other : Wallet × Option Entry) : Prop where
  same : after.1.id = wallet.id ∧ after.1.owner = wallet.owner
  alike : after.1.anonymous = other.1.anonymous
  row : Option.Rel (Matching user mine tables twins) after.2 other.2
  inside : ∀ entry, after.2 = some entry → entry.wallet = wallet.id ∧
    (∀ session, entry.reference.session = some session → (own (.session session) ↔ mine)) ∧
      ∀ old, tables.entries.get? entry.id = some old → old.wallet = entry.wallet

namespace Stepped

variable {after other : Wallet} {row? twin? : Option Entry}

/-- Two steps that match write entries that are alike. -/
theorem rows (stepped : Stepped user own mine tables twins wallet (after, row?) (other, twin?)) :
    row?.map Entry.anonymous = twin?.map Entry.anonymous := by
  cases stepped.row with
  | none => rfl
  | some matching => exact congrArg some matching.1

/-- The step is booked, with an order or without, and answered with a receipt. -/
theorem decision (stepped : Stepped user own mine tables twins wallet (after, row?) (other, twin?))
    (owner : wallet.owner = user ↔ mine) (admits : tables.Admits wallet)
      {order? moved? : Option Order}
    (orders : order?.map Order.anonymous = moved?.map Order.anonymous)
    (ordered : ∀ order, order? = some order → (order.customer = user ↔ mine) ∧
      (own (.order order.id) ↔ mine))
    {shown? seen? : Option Entry} (shown : shown?.map Entry.anonymous = seen?.map Entry.anonymous) :
    Decision.Alike user own mine tables twins Receipt.anonymous
      ⟨⟨some after, order?, row?⟩, Decision.receipt after shown? order?⟩
      ⟨⟨some other, moved?, twin?⟩, Decision.receipt other seen? moved?⟩ where
  within :=
    { wallet := by
        rintro _ ⟨⟩
        obtain ⟨id, owned⟩ := stepped.same
        rw [owned, Tables.Admits, id, owned]
        exact ⟨owner, admits⟩
      order := ordered
      row := by
        intro entry put
        obtain ⟨inside, carries, replaced⟩ := stepped.inside entry put
        exact ⟨⟨after, rfl, stepped.same.1.trans inside.symm⟩, carries, replaced⟩ }
  wallet := congrArg some stepped.alike
  order := orders
  row := stepped.row
  answer := Decision.receipt_alike stepped.alike shown orders

/-- A call that is about no order is answered with its entry. -/
theorem deposited (stepped : Stepped user own mine tables twins wallet (after, row?) (other, twin?))
    (owner : wallet.owner = user ↔ mine) (admits : tables.Admits wallet) :
    Decision.Alike user own mine tables twins Receipt.anonymous
      ⟨{ wallet? := some after, row? }, Decision.receipt after row? none⟩
      ⟨{ wallet? := some other, row? := twin? }, Decision.receipt other twin? none⟩ := by
  refine stepped.decision owner admits rfl ?_ stepped.rows
  rintro _ ⟨⟩

end Stepped

/-- The answer of a decision may be wrapped. -/
theorem Decision.Alike.map {α β γ δ : Type} {shown : α → β} {wrap : α → γ} {seen : γ → δ}
    {outer : β → δ} {decision other : Decision α}
    (alike : decision.Alike user own mine tables twins shown other)
    (same : ∀ answer, seen (wrap answer) = outer (shown answer)) :
    (decision.map wrap).Alike user own mine tables twins seen (other.map wrap) where
  within := alike.within
  wallet := alike.wallet
  order := alike.order
  row := alike.row
  answer := by
    have answers := alike.answer
    simp only [Decision.map]
    cases left : decision.answer <;> cases right : other.answer <;>
      simp only [left, right, Except.map, reduceCtorEq, Except.error.injEq, Except.ok.injEq]
        at answers ⊢
    · exact answers
    · rw [same, same, answers]

/-- Nothing is booked, and the same is answered. -/
theorem Decision.Alike.idle {α β : Type} (shown : α → β) (answer : Except Failure α) :
    Decision.Alike user own mine tables twins shown ⟨{}, answer⟩ ⟨{}, answer⟩ where
  within := { wallet := by rintro _ ⟨⟩, order := by rintro _ ⟨⟩, row := by rintro _ ⟨⟩ }
  wallet := rfl
  order := rfl
  row := .none
  answer := rfl

/-- An order is booked, and answered. -/
theorem Decision.Alike.ordered (orders : order.anonymous = moved.anonymous)
    (about : order.customer = user ↔ mine) (named : own (.order order.id) ↔ mine) :
    Decision.Alike user own mine tables twins Order.anonymous
      ⟨{ order? := some order }, .ok order⟩ ⟨{ order? := some moved }, .ok moved⟩ where
  within :=
    { wallet := by rintro _ ⟨⟩
      order := by
        rintro _ ⟨⟩
        exact ⟨about, named⟩
      row := by rintro _ ⟨⟩ }
  wallet := rfl
  order := congrArg some orders
  row := .none
  answer := congrArg Except.ok orders

/-- The hold of an order is in the wallet of its customer, and carries no session. -/
theorem Tables.Portioned.hold_spec (portioned : tables.Portioned user own) (stamp : Stamp)
    (known : tables.orders.get? order.id = some order) {entry : Entry}
    (holds : tables.pendingHold? order.id = some entry) :
    tables.entries.get? entry.id = some entry ∧
      entry.wallet = (tables.walletOf stamp order.customer).id ∧
      ∀ session, entry.reference.session = some session → (own (.session session) ↔ mine) := by
  obtain ⟨sound, agreed, _⟩ := portioned
  obtain ⟨member, present, _⟩ := sound.pendingHold?_spec holds
  obtain ⟨wallet, walletAt, _⟩ := (agreed.backed known).wallet entry member
  obtain ⟨_, _, inside, nameless⟩ := agreed.hold_spec sound known walletAt holds
  refine ⟨present, ?_, fun session carries => ?_⟩
  · rw [Tables.walletOf, walletAt, Option.getD_some, inside]
  · cases nameless.symm.trans carries

/-- The entry of a session is in a wallet that is there, and is the user's if the session is. -/
theorem Tables.Portioned.session_spec (portioned : tables.Portioned user own) {session : String}
    {entry : Entry} (named : tables.entryForSession? session = some entry) :
    tables.entries.get? entry.id = some entry ∧ entry.reference.session = some session ∧
      ∃ wallet, tables.walletById? entry.wallet = some wallet ∧ wallet.id = entry.wallet ∧
        (wallet.owner = user ↔ own (.session session)) ∧ tables.Admits wallet := by
  obtain ⟨sound, _, _, parted⟩ := portioned
  obtain ⟨_, present, carries⟩ := sound.entryForSession?_spec named
  obtain ⟨_, wallet, known, inside⟩ := sound.entry_wallet present
  obtain rfl := sound.wallet_owner known
  have owned := sound.owner_iff.mpr ⟨wallet, known, inside⟩
  refine ⟨present, carries, wallet, ?_, inside, ?_, ?_⟩
  · rw [← inside]
    exact sound.walletById?_of_get? known
  · rw [← parted.session present carries, owned, Option.some.injEq]
  · rw [Tables.Admits, inside]
    exact .inl owned

/-- A changed entry is put in the place of one that is in the wallet. -/
theorem Stepped.of_known {entry found changed altered : Entry}
    (present : tables.entries.get? entry.id = some entry)
    (counterparts : Counterparts user mine tables twins entry found)
    (inside : entry.wallet = wallet.id)
    (carries : ∀ session, entry.reference.session = some session → (own (.session session) ↔ mine))
    {after other : Wallet} (same : after.id = wallet.id ∧ after.owner = wallet.owner)
    (alike : after.anonymous = other.anonymous) (rows : changed.anonymous = altered.anonymous)
    (kept : (changed.id, changed.wallet, changed.reference.session) =
      (entry.id, entry.wallet, entry.reference.session))
    (id : altered.id = found.id) :
    Stepped user own mine tables twins wallet (after, some changed) (other, some altered) := by
  simp only [Prod.mk.injEq] at kept
  obtain ⟨changedId, changedWallet, changedSession⟩ := kept
  refine { same, alike, row := .some (counterparts.matching rows changedId id), inside := ?_ }
  rintro _ ⟨⟩
  rw [changedId, changedWallet, changedSession]
  refine ⟨inside, carries, fun old oldAt => ?_⟩
  cases present.symm.trans oldAt
  rfl

/-- A new entry is put under the identifier of its stamp. -/
theorem Stepped.of_fresh (fresh : Fresh stamp tables) (twinFresh : Fresh later twins)
    {after other : Wallet} (same : after.id = wallet.id ∧ after.owner = wallet.owner)
    (alike : after.anonymous = other.anonymous) {entry added : Entry}
    (rows : entry.anonymous = added.anonymous)
    (ids : entry.id = stamp.entry ∧ added.id = later.entry) (inside : entry.wallet = wallet.id)
    (carries : ∀ session, entry.reference.session = some session →
      (own (.session session) ↔ mine)) :
    Stepped user own mine tables twins wallet (after, some entry) (other, some added) where
  same := same
  alike := alike
  row := .some ⟨rows, fun _ => .added (ids.1 ▸ fresh.entry) (ids.2 ▸ twinFresh.entry)⟩
  inside := by
    rintro _ ⟨⟩
    exact ⟨inside, carries, Table.forall_of_none (ids.1 ▸ fresh.entry)⟩

section Decisions

variable (beside : Beside user own mine tables twins) (portioned : tables.Portioned user own)
  (fresh : Fresh stamp tables) (other : Fresh later twins)

include beside portioned

/-! ## Deposits -/

section Deposits

include fresh other

/-- Deposits are decided alike. -/
theorem deposit_alike (settings : Settings) (value : Decimal) (about : customer = user ↔ mine) :
    Parallel (Decision.Alike user own mine tables twins Receipt.anonymous)
      (Decision.deposit settings customer value stamp tables)
      (Decision.deposit settings customer value later twins) := by
  obtain ⟨owner, admits⟩ := portioned.sound.walletOf_spec fresh customer
  refine .bind (.same _) ?_
  rintro amount _ rfl
  have credits :=
    Wallet.credit_parallel (beside.walletOf about stamp later) amount stamp.now later.now
  refine .bind credits.known.orOverflow ?_
  rintro credited twin ⟨credit, _, alike⟩
  obtain ⟨_, sameCurrent, _⟩ := Wallet.anonymous_eq_iff.mp alike
  have same := Wallet.same_of_credit credit
  refine .done (Stepped.deposited (.of_fresh fresh other same alike ?_ ⟨rfl, rfl⟩ same.1 ?_) ?_
    admits)
  · exact Entry.anonymous_eq_iff.mpr ⟨rfl, rfl, rfl, sameCurrent, rfl, rfl⟩
  · rintro _ ⟨⟩
  · rwa [owner]

/-- Top-ups are recorded alike. -/
theorem recordTopUp_alike (amount : Amount) {session : String} (about : customer = user ↔ mine)
    (named : own (.session session) ↔ mine) :
    Decision.Alike user own mine tables twins Receipt.anonymous
      (Decision.recordTopUp customer amount session stamp tables)
      (Decision.recordTopUp customer amount session later twins) := by
  obtain ⟨owner, admits⟩ := portioned.sound.walletOf_spec fresh customer
  have alike := beside.walletOf about stamp later
  obtain ⟨_, sameCurrent, _⟩ := Wallet.anonymous_eq_iff.mp alike
  refine Stepped.deposited (.of_fresh fresh other ⟨rfl, rfl⟩ alike ?_ ⟨rfl, rfl⟩ rfl ?_) ?_ admits
  · exact Entry.anonymous_eq_iff.mpr ⟨rfl, rfl, rfl, sameCurrent, rfl, rfl⟩
  · rintro _ ⟨⟩
    exact named
  · rwa [owner]

end Deposits

/-- Confirmations are decided alike. -/
theorem confirmTopUp_alike {session : String} (payment : Option String) (stamp later : Stamp)
    (named : own (.session session) ↔ mine) :
    Parallel (Decision.Alike user own mine tables twins (Option.map Receipt.anonymous))
      (Decision.confirmTopUp session payment stamp tables)
      (Decision.confirmTopUp session payment later twins) := by
  unfold Decision.confirmTopUp
  rcases (beside.session session named).none_or_some with
    ⟨absent, missing⟩ | ⟨entry, twin, entryAt, twinAt, counterparts⟩
  · rw [absent, missing]
    exact .failed _
  obtain ⟨present, carries, wallet, located, inside, about, admits⟩ :=
    portioned.session_spec entryAt
  obtain ⟨order, kind, amount, _, status, reference⟩ := Entry.anonymous_eq_iff.mp counterparts.1
  rw [named] at about
  rw [entryAt, twinAt]
  simp only [← status]
  split
  · rcases (Option.Rel.of_map_eq (beside.located named entryAt twinAt)).none_or_some with
      ⟨missing, _⟩ | ⟨_, other, foundAt, otherAt, alike⟩
    · cases located.symm.trans missing
    cases located.symm.trans foundAt
    simp only [located, otherAt, ← amount]
    refine .bind (Wallet.credit_parallel alike entry.amount stamp.now later.now).known.orOverflow ?_
    rintro credited raised ⟨credit, _, credits⟩
    obtain ⟨_, sameCurrent, _⟩ := Wallet.anonymous_eq_iff.mp credits
    have marked : ∀ carried, entry.reference.session = some carried →
        (own (.session carried) ↔ mine) := by
      intro carried bears
      cases carries.symm.trans bears
      exact named
    have stepped : Stepped user own mine tables twins wallet
        (credited, some (entry.confirm payment credited.current stamp.now))
        (raised, some (twin.confirm payment raised.current later.now)) := by
      refine .of_known present counterparts inside.symm marked
        (Wallet.same_of_credit credit) credits ?_ rfl rfl
      exact Entry.anonymous_eq_iff.mpr
        ⟨order, kind, amount, sameCurrent, rfl, congrArg ({ · with payment }) reference⟩
    exact .done ((stepped.deposited about admits).map fun _ => rfl)
  · exact .done (.idle _ _)

/-- What is answered about a notice has no identifiers of the ledger's in it. -/
theorem handle_alike {notice : Notice} (stamp later : Stamp)
    (named : ∀ session, notice.session? = some session → (own (.session session.id) ↔ mine)) :
    Parallel (Decision.Alike user own mine tables twins fun answer => answer)
      (Decision.handle notice stamp tables) (Decision.handle notice later twins) := by
  unfold Decision.handle
  split
  · cases about : notice.session? with
    | none => exact .failed _
    | some session =>
      have blind (receipt? : Option Receipt) :
          confirmationOutcome receipt? = confirmationOutcome (receipt?.map Receipt.anonymous) := by
        cases receipt? <;> rfl
      exact (confirmTopUp_alike beside portioned session.payment stamp later
        (named session about)).map
        fun alike => alike.map blind
  · exact .done (.idle _ _)

/-! ## Orders -/

omit portioned in
/-- Registrations are decided alike. -/
theorem register_alike {new : NewOrder} (stamp later : Stamp) (about : new.customer = user ↔ mine)
    (named : own (.order new.id) ↔ mine) :
    Parallel (Decision.Alike user own mine tables twins Order.anonymous)
      (Decision.register new stamp tables) (Decision.register new later twins) := by
  refine .bind (Order.register_parallel new stamp.now later.now).orReject ?_
  rintro order moved ⟨orders, id, customer⟩
  obtain ⟨same, _⟩ := Order.anonymous_eq_iff.mp orders
  rw [← id] at named
  rw [← same]
  rcases (Option.Rel.of_map_eq (beside.order order.id named)).none_or_some with
    ⟨absent, missing⟩ | ⟨_, _, taken, other, _⟩
  · rw [absent, missing]
    exact .done (.ordered orders (by rwa [customer]) named)
  · rw [taken, other]
    exact .failed _

/-- An order that a call finds in the right state is the same but for its times, and its customer is
the user if the call is. -/
theorem orderIn_alike (allowed : List OrderStatus) (action : OrderAction)
    (named : own (.order id) ↔ mine) :
    Parallel (fun order moved => tables.orders.get? order.id = some order ∧
      order.anonymous = moved.anonymous ∧
        (order.customer = user ↔ mine) ∧ (own (.order order.id) ↔ mine))
      (Decision.orderIn allowed action id tables) (Decision.orderIn allowed action id twins) := by
  unfold Decision.orderIn
  rcases (Option.Rel.of_map_eq (beside.order id named)).none_or_some with
    ⟨absent, missing⟩ | ⟨order, moved, known, other, alike⟩
  · rw [absent, missing]
    exact .failed _
  · obtain rfl := portioned.sound.order_id known
    have about : order.customer = user ↔ mine := by rw [portioned.parted.order known, named]
    rw [known, other]
    change Parallel _ (orReject (order.require allowed action) >>= fun _ => pure order)
      (orReject (moved.require allowed action) >>= fun _ => pure moved)
    rw [Order.require_of_alike alike]
    exact .bind (.same _) fun _ => .done ⟨known, alike, about, named⟩

/-- Advances are decided alike. -/
theorem advance_alike (allowed : List OrderStatus) (next : OrderStatus) (action : OrderAction)
    (stamp later : Stamp) (named : own (.order id) ↔ mine) :
    Parallel (Decision.Alike user own mine tables twins Order.anonymous)
      (Decision.advance id allowed next action stamp tables)
      (Decision.advance id allowed next action later twins) := by
  refine .bind (orderIn_alike beside portioned allowed action named) ?_
  rintro order moved ⟨_, alike, about, named⟩
  refine .bind (Order.advance_parallel alike next action stamp.now later.now).known.orReject ?_
  rintro after other ⟨advanced, _, orders⟩
  obtain ⟨_, rfl⟩ := Order.advance_eq_ok.mp advanced
  exact .done (.ordered orders about named)

/-! ## The money of orders -/

omit beside portioned in
/-- Behind the step of the wallet the order moves on in both ledgers. -/
theorem conclude_alike (next : OrderStatus) (action : OrderAction)
    {shown : Option Entry → Option Entry}
    (blind : ∀ row? twin?, row?.map Entry.anonymous = twin?.map Entry.anonymous →
      (shown row?).map Entry.anonymous = (shown twin?).map Entry.anonymous)
    (orders : order.anonymous = moved.anonymous) (about : order.customer = user ↔ mine)
    (named : own (.order order.id) ↔ mine) (owner : wallet.owner = user ↔ mine)
      (admits : tables.Admits wallet)
    {stepped taken : Except Failure (Wallet × Option Entry)}
    (steps : Parallel (Stepped user own mine tables twins wallet) stepped taken) :
    Parallel (Decision.Alike user own mine tables twins Receipt.anonymous)
      (Decision.conclude next action stamp.now shown order stepped)
      (Decision.conclude next action later.now shown moved taken) := by
  refine .bind steps ?_
  rintro ⟨after, row?⟩ ⟨other, twin?⟩ stepped
  refine .bind (Order.advance_parallel orders next action stamp.now later.now).known.orReject ?_
  rintro order moved ⟨advanced, _, orders⟩
  obtain ⟨_, rfl⟩ := Order.advance_eq_ok.mp advanced
  refine .done (stepped.decision owner admits ?_ ?_ (blind _ _ stepped.rows))
  · exact congrArg some orders
  · rintro _ ⟨⟩
    exact ⟨about, named⟩

/-- Captures take the same step in both ledgers. -/
theorem captureStep_alike (later : Stamp) (known : tables.orders.get? order.id = some order)
    (orders : order.anonymous = moved.anonymous) (named : own (.order order.id) ↔ mine)
    (alike : (tables.walletOf stamp order.customer).anonymous = twin.anonymous) :
    Parallel (Stepped user own mine tables twins (tables.walletOf stamp order.customer))
      (Decision.captureStep stamp tables order (tables.walletOf stamp order.customer))
      (Decision.captureStep later twins moved twin) := by
  obtain ⟨same, _⟩ := Order.anonymous_eq_iff.mp orders
  rw [Decision.captureStep, Decision.captureStep, ← same]
  rcases (beside.hold order.id named).none_or_some with
    ⟨absent, missing⟩ | ⟨entry, held, holds, other, counterparts⟩
  · rw [absent, missing]
    exact .failed _
  obtain ⟨about, kind, amount, _, _, reference⟩ := Entry.anonymous_eq_iff.mp counterparts.1
  rw [holds, other]
  simp only [← amount]
  refine .bind (Wallet.settle_parallel alike entry.amount stamp.now later.now).known ?_
  rintro settled spent ⟨settle, _, settles⟩
  obtain ⟨_, sameCurrent, _⟩ := Wallet.anonymous_eq_iff.mp settles
  obtain ⟨present, inside, nameless⟩ := portioned.hold_spec stamp known holds
  refine .done (.of_known present counterparts inside nameless
    (Wallet.same_of_settle settle) settles ?_ rfl rfl)
  exact Entry.anonymous_eq_iff.mpr ⟨about, rfl, amount, sameCurrent, rfl, reference⟩

/-- Releases take the same step in both ledgers. -/
theorem releaseStep_alike {precondition : Order → Except Rejection Unit} (later : Stamp)
    (known : tables.orders.get? order.id = some order) (orders : order.anonymous = moved.anonymous)
    (same : precondition order = precondition moved) (named : own (.order order.id) ↔ mine)
    (alike : (tables.walletOf stamp order.customer).anonymous = twin.anonymous) :
    Parallel (Stepped user own mine tables twins (tables.walletOf stamp order.customer))
      (Decision.releaseStep precondition stamp tables order (tables.walletOf stamp order.customer))
      (Decision.releaseStep precondition later twins moved twin) := by
  obtain ⟨id, _, _, status, _⟩ := Order.anonymous_eq_iff.mp orders
  rw [Decision.releaseStep, Decision.releaseStep, ← id, ← status, ← same]
  refine .bind (.same _) fun _ => ?_
  rcases (beside.hold order.id named).none_or_some with
    ⟨absent, missing⟩ | ⟨entry, held, holds, other, counterparts⟩
  · rw [absent, missing]
    simp only
    split
    · exact .done { same := ⟨rfl, rfl⟩, alike, row := .none, inside := by rintro _ ⟨⟩ }
    · exact .failed _
  obtain ⟨about, kind, amount, balance, _, reference⟩ := Entry.anonymous_eq_iff.mp counterparts.1
  rw [holds, other]
  simp only [← amount]
  refine .bind (Wallet.release_parallel alike entry.amount stamp.now later.now).known ?_
  rintro freed loose ⟨release, _, releases⟩
  obtain ⟨present, inside, nameless⟩ := portioned.hold_spec stamp known holds
  refine .done (.of_known present counterparts inside nameless
    (Wallet.same_of_release release) releases ?_ rfl rfl)
  exact Entry.anonymous_eq_iff.mpr ⟨about, kind, amount, balance, rfl, reference⟩

section Fresh

include fresh other

omit beside portioned in
/-- Holds take the same step in both ledgers. -/
theorem holdStep_alike (orders : order.anonymous = moved.anonymous)
    (alike : wallet.anonymous = twin.anonymous) :
    Parallel (Stepped user own mine tables twins wallet) (Decision.holdStep stamp order wallet)
      (Decision.holdStep later moved twin) := by
  obtain ⟨id, _, total, _⟩ := Order.anonymous_eq_iff.mp orders
  rw [Decision.holdStep, Decision.holdStep, ← id, ← total]
  refine .bind (Wallet.reserve_parallel alike order.total stamp.now later.now).known ?_
  rintro reserved kept ⟨reserve, _, reserves⟩
  obtain ⟨_, sameCurrent, _⟩ := Wallet.anonymous_eq_iff.mp reserves
  have same := Wallet.same_of_reserve reserve
  refine .done (.of_fresh fresh other same reserves ?_ ⟨rfl, rfl⟩ same.1 ?_)
  · exact Entry.anonymous_eq_iff.mpr ⟨rfl, rfl, rfl, sameCurrent, rfl, rfl⟩
  · rintro _ ⟨⟩

omit beside portioned in
/-- Refunds take the same step in both ledgers. -/
theorem refundStep_alike (orders : order.anonymous = moved.anonymous)
    (alike : wallet.anonymous = twin.anonymous) :
    Parallel (Stepped user own mine tables twins wallet) (Decision.refundStep stamp order wallet)
      (Decision.refundStep later moved twin) := by
  obtain ⟨id, _, total, _⟩ := Order.anonymous_eq_iff.mp orders
  rw [Decision.refundStep, Decision.refundStep, ← id, ← total]
  refine .bind (Wallet.credit_parallel alike order.total stamp.now later.now).known.orOverflow ?_
  rintro credited raised ⟨credit, _, credits⟩
  obtain ⟨_, sameCurrent, _⟩ := Wallet.anonymous_eq_iff.mp credits
  have same := Wallet.same_of_credit credit
  refine .done (.of_fresh fresh other same credits ?_ ⟨rfl, rfl⟩ same.1 ?_)
  · exact Entry.anonymous_eq_iff.mpr ⟨rfl, rfl, rfl, sameCurrent, rfl, rfl⟩
  · rintro _ ⟨⟩

omit other in
/-- A call that looks for an order, lets the wallet of its customer take a step and moves the order
on. -/
theorem concluded_alike (allowed : List OrderStatus) (next : OrderStatus) (action : OrderAction)
    {shown : Option Entry → Option Entry}
    (blind : ∀ row? twin?, row?.map Entry.anonymous = twin?.map Entry.anonymous →
      (shown row?).map Entry.anonymous = (shown twin?).map Entry.anonymous)
    (named : own (.order id) ↔ mine)
    {step taken : Order → Wallet → Except Failure (Wallet × Option Entry)}
    (steps : ∀ {order moved twin}, tables.orders.get? order.id = some order →
      order.anonymous = moved.anonymous → (own (.order order.id) ↔ mine) →
      (tables.walletOf stamp order.customer).anonymous = twin.anonymous →
        Parallel (Stepped user own mine tables twins (tables.walletOf stamp order.customer))
          (step order (tables.walletOf stamp order.customer)) (taken moved twin)) :
    Parallel (Decision.Alike user own mine tables twins Receipt.anonymous)
      (Decision.orderIn allowed action id tables >>= fun order =>
        Decision.conclude next action stamp.now shown order
          (step order (tables.walletOf stamp order.customer)))
      (Decision.orderIn allowed action id twins >>= fun order =>
        Decision.conclude next action later.now shown order
          (taken order (twins.walletOf later order.customer))) := by
  refine .bind (orderIn_alike beside portioned _ _ named) ?_
  rintro order moved ⟨known, orders, about, named⟩
  obtain ⟨owner, admits⟩ := portioned.sound.walletOf_spec fresh order.customer
  have customer := (Order.anonymous_eq_iff.mp orders).2.1
  rw [← customer]
  exact conclude_alike next action blind orders about named (by rwa [owner]) admits
    (steps known orders named (beside.walletOf about stamp later))

/-- Holds are decided alike. -/
theorem hold_alike (named : own (.order id) ↔ mine) :
    Parallel (Decision.Alike user own mine tables twins Receipt.anonymous)
      (Decision.hold id stamp tables) (Decision.hold id later twins) :=
  concluded_alike beside portioned fresh _ _ _ (fun _ _ same => same) named
    fun _ orders _ alike => holdStep_alike fresh other orders alike

omit other in
/-- Captures are decided alike. -/
theorem capture_alike (named : own (.order id) ↔ mine) :
    Parallel (Decision.Alike user own mine tables twins Receipt.anonymous)
      (Decision.capture id stamp tables) (Decision.capture id later twins) :=
  concluded_alike beside portioned fresh _ _ _ (fun _ _ same => same) named
    fun known orders named alike =>
    captureStep_alike beside portioned later known orders named alike

omit other in
/-- The precondition of a release may not tell orders apart by their times. -/
theorem release_alike {precondition : Order → Except Rejection Unit}
    (blind : ∀ {order moved : Order}, order.anonymous = moved.anonymous →
      precondition order = precondition moved)
    (named : own (.order id) ↔ mine) :
    Parallel (Decision.Alike user own mine tables twins Receipt.anonymous)
      (Decision.release id precondition stamp tables)
        (Decision.release id precondition later twins) :=
  concluded_alike beside portioned fresh _ _ _ (fun _ _ _ => rfl) named
    fun known orders named alike => releaseStep_alike beside portioned later known orders
      (blind orders) named alike

/-- Refunds are decided alike. -/
theorem refund_alike (named : own (.order id) ↔ mine) :
    Parallel (Decision.Alike user own mine tables twins Receipt.anonymous)
      (Decision.refund id stamp tables) (Decision.refund id later twins) :=
  concluded_alike beside portioned fresh _ _ _ (fun _ _ same => same) named
    fun _ orders _ alike => refundStep_alike fresh other orders alike

/-- Placements are decided alike. -/
theorem place_alike (actor : Actor) (named : own (.order id) ↔ mine) :
    Parallel (Decision.Alike user own mine tables twins Receipt.anonymous)
      (Decision.place actor id stamp tables) (Decision.place actor id later twins) := by
  unfold Decision.place
  rcases (Option.Rel.of_map_eq (beside.order id named)).none_or_some with
    ⟨absent, missing⟩ | ⟨order, moved, known, found, alike⟩
  · rw [absent, missing]
    exact .failed _
  · rw [known, found]
    simp only [← (Order.anonymous_eq_iff.mp alike).2.1]
    split
    · exact hold_alike beside portioned fresh other named
    · exact .failed _

omit other in
/-- Charges are decided alike. -/
theorem charge_alike (actor : Actor) (named : own (.order id) ↔ mine) :
    Parallel (Decision.Alike user own mine tables twins Receipt.anonymous)
      (Decision.charge actor id stamp tables) (Decision.charge actor id later twins) :=
  .bind (.same _) fun _ => capture_alike beside portioned fresh named

/-- Repayments are decided alike. -/
theorem repay_alike (actor : Actor) (named : own (.order id) ↔ mine) :
    Parallel (Decision.Alike user own mine tables twins Receipt.anonymous)
      (Decision.repay actor id stamp tables) (Decision.repay actor id later twins) :=
  .bind (.same _) fun _ => refund_alike beside portioned fresh other named

omit other in
/-- Cancellations are decided alike. -/
theorem cancel_alike (settings : Settings) (actor : Actor) (now : Instant)
    (named : own (.order id) ↔ mine) :
    Parallel (Decision.Alike user own mine tables twins Receipt.anonymous)
      (Decision.cancel settings actor id now stamp tables)
        (Decision.cancel settings actor id now later twins) := by
  refine .bind (.same _) ?_
  rintro cutoff _ rfl
  exact release_alike beside portioned fresh
    (fun alike => Order.cancellable_of_alike alike actor cutoff now) named

end Fresh

end Decisions

end Calls

end Prepaid.Ledger
