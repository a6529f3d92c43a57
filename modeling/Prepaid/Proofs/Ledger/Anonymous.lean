import Prepaid.Proofs.Ledger.Bookings

/-!
# Without identifiers and times

A stamp gives identifiers and a time to the rows that are written under it.
`anonymous` takes them away again. Nothing that is decided depends on them: two
calls that find the same but for identifiers and times do the same but for
identifiers and times, which is what `Parallel` says of their results.
-/

namespace Prepaid

/-- The wallet without what stamps have given to it. -/
def Wallet.anonymous (wallet : Wallet) : Wallet :=
  { wallet with id := ⟨⟨0⟩⟩, createdAt := .epoch, updatedAt := .epoch }

/-- The order without what stamps have given to it. -/
def Order.anonymous (order : Order) : Order :=
  { order with createdAt := .epoch, updatedAt := .epoch }

/-- The entry without what stamps have given to it. -/
def Entry.anonymous (entry : Entry) : Entry :=
  { entry with id := ⟨⟨0⟩⟩, wallet := ⟨⟨0⟩⟩, createdAt := .epoch, updatedAt := .epoch }

/-- The receipt without what stamps have given to its rows. -/
def Receipt.anonymous (receipt : Receipt) : Receipt :=
  { receipt with
    entry := receipt.entry.map Entry.anonymous
    order := receipt.order.map Order.anonymous }

/-- Two wallets are alike if owner, money and holds are. -/
theorem Wallet.anonymous_eq_iff {wallet other : Wallet} : wallet.anonymous = other.anonymous ↔
    wallet.owner = other.owner ∧ wallet.current = other.current ∧ wallet.held = other.held := by
  simp [anonymous]

/-- Two orders are alike but for the times at which they were changed. -/
theorem Order.anonymous_eq_iff {order other : Order} : order.anonymous = other.anonymous ↔
    order.id = other.id ∧ order.customer = other.customer ∧ order.total = other.total ∧
      order.status = other.status ∧ order.windowStart = other.windowStart := by
  simp [anonymous]

/-- Two entries are alike but for identifiers and times. -/
theorem Entry.anonymous_eq_iff {entry other : Entry} : entry.anonymous = other.anonymous ↔
    entry.order = other.order ∧ entry.kind = other.kind ∧ entry.amount = other.amount ∧
      entry.balanceAfter = other.balanceAfter ∧ entry.status = other.status ∧
        entry.reference = other.reference := by
  simp [anonymous]

/-! ## Results side by side -/

/-- Two results fail for the same reason, or succeed with values that are related. -/
inductive Parallel {ε α β : Type} (related : α → β → Prop) : Except ε α → Except ε β → Prop where
  | failed (error : ε) : Parallel related (.error error) (.error error)
  | done {left : α} {right : β} (alike : related left right) : Parallel related (.ok left)
    (.ok right)

namespace Parallel

variable {ε α β γ δ : Type} {related : α → β → Prop} {later : γ → δ → Prop}

/-- A result is parallel to itself. -/
theorem same (result : Except ε α) : Parallel Eq result result := by
  cases result with
  | error error => exact .failed error
  | ok value => exact .done rfl

/-- Sequences are parallel if their parts are. -/
theorem bind {left : Except ε α} {right : Except ε β} {next : α → Except ε γ}
    {other : β → Except ε δ} (first : Parallel related left right)
    (behind : ∀ {a b}, related a b → Parallel later (next a) (other b)) :
    Parallel later (left >>= next) (right >>= other) := by
  cases first with
  | failed error => exact .failed error
  | done alike => exact behind alike

/-- Values that are related are those of the two results. -/
theorem known {left : Except ε α} {right : Except ε β} (result : Parallel related left right) :
    Parallel (fun a b => left = .ok a ∧ right = .ok b ∧ related a b) left right := by
  cases result with
  | failed error => exact .failed error
  | done alike => exact .done ⟨rfl, rfl, alike⟩

/-- Related values stay parallel under changes that keep them related. -/
theorem map {left : Except ε α} {right : Except ε β} {change : α → γ} {other : β → δ}
    (first : Parallel related left right)
    (behind : ∀ {a b}, related a b → later (change a) (other b)) :
    Parallel later (left.map change) (right.map other) := by
  cases first with
  | failed error => exact .failed error
  | done alike => exact .done (behind alike)

/-- Sums that overflow alike fail alike. -/
theorem orOverflow {left : Except Overflow α} {right : Except Overflow β}
    (first : Parallel related left right) :
    Parallel related (Prepaid.orOverflow left) (Prepaid.orOverflow right) := by
  cases first with
  | failed overflow => exact .failed (Failure.overflow overflow)
  | done alike => exact .done alike

/-- Rules that are broken alike fail alike. -/
theorem orReject {left : Except Rejection α} {right : Except Rejection β}
    (first : Parallel related left right) :
    Parallel related (Prepaid.orReject left) (Prepaid.orReject right) := by
  cases first with
  | failed rejection => exact .failed (Failure.rejected rejection)
  | done alike => exact .done alike

end Parallel

/-! ## What wallets and orders do -/

namespace Wallet

variable {wallet other : Wallet}

/-- Wallets that are alike are credited alike. -/
theorem credit_parallel (alike : wallet.anonymous = other.anonymous) (amount : Amount)
    (now later : Instant) :
    Parallel (fun left right => left.anonymous = right.anonymous) (wallet.credit amount now)
      (other.credit amount later) := by
  obtain ⟨owner, current, held⟩ := anonymous_eq_iff.mp alike
  rw [credit, credit, current]
  refine .bind (.same _) ?_
  rintro sum _ rfl
  exact .done (anonymous_eq_iff.mpr ⟨owner, rfl, held⟩)

/-- Wallets that are alike reserve alike. -/
theorem reserve_parallel (alike : wallet.anonymous = other.anonymous) (amount : Amount)
    (now later : Instant) :
    Parallel (fun left right => left.anonymous = right.anonymous) (wallet.reserve amount now)
      (other.reserve amount later) := by
  obtain ⟨owner, current, held⟩ := anonymous_eq_iff.mp alike
  rw [reserve, reserve, available, available, current, held]
  refine .bind (.same _) ?_
  rintro available _ rfl
  split
  · exact .failed _
  · refine .bind (.same _) ?_
    rintro sum _ rfl
    exact .done (anonymous_eq_iff.mpr ⟨owner, rfl, rfl⟩)

/-- Wallets that are alike cover the same holds. -/
theorem requireHeld_of_alike (alike : wallet.anonymous = other.anonymous) (amount : Amount) :
    wallet.requireHeld amount = other.requireHeld amount := by
  obtain ⟨owner, current, held⟩ := anonymous_eq_iff.mp alike
  rw [requireHeld, requireHeld, owner, current, held]

/-- Wallets that are alike release alike. -/
theorem release_parallel (alike : wallet.anonymous = other.anonymous) (amount : Amount)
    (now later : Instant) :
    Parallel (fun left right => left.anonymous = right.anonymous) (wallet.release amount now)
      (other.release amount later) := by
  obtain ⟨owner, current, held⟩ := anonymous_eq_iff.mp alike
  rw [release, release, requireHeld_of_alike alike, held]
  refine .bind (.same _) fun _ => .bind (.same _) ?_
  rintro left _ rfl
  exact .done (anonymous_eq_iff.mpr ⟨owner, current, rfl⟩)

/-- Wallets that are alike settle alike. -/
theorem settle_parallel (alike : wallet.anonymous = other.anonymous) (amount : Amount)
    (now later : Instant) :
    Parallel (fun left right => left.anonymous = right.anonymous) (wallet.settle amount now)
      (other.settle amount later) := by
  obtain ⟨owner, current, held⟩ := anonymous_eq_iff.mp alike
  rw [settle, settle, requireHeld_of_alike alike, held, current]
  refine .bind (.same _) fun _ => .bind (.same _) ?_
  rintro left _ rfl
  refine .bind (.same _) ?_
  rintro rest _ rfl
  exact .done (anonymous_eq_iff.mpr ⟨owner, rfl, rfl⟩)

end Wallet

namespace Order

variable {order other : Order}

/-- Orders that are alike advance alike. -/
theorem advance_parallel (alike : order.anonymous = other.anonymous) (next : OrderStatus)
    (action : OrderAction) (now later : Instant) :
    Parallel (fun left right => left.anonymous = right.anonymous) (order.advance next action now)
      (other.advance next action later) := by
  obtain ⟨id, customer, total, status, windowStart⟩ := anonymous_eq_iff.mp alike
  rw [advance, advance, refusal, refusal, id, status]
  split
  · exact .done (anonymous_eq_iff.mpr ⟨rfl, customer, total, rfl, windowStart⟩)
  · exact .failed _

/-- Orders that are alike pass the same checks of their state. -/
theorem require_of_alike (alike : order.anonymous = other.anonymous) (allowed : List OrderStatus)
    (action : OrderAction) : order.require allowed action = other.require allowed action := by
  obtain ⟨id, _, _, status, _⟩ := anonymous_eq_iff.mp alike
  rw [require, require, refusal, refusal, id, status]

/-- Orders that are alike can be cancelled by the same users at the same instants. -/
theorem cancellable_of_alike (alike : order.anonymous = other.anonymous) (actor : Actor)
    (cutoff : Int) (now : Instant) :
    Ledger.cancellable actor cutoff now order = Ledger.cancellable actor cutoff now other := by
  obtain ⟨id, customer, _, _, windowStart⟩ := anonymous_eq_iff.mp alike
  simp only [Ledger.cancellable, requireCancellable, deadline, id, customer, windowStart]

/-- An order is registered alike at any time, under its own number and customer. -/
theorem register_parallel (new : NewOrder) (now later : Instant) :
    Parallel (fun left right => left.anonymous = right.anonymous ∧ left.id = new.id ∧
      left.customer = new.customer)
      (register new now) (register new later) := by
  refine .bind (.same _) ?_
  rintro total _ rfl
  exact .done ⟨rfl, rfl, rfl⟩

end Order

namespace Ledger.Decision

/-- Receipts show a wallet's amounts, and neither its identifier nor its times. -/
theorem receipt_alike {wallet other : Wallet} (same : wallet.anonymous = other.anonymous)
    {row? twin? : Option Entry} (rows : row?.map Entry.anonymous = twin?.map Entry.anonymous)
    {order? moved? : Option Order}
    (orders : order?.map Order.anonymous = moved?.map Order.anonymous) :
    (receipt wallet row? order?).map Receipt.anonymous =
      (receipt other twin? moved?).map Receipt.anonymous := by
  obtain ⟨owner, current, held⟩ := Wallet.anonymous_eq_iff.mp same
  rw [receipt, receipt, Wallet.balance, Wallet.balance, Wallet.available, Wallet.available, owner,
    current, held]
  cases other.current.sub other.held with
  | error overflow => rfl
  | ok available =>
    simp [orOverflow, Except.map, Receipt.anonymous, rows, orders, bind, Except.bind, pure,
      Except.pure]

end Ledger.Decision

end Prepaid
