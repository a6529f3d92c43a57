import Prepaid.Proofs.Ledger.Accounting
import Prepaid.Proofs.Ledger.Credit
import Prepaid.Proofs.Ledger.Solvent
import Prepaid.Proofs.Money.Rounded

/-!
# Cover

A user is covered who has no more held than there is. Every change keeps this however
large the sums are, with one exception: a hold for an order can be rounded past what
there is. `Tables.Overdraws` is that case, and it is recognized before the hold is made.
-/

namespace Prepaid

namespace Wallet

variable {wallet after : Wallet} {amount : Amount} {now : Instant}

/-- A credit keeps holds covered. -/
theorem credit_covered (credit : wallet.credit amount now = .ok after)
    (nonneg : 0 ≤ wallet.current.cents) (covered : wallet.held.cents ≤ wallet.current.cents) :
    after.held.cents ≤ after.current.cents := by
  obtain ⟨current, added, rfl⟩ := credit_eq_ok.mp credit
  have positive : 0 < amount.money.cents := amount.positive
  obtain ⟨_, whole⟩ := Money.stores_cents nonneg
  obtain ⟨_, sum⟩ := Money.add_stores added (by omega)
  exact Int.le_trans covered (whole.mono sum nonneg (by omega))

/-- A release keeps holds covered. -/
theorem release_covered (release : wallet.release amount now = .ok after)
    (nonneg : 0 ≤ wallet.held.cents) (covered : wallet.held.cents ≤ wallet.current.cents) :
    after.held.cents ≤ after.current.cents := by
  obtain ⟨⟨enough, _⟩, held, freed, rfl⟩ := release_eq_ok.mp release
  have positive : 0 < amount.money.cents := amount.positive
  obtain ⟨_, whole⟩ := Money.stores_cents nonneg
  obtain ⟨_, rest⟩ := Money.sub_stores freed enough
  exact Int.le_trans (rest.mono whole (Int.sub_nonneg_of_le enough) (by omega)) covered

/-- A settlement keeps holds covered: both sides lose the same. -/
theorem settle_covered (settle : wallet.settle amount now = .ok after)
    (covered : wallet.held.cents ≤ wallet.current.cents) :
    after.held.cents ≤ after.current.cents := by
  obtain ⟨⟨enoughHeld, enough⟩, held, current, freed, spent, rfl⟩ := settle_eq_ok.mp settle
  obtain ⟨_, heldRest⟩ := Money.sub_stores freed enoughHeld
  obtain ⟨_, rest⟩ := Money.sub_stores spent enough
  exact heldRest.mono rest (Int.sub_nonneg_of_le enoughHeld) (by omega)

/-- What is reserved was available, but what is available is rounded as well. -/
theorem reserve_covered_iff (reserve : wallet.reserve amount now = .ok after)
    (nonneg : 0 ≤ wallet.held.cents) (covered : wallet.held.cents ≤ wallet.current.cents) :
    after.held.cents ≤ after.current.cents ↔
      ¬ Money.RoundsPast wallet.current.cents (wallet.held.cents + amount.cents) := by
  obtain ⟨available, held, left, enough, added, rfl⟩ := reserve_eq_ok.mp reserve
  have positive : 0 < amount.money.cents := amount.positive
  obtain ⟨_, whole⟩ := Money.stores_cents (Int.le_trans nonneg covered)
  obtain ⟨_, rest⟩ := Money.sub_stores left covered
  obtain ⟨_, sum⟩ := Money.add_stores added (by omega)
  exact Int.not_lt.symm.trans
    (not_congr (whole.current_lt_iff rest sum nonneg covered positive enough))

/-- A balance shows what the wallet has, and what is left of it beside the holds. -/
theorem balance_eq_ok {balance : Balance} : wallet.balance = .ok balance ↔
    ∃ available, wallet.current.sub wallet.held = .ok available ∧
      ⟨wallet.owner, wallet.current, wallet.held, available⟩ = balance := by
  unfold Wallet.balance Wallet.available
  cases wallet.current.sub wallet.held <;> simp [bind, Except.bind, pure, Except.pure]

/-- A covered wallet shows that nothing less than nothing is available. -/
theorem Solvent.covered_iff (solvent : wallet.Solvent) :
    wallet.held.cents ≤ wallet.current.cents ↔ ∃ balance, wallet.balance = .ok balance ∧
      balance.held.cents ≤ balance.current.cents ∧ 0 ≤ balance.available.cents := by
  simp only [balance_eq_ok]
  constructor
  · intro covered
    obtain ⟨available, left⟩ := Money.sub_isOk solvent.current solvent.held
    exact ⟨_, ⟨available, left, rfl⟩, covered, Money.sub_nonneg left covered⟩
  · rintro ⟨_, ⟨available, _, rfl⟩, covered, _⟩
    exact covered

end Wallet

@[simp] theorem Order.id_moveTo (status : OrderStatus) (now : Instant) (order : Order) :
    (order.moveTo status now).id = order.id := rfl

@[simp] theorem Order.status_moveTo (status : OrderStatus) (now : Instant) (order : Order) :
    (order.moveTo status now).status = status := rfl

namespace Ledger

namespace Tables

/-- What is held of a user's money; nothing for a user without a wallet. -/
def heldOf (user : UserId) (tables : Tables) : Money :=
  (tables.wallets.get? user).elim .zero Wallet.held

/-- Nobody has more held than there is. -/
def Covered (tables : Tables) : Prop :=
  ∀ user, (tables.heldOf user).cents ≤ (tables.currentOf user).cents

/-- A change holds the total of an order that is rounded past what its customer has. -/
def Overdraws (before after : Tables) : Prop :=
  ∃ order ∈ before.orders.values, order.status = .pending ∧
    (after.orders.get? order.id).map Order.status = some .confirmed ∧
    Money.RoundsPast (before.currentOf order.customer).cents
      ((before.heldOf order.customer).cents + order.total.cents)

instance (before after : Tables) : Decidable (before.Overdraws after) :=
  inferInstanceAs (Decidable (∃ order ∈ before.orders.values, _ ∧ _ ∧ _))

/-- An order that is put touches no wallet. -/
@[simp] theorem putOrder_wallets (order : Order) (tables : Tables) :
    (tables.putOrder order).wallets = tables.wallets := rfl

@[simp] theorem putOrder_orders (order : Order) (tables : Tables) :
    (tables.putOrder order).orders = tables.orders.put order.id order := rfl

@[simp] theorem putWallet_orders (wallet : Wallet) (tables : Tables) :
    (tables.putWallet wallet).orders = tables.orders := rfl

section Writes

variable {tables after : Tables} {user : UserId} {wallet later : Wallet}

/-- What is held of a user's money is what the wallet says. -/
theorem heldOf_of_get? (known : tables.wallets.get? user = some wallet) :
    tables.heldOf user = wallet.held := by
  rw [heldOf, known]
  rfl

/-- What a user has is what the wallet says. -/
theorem currentOf_of_get? (known : tables.wallets.get? user = some wallet) :
    tables.currentOf user = wallet.current := by
  rw [currentOf, known]
  rfl

/-- Nobody's wallet holds more than there is. -/
theorem Covered.own (covered : tables.Covered) (known : tables.wallets.get? user = some wallet) :
    wallet.held.cents ≤ wallet.current.cents := by
  have own := covered user
  rwa [heldOf_of_get? known, currentOf_of_get? known] at own

/-- When the wallet of a user is put, only that user can lose the cover. -/
theorem Covered.put_iff (covered : tables.Covered) (sound : tables.Sound)
    (known : tables.wallets.get? user = some wallet) (owner : later.owner = wallet.owner)
    (wallets : after.wallets = (tables.putWallet later).wallets) :
    after.Covered ↔ later.held.cents ≤ later.current.cents := by
  rw [sound.putWallet_wallets known owner] at wallets
  have written : after.wallets.get? user = some later := by rw [wallets, Table.get?_put, if_pos rfl]
  refine ⟨fun kept => kept.own written, ?_⟩
  intro own other
  by_cases same : user = other
  · subst same
    rwa [heldOf_of_get? written, currentOf_of_get? written]
  · rw [heldOf, currentOf, wallets, Table.get?_put, if_neg same]
    exact covered other

/-- An order that is put in any state but the confirmed one overdraws nobody. -/
theorem not_overdraws_of_put (sound : tables.Sound) (order : Order)
    (other : order.status ≠ .confirmed) (orders : after.orders = (tables.putOrder order).orders) :
    ¬ tables.Overdraws after := by
  rintro ⟨old, member, pending, confirmed, _⟩
  rw [orders, putOrder_orders, Table.get?_put, sound.order_of_mem member] at confirmed
  split at confirmed
  · exact other (Option.some.inj confirmed)
  · simp [pending] at confirmed

/-- A change that moves no order overdraws nothing. -/
theorem not_overdraws_of_same (sound : tables.Sound) (orders : after.orders = tables.orders) :
    ¬ tables.Overdraws after := by
  rintro ⟨old, member, pending, confirmed, _⟩
  rw [orders, sound.order_of_mem member] at confirmed
  simp [pending] at confirmed

/-- A hold overdraws its customer exactly if its own total is rounded past what there is. -/
theorem overdraws_hold_iff (sound : tables.Sound) {order : Order} (now : Instant)
    (ordered : tables.orders.get? order.id = some order) (pending : order.status = .pending)
    (known : tables.wallets.get? order.customer = some wallet)
    (orders : after.orders = (tables.putOrder (order.moveTo .confirmed now)).orders) :
    tables.Overdraws after ↔
      Money.RoundsPast wallet.current.cents (wallet.held.cents + order.total.cents) := by
  constructor
  · rintro ⟨old, member, waiting, confirmed, past⟩
    have located := sound.order_of_mem member
    rw [orders, putOrder_orders, Table.get?_put, located] at confirmed
    split at confirmed
    · next same =>
      rw [Order.id_moveTo] at same
      rw [same, located] at ordered
      cases ordered
      rwa [heldOf_of_get? known, currentOf_of_get? known] at past
    · simp [waiting] at confirmed
  · intro past
    refine ⟨order, Table.mem_values ordered, pending, ?_, ?_⟩
    · simp [orders]
    · rwa [heldOf_of_get? known, currentOf_of_get? known]

end Writes

end Tables

section Changes

variable {stamp : Stamp} {tables after : Tables} {topUp : Option EntryId}

/-- Upkeep touches no orders. -/
theorem Upkeep.orders (upkeep : Upkeep stamp tables after) : after.orders = tables.orders := by
  cases upkeep <;> rfl

/-- Nothing is held in a wallet that is opened. -/
theorem Upkeep.heldOf (upkeep : Upkeep stamp tables after) (user : UserId) :
    after.heldOf user = tables.heldOf user := by
  cases upkeep with
  | @opened owner absent fresh =>
    simp only [Tables.heldOf, Tables.putWallet, Wallet.empty, Table.get?_put]
    split
    · next same =>
      subst same
      rw [absent]
      rfl
    · rfl
  | noted => rfl

/-- Whatever is posted keeps everybody covered, but for a hold that is rounded past what there
is. -/
theorem Posting.covered_iff (posting : Posting stamp tables topUp after) (sound : tables.Sound)
    (solvent : tables.Solvent) (covered : tables.Covered) :
    after.Covered ↔ ¬ tables.Overdraws after := by
  cases posting with
  | deposited known credit fresh | confirmed known owned named pending credit =>
    obtain ⟨_, sameOwner⟩ := Wallet.same_of_credit credit
    have own := Wallet.credit_covered credit (solvent known).current (covered.own known)
    exact iff_of_true ((covered.put_iff sound known sameOwner (by simp)).mpr own)
      (Tables.not_overdraws_of_same sound (by simp))
  | toppedUp known fresh =>
    refine iff_of_true ((covered.put_iff sound known rfl ?_).mpr (covered.own known))
      (Tables.not_overdraws_of_same sound (by simp))
    rw [sound.putWallet_self known, Tables.putEntry_wallets]
  | @held order wallet reserved ordered pending known reserve fresh =>
    obtain ⟨_, sameOwner⟩ := Wallet.same_of_reserve reserve
    calc
      _ ↔ reserved.held.cents ≤ reserved.current.cents :=
        covered.put_iff sound known sameOwner (by simp)
      _ ↔ ¬ Money.RoundsPast wallet.current.cents (wallet.held.cents + order.total.cents) :=
        Wallet.reserve_covered_iff reserve (solvent known).held (covered.own known)
      _ ↔ _ := not_congr
        (Tables.overdraws_hold_iff sound stamp.now ordered pending known (by simp)).symm
  | @captured order _ _ _ ordered unpaid known holds settle =>
    obtain ⟨_, sameOwner⟩ := Wallet.same_of_settle settle
    have own := Wallet.settle_covered settle (covered.own known)
    exact iff_of_true ((covered.put_iff sound known sameOwner (by simp)).mpr own)
      (Tables.not_overdraws_of_put sound (order.moveTo .paid stamp.now) (by simp) (by simp))
  | @released order _ _ _ ordered unpaid known holds release =>
    obtain ⟨_, sameOwner⟩ := Wallet.same_of_release release
    have own := Wallet.release_covered release (solvent known).held (covered.own known)
    exact iff_of_true ((covered.put_iff sound known sameOwner (by simp)).mpr own)
      (Tables.not_overdraws_of_put sound (order.moveTo .cancelled stamp.now) (by simp) (by simp))
  | @refunded order _ _ ordered paid known credit fresh =>
    obtain ⟨_, sameOwner⟩ := Wallet.same_of_credit credit
    have own := Wallet.credit_covered credit (solvent known).current (covered.own known)
    exact iff_of_true ((covered.put_iff sound known sameOwner (by simp)).mpr own)
      (Tables.not_overdraws_of_put sound (order.moveTo .cancelled stamp.now) (by simp) (by simp))
  | dropped | prepared | completed =>
    exact iff_of_true covered (Tables.not_overdraws_of_put sound _ (by simp) rfl)
  | registered new pending =>
    exact iff_of_true covered (Tables.not_overdraws_of_put sound _ (by simp [pending]) rfl)

/-- Upkeep holds no money. -/
theorem Upkeeps.heldOf (upkeeps : Upkeeps stamp tables after) (user : UserId) :
    after.heldOf user = tables.heldOf user := by
  induction upkeeps with
  | refl => rfl
  | tail _ upkeep ih => rw [upkeep.heldOf, ih]

/-- Any amount of upkeep touches no orders. -/
theorem Upkeeps.orders (upkeeps : Upkeeps stamp tables after) : after.orders = tables.orders := by
  induction upkeeps with
  | refl => rfl
  | tail _ upkeep ih => rw [upkeep.orders, ih]

/-- Upkeep does not decide whether holds are covered. -/
theorem Upkeeps.covered_iff (upkeeps : Upkeeps stamp tables after) :
    after.Covered ↔ tables.Covered := by
  simp only [Tables.Covered, upkeeps.heldOf, upkeeps.currentOf]

/-- Holds stay covered exactly if the change does not overdraw. -/
theorem Change.covered_iff (change : Change stamp tables topUp after) (sound : tables.Sound)
    (solvent : tables.Solvent) (covered : tables.Covered) :
    after.Covered ↔ ¬ tables.Overdraws after := by
  cases change with
  | idle upkeeps =>
    exact iff_of_true (upkeeps.covered_iff.mpr covered)
      (Tables.not_overdraws_of_same sound upkeeps.orders)
  | @posted first second _ _ opening posting closing =>
    have same : tables.Overdraws after ↔ first.Overdraws second := by
      simp only [Tables.Overdraws, opening.orders, opening.heldOf, opening.currentOf,
        closing.orders]
    rw [same, closing.covered_iff]
    exact posting.covered_iff (opening.keeps Upkeep.sound sound)
      (opening.keeps Upkeep.solvent solvent) (opening.covered_iff.mpr covered)

end Changes

end Ledger

end Prepaid
