import Prepaid.Proofs.Ledger.Posting
import Prepaid.Proofs.Money.Exact

/-!
# Solvent wallets

No wallet ever owns or holds less than nothing, however large its sums become and
however much of them is rounded away. A balance can therefore always be computed,
and a receipt for committed work never overflows.
-/

namespace Prepaid

namespace Wallet

/-- Neither what the user owns nor what is held is negative. -/
structure Solvent (wallet : Wallet) : Prop where
  current : 0 ≤ wallet.current.cents
  held : 0 ≤ wallet.held.cents

variable {wallet after : Wallet} {amount : Amount} {now : Instant}

/-- An empty wallet is solvent. -/
theorem Solvent.empty (id : WalletId) (owner : UserId) (now : Instant) :
    (Wallet.empty id owner now).Solvent :=
  ⟨Int.le_refl 0, Int.le_refl 0⟩

/-- A credit keeps a wallet solvent, even if it is rounded. -/
theorem Solvent.credit (solvent : wallet.Solvent) (credit : wallet.credit amount now = .ok after) :
    after.Solvent := by
  obtain ⟨current, added, rfl⟩ := credit_eq_ok.mp credit
  exact ⟨Money.add_nonneg added solvent.current (Int.le_of_lt amount.positive), solvent.held⟩

/-- A reservation keeps a wallet solvent. -/
theorem Solvent.reserve (solvent : wallet.Solvent)
    (reserve : wallet.reserve amount now = .ok after) :
    after.Solvent := by
  obtain ⟨_, held, _, _, added, rfl⟩ := reserve_eq_ok.mp reserve
  exact ⟨solvent.current, Money.add_nonneg added solvent.held (Int.le_of_lt amount.positive)⟩

/-- A release keeps a wallet solvent. -/
theorem Solvent.release (solvent : wallet.Solvent)
    (release : wallet.release amount now = .ok after) :
    after.Solvent := by
  obtain ⟨⟨enough, _⟩, held, freed, rfl⟩ := release_eq_ok.mp release
  exact ⟨solvent.current, Money.sub_nonneg freed enough⟩

/-- A settlement leaves a wallet solvent, since both sums cover it. -/
theorem Solvent.settle (settle : wallet.settle amount now = .ok after) : after.Solvent := by
  obtain ⟨⟨enoughHeld, enough⟩, held, current, freed, spent, rfl⟩ := settle_eq_ok.mp settle
  exact ⟨Money.sub_nonneg spent enough, Money.sub_nonneg freed enoughHeld⟩

/-- The balance of a solvent wallet never overflows. -/
theorem Solvent.balance (solvent : wallet.Solvent) : ∃ balance, wallet.balance = .ok balance := by
  obtain ⟨available, found⟩ := Money.sub_isOk solvent.current solvent.held
  refine ⟨⟨wallet.owner, wallet.current, wallet.held, available⟩, ?_⟩
  rw [Wallet.balance, Wallet.available, found]
  rfl

end Wallet

namespace Ledger

/-- All wallets are solvent. -/
def Tables.Solvent (tables : Tables) : Prop :=
  ∀ ⦃user wallet⦄, tables.wallets.get? user = some wallet → wallet.Solvent

/-- A solvent wallet can be put. -/
theorem Tables.Solvent.putWallet {tables : Tables} (solvent : tables.Solvent) {wallet : Wallet}
    (own : wallet.Solvent) : (tables.putWallet wallet).Solvent := by
  intro user found foundAt
  simp only [Tables.putWallet, Table.get?_put] at foundAt
  split at foundAt
  · cases foundAt
    exact own
  · exact solvent foundAt

/-- Orders have no part in it. -/
theorem Tables.Solvent.putOrder {tables : Tables} (solvent : tables.Solvent) (order : Order) :
    (tables.putOrder order).Solvent :=
  solvent

/-- Entries have no part in it. -/
theorem Tables.Solvent.putEntry {tables : Tables} (solvent : tables.Solvent) (entry : Entry) :
    (tables.putEntry entry).Solvent := by
  intro user found foundAt
  rw [Tables.putEntry_wallets] at foundAt
  exact solvent foundAt

/-- Upkeep keeps wallets solvent. -/
theorem Upkeep.solvent {stamp : Stamp} {tables after : Tables} (upkeep : Upkeep stamp tables after)
    (solvent : tables.Solvent) : after.Solvent := by
  cases upkeep with
  | opened absent fresh => exact solvent.putWallet (.empty _ _ _)
  | noted => exact solvent

/-- A posting keeps wallets solvent. -/
theorem Posting.solvent {stamp : Stamp} {tables after : Tables} {topUp : Option EntryId}
    (posting : Posting stamp tables topUp after) (solvent : tables.Solvent) : after.Solvent := by
  cases posting with
  | deposited known credit fresh =>
    exact (solvent.putWallet ((solvent known).credit credit)).putEntry _
  | toppedUp known fresh => exact solvent.putEntry _
  | confirmed known owned named pending credit =>
    exact (solvent.putWallet ((solvent known).credit credit)).putEntry _
  | held ordered pending known reserve fresh =>
    have moved := solvent.putWallet ((solvent known).reserve reserve)
    exact (moved.putOrder _).putEntry _
  | captured ordered unpaid known holds settle =>
    have moved := solvent.putWallet (.settle settle)
    exact (moved.putOrder _).putEntry _
  | released ordered unpaid known holds release =>
    have moved := solvent.putWallet ((solvent known).release release)
    exact (moved.putOrder _).putEntry _
  | refunded ordered paid known credit fresh =>
    have moved := solvent.putWallet ((solvent known).credit credit)
    exact (moved.putOrder _).putEntry _
  | dropped | registered | prepared | completed => exact solvent.putOrder _

/-- A change keeps wallets solvent. -/
theorem Change.solvent {stamp : Stamp} {tables after : Tables} {topUp : Option EntryId}
    (change : Change stamp tables topUp after) (solvent : tables.Solvent) : after.Solvent :=
  change.keeps Tables.Solvent Upkeep.solvent Posting.solvent solvent

end Ledger

end Prepaid
