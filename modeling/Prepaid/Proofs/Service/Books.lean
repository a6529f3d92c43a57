import Prepaid.Proofs.Ledger.Accounting
import Prepaid.Proofs.Service.Run

/-!
# The books of a run

What the rows of the ledger say of each other after any run: the entries of an order
are those of its state, and a wallet shows what its entries amount to.
-/

namespace Prepaid.Service

open Ledger

/-- Orders and entries agree after every run. -/
theorem Run.agreed {settings : Settings} {steps : List Step} {service : Service}
    (run : Run settings steps service) : service.ledger.tables.Agreed :=
  run.keeps .empty (fun _ upkeep agreed => upkeep.agreed agreed)
    (fun sound _ posting agreed => posting.agreed sound agreed)

/-- After any run the entries of each order are determined by its state, over its total and in the
wallet of its customer, and no entry but a deposit is without a registered order. -/
theorem entries_of_orders {settings : Settings} {service : Service}
    (reachable : Reachable settings service) :
    (∀ id order, service.ledger.tables.orders.get? id = some order →
      service.ledger.tables.orderEntries id = service.ledger.tables.rowsOfOrder id ∧
        (service.ledger.tables.rowsOfOrder id).map Entry.mark ∈ order.status.trails ∧
        ∀ entry ∈ service.ledger.tables.rowsOfOrder id, entry.amount = order.total ∧
          ∃ wallet, service.ledger.tables.wallets.get? order.customer = some wallet ∧
            entry.wallet = wallet.id) ∧
    ∀ entry ∈ service.ledger.tables.entries.values,
      (entry.kind = .deposit ∧ entry.order = none) ∨
      (entry.kind ≠ .deposit ∧
        ∃ id order, entry.order = some id ∧ service.ledger.tables.orders.get? id = some order) := by
  obtain ⟨steps, run⟩ := reachable
  have sound := run.intact.sound
  have agreed := run.agreed
  constructor
  · intro id order known
    obtain rfl := sound.order_id known
    have backs := agreed.backed known
    refine ⟨sound.orderEntries_eq _, backs.trail, ?_⟩
    intro entry member
    obtain ⟨wallet, found, owned⟩ := backs.wallet entry member
    exact ⟨backs.total entry member, wallet, found, owned.symm⟩
  · intro entry member
    have present := sound.entry_of_mem member
    have deposit := agreed.deposit_iff present
    cases ordered : entry.order with
    | none => exact .inl ⟨deposit.mpr ordered, rfl⟩
    | some id =>
      obtain ⟨order, known⟩ := agreed.registered present ordered
      refine .inr ⟨?_, id, order, rfl, known⟩
      rw [Ne, deposit, ordered]
      exact Option.some_ne_none id

/-- A hold for an order of ten, out of a deposit of twenty-five. -/
def heldOrder : List (Request × Stamp) :=
  [(.deposit ⟨1⟩ (centsOf 2500), stampOf 1),
    (.register ⟨⟨7⟩, ⟨1⟩, centsOf 1000, .epoch⟩, stampOf 2),
    (.hold ⟨7⟩, stampOf 3)]

/-- The held order is reached. -/
theorem heldOrder_reachable :
    Reachable {} (performAll {} heldOrder { gateway := { secret := "" } }) :=
  .performAll heldOrder (.start {} _) (by decide)

/-- A held order has one entry, which is its hold. -/
theorem entries_of_held_order :
    ((performAll {} heldOrder { gateway := { secret := "" } }).ledger.tables.rowsOfOrder ⟨7⟩).map
      Entry.mark =
        [(.hold, .pending)] := by
  have known :
      ∃ order, (performAll {} heldOrder { gateway := { secret := "" } }).ledger.tables.orders.get?
      ⟨7⟩ = some order ∧ order.status = .confirmed := ⟨_, rfl, rfl⟩
  obtain ⟨order, known, confirmed⟩ := known
  have trail := ((entries_of_orders heldOrder_reachable).1 ⟨7⟩ order known).2.1
  simpa [confirmed, OrderStatus.trails] using trail

/-! ## Wallets -/

/-- Wallets are accounted for after every run. -/
theorem Run.balanced {settings : Settings} {steps : List Step} {service : Service}
    (run : Run settings steps service) : service.ledger.tables.Balanced := by
  let joint (tables : Tables) : Prop := tables.Agreed ∧ tables.Balanced
  have kept : joint service.ledger.tables := by
    refine run.keeps ⟨.empty, .empty⟩ ?_ ?_
    · rintro stamp tables after sound upkeep ⟨agreed, balanced⟩
      exact ⟨upkeep.agreed agreed, upkeep.balanced sound balanced⟩
    · rintro stamp tables topUp after sound solvent posting ⟨agreed, balanced⟩
      exact ⟨posting.agreed sound agreed, posting.balanced sound agreed balanced⟩
  exact kept.2

/-- An entry is about a user: it is in the user's wallet, or about one of the user's orders. -/
def Concerns (user : UserId) (tables : Tables) (entry : Entry) : Prop :=
  tables.owners.get? entry.wallet = some user ∨
    ∃ id order, entry.order = some id ∧ tables.orders.get? id = some order ∧ order.customer = user

/-- After any run a wallet shows exactly what its entries amount to, unless more has been credited
to it than money is exact with. Every entry is in the wallet of exactly one user, so that a user
without a wallet has none. -/
theorem balances_of_wallets {settings : Settings} {service : Service}
    (reachable : Reachable settings service) :
    (∀ user wallet, service.ledger.tables.wallets.get? user = some wallet →
      service.ledger.tables.sumOf wallet.id .deposit .completed +
        service.ledger.tables.sumOf wallet.id .refund .completed ≤ Money.maxCents →
      wallet.current.cents = service.ledger.tables.sumOf wallet.id .deposit .completed +
          service.ledger.tables.sumOf wallet.id .refund .completed -
          service.ledger.tables.sumOf wallet.id .payment .completed ∧
        wallet.held.cents = service.ledger.tables.sumOf wallet.id .hold .pending ∧
        0 ≤ wallet.held.cents ∧ wallet.held.cents ≤ wallet.current.cents) ∧
    (∀ entry ∈ service.ledger.tables.entries.values, ∃! user, ∃ wallet,
      service.ledger.tables.wallets.get? user = some wallet ∧ wallet.id = entry.wallet) ∧
    ∀ user, service.ledger.tables.wallets.get? user = none →
      ∀ entry ∈ service.ledger.tables.entries.values,
        ¬ Concerns user service.ledger.tables entry := by
  obtain ⟨steps, run⟩ := reachable
  have sound := run.intact.sound
  have agreed := run.agreed
  refine ⟨?_, ?_, ?_⟩
  · intro user wallet found within
    have accounts := run.balanced found within
    exact ⟨accounts.current, accounts.held, accounts.held_nonneg, accounts.held_le⟩
  · intro entry member
    obtain ⟨user, wallet, found, owned⟩ := sound.entry_wallet (sound.entry_of_mem member)
    refine ⟨user, ⟨wallet, found, owned⟩, ?_⟩
    rintro other ⟨held, heldAt, heldOwned⟩
    exact sound.wallet_injective heldAt found (heldOwned.trans owned.symm)
  · rintro user absent entry member (owner | ⟨id, order, ordered, known, customer⟩)
    · obtain ⟨wallet, found, _⟩ := sound.owner_iff.mp owner
      rw [absent] at found
      cases found
    · obtain rfl := sound.order_id known
      have own := Tables.mem_rowsOfOrder.mpr ⟨member, ordered⟩
      obtain ⟨wallet, found, _⟩ := (agreed.backed known).wallet entry own
      rw [customer, absent] at found
      cases found

/-- The customer of the held order has the deposit, and its total is held of it. -/
theorem balance_of_held_order :
    ∃ wallet,
      (performAll {} heldOrder { gateway := { secret := "" } }).ledger.tables.wallets.get? ⟨1⟩ =
        some wallet ∧
      wallet.current.cents = 2500 ∧ wallet.held.cents = 1000 := by
  refine ⟨_, rfl, ?_⟩
  obtain ⟨current, held, _⟩ := (balances_of_wallets heldOrder_reachable).1 ⟨1⟩ _ rfl (by decide)
  rw [current, held]
  decide

end Prepaid.Service
