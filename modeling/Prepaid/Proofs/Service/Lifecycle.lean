import Prepaid.Proofs.Ledger.Lifecycle
import Prepaid.Proofs.Service.Books

/-!
# What is on record stays on record

Two states of a run, one later than the other. Whatever the ledger knew, it still
knows, and has changed only in the ways that the life of a wallet, an order or an
entry allows; so many requests have moved an order no more often than that.
-/

namespace Prepaid.Service

open Ledger

variable {settings : Settings} {steps further : List Step} {earlier later : Service}

/-- A step moves orders by one move at most. -/
theorem Run.step_continues (run : Run settings steps earlier) (request : Request) {stamp : Stamp}
    (fresh : Fresh stamp earlier.ledger.tables) :
    earlier.ledger.tables.Continues 1
      (Step.of settings earlier request stamp).after.ledger.tables := by
  have intact := run.intact
  obtain ⟨topUp, change, _⟩ := (Step.of_faithful intact request fresh).1.changes
  exact change.continues intact.sound run.agreed

/-- Steps move orders by no more moves than there are steps. -/
theorem Run.continues (run : Run settings steps earlier)
    (onward : Onward settings earlier further later) :
    earlier.ledger.tables.Continues further.length later.ledger.tables := by
  induction onward with
  | here => exact .refl
  | step prior request fresh ih =>
    rw [List.length_append]
    exact ih.trans ((run.onward prior).step_continues request fresh)
  | elsewhere prior gateway ih => exact ih

/-- From any state of a run to any later one, nothing goes off the record. A wallet keeps its
identifier and its owner, and no other user gets one with the same identifier; an order keeps whose
it is, what it costs and when its window begins, and makes at most one move a request; an entry
keeps what it is about, and one that is not pending does not change at all. -/
theorem records_are_kept (run : Run settings steps earlier)
    (onward : Onward settings earlier further later) :
    earlier.ledger.tables.Continues further.length later.ledger.tables ∧
      (∀ user other wallet held, earlier.ledger.tables.wallets.get? user = some wallet →
        later.ledger.tables.wallets.get? other = some held → held.id = wallet.id → other = user) ∧
      ∀ id entry, earlier.ledger.tables.entries.get? id = some entry → entry.status ≠ .pending →
        later.ledger.tables.entries.get? id = some entry := by
  have continues := run.continues onward
  refine ⟨continues, ?_, ?_⟩
  · intro user other wallet held known heldAt same
    obtain ⟨kept, keptAt, id, _⟩ := continues.wallet known
    exact (run.onward onward).intact.sound.wallet_injective heldAt keptAt (same.trans id.symm)
  · intro id entry known settled
    obtain ⟨row, rowAt, goesOn⟩ := continues.entry known
    rw [rowAt, goesOn.eq_of_settled settled]

/-- The service after `heldOrder`. -/
def holding : Service :=
  performAll {} heldOrder { gateway := { secret := "" } }

/-- The order of `heldOrder` is paid and handed out. -/
def handedOut : List (Request × Stamp) :=
  [(.capture ⟨7⟩, stampOf 4), (.complete (.staff ⟨2⟩) ⟨7⟩, stampOf 5)]

/-- The order goes through two moves, and its deposit stays as it is. -/
theorem records_of_handed_out :
    holding.ledger.tables.orders.values.map Order.status = [.confirmed] ∧
      (performAll {} handedOut holding).ledger.tables.orders.values.map Order.status =
        [.completed] ∧
      holding.ledger.tables.Continues 2 (performAll {} handedOut holding).ledger.tables ∧
      (performAll {} handedOut holding).ledger.tables.entries.get? (stampOf 1).entry =
        holding.ledger.tables.entries.get? (stampOf 1).entry := by
  have run : Run {} _ holding := Run.performAll heldOrder (.start { secret := "" }) (by decide)
  have onward : Onward {} holding _ _ := Onward.performAll handedOut .here (by decide)
  obtain ⟨continues, _, settled⟩ := records_are_kept run onward
  refine ⟨by decide, by decide, continues, ?_⟩
  obtain ⟨entry, known, completed⟩ : ∃ entry,
      holding.ledger.tables.entries.get? (stampOf 1).entry = some entry ∧
      entry.status = .completed := ⟨_, rfl, rfl⟩
  rw [known, settled _ entry known (by simp [completed])]

end Prepaid.Service
