import Prepaid.Proofs.Ledger.Indexes
import Prepaid.Proofs.Service.Books

/-!
# The indexes of a run

After any run the indexes of the ledger mirror its entries, and what is read through
them is complete.
-/

namespace Prepaid.Service

open Ledger

/-- After any run every index has each entry exactly where its row says and nowhere else. So the
entries of a wallet are listed each once, an order's pending hold is found whenever there is one and
is then the only one, and every entry leads to the wallet that it is in. -/
theorem indexes_mirror_entries {settings : Settings} {service : Service}
    (reachable : Reachable settings service) :
    service.ledger.tables.Indexed ∧ service.ledger.tables.LooksUp := by
  obtain ⟨steps, run⟩ := reachable
  exact ⟨run.intact.sound.indexed, run.intact.sound.looksUp run.agreed⟩

/-- The hold is indexed under its wallet and its order, and the deposit is under no order. -/
theorem indexes_of_held_order :
    let tables := (performAll {} heldOrder { gateway := { secret := "" } }).ledger.tables
    ((tables.entriesOfWallet.get? (stampOf 1).wallet).getD []).count (stampOf 3).entry = 1 ∧
      ((tables.entriesOfOrder.get? ⟨7⟩).getD []).count (stampOf 1).entry = 0 ∧
      ∃ entry, tables.pendingHold? ⟨7⟩ = some entry ∧ entry.id = (stampOf 3).entry := by
  obtain ⟨indexed, looksUp⟩ := indexes_mirror_entries heldOrder_reachable
  have hold :
      ∃ entry, (performAll {} heldOrder { gateway := { secret := "" } }).ledger.tables.entries.get?
      (stampOf 3).entry = some entry ∧ entry.id = (stampOf 3).entry ∧ entry.order = some ⟨7⟩ ∧
        entry.isPendingHold = true := ⟨_, rfl, rfl, rfl, rfl⟩
  obtain ⟨entry, found, named, ordered, pending⟩ := hold
  refine ⟨(indexed.wallet _ _).trans (by decide), (indexed.order _ _).trans (by decide), entry, ?_,
    named⟩
  exact (looksUp.pendingHold ⟨7⟩ entry).mpr ⟨by rw [named]; exact found, ordered, pending⟩

end Prepaid.Service
