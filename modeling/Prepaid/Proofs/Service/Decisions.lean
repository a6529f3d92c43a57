import Prepaid.Proofs.Ledger.Bookings
import Prepaid.Proofs.Service.Requests

/-!
# Requests and decisions

Most requests are calls of the ledger that enact what is decided for them. Checkouts and
reconciliations involve the gateway, and deliveries keep a record besides.
-/

namespace Prepaid.Service

open Ledger

namespace Request

/-- What is decided for a request, where nothing else is done but what is decided. -/
def decision? (settings : Settings) :
    Request → Option (Stamp → Tables → Except Failure (Decision Answer))
  | .deposit user value => some fun stamp tables =>
    (Decision.deposit settings user value stamp tables).map (.map .moved)
  | .recordTopUp user amount session => some fun stamp tables =>
    .ok ((Decision.recordTopUp user amount session stamp tables).map .moved)
  | .confirmTopUp session payment => some fun stamp tables =>
    (Decision.confirmTopUp session payment stamp tables).map (.map .confirmed)
  | .hold order => some fun stamp tables => (Decision.hold order stamp tables).map (.map .moved)
  | .capture order => some fun stamp tables =>
    (Decision.capture order stamp tables).map (.map .moved)
  | .release order precondition => some fun stamp tables =>
    (Decision.release order precondition stamp tables).map (.map .moved)
  | .refund order => some fun stamp tables => (Decision.refund order stamp tables).map (.map .moved)
  | .register order => some fun stamp tables =>
    (Decision.register order stamp tables).map (.map .order)
  | .place actor order => some fun stamp tables => (Decision.place actor order stamp tables).map
    (.map .moved)
  | .prepare actor order => some fun stamp tables => (Decision.prepare actor order stamp tables).map
    (.map .order)
  | .charge actor order => some fun stamp tables => (Decision.charge actor order stamp tables).map
    (.map .moved)
  | .complete actor order => some fun stamp tables =>
    (Decision.complete actor order stamp tables).map (.map .order)
  | .repay actor order => some fun stamp tables => (Decision.repay actor order stamp tables).map
    (.map .moved)
  | .cancel actor order now => some fun stamp tables =>
    (Decision.cancel settings actor order now stamp tables).map (.map .moved)
  | .checkout _ _ _ | .deliver _ _ | .reconcile _ => none

section Decided

variable {settings : Settings} {stamp : Stamp} {tables : Tables} {gateway : Gateway}
  {request : Request} {decide : Stamp → Tables → Except Failure (Decision Answer)}

/-- A call that enacts its decision does so as a request, with its answer wrapped. -/
theorem enacted {α : Type} {call : Ledger.Call α} {decision : Except Failure (Decision α)}
    (enacts : call { tables } = enact tables decision) (wrap : α → Answer) :
    (wrap <$> onLedger call) { ledger := { tables }, gateway } =
      ((enact tables (decision.map (.map wrap))).1,
        { ledger := (enact tables (decision.map (.map wrap))).2, gateway }) := by
  rw [map_apply, onLedger_of_run enacts, enact_map]
  rfl

/-- A request for which there is a decision enacts it. -/
theorem perform_enacts (decided : request.decision? settings = some decide) (sound : tables.Sound)
    (fresh : Fresh stamp tables) :
    request.perform settings stamp { ledger := { tables }, gateway } =
      ((enact tables (decide stamp tables)).1,
        { ledger := (enact tables (decide stamp tables)).2, gateway }) := by
  cases request with
  | checkout | deliver | reconcile => cases decided
  | deposit user value => cases decided; exact enacted (deposit_apply fresh settings user value) _
  | recordTopUp user amount session =>
    cases decided; exact enacted (recordTopUp_booked sound fresh user amount session) _
  | confirmTopUp session payment =>
    cases decided; exact enacted (confirmTopUp_enacts sound session payment stamp) _
  | hold order => cases decided; exact enacted (hold_apply sound fresh order) _
  | capture order => cases decided; exact enacted (capture_apply sound fresh order) _
  | release order precondition =>
    cases decided; exact enacted (release_apply sound fresh order precondition) _
  | refund order => cases decided; exact enacted (refund_apply sound fresh order) _
  | register order => cases decided; exact enacted (register_apply order) _
  | place actor order => cases decided; exact enacted (place_apply sound fresh actor order) _
  | prepare actor order => cases decided; exact enacted (prepare_apply sound actor order) _
  | charge actor order => cases decided; exact enacted (charge_apply sound fresh actor order) _
  | complete actor order => cases decided; exact enacted (complete_apply sound actor order) _
  | repay actor order => cases decided; exact enacted (repay_apply sound fresh actor order) _
  | cancel actor order now =>
    cases decided; exact enacted (cancel_apply sound fresh settings actor order now) _

end Decided

end Request

end Prepaid.Service
