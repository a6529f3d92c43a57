import Prepaid.Proofs.Ledger.Overlay
import Prepaid.Proofs.Service.Books

/-!
# Units of work over the stores of runs

Whatever has been asked of the service, its tables can be the store of any unit of work:
their rows stand under their keys, and no order has two holds. A unit over such a store is
an overlay on it. What a unit cannot see is where a session or the identifier of a wallet
leads to once it has put a row that takes it, and two wallets with one identifier may be
written in another order than they were put in.
-/

namespace Prepaid

open Ledger

/-- The tables that requests lead to can be the store of a unit of work. -/
theorem Service.Reachable.hosts {settings : Settings} {service : Service}
    (reachable : Reachable settings service) :
    service.ledger.tables.Keyed ∧ service.ledger.tables.OneHold := by
  obtain ⟨steps, run⟩ := reachable
  exact ⟨run.intact.sound.keyed, run.agreed.oneHold run.intact.sound⟩

namespace Ledger.UnitCall

/-- A unit of work is an overlay on its store. Whatever calls it makes, each is answered as by a
lookup in the store with all versions on top that have been put before it; among them are the empty
wallets of users who had none when they were asked for. A commit that the store accepts turns it
into this overlay, and writes the last version of each row that was put, once, and nothing that was
only read. A unit that ends otherwise leaves the store as it is, and so does one whose commit meets
an outage. The overlay can be the store of the next unit. -/
theorem unit_is_overlay {store : Tables} (keyed : store.Keyed) (single : store.OneHold)
    {calls : List UnitCall} (orderly : Throughout (Orderly store) store [] calls)
    (steady : Throughout (Steady store) store [] calls) :
    let overlay := store.putAll (puts store calls)
    ∃ draft, (performAll calls).run { base := store } = .ok (answers store calls, draft) ∧
      draft.batch.Carries (puts store calls) ∧
      (∀ outages, 0 ∉ outages ∨ puts store calls = [] →
        ∃ later, transact (performAll calls) { tables := store, outages } =
          (.ok (answers store calls), { tables := overlay, outages := later })) ∧
      (∀ outages, 0 ∈ outages → puts store calls ≠ [] →
        transact (performAll calls) { tables := store, outages } =
          (.error (.rejected (.storage .outage)),
            { tables := store, outages := laterOutages outages })) ∧
      (∀ outages rejection,
        transact (performAll calls >>= fun _ => (Work.reject rejection : Work Unit))
            { tables := store, outages } =
          (.error (.rejected rejection), { tables := store, outages })) ∧
      overlay.Keyed ∧ overlay.OneHold := by
  intro overlay
  obtain ⟨draft, run, overlays, last⟩ :=
    performAll_run keyed single (.start store) keyed single orderly steady
  refine ⟨draft, run, overlays.carries, fun outages accepted => ?_, fun outages outage busy => ?_,
    fun outages rejection => ?_, last⟩
  · obtain ⟨later, committed⟩ := overlays.commit_of_accepted accepted
    refine ⟨later, ?_⟩
    rw [transact, run]
    simp only [committed]
    rfl
  · rw [transact, run]
    simp only [overlays.commit_of_outage outage busy]
  · have dropped :
        (performAll calls >>= fun _ => (Work.reject rejection : Work Unit)).run { base := store } =
        .error (.rejected rejection) := by
      rw [Work.bind_of_ok run]
      rfl
    rw [transact, dropped]

/-- After the held order, two sessions are opened. -/
def openSessions : List (Service.Request × Stamp) :=
  Service.heldOrder ++
    [(.recordTopUp ⟨1⟩ ⟨.ofDecimal (Service.centsOf 1700), by decide⟩ "first", Service.stampOf 4),
      (.recordTopUp ⟨1⟩ ⟨.ofDecimal (Service.centsOf 3000), by decide⟩ "second", Service.stampOf 5)]

/-- The service after `openSessions`. -/
def sessionService : Service :=
  Service.performAll {} openSessions { gateway := { secret := "" } }

/-- The service with the open sessions is reached. -/
theorem sessionService_reachable : Service.Reachable {} sessionService :=
  .performAll openSessions (.start {} _) (by decide +kernel)

/-- A pending top-up of user 1. -/
def topUp (id : Nat) (session : String) : Entry :=
  .pendingDeposit (Service.stampOf id).entry (Service.stampOf 1).wallet
    ⟨.ofDecimal (Service.centsOf 1000), by decide⟩ (.ofDecimal (Service.centsOf 2500)) session
    .epoch

/-- A unit that looks through all kinds of rows. It cancels the hold and looks for it again, asks
twice for a user who has no wallet, and asks for a session once it has put a top-up that takes the
other one. -/
def cancelling : List UnitCall :=
  [.pendingHold ⟨7⟩, .entry (Service.stampOf 3).entry,
    .put (.entry ((Entry.hold (Service.stampOf 3).entry (Service.stampOf 1).wallet ⟨7⟩
      ⟨.ofDecimal (Service.centsOf 1000), by decide⟩ (.ofDecimal (Service.centsOf 2500))
      .epoch).cancel .epoch)),
    .pendingHold ⟨7⟩, .order ⟨8⟩, .wallet ⟨2⟩ (Service.stampOf 6), .wallet ⟨2⟩ (Service.stampOf 7),
    .walletById (Service.stampOf 1).wallet (Service.stampOf 8), .put (.entry (topUp 9 "first")),
    .put (.entry (topUp 10 "third")), .entry (Service.stampOf 9).entry, .sessionEntry "second"]

/-- The calls of `cancelling` are answered, and a store without an outage takes what they put. -/
theorem cancelling_is_overlay :
    let store := sessionService.ledger.tables
    Throughout (Orderly store) store [] cancelling ∧ Throughout (Steady store) store [] cancelling ∧
      ∃ hold opened second, store.pendingHold? ⟨7⟩ = some hold ∧
        store.entryForSession? "second" = some second ∧
        store.walletById? (Service.stampOf 1).wallet = some opened ∧
        (transact (performAll cancelling) { tables := store }).1 =
          .ok [.ok (.hold (some hold)), .ok (.entry hold), .ok .done, .ok (.hold none),
            .error (.rejected (.orderNotFound ⟨8⟩)),
            .ok (.wallet (.empty (Service.stampOf 6).wallet ⟨2⟩ .epoch)),
            .ok (.wallet (.empty (Service.stampOf 6).wallet ⟨2⟩ .epoch)), .ok (.wallet opened),
            .ok .done, .ok .done, .ok (.entry (topUp 9 "first")), .ok (.entry second)] := by
  have orderly :
      Throughout (Orderly sessionService.ledger.tables) sessionService.ledger.tables []
        cancelling := by
    decide +kernel
  have steady :
      Throughout (Steady sessionService.ledger.tables) sessionService.ledger.tables []
        cancelling := by
    decide +kernel
  obtain ⟨keyed, single⟩ := sessionService_reachable.hosts
  obtain ⟨_, _, _, accepted, _⟩ := unit_is_overlay keyed single orderly steady
  obtain ⟨_, committed⟩ := accepted [] (.inl List.not_mem_nil)
  refine ⟨orderly, steady, _, _, _, rfl, rfl, rfl, ?_⟩
  rw [committed]
  rfl

/-- A unit that puts a new top-up for a session which a row of the store has, and asks for the
session. -/
def retaking : List UnitCall :=
  [.put (.entry (topUp 6 "first")), .sessionEntry "first"]

/-- A unit that puts a new wallet with an identifier which a row of the store has, and asks for the
identifier. -/
def borrowing : List UnitCall :=
  [.put (.wallet (.empty (Service.stampOf 1).wallet ⟨2⟩ .epoch)),
    .walletById (Service.stampOf 1).wallet (Service.stampOf 6)]

/-- A unit that puts wallets of two users with one identifier, one of them twice. -/
def sharing : List UnitCall :=
  [.put (.wallet (.empty (Service.stampOf 6).wallet ⟨2⟩ .epoch)),
    .put (.wallet (.empty (Service.stampOf 6).wallet ⟨3⟩ .epoch)),
    .put (.wallet (.empty (Service.stampOf 6).wallet ⟨2⟩ .epoch))]

/-- Calls that are orderly are not enough for an overlay. A session or an identifier of a wallet
that a unit takes for a new row leads to the new row in the overlay, and to the row of the store in
the unit. Two wallets with one identifier are written in the order in which they were first put, so
that the identifier leads to the second one, even if the first one was put once more. And a store
with an outage does not turn into the overlay. -/
theorem unit_departs_from_overlay :
    let store := sessionService.ledger.tables
    store.Keyed ∧ store.OneHold ∧
      (Throughout (Orderly store) store [] retaking ∧
        ∃ old, store.entryForSession? "first" = some old ∧ old ≠ topUp 6 "first" ∧
          (transact (performAll retaking) { tables := store }).1 =
            .ok [.ok .done, .ok (.entry old)] ∧
          answers store retaking = [.ok .done, .ok (.entry (topUp 6 "first"))]) ∧
      (Throughout (Orderly store) store [] borrowing ∧
        ∃ old new, store.walletById? (Service.stampOf 1).wallet = some old ∧ old.owner ≠ new.owner ∧
          (transact (performAll borrowing) { tables := store }).1 =
            .ok [.ok .done, .ok (.wallet old)] ∧
          answers store borrowing = [.ok .done, .ok (.wallet new)]) ∧
      (Throughout (Orderly store) store [] sharing ∧
        (transact (performAll sharing) { tables := store }).2.tables.owners.get?
          (Service.stampOf 6).wallet = some ⟨3⟩ ∧
        (store.putAll (puts store sharing)).owners.get? (Service.stampOf 6).wallet = some ⟨2⟩) ∧
      (transact (performAll retaking) { tables := store, outages := [0] }).2.tables = store ∧
      store.entries.get? (Service.stampOf 6).entry = none ∧
      (store.putAll (puts store retaking)).entries.get? (Service.stampOf 6).entry =
        some (topUp 6 "first") := by
  obtain ⟨keyed, single⟩ := sessionService_reachable.hosts
  refine ⟨keyed, single, ⟨by decide +kernel, _, rfl, by decide +kernel, rfl, rfl⟩, ?_, ?_, rfl, rfl,
    rfl⟩
  · exact ⟨by decide +kernel, _, _, rfl, by decide +kernel, rfl, rfl⟩
  · exact ⟨by decide +kernel, rfl, rfl⟩

end Ledger.UnitCall

end Prepaid
