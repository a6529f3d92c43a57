import Prepaid.Proofs.Ledger.Trail
import Prepaid.Proofs.Service.Lifecycle

/-!
# The audit trail of a run

Every entry tells the balance after it. Over a run, the completed entries of a wallet
follow each other in the order in which steps have completed them: each tells what the
one before it tells and its own signed amount, and the last one tells what is in the
wallet. The others tell what there was when they were written first.
-/

namespace Prepaid.Service

open Ledger

/-- The completed entries of a wallet, in the order in which the steps of a run have completed
them. -/
def trail (wallet : WalletId) (steps : List Step) : List Entry :=
  steps.flatMap fun step => step.before.ledger.tables.completionsOf wallet step.after.ledger.tables

/-- The step that an entry was written in first: the first one with the entry behind it. -/
def creation? (id : EntryId) (steps : List Step) : Option Step :=
  steps.find? fun step => step.after.ledger.tables.entries.contains id

section Runs

variable {settings : Settings} {steps : List Step} {service : Service}

/-- A further step adds what it completes to the trail. -/
theorem trail_append (wallet : WalletId) (steps : List Step) (step : Step) :
    trail wallet (steps ++ [step]) =
    trail wallet steps ++
      step.before.ledger.tables.completionsOf wallet step.after.ledger.tables := by
  simp [trail]

/-- A further step writes an entry first only if none before it did. -/
theorem creation?_append (id : EntryId) (steps : List Step) (step : Step) :
    creation? id (steps ++ [step]) =
    (creation? id steps).or
      (if step.after.ledger.tables.entries.contains id then some step else none) := by
  rw [creation?, List.find?_append, List.find?_singleton]
  rfl

namespace Run

/-- What a further step of a run writes into its entries. -/
theorem writes (run : Run settings steps service) (request : Request) {stamp : Stamp}
    (fresh : Fresh stamp service.ledger.tables) {id : EntryId} {entry : Entry}
    (found : (Step.of settings service request stamp).after.ledger.tables.entries.get? id =
      some entry) :
    service.ledger.tables.Writes (Step.of settings service request stamp).after.ledger.tables
      entry := by
  obtain ⟨topUp, change, _⟩ := (Step.of_faithful run.intact request fresh).1.changes
  exact change.writes run.intact.sound run.agreed found

/-- The completed entries of a wallet are those of its trail. -/
theorem trail_perm (run : Run settings steps service) (wallet : WalletId) :
    (trail wallet steps).Perm (service.ledger.tables.settled wallet) := by
  induction run with
  | start gateway => exact .refl _
  | step prior request fresh ih =>
    have afterSound := (prior.step request fresh).intact.sound
    have completed :=
      Tables.settled_perm prior.intact.sound afterSound (prior.step_continues request fresh) wallet
    rw [trail_append]
    exact (ih.append_right _).trans completed
  | elsewhere prior gateway ih => exact ih

/-- As long as a wallet is exact, its trail leads from nothing to what its completed entries amount
to. -/
theorem audits (run : Run settings steps service) (wallet : WalletId)
    (within : service.ledger.tables.credited wallet ≤ Money.maxCents) :
    Audits 0 (trail wallet steps) (service.ledger.tables.net wallet) := by
  induction run with
  | start gateway => rfl
  | @step steps service prior request stamp fresh ih =>
    have later := prior.step request fresh
    have credits :=
      Tables.credited_le prior.intact.sound later.intact.sound
        (prior.step_continues request fresh) wallet
    have faithful : (Step.of settings service request stamp).Faithful :=
      (Step.of_faithful prior.intact request fresh).1
    obtain ⟨topUp, change, _⟩ := faithful.changes
    rw [trail_append]
    exact (ih (Int.le_trans credits within)).append
      (change.audits prior.intact.sound prior.agreed later.agreed later.balanced wallet within)
  | elsewhere prior gateway ih => exact ih within

/-- An entry that is not there yet has not been written. -/
theorem creation?_of_none (run : Run settings steps service) {id : EntryId}
    (absent : service.ledger.tables.entries.get? id = none) : creation? id steps = none := by
  induction run with
  | start gateway => rfl
  | @step steps service prior request stamp fresh ih =>
    have before : service.ledger.tables.entries.get? id = none := by
      cases known : service.ledger.tables.entries.get? id with
      | none => rfl
      | some entry =>
        obtain ⟨row, rowAt, _⟩ := (prior.step_continues request fresh).entry known
        rw [absent] at rowAt
        cases rowAt
    rw [creation?_append, ih before]
    simp [Table.contains, absent]
  | elsewhere prior gateway ih => exact ih absent

/-- An entry that is not completed tells what its owner had when it was written first. -/
theorem created (run : Run settings steps service) {id : EntryId} {entry : Entry}
    (found : service.ledger.tables.entries.get? id = some entry)
    (uncompleted : entry.status ≠ .completed) :
    ∃ step user, creation? id steps = some step ∧ step.after.ledger.tables.Shows user entry ∧
      entry.balanceAfter = step.before.ledger.tables.currentOf user := by
  induction run generalizing entry with
  | start gateway => cases found
  | @step steps service prior request stamp fresh ih =>
    have later := prior.step request fresh
    obtain rfl := later.intact.sound.entry_id found
    -- What was there before was written first where it was before, and shows the same still.
    have older {old : Entry} (known : service.ledger.tables.entries.get? entry.id = some old)
        (open? : old.status ≠ .completed) (wallet : entry.wallet = old.wallet)
        (shown : entry.balanceAfter = old.balanceAfter) :
        ∃ step user,
          creation? entry.id (steps ++ [.of settings service request stamp]) = some step ∧
          step.after.ledger.tables.Shows user entry ∧
          entry.balanceAfter = step.before.ledger.tables.currentOf user := by
      obtain ⟨step, user, created, shows, before⟩ := ih known open?
      refine ⟨step, user, by rw [creation?_append, created, Option.some_or], ?_,
        by rw [shown]; exact before⟩
      rw [Tables.Shows, wallet, shown]
      exact shows
    cases prior.writes request fresh found with
    | kept known => exact older known uncompleted rfl rfl
    | cancelled known pending _ wallet shown => exact older known (by simp [pending]) wallet shown
    | shown open? shows same =>
      have pending : entry.status = .pending := by
        cases status : entry.status <;> simp_all
      cases known : service.ledger.tables.entries.get? entry.id with
      | some old =>
        obtain ⟨row, rowAt, continues⟩ := (prior.step_continues request fresh).entry known
        rw [found] at rowAt
        cases rowAt
        rcases continues.fate with unchanged | fate
        · exact older known (by rw [← unchanged]; exact uncompleted) (by rw [unchanged])
            (by rw [unchanged])
        · exact (Entry.settled_of_fate fate pending).elim
      | none =>
        refine ⟨_, _, ?_, shows, shows.currentOf.trans (same pending)⟩
        rw [creation?_append, prior.creation?_of_none known]
        simp [Table.contains, found]
  | elsewhere prior gateway ih => exact ih found uncompleted

end Run

/-- The balances that entries tell. An entry that a step completes tells what its owner has right
behind the step. So the completed entries of a wallet, in the order in which they were completed,
lead from nothing to what is in the wallet, each with its signed amount, unless more has been
credited to the wallet than money is exact with. Every other entry tells what its owner had when it
was written first, right before and right behind that step. -/
theorem balances_are_audited (run : Run settings steps service) :
    (∀ step ∈ steps, ∀ entry ∈ step.before.ledger.tables.completions step.after.ledger.tables,
      ∃ user, step.after.ledger.tables.Shows user entry) ∧
    (∀ user wallet, service.ledger.tables.wallets.get? user = some wallet →
      service.ledger.tables.credited wallet.id ≤ Money.maxCents →
      (trail wallet.id steps).Perm (service.ledger.tables.settled wallet.id) ∧
        Audits 0 (trail wallet.id steps) wallet.current.cents) ∧
    ∀ id entry, service.ledger.tables.entries.get? id = some entry → entry.status ≠ .completed →
      ∃ step user, creation? id steps = some step ∧ step.after.ledger.tables.Shows user entry ∧
        entry.balanceAfter = step.before.ledger.tables.currentOf user := by
  refine ⟨?_, ?_, fun _ _ found uncompleted => run.created found uncompleted⟩
  · refine run.forall_steps fun prior request _ fresh entry member => ?_
    obtain ⟨topUp, change, _⟩ := (Step.of_faithful prior.intact request fresh).1.changes
    exact change.completions_show prior.intact.sound prior.agreed member
  · intro user wallet known within
    refine ⟨run.trail_perm wallet.id, ?_⟩
    rw [(run.balanced known within).net run.intact.sound run.agreed]
    exact run.audits wallet.id within

/-- The steps of an order of ten that is paid out of a deposit of twenty-five. -/
def paidSteps : List Step :=
  stepsOf {} (heldOrder ++ [(.capture ⟨7⟩, stampOf 4)]) { gateway := { secret := "" } }

/-- The deposit and the payment lead from nothing to what is left. -/
theorem paidSteps_audited :
    (trail (stampOf 1).wallet paidSteps).map (fun entry => (entry.kind, entry.balanceAfter.cents)) =
        [(.deposit, 2500), (.payment, 1500)] ∧
      Audits 0 (trail (stampOf 1).wallet paidSteps) 1500 := by
  have started : Run {} [] { gateway := { secret := "" } } := .start { secret := "" }
  have run := started.performAll (heldOrder ++ [(.capture ⟨7⟩, stampOf 4)]) (by decide)
  obtain ⟨_, audited⟩ := (balances_are_audited run).2.1 ⟨1⟩ _ rfl (by decide)
  exact ⟨by decide, audited⟩

end Runs

end Prepaid.Service
