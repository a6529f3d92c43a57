import Prepaid.Proofs.Ledger.Cover
import Prepaid.Proofs.Service.Books

/-!
# Cover over runs

No user ever has more held than there is, unless a hold is rounded past it. That can
happen only with sums that are not exact any more, and each step of a run can be
looked at on its own: cover is lost by the steps that overdraw a customer and by no
others.
-/

namespace Prepaid.Service

open Ledger

/-- Every balance can be asked for. It shows no more held than there is, and what it shows as
available is not negative. -/
def Covered (service : Service) : Prop :=
  ∀ user, ∃ balance, service.ledger.balance user = .ok balance ∧
    balance.held.cents ≤ balance.current.cents ∧ 0 ≤ balance.available.cents

/-- The step holds the total of an order that is rounded past what its customer has. -/
def Step.Overdraws (step : Step) : Prop :=
  step.before.ledger.tables.Overdraws step.after.ledger.tables

instance (step : Step) : Decidable step.Overdraws :=
  inferInstanceAs (Decidable (Tables.Overdraws _ _))

/-- Balances can be asked for and are covered exactly if the holds are. -/
theorem Intact.covered_iff {service : Service} (intact : service.Intact) :
    service.Covered ↔ service.ledger.tables.Covered := by
  refine forall_congr' fun user => ?_
  cases known : service.ledger.tables.wallets.get? user with
  | none =>
    simp only [Ledger.balance, known, Tables.heldOf, Tables.currentOf, Option.elim_none]
    exact iff_of_true ⟨.empty user, rfl, Int.le_refl 0, Int.le_refl 0⟩ (Int.le_refl 0)
  | some wallet =>
    rw [Tables.heldOf_of_get? known, Tables.currentOf_of_get? known,
      (intact.solvent known).covered_iff]
    simp only [Ledger.balance, known]

section Runs

variable {settings : Settings} {steps : List Step} {service : Service}

/-- A step from a covered service leaves everybody covered exactly if it does not overdraw
anybody. -/
theorem Run.step_covered_iff (prior : Run settings steps service) (request : Request)
    {stamp : Stamp} (fresh : Fresh stamp service.ledger.tables) (covered : service.Covered) :
    (Step.of settings service request stamp).after.Covered ↔
      ¬ (Step.of settings service request stamp).Overdraws := by
  obtain ⟨faithful, intact⟩ : (Step.of settings service request stamp).Faithful ∧ _ :=
    Step.of_faithful prior.intact request fresh
  obtain ⟨_, change, _⟩ := faithful.changes
  rw [intact.covered_iff]
  exact change.covered_iff prior.intact.sound prior.intact.solvent
    (prior.intact.covered_iff.mp covered)

/-- A run ends covered if each of its steps does. -/
theorem Run.covered (run : Run settings steps service) (each : ∀ step ∈ steps, step.after.Covered) :
    service.Covered := by
  induction run with
  | start gateway => exact fun user => ⟨.empty user, rfl, Int.le_refl 0, Int.le_refl 0⟩
  | step prior request fresh ih =>
    exact each _ (List.mem_append_right _ (List.mem_singleton_self _))
  | elsewhere prior gateway ih => exact ih each

/-- Every step of a run leaves everybody covered exactly if none overdraws anybody, and then the run
ends covered. -/
theorem covered_iff_not_overdraws (run : Run settings steps service) :
    ((∀ step ∈ steps, step.after.Covered) ↔ ∀ step ∈ steps, ¬ step.Overdraws) ∧
      ((∀ step ∈ steps, ¬ step.Overdraws) → service.Covered) := by
  have exactly : (∀ step ∈ steps, step.after.Covered) ↔ ∀ step ∈ steps, ¬ step.Overdraws := by
    induction run with
    | start gateway => simp
    | step prior request fresh ih =>
      simp only [List.forall_mem_append, List.forall_mem_singleton]
      rw [ih]
      refine and_congr_right fun none => ?_
      exact prior.step_covered_iff request fresh (prior.covered (ih.mpr none))
    | elsewhere prior gateway ih => exact ih
  exact ⟨exactly, fun none => run.covered (exactly.mpr none)⟩

end Runs

/-- The held order is covered. -/
theorem covered_of_held_order :
    (performAll {} heldOrder { gateway := { secret := "" } }).Covered := by
  have run : Run {} _ _ := (Run.start { secret := "" }).performAll heldOrder (by decide)
  exact (covered_iff_not_overdraws run).2 (by decide +kernel)

/-- A number of whole units as a decimal. -/
def wholeOf (units : Int) : Decimal :=
  (Decimal.ofMantissa? units 0).getD .zero

/-- The settings of an operator who puts no limit to deposits. -/
def unlimited : Settings :=
  { depositLimit := .ofDecimal (wholeOf Money.maxCents) }

/-- Two holds out of a deposit of which only whole units are kept. -/
def largeHolds : List (Request × Stamp) :=
  [(.deposit ⟨1⟩ (wholeOf 10000000000000000000000000001), stampOf 1),
    (.register ⟨⟨1⟩, ⟨1⟩, centsOf 150, .epoch⟩, stampOf 2),
    (.register ⟨⟨2⟩, ⟨1⟩, wholeOf 10000000000000000000000000000, .epoch⟩, stampOf 3),
    (.hold ⟨1⟩, stampOf 4), (.hold ⟨2⟩, stampOf 5)]

/-- Half a unit is missing for the second hold. What is available is rounded up to the whole total,
and what is held then is rounded up as well, to one unit more than there is. -/
theorem largeHolds_overdraw : unlimited.check = .ok () ∧
    Reachable unlimited (performAll unlimited largeHolds { gateway := { secret := "" } }) ∧
    ∃ balance,
      (performAll unlimited largeHolds { gateway := { secret := "" } }).ledger.balance ⟨1⟩ =
        .ok balance ∧
      balance.current.cents < balance.held.cents ∧
      balance.available.cents < 0 := by
  refine ⟨by decide +kernel, .performAll largeHolds (.start unlimited _) (by decide +kernel), ?_⟩
  exact ⟨_, rfl, by decide +kernel, by decide +kernel⟩

end Prepaid.Service
