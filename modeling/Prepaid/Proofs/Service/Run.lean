import Prepaid.Proofs.Service.Requests

/-!
# Runs

A run starts with nothing in the ledger. Requests of any kind follow each other,
each under a stamp that is fresh, and between them anything may happen at the
gateway. `Run.keeps` is the induction over runs: what every upkeep and every posting
keeps is true of every ledger that is reached.
-/

namespace Prepaid.Service

open Ledger

/-- One request of a run, and what became of it. -/
structure Step where
  before : Service
  request : Request
  stamp : Stamp
  answer : Except Failure Answer
  after : Service

/-- The step that a request takes. -/
def Step.of (settings : Settings) (service : Service) (request : Request) (stamp : Stamp) : Step :=
  { before := service, request, stamp
    answer := (request.perform settings stamp service).1
    after := (request.perform settings stamp service).2 }

/-- The steps that lead from an empty ledger to a service. -/
inductive Run (settings : Settings) : List Step → Service → Prop where
  | start (gateway : Gateway) : Run settings [] { gateway }
  | step {steps : List Step} {service : Service} (prior : Run settings steps service)
      (request : Request) {stamp : Stamp} (fresh : Fresh stamp service.ledger.tables) :
      Run settings (steps ++ [.of settings service request stamp])
        (Step.of settings service request stamp).after
  | elsewhere {steps : List Step} {service : Service} (prior : Run settings steps service)
      (gateway : Gateway) : Run settings steps { service with gateway }

/-- A service that some run leads to. -/
def Reachable (settings : Settings) (service : Service) : Prop :=
  ∃ steps, Run settings steps service

/-- What every service has that a run leads to. -/
structure Intact (service : Service) : Prop where
  outages : service.ledger.outages = []
  sound : service.ledger.tables.Sound
  solvent : service.ledger.tables.Solvent

/-- What happens at the gateway does not concern the ledger. -/
theorem Intact.elsewhere {service : Service} (intact : service.Intact) (gateway : Gateway) :
    Intact { service with gateway } :=
  ⟨intact.outages, intact.sound, intact.solvent⟩

section Steps

variable {settings : Settings} {service : Service}

/-- A step commits one change, and tells truly whether it has credited a top-up. -/
structure Step.Faithful (step : Step) : Prop where
  intact : step.before.Intact
  changes : ∃ topUp, Change step.stamp step.before.ledger.tables topUp step.after.ledger.tables ∧
    ∀ id, topUp = some id ↔ step.request.Reports step.before step.answer id

/-- Every step from an intact service is faithful, and leaves it intact. -/
theorem Step.of_faithful (intact : service.Intact) (request : Request) {stamp : Stamp}
    (fresh : Fresh stamp service.ledger.tables) :
    (Step.of settings service request stamp).Faithful ∧
      (Step.of settings service request stamp).after.Intact := by
  obtain ⟨⟨tables, outages⟩, gateway⟩ := service
  obtain rfl : outages = [] := intact.outages
  have changes : request.Changes settings stamp { ledger := { tables }, gateway } :=
    request.perform_changes intact.sound intact.solvent fresh
  obtain ⟨topUp, answer, after, later, run, change, reports⟩ := changes
  simp only [Step.of, run]
  exact ⟨⟨intact, topUp, change, reports⟩, rfl, change.sound intact.sound,
    change.solvent intact.solvent⟩

namespace Run

variable {steps : List Step}

/-- Every service that a run leads to is intact. -/
theorem intact (run : Run settings steps service) : service.Intact := by
  induction run with
  | start gateway => exact ⟨rfl, .empty, by intro user wallet found; cases found⟩
  | step prior request fresh ih => exact (Step.of_faithful ih request fresh).2
  | elsewhere prior gateway ih => exact ih.elsewhere gateway

/-- What is true of a step that any run can take is true of all steps of a run. -/
theorem forall_steps {holds : Step → Prop}
    (each : ∀ {steps service} (_ : Run settings steps service) request {stamp},
      Fresh stamp service.ledger.tables → holds (.of settings service request stamp))
    (run : Run settings steps service) : ∀ step ∈ steps, holds step := by
  induction run with
  | start gateway => simp
  | step prior request fresh ih =>
    intro step member
    rcases List.mem_append.mp member with earlier | last
    · exact ih step earlier
    · obtain rfl := List.mem_singleton.mp last
      exact each prior request fresh
  | elsewhere prior gateway ih => exact ih

/-- What every upkeep and every posting keeps is true of every ledger that is reached. -/
theorem keeps {invariant : Tables → Prop} (empty : invariant {})
    (upkept : ∀ {stamp tables after}, tables.Sound → Upkeep stamp tables after → invariant tables →
      invariant after)
    (posted : ∀ {stamp tables topUp after}, tables.Sound → tables.Solvent →
      Posting stamp tables topUp after → invariant tables → invariant after)
    (run : Run settings steps service) : invariant service.ledger.tables := by
  induction run with
  | start gateway => exact empty
  | @step steps service prior request stamp fresh ih =>
    obtain ⟨topUp, change, _⟩ := (Step.of_faithful prior.intact request fresh).1.changes
    -- Soundness and solvency go along, since the postings of a change build on its upkeep.
    let joint (tables : Tables) : Prop := tables.Sound ∧ tables.Solvent ∧ invariant tables
    have kept : joint (Step.of settings service request stamp).after.ledger.tables := by
      refine change.keeps joint ?_ ?_ ⟨prior.intact.sound, prior.intact.solvent, ih⟩
      · rintro tables after upkeep ⟨sound, solvent, holds⟩
        exact ⟨upkeep.sound sound, upkeep.solvent solvent, upkept sound upkeep holds⟩
      · rintro tables topUp after posting ⟨sound, solvent, holds⟩
        exact ⟨posting.sound sound, posting.solvent solvent, posted sound solvent posting holds⟩
    exact kept.2.2
  | elsewhere prior gateway ih => exact ih

end Run

/-- The steps that lead on from a service. -/
inductive Onward (settings : Settings) (earlier : Service) : List Step → Service → Prop where
  | here : Onward settings earlier [] earlier
  | step {steps : List Step} {service : Service} (prior : Onward settings earlier steps service)
      (request : Request) {stamp : Stamp} (fresh : Fresh stamp service.ledger.tables) :
      Onward settings earlier (steps ++ [.of settings service request stamp])
        (Step.of settings service request stamp).after
  | elsewhere {steps : List Step} {service : Service}
      (prior : Onward settings earlier steps service) (gateway : Gateway) : Onward settings earlier
        steps { service with gateway }

/-- A run that goes on is a run. -/
theorem Run.onward {steps further : List Step} {later : Service} (run : Run settings steps service)
    (onward : Onward settings service further later) : Run settings (steps ++ further) later := by
  induction onward with
  | here =>
    rw [List.append_nil]
    exact run
  | step prior request fresh ih =>
    rw [← List.append_assoc]
    exact .step ih request fresh
  | elsewhere prior gateway ih => exact .elsewhere ih gateway

end Steps

/-! ## Runs of given requests -/

/-- The service after requests that follow each other, each under its stamp. -/
def performAll (settings : Settings) : List (Request × Stamp) → Service → Service
  | [], service => service
  | (request, stamp) :: rest, service =>
    performAll settings rest (Step.of settings service request stamp).after

/-- The steps of requests that follow each other, each under its stamp. -/
def stepsOf (settings : Settings) : List (Request × Stamp) → Service → List Step
  | [], _ => []
  | (request, stamp) :: rest, service =>
    .of settings service request stamp ::
      stepsOf settings rest (Step.of settings service request stamp).after

/-- Every stamp is fresh when its turn comes. -/
def AllFresh (settings : Settings) : List (Request × Stamp) → Service → Prop
  | [], _ => True
  | (request, stamp) :: rest, service =>
    Fresh stamp service.ledger.tables ∧
      AllFresh settings rest (Step.of settings service request stamp).after

instance decidableAllFresh (settings : Settings) :
    (requests : List (Request × Stamp)) → (service : Service) →
    Decidable (AllFresh settings requests service)
  | [], _ => .isTrue trivial
  | (request, stamp) :: rest, service =>
    have := decidableAllFresh settings rest (Step.of settings service request stamp).after
    inferInstanceAs (Decidable (_ ∧ _))

/-- An empty ledger is where runs begin. -/
theorem Reachable.start (settings : Settings) (gateway : Gateway) :
    Reachable settings { gateway } :=
  ⟨[], .start gateway⟩

/-- Requests carry a run on, if their stamps are fresh. -/
theorem Run.performAll {settings : Settings} (requests : List (Request × Stamp)) {steps : List Step}
    {service : Service} (run : Run settings steps service)
    (fresh : AllFresh settings requests service) :
    Run settings (steps ++ stepsOf settings requests service)
      (performAll settings requests service) := by
  induction requests generalizing steps service with
  | nil =>
    rw [stepsOf, List.append_nil]
    exact run
  | cons first rest ih =>
    rw [stepsOf, List.append_cons]
    exact ih (.step run first.1 fresh.1) fresh.2

/-- Requests lead on from wherever they are made, if their stamps are fresh. -/
theorem Onward.performAll {settings : Settings} {earlier : Service}
    (requests : List (Request × Stamp)) {steps : List Step} {service : Service}
    (onward : Onward settings earlier steps service) (fresh : AllFresh settings requests service) :
    Onward settings earlier (steps ++ stepsOf settings requests service)
      (performAll settings requests service) := by
  induction requests generalizing steps service with
  | nil =>
    rw [stepsOf, List.append_nil]
    exact onward
  | cons first rest ih =>
    rw [stepsOf, List.append_cons]
    exact ih (.step onward first.1 fresh.1) fresh.2

/-- What they lead to is reachable. -/
theorem Reachable.performAll {settings : Settings} (requests : List (Request × Stamp))
    {service : Service} (reachable : Reachable settings service)
    (fresh : AllFresh settings requests service) :
    Reachable settings (performAll settings requests service) := by
  obtain ⟨steps, run⟩ := reachable
  exact ⟨_, run.performAll requests fresh⟩

/-- A number of cents as a decimal. -/
def centsOf (cents : Int) : Decimal :=
  (Decimal.ofMantissa? cents Money.places).getD .zero

/-- A stamp whose identifiers all have the same number. -/
def stampOf (number : Nat) : Stamp where
  now := .epoch
  wallet := ⟨⟨.ofNat 128 number⟩⟩
  entry := ⟨⟨.ofNat 128 number⟩⟩
  session := ⟨.ofNat 128 number⟩
  secret := ⟨.ofNat 128 number⟩
  payment := ⟨.ofNat 128 number⟩

end Prepaid.Service
