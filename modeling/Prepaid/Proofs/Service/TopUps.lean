import Prepaid.Proofs.Gateway.Wire
import Prepaid.Proofs.Ledger.Dues
import Prepaid.Proofs.Service.Books

/-!
# Top-ups

A top-up waits in the ledger until its checkout session is paid. Over any run it is
credited by one step at most, which completes it and is the only one that says so.
Signals that tell of paid sessions may therefore come in any order and as often as
they like: together they credit every top-up that they tell of once.
-/

namespace Prepaid.Service

open Ledger

/-! ## The steps that open and credit a top-up -/

namespace Step

/-- The step opens a top-up: its receipt shows an entry that waits for a session. -/
def Opens (topUp : EntryId) (step : Step) : Prop :=
  ∃ receipt entry, receipt.entry = some entry ∧ entry.id = topUp ∧
    ((∃ user amount session, step.request = .recordTopUp user amount session ∧
        step.answer = .ok (.moved receipt)) ∨
      ∃ actor user value checkout, step.request = .checkout actor user value ∧
        step.answer = .ok (.opened checkout receipt))

/-- The step credits a top-up. -/
def Credits (topUp : EntryId) (step : Step) : Prop :=
  step.before.ledger.tables.Credits topUp step.after.ledger.tables

/-- The answer of the step says that it has credited a top-up. -/
def Reports (topUp : EntryId) (step : Step) : Prop :=
  step.request.Reports step.before step.answer topUp

/-- What the user has is different after the step. -/
def Moves (user : UserId) (step : Step) : Prop :=
  step.after.ledger.tables.currentOf user ≠ step.before.ledger.tables.currentOf user

/-- An entry says why a user has more than before, or less. -/
def Explains (user : UserId) (entry : Entry) (step : Step) : Prop :=
  step.before.ledger.tables.Explains entry user step.after.ledger.tables

end Step

section Runs

variable {settings : Settings} {steps : List Step} {service : Service}

/-- Every step of a run moves money as one entry says, and tells truly whether that is a top-up. -/
theorem Run.moves (run : Run settings steps service) : ∀ step ∈ steps, ∃ topUp,
    step.before.ledger.tables.Moves step.after.ledger.tables topUp ∧
      ∀ id, topUp = some id ↔ step.Reports id := by
  refine run.forall_steps ?_
  intro steps service prior request stamp fresh
  obtain ⟨topUp, change, reports⟩ := (Step.of_faithful prior.intact request fresh).1.changes
  exact ⟨topUp, change.moves prior.intact.sound prior.agreed, reports⟩

/-- A step credits exactly the top-up that it reports. -/
theorem Run.credits_iff_reports (run : Run settings steps service) (id : EntryId) :
    ∀ step ∈ steps, step.Credits id ↔ step.Reports id := by
  intro step member
  obtain ⟨topUp, moves, reports⟩ := run.moves step member
  rw [← reports id]
  exact moves.credits_iff id

/-- A top-up is completed exactly if some step has credited it. -/
theorem Run.completed_iff (run : Run settings steps service) (id : EntryId) :
    service.ledger.tables.topUpStatus id = some .completed ↔ ∃ step ∈ steps, step.Credits id := by
  induction run with
  | start gateway => simp [Tables.topUpStatus]
  | @step steps service prior request stamp fresh ih =>
    let step := Step.of settings service request stamp
    obtain ⟨topUp, moves, _⟩ := (Run.step prior request fresh).moves step (by simp [step])
    have last : (Step.of settings service request stamp).Credits id ↔ topUp = some id :=
      moves.credits_iff id
    rw [moves.completed_iff id]
    change service.ledger.tables.topUpStatus id = _ ∨ _ ↔ _
    rw [ih, ← last]
    simp [or_and_right, exists_or]
  | elsewhere prior gateway ih => exact ih

/-- No top-up is credited by two steps. -/
theorem Run.credits_once (run : Run settings steps service) (id : EntryId) :
    steps.Pairwise fun earlier later => ¬ (earlier.Credits id ∧ later.Credits id) := by
  induction run with
  | start gateway => exact .nil
  | step prior request fresh ih =>
    refine List.pairwise_append.mpr ⟨ih, List.pairwise_singleton _ _, ?_⟩
    intro earlier member last lastMember
    obtain rfl := List.mem_singleton.mp lastMember
    rintro ⟨before, again⟩
    have completed := (prior.completed_iff id).mpr ⟨earlier, member, before⟩
    have pending : _ = some EntryStatus.pending := again.pending
    rw [Step.of, completed] at pending
    cases pending
  | elsewhere prior gateway ih => exact ih

/-- A step that opens a top-up leaves an entry that waits for a session. -/
theorem Step.topUpStatus_of_opens (intact : service.Intact) {request : Request} {stamp : Stamp}
    (fresh : Fresh stamp service.ledger.tables) {id : EntryId}
    (opens : (Step.of settings service request stamp).Opens id) :
    (Step.of settings service request stamp).after.ledger.tables.topUpStatus id =
      some .pending := by
  obtain ⟨⟨tables, outages⟩, gateway⟩ := service
  obtain rfl : outages = [] := intact.outages
  -- Both requests record the top-up, and their receipts show the entry that is put.
  have recorded (wallet : Wallet) (amount : Amount) (session : String) (first : Tables) :
      (first.putEntry (.pendingDeposit stamp.entry wallet.id amount wallet.current session
        stamp.now)).topUpStatus stamp.entry = some .pending := by
    simp [Tables.topUpStatus, Entry.pendingDeposit]
  obtain ⟨receipt, entry, shown, rfl, ⟨user, amount, session, rfl, answer⟩ |
    ⟨actor, user, value, checkout, rfl, answer⟩⟩ := opens
  · obtain ⟨wallet, first, _, _, _, run⟩ := recordTopUp_apply fresh user amount session
    simp only [Step.of, Request.perform, map_apply, onLedger_of_run run, map_eq_ok] at answer ⊢
    obtain ⟨_, ⟨balance, _, rfl⟩, ⟨⟩⟩ := answer
    cases shown
    exact recorded wallet amount session first
  · rcases checkout_apply settings gateway fresh actor user value with
      ⟨rejection, _, run⟩ | ⟨amount, wallet, first, opening, _, _, _, rfl, _, _, _, run⟩
    · simp only [Step.of, Request.perform, map_apply, run, map_eq_ok] at answer
      obtain ⟨_, ⟨⟩, _⟩ := answer
    · simp only [Step.of, Request.perform, map_apply, run, map_eq_ok] at answer ⊢
      obtain ⟨_, ⟨balance, _, rfl⟩, ⟨⟩⟩ := answer
      cases shown
      exact recorded wallet amount opening.1.session first

/-- A top-up that a run has opened is there as long as the run goes on. -/
theorem Run.topUpStatus_of_opens (run : Run settings steps service) {id : EntryId} :
    ∀ step ∈ steps, step.Opens id → ∃ status, service.ledger.tables.topUpStatus id =
      some status := by
  induction run with
  | start gateway => simp
  | @step steps service prior request stamp fresh ih =>
    intro step member opens
    rcases List.mem_append.mp member with earlier | last
    · obtain ⟨status, waits⟩ := ih step earlier opens
      obtain ⟨topUp, moves, _⟩ := (Run.step prior request fresh).moves
        (Step.of settings service request stamp) (by simp)
      have progress := moves.progress id
      change Progress id topUp (service.ledger.tables.topUpStatus id) _ at progress
      rw [waits] at progress
      generalize Tables.topUpStatus id _ = later at progress ⊢
      cases progress <;> exact ⟨_, rfl⟩
    · obtain rfl := List.mem_singleton.mp last
      exact ⟨_, Step.topUpStatus_of_opens prior.intact fresh opens⟩
  | elsewhere prior gateway ih => exact ih

end Runs

/-! ## Signals that sessions are paid -/

/-- What can tell that a session is paid: a notice that is delivered, or a poll of the gateway. -/
inductive Signal where
  | delivery (body : List UInt8) (signature : String)
  | poll (session : String)

/-- A signal that is worked on under a stamp, with the gateway as it is by then. -/
structure Arrival where
  signal : Signal
  gateway : Gateway
  stamp : Stamp

namespace Arrival

/-- The request that a signal amounts to. -/
def request (arrival : Arrival) : Request :=
  match arrival.signal with
  | .delivery body signature => .deliver body signature
  | .poll session => .reconcile session

/-- The notice that is delivered, by its identifier, if it is signed correctly. -/
def notice? (arrival : Arrival) : Option String :=
  match arrival.signal with
  | .delivery body signature =>
    match arrival.gateway.verify body signature with
    | .ok notice => some notice.id
    | .error _ => none
  | .poll _ => none

/-- The session that the signal says is paid, or that the poll finds paid. -/
def paidSession? (arrival : Arrival) : Option String :=
  match arrival.signal with
  | .delivery body signature =>
    match arrival.gateway.verify body signature with
    | .ok notice => Ledger.paidSession? notice
    | .error _ => none
  | .poll session =>
    match arrival.gateway.sessions.get? session with
    | some known => if known.state = .paid then some session else none
    | none => none

/-- The step that is taken when a signal arrives. -/
def step (settings : Settings) (service : Service) (arrival : Arrival) : Step :=
  .of settings { service with gateway := arrival.gateway } arrival.request arrival.stamp

end Arrival

/-- The service after signals that arrive one after the other. -/
def receiveAll (settings : Settings) : List Arrival → Service → Service
  | [], service => service
  | arrival :: rest, service => receiveAll settings rest (arrival.step settings service).after

section Signals

/-- A verified notice tells of the session that it says is paid. -/
theorem Arrival.paidSession?_delivery {body : List UInt8} {signature : String} {gateway : Gateway}
    {stamp : Stamp} {notice : Notice} (verified : gateway.verify body signature = .ok notice) :
    (Arrival.mk (.delivery body signature) gateway stamp).paidSession? =
      Ledger.paidSession? notice := by
  simp only [paidSession?, verified]

/-- Working on a signal honors it. -/
theorem Arrival.perform_honors (settings : Settings) {tables : Tables} (sound : tables.Sound)
    (solvent : tables.Solvent) (arrival : Arrival) :
    ∃ answer after, arrival.request.perform settings arrival.stamp
        { ledger := { tables }, gateway := arrival.gateway } =
        (answer, { ledger := { tables := after }, gateway := arrival.gateway }) ∧
      tables.Honors arrival.notice? arrival.paidSession? after := by
  obtain ⟨signal, gateway, stamp⟩ := arrival
  cases signal with
  | delivery body signature =>
    simp only [request, Request.perform, notice?, paidSession?, map_apply]
    cases verified : gateway.verify body signature with
    | error rejection =>
      refine ⟨.error (.rejected rejection), tables, ?_, .silent sound solvent none⟩
      rw [deliver_of_run (deliver_of_error verified stamp _)]
      rfl
    | ok notice =>
      obtain ⟨result, after, run, honors⟩ := process_honors sound solvent notice
      rw [← deliver_of_ok verified] at run
      exact ⟨_, after, by rw [deliver_of_run run], honors⟩
  | poll session =>
    simp only [request, Request.perform, notice?, paidSession?, map_apply]
    by_cases paid : ∃ known, gateway.sessions.get? session = some known ∧ known.state = .paid
    · obtain ⟨known, found, paid⟩ := paid
      obtain ⟨result, after, confirmation, run⟩ := reconcile_of_paid sound stamp found paid
      refine ⟨_, after, by rw [reconcile_of_run run], ?_⟩
      simp only [found, if_pos paid]
      exact .confirm sound solvent confirmation
    · simp only [not_exists, not_and] at paid
      obtain ⟨result, run, _⟩ := reconcile_of_unpaid stamp tables paid
      refine ⟨_, tables, by rw [reconcile_of_run run], ?_⟩
      cases found : gateway.sessions.get? session with
      | none => exact .silent sound solvent none
      | some known =>
        simp only [if_neg (paid known found)]
        exact .silent sound solvent none

/-- A signal that arrives honors what it tells. -/
theorem Arrival.honors (settings : Settings) {service : Service} (intact : service.Intact)
    (arrival : Arrival) :
    (arrival.step settings service).after.Intact ∧
      service.ledger.tables.Honors arrival.notice? arrival.paidSession?
        (arrival.step settings service).after.ledger.tables := by
  obtain ⟨⟨tables, outages⟩, gateway⟩ := service
  obtain rfl : outages = [] := intact.outages
  obtain ⟨answer, after, run, honors⟩ := arrival.perform_honors settings intact.sound intact.solvent
  simp only [step, Step.of, run]
  exact ⟨⟨rfl, honors.sound, honors.solvent⟩, honors⟩

/-- Signals that arrive one after the other pay all that is due for the sessions that they tell of.
A notice always names the same session, and one that is closed names one that is settled. -/
theorem receiveAll_pays (settings : Settings) (arrivals : List Arrival) {service : Service}
    (intact : service.Intact)
    (consistent : ∀ first ∈ arrivals, ∀ second ∈ arrivals, ∀ notice, first.notice? = some notice →
      second.notice? = some notice → first.paidSession? = second.paidSession?)
    (safe : ∀ arrival ∈ arrivals, ∀ notice session, arrival.notice? = some notice →
      arrival.paidSession? = some session → service.ledger.tables.Closed notice →
      service.ledger.tables.Settled session)
    {user : UserId}
    (fits : service.ledger.tables.expected user (arrivals.filterMap Arrival.paidSession?) ≤
      Money.maxCents) :
    ((receiveAll settings arrivals service).ledger.tables.currentOf user).cents =
      service.ledger.tables.expected user (arrivals.filterMap Arrival.paidSession?) := by
  induction arrivals generalizing service with
  | nil => simp [receiveAll, Tables.expected, Tables.due_nil]
  | cons arrival rest ih =>
    have split : (arrival :: rest).filterMap Arrival.paidSession? =
        arrival.paidSession?.toList ++ rest.filterMap Arrival.paidSession? := by
      cases named : arrival.paidSession? <;> simp [named]
    rw [split] at fits ⊢
    obtain ⟨intactAfter, honors⟩ := arrival.honors settings intact
    have paid := honors.pays (safe arrival (by simp)) user _ fits
    rw [receiveAll, ← paid]
    refine ih intactAfter ?_ ?_ (by rw [paid]; exact fits)
    · intro first firstMember second secondMember
      exact consistent first (by simp [firstMember]) second (by simp [secondMember])
    · intro later member notice session noticed names closed
      rcases honors.closed notice closed with before | ⟨same, settles⟩
      · exact honors.settled session
          (safe later (by simp [member]) notice session noticed names before)
      · apply settles session
        rw [consistent arrival (by simp) later (by simp [member]) notice same noticed]
        exact names

end Signals

/-- Over any run every top-up is credited by one step at most. It is completed exactly if there is
such a step, which is the only one that says so, and nobody's money moves without an entry that says
why. Hence signals of any kind, in any order and however often repeated, pay what is due for the
sessions they tell of. -/
theorem topUps_credited_once {settings : Settings} {steps : List Step} {service : Service}
    (run : Run settings steps service) :
    (∀ step ∈ steps, ∀ id, step.Opens id →
      ∃ entry, service.ledger.tables.entries.get? id = some entry ∧
        entry.reference.session.isSome) ∧
    (∀ id entry, service.ledger.tables.entries.get? id = some entry →
      entry.reference.session.isSome →
      steps.Pairwise (fun earlier later => ¬ (earlier.Credits id ∧ later.Credits id)) ∧
      (entry.status = .completed ↔ ∃ step ∈ steps, step.Credits id) ∧
      ∀ step ∈ steps, step.Credits id ↔ step.Reports id) ∧
    (∀ step ∈ steps, ∀ user, step.Moves user → ∃ entry, step.Explains user entry ∧
      (entry.reference.session.isSome → step.Credits entry.id)) ∧
    ∀ arrivals user,
      (∀ first ∈ arrivals, ∀ second ∈ arrivals, ∀ notice, first.notice? = some notice →
        second.notice? = some notice → first.paidSession? = second.paidSession?) →
      (∀ arrival ∈ arrivals, ∀ notice, arrival.notice? = some notice →
        ¬ service.ledger.tables.Closed notice) →
      service.ledger.tables.expected user (arrivals.filterMap Arrival.paidSession?) ≤
        Money.maxCents →
      ((receiveAll settings arrivals service).ledger.tables.currentOf user).cents =
        (service.ledger.tables.currentOf user).cents +
          service.ledger.tables.due user (arrivals.filterMap Arrival.paidSession?) := by
  refine ⟨?_, ?_, ?_, ?_⟩
  · intro step member id opens
    obtain ⟨status, waits⟩ := run.topUpStatus_of_opens step member opens
    obtain ⟨entry, present, carries⟩ := Option.bind_eq_some_iff.mp waits
    obtain ⟨session, named, _⟩ := Option.map_eq_some_iff.mp carries
    exact ⟨entry, present, by rw [named]; rfl⟩
  · intro id entry present waits
    refine ⟨run.credits_once id, ?_, run.credits_iff_reports id⟩
    obtain ⟨session, named⟩ := Option.isSome_iff_exists.mp waits
    rw [← run.completed_iff id]
    simp [Tables.topUpStatus, present, named]
  · intro step member user differs
    obtain ⟨topUp, moves, _⟩ := run.moves step member
    obtain ⟨entry, explains, credited⟩ := moves.explained differs
    exact ⟨entry, explains, fun waits => (moves.credits_iff entry.id).mpr (credited waits)⟩
  · intro arrivals user consistent unclosed fits
    refine receiveAll_pays settings arrivals run.intact consistent ?_ fits
    intro arrival member notice session noticed _ closed
    exact (unclosed arrival member notice noticed closed).elim

/-- A top-up of twenty-five that waits for a session. -/
def waitingTopUp : Request :=
  .recordTopUp ⟨1⟩ ⟨.ofDecimal (centsOf 2500), by decide⟩ "cs"

/-- A gateway at which the session is paid. -/
def paidGateway : Gateway where
  secret := "secret"
  sessions := Table.empty.put "cs"
    { user := ⟨1⟩, amount := ⟨.ofDecimal (centsOf 2500), by decide⟩, currency := "usd"
      state := .paid, payment := none }

/-- The notice of the paid session, a poll, and the same notice once more. -/
def paidTwice : List Arrival :=
  let body := Text.bytes (paidGateway.completedBody "evt" "cs")
  [⟨.delivery body (paidGateway.sign body), paidGateway, stampOf 2⟩,
    ⟨.poll "cs", paidGateway, stampOf 3⟩,
    ⟨.delivery body (paidGateway.sign body), paidGateway, stampOf 4⟩]

/-- The top-up is credited once, though three signals tell of it. -/
theorem waitingTopUp_credited_once :
    ((receiveAll {} paidTwice
      (Step.of {} { gateway := paidGateway } waitingTopUp
        (stampOf 1)).after).ledger.tables.currentOf ⟨1⟩).cents = 2500 := by
  have fresh : Fresh (stampOf 1) ({} : Tables) := ⟨rfl, rfl⟩
  have run : Run {} _ (Step.of {} { gateway := paidGateway } waitingTopUp (stampOf 1)).after :=
    .step (.start paidGateway) waitingTopUp fresh
  -- What the gateway writes is read back, so the signature need not be computed.
  obtain ⟨notice, verified, _, completes, about⟩ :=
    Gateway.verify_completedBody "evt" "cs" paidGateway
  have tells : Ledger.paidSession? notice = some "cs" := by
    rw [Ledger.paidSession?, if_pos completes, about]
    rfl
  have named : ∀ arrival ∈ paidTwice, arrival.paidSession? = some "cs" := by
    simp only [paidTwice, List.forall_mem_cons, Arrival.paidSession?_delivery verified]
    exact ⟨tells, rfl, tells, List.forall_mem_nil _⟩
  have sessions : paidTwice.filterMap Arrival.paidSession? = ["cs", "cs", "cs"] := by
    rw [List.filterMap_congr named]
    rfl
  refine ((topUps_credited_once run).2.2.2 paidTwice ⟨1⟩ ?_ ?_ ?_).trans ?_
  · intro first firstMember second secondMember notice _ _
    rw [named first firstMember, named second secondMember]
  · rintro arrival _ notice _ ⟨record, found, _⟩
    cases found
  · rw [sessions]
    decide
  · rw [sessions]
    decide

end Prepaid.Service
