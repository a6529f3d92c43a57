import Prepaid.Proofs.Service.Atomicity
import Prepaid.Proofs.Service.TopUps

/-!
# Sessions over runs

A session identifies the top-up that was opened under it, for as long as no other one
is opened under the same session. Nothing keeps a caller from doing so: the session then
leads to the new top-up, and the old one is out of reach.
-/

namespace Prepaid.Service

open Ledger

/-! ## The sessions of one step -/

/-- The session under which a request has opened a top-up, by its answer. -/
def Request.opened? (request : Request) (answer : Except Failure Answer) : Option String :=
  match request, answer with
  | .recordTopUp _ _ session, .ok _ => some session
  | .checkout _ _ _, .ok (.opened opening _) => some opening.session
  | _, _ => none

section Requests

variable {settings : Settings} {stamp : Stamp} {tables : Tables} {gateway : Gateway}

/-- What performing a request does to the sessions. -/
def Request.Names (settings : Settings) (stamp : Stamp) (service : Service) (request : Request) :
    Prop :=
  service.ledger.tables.Names (request.perform settings stamp service).2.ledger.tables
    (request.opened? (request.perform settings stamp service).1)

/-- A plain request opens no session. -/
theorem Request.names_of_plain (sound : tables.Sound) (fresh : Fresh stamp tables)
    {request : Request} (plain : request.isPlain = true) :
    request.Names settings stamp { ledger := { tables }, gateway } := by
  obtain ⟨α, call, wrap, performs, result, after, run, _, same, _⟩ :=
    request.plain_commits settings sound fresh plain
  have silent (answer : Except Failure Answer) : request.opened? answer = none := by
    cases request <;> first | rfl | cases plain
  rw [Names, silent, performs, map_apply, onLedger_of_run run]
  exact .same same

/-- The record of a top-up opens its session. -/
theorem Request.names_of_recordTopUp (solvent : tables.Solvent) (fresh : Fresh stamp tables)
    (user : UserId) (amount : Amount) (session : String) :
    (Request.recordTopUp user amount session).Names settings stamp
      { ledger := { tables }, gateway } := by
  obtain ⟨wallet, first, upkeeps, found, unused, run⟩ := recordTopUp_apply fresh user amount session
  obtain ⟨balance, shown⟩ := (upkeeps.keeps Upkeep.solvent solvent found).balance
  rw [Names, perform, map_apply, onLedger_of_run run, shown]
  exact .opened (upkeeps.sameSessions.opens (.putEntry unused rfl))

/-- A checkout opens the session that the gateway has named. -/
theorem Request.names_of_checkout (solvent : tables.Solvent) (fresh : Fresh stamp tables)
    (actor : Actor) (user : UserId) (value : Decimal) :
    (Request.checkout actor user value).Names settings stamp { ledger := { tables }, gateway } := by
  rcases checkout_apply settings gateway fresh actor user value with
    ⟨rejection, _, run⟩ | ⟨amount, wallet, first, opening, entry, _, _, rfl, upkeeps, found, unused,
      run⟩
  · rw [Names, perform, map_apply, run]
    exact .same (.refl tables)
  · obtain ⟨balance, shown⟩ := (upkeeps.keeps Upkeep.solvent solvent found).balance
    rw [Names, perform, map_apply, run, shown]
    exact .opened (upkeeps.sameSessions.opens (.putEntry unused rfl))

/-- Only a top-up that is recorded or checked out is opened under a session. -/
theorem Request.names (sound : tables.Sound) (solvent : tables.Solvent) (fresh : Fresh stamp tables)
    (request : Request) : request.Names settings stamp { ledger := { tables }, gateway } := by
  cases request with
  | recordTopUp user amount session => exact names_of_recordTopUp solvent fresh user amount session
  | checkout actor user value => exact names_of_checkout solvent fresh actor user value
  | confirmTopUp session payment =>
    obtain ⟨result, after, run, confirmation⟩ := confirmTopUp_apply sound session payment stamp
    rw [Names, perform, map_apply, onLedger_of_run run]
    exact .same (confirmation.sameSessions sound)
  | deliver body signature =>
    cases verified : gateway.verify body signature with
    | error rejection =>
      rw [Names, deliver_unverified verified]
      exact .same (.refl tables)
    | ok notice =>
      obtain ⟨result, after, run, same⟩ := process_sameSessions sound notice stamp
      rw [Names, deliver_apply verified, run]
      exact .same same
  | reconcile session =>
    by_cases paid : ∃ known, gateway.sessions.get? session = some known ∧ known.state = .paid
    · obtain ⟨known, found, paid⟩ := paid
      obtain ⟨result, after, confirmation, run⟩ := reconcile_of_paid sound stamp found paid
      rw [Names, perform, map_apply, reconcile_of_run run]
      exact .same (confirmation.sameSessions sound)
    · simp only [not_exists, not_and] at paid
      obtain ⟨result, run, _⟩ := reconcile_of_unpaid stamp tables paid
      rw [Names, perform, map_apply, reconcile_of_run run]
      exact .same (.refl tables)
  | _ => exact names_of_plain sound fresh rfl

end Requests

/-- The session under which a step has opened a top-up. -/
def Step.opened? (step : Step) : Option String :=
  step.request.opened? step.answer

/-- The top-up that a session leads to. -/
def topUpFor (session : String) (service : Service) : Option EntryId :=
  (service.ledger.tables.entryForSession? session).map Entry.id

/-- The step credits a top-up that was opened under a session. -/
def Step.CreditsFor (session : String) (step : Step) : Prop :=
  ∃ id, step.after.ledger.tables.sessionOf id = some session ∧ step.Credits id

/-- The top-up of a session is the one that the index leads to. -/
theorem Intact.topUpFor_eq {service : Service} (intact : service.Intact) (session : String) :
    service.topUpFor session = service.ledger.tables.entryOfSession.get? session := by
  rw [topUpFor, Tables.entryForSession?]
  cases leads : service.ledger.tables.entryOfSession.get? session with
  | none => rfl
  | some id =>
    obtain ⟨entry, present, _⟩ := intact.sound.session_named leads
    simp [present, intact.sound.entry_id present]

section Runs

variable {settings : Settings} {steps : List Step} {service : Service}

/-- A step does to the sessions what its answer says. -/
theorem Step.names_of (intact : service.Intact) (request : Request) {stamp : Stamp}
    (fresh : Fresh stamp service.ledger.tables) :
    service.ledger.tables.Names (Step.of settings service request stamp).after.ledger.tables
      (Step.of settings service request stamp).opened? := by
  obtain ⟨⟨tables, outages⟩, gateway⟩ := service
  obtain rfl : outages = [] := intact.outages
  exact request.names intact.sound intact.solvent fresh

/-- A top-up is never refused for its session. -/
theorem Step.opened_of_recordTopUp (intact : service.Intact) {stamp : Stamp}
    (fresh : Fresh stamp service.ledger.tables) (user : UserId) (amount : Amount)
    (session : String) :
    (Step.of settings service (.recordTopUp user amount session) stamp).opened? = some session := by
  obtain ⟨⟨tables, outages⟩, gateway⟩ := service
  obtain rfl : outages = [] := intact.outages
  obtain ⟨wallet, first, upkeeps, found, _, run⟩ := recordTopUp_apply fresh user amount session
  obtain ⟨balance, shown⟩ := (upkeeps.keeps Upkeep.solvent intact.solvent found).balance
  rw [opened?, of, Request.perform, map_apply, onLedger_of_run run, shown]
  rfl

/-- The sessions that entries carry are those under which steps have opened top-ups. -/
theorem Run.opened_iff (run : Run settings steps service) (session : String) :
    session ∈ steps.filterMap Step.opened? ↔ ∃ id, service.ledger.tables.sessionOf id =
      some session := by
  induction run with
  | start gateway => simp [Tables.sessionOf]
  | step prior request fresh ih =>
    rw [(Step.names_of prior.intact request fresh).exists_iff, ← ih]
    simp [List.filterMap_append]
  | elsewhere prior gateway ih => exact ih

/-- Entries carry distinct sessions exactly if no two steps have opened top-ups under the same
one. -/
theorem Run.distinct_iff (run : Run settings steps service) :
    service.ledger.tables.DistinctSessions ↔ (steps.filterMap Step.opened?).Nodup := by
  induction run with
  | start gateway => simp [Tables.DistinctSessions, Tables.sessionOf]
  | @step steps service prior request stamp fresh ih =>
    rw [(Step.names_of prior.intact request fresh).distinct_iff, ih, List.filterMap_append]
    cases opened : (Step.of settings service request stamp).opened? with
    | none => simp [opened]
    | some session =>
      have unused : (∀ id, service.ledger.tables.sessionOf id ≠ some session) ↔
          session ∉ steps.filterMap Step.opened? := by
        rw [prior.opened_iff, not_exists]
      have last : [Step.of settings service request stamp].filterMap Step.opened? = [session] := by
        simp [opened]
      rw [last, (List.perm_append_singleton session _).nodup_iff, List.nodup_cons, ← unused]
      simp [and_comm]
  | elsewhere prior gateway ih => exact ih

/-- An entry carries the session that it was opened under as long as the run goes on. -/
theorem Run.keeps_session (run : Run settings steps service) {id : EntryId} {session : String} :
    ∀ step ∈ steps, step.after.ledger.tables.sessionOf id = some session →
      service.ledger.tables.sessionOf id = some session := by
  induction run with
  | start gateway => simp
  | step prior request fresh ih =>
    intro step member carries
    rcases List.mem_append.mp member with earlier | last
    · exact (Step.names_of prior.intact request fresh).keeps (ih step earlier carries)
    · obtain rfl := List.mem_singleton.mp last
      exact carries
  | elsewhere prior gateway ih => exact ih

/-- The top-up that a session leads to carries the session. -/
theorem Intact.sessionOf_of_topUpFor (intact : service.Intact) {id : EntryId} {session : String}
    (leads : service.topUpFor session = some id) :
    service.ledger.tables.sessionOf id = some session := by
  rw [intact.topUpFor_eq] at leads
  exact intact.sound.sessionOf_of_lookup leads

/-- As long as sessions are distinct each leads to the entry that carries it. -/
theorem Intact.topUpFor_of_distinct (intact : service.Intact)
    (distinct : service.ledger.tables.DistinctSessions) {id : EntryId} {session : String} :
    service.topUpFor session = some id ↔ service.ledger.tables.sessionOf id = some session := by
  refine ⟨intact.sessionOf_of_topUpFor, fun carries => ?_⟩
  obtain ⟨known, leads⟩ := intact.sound.exists_lookup carries
  rw [intact.topUpFor_eq, leads, distinct carries (intact.sound.sessionOf_of_lookup leads)]

end Runs

/-- Everything that rests on a session standing for one top-up for ever: no two entries carry the
same one, it leads to the same entry as long as the run goes on, a top-up that waits for it can be
confirmed, unless the sum is too large to compute with, and it credits one top-up at most. -/
structure Identified (settings : Settings) (steps : List Step) (service : Service) : Prop where
  distinct : service.ledger.tables.DistinctSessions
  stable : ∀ step ∈ steps, ∀ session id, step.after.topUpFor session = some id →
    service.topUpFor session = some id
  confirmable : ∀ id entry session, service.ledger.tables.entries.get? id = some entry →
    entry.status = .pending → entry.reference.session = some session → ∀ payment stamp,
      (Step.of settings service (.confirmTopUp session payment) stamp).Credits id ∨
      ∃ user overflow, service.ledger.tables.owners.get? entry.wallet = some user ∧
        (service.ledger.tables.currentOf user).add entry.amount.money = .error overflow ∧
        (Step.of settings service (.confirmTopUp session payment) stamp).answer =
          .error (.overflow overflow)
  once : ∀ session, steps.Pairwise fun earlier later =>
    ¬ (earlier.CreditsFor session ∧ later.CreditsFor session)

section Identification

variable {settings : Settings} {steps : List Step} {service : Service}

/-- Every step of a run leaves an intact service. -/
theorem Run.intact_after (run : Run settings steps service) : ∀ step ∈ steps, step.after.Intact :=
  run.forall_steps fun prior request _ fresh => (Step.of_faithful prior.intact request fresh).2

/-- A pending top-up that its session leads to is credited when the session is confirmed. -/
theorem Run.confirms (run : Run settings steps service) {entry : Entry} {session : String}
    (leads : service.ledger.tables.entryForSession? session = some entry)
    (pending : entry.status = .pending) (payment : Option String) (stamp : Stamp) :
    (Step.of settings service (.confirmTopUp session payment) stamp).Credits entry.id ∨
      ∃ user overflow, service.ledger.tables.owners.get? entry.wallet = some user ∧
        (service.ledger.tables.currentOf user).add entry.amount.money = .error overflow ∧
        (Step.of settings service (.confirmTopUp session payment) stamp).answer =
          .error (.overflow overflow) := by
  have sound := run.intact.sound
  have agreed := run.agreed
  obtain ⟨⟨tables, outages⟩, gateway⟩ := service
  obtain rfl : outages = [] := run.intact.outages
  obtain ⟨result, after, ran, confirmation⟩ := confirmTopUp_apply sound session payment stamp
  simp only [Step.Credits, Step.of, Request.perform, map_apply, onLedger_of_run ran]
  cases confirmation with
  | unknown unnamed =>
    rw [unnamed] at leads
    cases leads
  | settled named settled =>
    rw [named] at leads
    cases leads
    exact (settled pending).elim
  | @overflowed other user wallet overflow named _ known owned full =>
    rw [named] at leads
    cases leads
    refine .inr ⟨user, overflow, sound.owner_iff.mpr ⟨wallet, known, owned⟩, ?_, rfl⟩
    rw [Tables.currentOf, known]
    exact Wallet.credit_eq_error.mp full
  | @credited other user wallet credited named _ known owned credit =>
    rw [named] at leads
    cases leads
    have posting : Posting stamp tables (some entry.id) ((tables.putWallet credited).putEntry
        (entry.confirm payment credited.current stamp.now)) :=
      .confirmed known owned named pending credit
    exact .inl (((posting.moves sound agreed).credits_iff entry.id).mpr rfl)

/-- No session credits two top-ups, as long as sessions are distinct. -/
theorem Run.credits_session_once (run : Run settings steps service)
    (distinct : service.ledger.tables.DistinctSessions) (session : String) :
    steps.Pairwise fun earlier later =>
  ¬ (earlier.CreditsFor session ∧ later.CreditsFor session) := by
  rw [List.pairwise_iff_getElem]
  rintro first second firstBound secondBound order ⟨⟨id, carries, credits⟩, other, again, credited⟩
  have kept := run.keeps_session _ (List.getElem_mem firstBound) carries
  have same := distinct kept (run.keeps_session _ (List.getElem_mem secondBound) again)
  subst same
  exact List.pairwise_iff_getElem.mp (run.credits_once id) first second firstBound secondBound order
    ⟨credits, credited⟩

end Identification

/-- A top-up is recorded under any session that is given, whether or not another one carries it. An
entry keeps its session for ever, and a session leads to the same entry until another one is opened
under it. So sessions identify top-ups exactly if no two steps of a run have opened top-ups under
the same one. -/
theorem identified_iff_nodup {settings : Settings} {steps : List Step} {service : Service}
    (run : Run settings steps service) :
    (∀ step ∈ steps,
      (∀ user amount session, step.request = .recordTopUp user amount session →
        step.opened? = some session) ∧
      (∀ id session, step.before.ledger.tables.sessionOf id = some session →
        step.after.ledger.tables.sessionOf id = some session) ∧
      ∀ session id, step.before.topUpFor session = some id →
        (step.after.topUpFor session = some id ↔ step.opened? ≠ some session)) ∧
    (Identified settings steps service ↔ (steps.filterMap Step.opened?).Nodup) := by
  constructor
  · refine run.forall_steps fun {_ service} prior request {stamp} fresh => ?_
    let step := Step.of settings service request stamp
    have names : service.ledger.tables.Names step.after.ledger.tables step.opened? :=
      Step.names_of prior.intact request fresh
    have intact : step.after.Intact := (Step.of_faithful prior.intact request fresh).2
    refine ⟨?_, fun id session => names.keeps, ?_⟩
    · rintro user amount session rfl
      exact Step.opened_of_recordTopUp prior.intact fresh user amount session
    · intro session id leads
      change service.topUpFor session = some id at leads
      rw [prior.intact.topUpFor_eq] at leads
      rw [intact.topUpFor_eq]
      exact names.lookup_iff prior.intact.sound leads
  · rw [← run.distinct_iff]
    refine ⟨Identified.distinct,
      fun distinct => ⟨distinct, ?_, ?_, run.credits_session_once distinct⟩⟩
    · intro step member session id leads
      have carries := (run.intact_after step member).sessionOf_of_topUpFor leads
      exact (run.intact.topUpFor_of_distinct distinct).mpr (run.keeps_session step member carries)
    · intro id entry session present pending carries payment stamp
      have located := (run.intact.topUpFor_of_distinct distinct).mpr
        (Tables.sessionOf_eq_some.mpr ⟨entry, present, carries⟩)
      obtain ⟨found, leads, rfl⟩ := Option.map_eq_some_iff.mp located
      obtain ⟨_, foundAt, _⟩ := run.intact.sound.entryForSession?_spec leads
      obtain rfl : found = entry := Option.some.inj (foundAt.symm.trans present)
      exact run.confirms leads pending payment stamp

/-- A gateway without sessions. -/
def idleGateway : Gateway :=
  { secret := "" }

/-- Two top-ups under sessions of their own. -/
def twoTopUps : List (Request × Stamp) :=
  [(waitingTopUp, stampOf 1),
    (.recordTopUp ⟨2⟩ ⟨.ofDecimal (centsOf 2000), by decide⟩ "other", stampOf 2)]

/-- Two top-ups under sessions of their own are told apart. -/
theorem twoTopUps_identified :
    Identified {} (stepsOf {} twoTopUps { gateway := idleGateway })
      (performAll {} twoTopUps { gateway := idleGateway }) := by
  have run : Run {} _ _ := (Run.start idleGateway).performAll twoTopUps (by decide)
  exact (identified_iff_nodup run).2.mpr (by decide +kernel)

/-- The session of a top-up that is confirmed is given to another user's top-up, and confirmed
again. -/
def reusedSession : List (Request × Stamp) :=
  [(waitingTopUp, stampOf 1), (.confirmTopUp "cs" none, stampOf 2),
    (.recordTopUp ⟨2⟩ ⟨.ofDecimal (centsOf 2000), by decide⟩ "cs", stampOf 3),
    (.confirmTopUp "cs" none, stampOf 4)]

/-- The session leads to another top-up in the end, and it has credited both. -/
theorem reusedSession_credits_both :
    Run {} (stepsOf {} reusedSession { gateway := idleGateway })
      (performAll {} reusedSession { gateway := idleGateway }) ∧
    ¬ Identified {} (stepsOf {} reusedSession { gateway := idleGateway })
      (performAll {} reusedSession { gateway := idleGateway }) ∧
    (performAll {} (reusedSession.take 2) { gateway := idleGateway }).topUpFor "cs" =
      some (stampOf 1).entry ∧
    (performAll {} reusedSession { gateway := idleGateway }).topUpFor "cs" =
      some (stampOf 3).entry ∧
    ((performAll {} reusedSession { gateway := idleGateway }).ledger.tables.currentOf ⟨1⟩).cents =
      2500 ∧
    ((performAll {} reusedSession { gateway := idleGateway }).ledger.tables.currentOf ⟨2⟩).cents =
      2000 := by
  refine ⟨(Run.start idleGateway).performAll reusedSession (by decide), ?_, rfl, rfl, rfl, rfl⟩
  intro identified
  have first : (performAll {} reusedSession { gateway := idleGateway }).ledger.tables.sessionOf
      (stampOf 1).entry = some "cs" := rfl
  have second : (performAll {} reusedSession { gateway := idleGateway }).ledger.tables.sessionOf
      (stampOf 3).entry = some "cs" := rfl
  have same := identified.distinct first second
  revert same
  decide

end Prepaid.Service
