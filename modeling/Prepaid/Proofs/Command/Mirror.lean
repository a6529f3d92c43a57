import Prepaid.Proofs.Command.Rejection
import Prepaid.Proofs.Ledger.Mirror
import Prepaid.Proofs.Service.Books

/-!
# Scripts keep ledger and gateway together

A script opens a session only with an entry that carries it, pays and abandons
sessions at the gateway alone, and lets the ledger know of a payment only by what
the gateway says. So the two agree on every session after every command, whatever
names the commands give to sessions and however often they repeat them.
-/

namespace Prepaid

namespace Service

open Ledger

/-- Ledger and gateway agree on all sessions. -/
def Mirrored (service : Service) : Prop :=
  service.ledger.tables.Mirrored service.gateway.sessions

/-- A stamp names nothing that is there yet, neither a row of the ledger nor a session of the
gateway. -/
structure Unused (stamp : Stamp) (service : Service) : Prop where
  fresh : Fresh stamp service.ledger.tables
  session : service.gateway.sessions.get? ("cs_" ++ stamp.session.toCompactText) = none

instance (stamp : Stamp) (service : Service) : Decidable (Unused stamp service) :=
  decidable_of_iff (Fresh stamp service.ledger.tables ∧
      service.gateway.sessions.get? ("cs_" ++ stamp.session.toCompactText) = none)
    ⟨fun ⟨fresh, session⟩ => ⟨fresh, session⟩, fun ⟨fresh, session⟩ => ⟨fresh, session⟩⟩

section Requests

variable {settings : Settings} {stamp : Stamp} {service : Service} {request : Request}

/-- What commands ask for keeps ledger and gateway together: they open a session with its entry, and
confirm one that the gateway knows as paid. -/
theorem Mirrored.perform (mirrored : service.Mirrored) (intact : service.Intact)
    (agreed : service.ledger.tables.Agreed) (unused : Unused stamp service)
    (passed : request.isPassed = true) : (request.perform settings stamp service).2.Mirrored := by
  obtain ⟨⟨tables, outages⟩, gateway⟩ := service
  obtain rfl : outages = [] := intact.outages
  cases plain : request.isPlain with
  | true =>
    obtain ⟨_, call, wrap, performs, result, after, run, change, same, _⟩ :=
      request.plain_commits settings intact.sound unused.fresh plain
    rw [performs, map_apply, onLedger_of_run run]
    exact Tables.Mirrored.same mirrored (change.sameTopUps intact.sound agreed same)
  | false =>
    cases request with
    | checkout actor user value =>
      rcases checkout_apply settings gateway unused.fresh actor user value with
        ⟨rejection, _, run⟩ | ⟨amount, wallet, first, _, _, _, rfl, rfl, upkeeps, owned, free, run⟩
      · rw [Request.perform, map_apply, run]
        exact mirrored
      · rw [Request.perform, map_apply, run]
        exact (Tables.Mirrored.same mirrored upkeeps.sameTopUps).openSession owned free
          unused.session
    | reconcile session =>
      rw [Request.perform, map_apply]
      by_cases paid : ∃ known, gateway.sessions.get? session = some known ∧ known.state = .paid
      · obtain ⟨known, found, paid⟩ := paid
        obtain ⟨result, after, confirmation, run⟩ := reconcile_of_paid intact.sound stamp found paid
        rw [reconcile_of_run run]
        exact Tables.Mirrored.confirm mirrored intact.sound found paid confirmation
      · simp only [not_exists, not_and] at paid
        obtain ⟨result, run, _⟩ := reconcile_of_unpaid stamp tables paid
        rw [reconcile_of_run run]
        exact mirrored
    | recordTopUp | confirmTopUp | deliver => cases passed
    | _ => cases plain

/-- A session that is there stays as it is, whatever the service is asked for. -/
theorem Request.keeps_session (request : Request) (intact : service.Intact)
    (unused : Unused stamp service) {session : String} {known : CheckoutSession}
    (present : service.gateway.sessions.get? session = some known) :
    (request.perform settings stamp service).2.gateway.sessions.get? session = some known := by
  obtain ⟨⟨tables, outages⟩, gateway⟩ := service
  obtain rfl : outages = [] := intact.outages
  by_cases opens : ∃ actor user value, request = .checkout actor user value
  · obtain ⟨actor, user, value, rfl⟩ := opens
    rw [Request.perform, map_apply]
    rcases checkout_apply settings gateway unused.fresh actor user value with
      ⟨rejection, _, run⟩ | ⟨amount, wallet, first, _, _, _, rfl, rfl, upkeeps, owned, free, run⟩
    · rw [run]
      exact present
    · have apart : "cs_" ++ stamp.session.toCompactText ≠ session := by
        rintro rfl
        cases unused.session.symm.trans present
      rw [run]
      simp [Gateway.openSession, Gateway.putSession, apart, present]
  · simp only [not_exists] at opens
    rw [request.gateway_perform opens]
    exact present

/-- What the gateway says of a paid session may be delivered. -/
theorem Mirrored.deliver_own (mirrored : service.Mirrored) (intact : service.Intact)
    {session : String} {known : CheckoutSession}
    (present : service.gateway.sessions.get? session = some known) (paid : known.state = .paid)
    (event : String) :
    let body := Text.bytes (service.gateway.completedBody event session)
    ((Request.deliver body (service.gateway.sign body)).perform settings stamp
      service).2.Mirrored := by
  obtain ⟨⟨tables, outages⟩, gateway⟩ := service
  obtain rfl : outages = [] := intact.outages
  obtain ⟨notice, verified, _, _, names⟩ := gateway.verify_completedBody event session
  simp only [Request.deliver_apply verified]
  exact Tables.Mirrored.process mirrored intact.sound names present paid (by rw [present]; rfl)

end Requests

end Service

namespace Script

open Service

section Turns

variable {settings : Settings} {command : Command} {stamp : Stamp} {script after : Script}
  {result : Except Failure Unit} {session : String} {known : CheckoutSession}

/-- Every turn commits one change of the ledger. -/
theorem Turn.change (turn : Turn settings command stamp script result after)
    (intact : script.service.Intact) (fresh : Ledger.Fresh stamp script.service.ledger.tables) :
    ∃ topUp, Ledger.Change stamp script.service.ledger.tables topUp
      after.service.ledger.tables := by
  have changes {service : Service} (intact : service.Intact)
      (fresh : Ledger.Fresh stamp service.ledger.tables) (request : Request) : ∃ topUp,
        Ledger.Change stamp service.ledger.tables topUp
          (request.perform settings stamp service).2.ledger.tables := by
    obtain ⟨topUp, change, _⟩ := (Step.of_faithful intact request fresh).1.changes
    exact ⟨topUp, change⟩
  cases turn with
  | refused | expired => exact ⟨none, .unchanged⟩
  | asked request passed => exact changes intact fresh request
  | opened name opens | abandoned _ _ _ _ opens =>
    rw [← service_of_checkout opens]
    exact changes intact fresh _
  | @paid session event gateway pays result later delivers =>
    rw [← service_of_deliver settings delivers]
    exact changes (intact.elsewhere gateway) fresh _

/-- No turn makes ledger and gateway differ on a session. -/
theorem Turn.mirrored (turn : Turn settings command stamp script result after)
    (intact : script.service.Intact) (agreed : script.service.ledger.tables.Agreed)
    (unused : Unused stamp script.service) (mirrored : script.service.Mirrored) :
    after.service.Mirrored := by
  cases turn with
  | refused rejection => exact mirrored
  | asked request passed => exact mirrored.perform intact agreed unused passed
  | opened name opens | abandoned _ _ _ _ opens =>
    rw [← service_of_checkout opens]
    exact mirrored.perform intact agreed unused rfl
  | @paid session event gateway pays result later delivers =>
    obtain ⟨known, present, _, rfl⟩ := Gateway.completeSession_eq_ok.mp pays
    let gateway := script.service.gateway.putSession session (known.pay stamp)
    have mirroredToo : Mirrored { script.service with gateway } :=
      Ledger.Tables.Mirrored.putSession mirrored present Ledger.Tables.Mirrors.pay
    have paid : gateway.sessions.get? session = some (known.pay stamp) := by
      simp [gateway, Gateway.putSession]
    rw [← service_of_deliver settings delivers]
    exact mirroredToo.deliver_own (intact.elsewhere gateway) paid rfl event
  | expired expires =>
    obtain ⟨known, present, rfl⟩ := Gateway.expireSession_eq_ok.mp expires
    split
    · next unpaid => exact Ledger.Tables.Mirrored.putSession mirrored present fun agrees =>
        agrees.expire unpaid
    · exact mirrored

/-- Nothing becomes of a session once it has expired. -/
theorem Turn.keeps_expired (turn : Turn settings command stamp script result after)
    (intact : script.service.Intact) (unused : Unused stamp script.service)
    (present : script.service.gateway.sessions.get? session = some known)
    (expired : known.state = .expired) :
    after.service.gateway.sessions.get? session = some known := by
  cases turn with
  | refused rejection => exact present
  | asked request passed => exact request.keeps_session intact unused present
  | opened name opens | abandoned _ _ _ _ opens =>
    rw [← service_of_checkout opens]
    exact Request.keeps_session _ intact unused present
  | @paid other event gateway pays result later delivers =>
    obtain ⟨old, oldAt, alive, rfl⟩ := Gateway.completeSession_eq_ok.mp pays
    have apart : other ≠ session := by
      rintro rfl
      cases oldAt.symm.trans present
      exact alive expired
    rw [← service_of_deliver settings delivers, Request.gateway_perform _ (by simp)]
    simp [Gateway.putSession, apart, present]
  | @expired other gateway expires =>
    obtain ⟨old, oldAt, rfl⟩ := Gateway.expireSession_eq_ok.mp expires
    split
    · next unpaid =>
      have apart : other ≠ session := by
        rintro rfl
        cases oldAt.symm.trans present
        rw [expired] at unpaid
        cases unpaid
      simp [Gateway.putSession, apart, present]
    · exact present

end Turns

/-! ## Scripts that go on -/

/-- The scripts that commands lead on to. Every command is applied under a stamp that names nothing
that is there. -/
inductive Onward (settings : Settings) (earlier : Script) : Script → Prop where
  | here : Onward settings earlier earlier
  | step {script : Script} (prior : Onward settings earlier script)
      (command : Command) {stamp : Stamp} (unused : Unused stamp script.service) :
      Onward settings earlier (apply settings command stamp script).2

/-- A script that nothing has been applied to yet. -/
def blank (secret : String) : Script :=
  { service := { gateway := { secret } } }

section Onward

variable {settings : Settings} {secret : String} {earlier script later : Script} {session : String}
  {known : CheckoutSession}

/-- What leads on can be led on further. -/
theorem Onward.trans (onward : Onward settings earlier script)
    (further : Onward settings script later) :
    Onward settings earlier later := by
  induction further with
  | here => exact onward
  | step prior command unused ih => exact .step ih command unused

/-- No command has a stamp that names anything that is there when its turn comes. -/
def AllUnused (settings : Settings) : List Row → Script → Prop
  | [], _ => True
  | (.error _, _) :: rest, script => AllUnused settings rest script
  | (.ok command, stamp) :: rest, script =>
    Unused stamp script.service ∧ AllUnused settings rest (apply settings command stamp script).2

instance decidableAllUnused (settings : Settings) :
    (rows : List Row) → (script : Script) → Decidable (AllUnused settings rows script)
  | [], _ => .isTrue trivial
  | (.error _, _) :: rest, script => decidableAllUnused settings rest script
  | (.ok command, stamp) :: rest, script =>
    have := decidableAllUnused settings rest (apply settings command stamp script).2
    inferInstanceAs (Decidable (_ ∧ _))

/-- A file of commands leads on, however many of its rows are rejected or cannot be read. -/
theorem Onward.run (rows : List Row) (onward : Onward settings earlier script)
    (unused : AllUnused settings rows script) :
    Onward settings earlier (run settings rows script).2 := by
  induction rows generalizing script with
  | nil => exact onward
  | cons row rest ih =>
    obtain ⟨content, stamp⟩ := row
    cases content with
    | error rejection => exact ih onward unused
    | ok command => exact ih (onward.step command unused.1) unused.2

/-- What commands lead on to is reachable. -/
theorem Onward.reachable (onward : Onward settings earlier script)
    (reachable : Reachable settings earlier) :
    Reachable settings script := by
  induction onward with
  | here => exact reachable
  | step prior command unused ih => exact .step ih command unused.fresh

/-- The service of a script is intact. -/
theorem Reachable.intact (reachable : Reachable settings script) : script.service.Intact := by
  obtain ⟨steps, run⟩ := reachable.service_reachable
  exact run.intact

/-- The orders and the entries of a script agree. -/
theorem Reachable.agreed (reachable : Reachable settings script) :
    script.service.ledger.tables.Agreed := by
  obtain ⟨steps, run⟩ := reachable.service_reachable
  exact run.agreed

/-- After every command ledger and gateway agree. -/
theorem Onward.mirrored (onward : Onward settings (blank secret) script) :
    script.service.Mirrored := by
  induction onward with
  | here => exact .empty
  | @step script prior command stamp unused ih =>
    have reachable := prior.reachable (.start secret)
    exact (apply_turns settings command stamp script).mirrored reachable.intact reachable.agreed
      unused ih

/-- The rows of the ledger go on from one script to the other. -/
theorem Onward.continues (onward : Onward settings earlier later)
    (reachable : Reachable settings earlier) :
    ∃ moves, earlier.service.ledger.tables.Continues moves later.service.ledger.tables := by
  induction onward with
  | here => exact ⟨0, .refl⟩
  | @step script prior command stamp unused ih =>
    obtain ⟨moves, continues⟩ := ih
    have reached := prior.reachable reachable
    obtain ⟨topUp, change⟩ :=
      (apply_turns settings command stamp script).change reached.intact unused.fresh
    exact ⟨_, continues.trans (change.continues reached.intact.sound reached.agreed)⟩

/-- A session that has expired stays as it is. -/
theorem Onward.keeps_expired (onward : Onward settings earlier later)
    (reachable : Reachable settings earlier)
    (present : earlier.service.gateway.sessions.get? session = some known)
    (expired : known.state = .expired) :
    later.service.gateway.sessions.get? session = some known := by
  induction onward with
  | here => exact present
  | @step script prior command stamp unused ih =>
    have intact := (prior.reachable reachable).intact
    exact (apply_turns settings command stamp script).keeps_expired intact unused ih expired

/-- Wherever commands lead to from an empty ledger and an empty gateway, whatever they name and
however often, the sessions of the gateway are those that the ledger has an entry for, one each. The
entry is a deposit for the user of the session, over its amount. It is completed only if the session
is paid, and under the payment of the session. If the session has expired then the entry is pending,
and stays so for ever. -/
theorem sessions_mirrored (reached : Onward settings (blank secret) script) :
    let tables := script.service.ledger.tables
    let sessions := script.service.gateway.sessions
    (∀ session known, sessions.get? session = some known →
      ∃! id, tables.sessionOf id = some session) ∧
      ∀ id entry session, tables.entries.get? id = some entry →
        entry.reference.session = some session →
        ∃ known, sessions.get? session = some known ∧
          entry.kind = .deposit ∧
          (∃ wallet, tables.wallets.get? known.user = some wallet ∧ wallet.id = entry.wallet) ∧
          entry.amount = known.amount ∧
          (entry.status = .completed → known.state = .paid ∧
            ∃ payment, known.payment = some payment ∧ entry.reference.payment = some payment) ∧
          (known.state = .expired → entry.status = .pending ∧
            ∀ later, Onward settings script later →
            ∃ row, later.service.ledger.tables.entries.get? id = some row ∧
              row.reference.session = some session ∧ row.status = .pending) := by
  have mirrored := reached.mirrored
  have reachable := reached.reachable (.start secret)
  refine ⟨?_, ?_⟩
  · intro session known present
    obtain ⟨id, carries⟩ := mirrored.carried present
    exact ⟨id, carries, fun other again => mirrored.distinct again carries⟩
  · intro id entry session found carries
    obtain ⟨known, present, mirrors⟩ := mirrored.mirrors found carries
    refine ⟨known, present, mirrors.deposit, mirrors.home, mirrors.amount, ?_, ?_⟩
    · intro completed
      obtain ⟨paid, agrees⟩ := mirrors.of_completed completed
      obtain ⟨payment, named⟩ := Option.isSome_iff_exists.mp (mirrors.named paid)
      exact ⟨paid, payment, named, agrees.trans named⟩
    · intro expired
      refine ⟨mirrors.pending_of_expired expired, fun later onward => ?_⟩
      obtain ⟨_, continues⟩ := onward.continues reachable
      obtain ⟨row, rowAt, goesOn⟩ := continues.entry found
      have kept := goesOn.session.trans carries
      obtain ⟨_, presentToo, mirrorsToo⟩ := (reached.trans onward).mirrored.mirrors rowAt kept
      cases (onward.keeps_expired reachable present expired).symm.trans presentToo
      exact ⟨row, rowAt, kept, mirrorsToo.pending_of_expired expired⟩

end Onward

/-- The session that a stamp names. -/
def sessionUnder (number : Nat) : String :=
  "cs_" ++ (stampOf number).session.toCompactText

/-- Two sessions under one name. The name stands for the second one, which expires before it can be
paid; the first one is paid under the name that the gateway has given it. -/
def expiringRows : List Row :=
  [(.ok (openTopUp (some "first")), stampOf 1), (.ok (openTopUp (some "first")), stampOf 2),
    (.ok { kind := .expire, session := some "first" }, stampOf 3),
    (.ok { kind := .webhook, session := some "first", event := some "late" }, stampOf 4),
    (.ok { kind := .webhook, session := some (sessionUnder 1), event := some "evt" }, stampOf 5)]

/-- The session that has expired is never paid, though its name is. -/
theorem expiringRows_mirrored :
    let script := (run {} expiringRows (blank "whsec_sandbox")).2
    Onward {} (blank "whsec_sandbox") script ∧
      (script.service.gateway.sessions.get? (sessionUnder 1)).map CheckoutSession.state =
        some .paid ∧
      ∀ later, Onward {} script later → ∃ row,
        later.service.ledger.tables.entries.get? (stampOf 2).entry = some row ∧
        row.status = .pending := by
  -- The rows are run once for all that is asked of them.
  have evaluated : ∀ script, script = (run {} expiringRows (blank "whsec_sandbox")).2 →
      AllUnused {} expiringRows (blank "whsec_sandbox") ∧
        script.service.ledger.tables.sessionOf (stampOf 2).entry = some (sessionUnder 2) ∧
        (script.service.gateway.sessions.get? (sessionUnder 2)).map CheckoutSession.state =
        some .expired ∧
        (script.service.gateway.sessions.get? (sessionUnder 1)).map CheckoutSession.state =
          some .paid := by
    intro script reached
    rw [reached]
    decide +kernel
  intro script
  obtain ⟨unused, carries, state, paid⟩ := evaluated script rfl
  have reached : Onward {} (blank "whsec_sandbox") script := .run expiringRows .here unused
  obtain ⟨entry, found, named⟩ := Ledger.Tables.sessionOf_eq_some.mp carries
  obtain ⟨known, present, _, _, _, _, waits⟩ := (sessions_mirrored reached).2 _ entry _ found named
  rw [present] at state
  refine ⟨reached, paid, fun later onward => ?_⟩
  obtain ⟨row, rowAt, _, pending⟩ := (waits (Option.some.inj state)).2 later onward
  exact ⟨row, rowAt, pending⟩

end Script

end Prepaid
