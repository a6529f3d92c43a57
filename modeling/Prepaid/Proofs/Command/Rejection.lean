import Prepaid.Proofs.Command.Coupling

/-!
# Commands that are rejected

A command that is rejected leaves the script as it was, so that it could as well be
deleted from its file. There is one exception, a checkout that has no name for its
session: the session and its entry are there before the name is asked for.
-/

namespace Prepaid

/-- A demand is met by the value of its column. -/
theorem Command.demand_eq_ok {α : Type} {command : Command} {column : Column} {value : Option α}
    {found : α} : command.demand column value = .ok found ↔ value = some found := by
  cases value <;> simp [demand]

/-- A result is a success exactly if it has a value. -/
theorem isOk_iff {ε α : Type} {result : Except ε α} :
    result.isOk = true ↔ ∃ value, result = .ok value := by
  cases result <;> simp [Except.isOk, Except.toBool]

/-- A result is a failure exactly if it has an error. -/
theorem isOk_eq_false_iff {ε α : Type} {result : Except ε α} :
    result.isOk = false ↔ ∃ error, result = .error error := by
  cases result <;> simp [Except.isOk, Except.toBool]

/-- A checkout with all that opening a session takes, but without a name for the session. -/
structure Command.Nameless (settings : Settings) (command : Command) : Prop where
  kind : command.kind = .checkout
  user : command.has .user = true
  amount : ∃ value amount, command.amount = some value ∧ settings.depositAmount value = .ok amount
  session : command.has .session = false

namespace Script

open Service

section Turns

variable {settings : Settings} {command : Command} {stamp : Stamp} {script after : Script}

/-- Customers may always top up their own wallets. -/
theorem topUpAmount_customer (settings : Settings) (user : UserId) (value : Decimal) :
    topUpAmount settings (.customer user) user value = settings.depositAmount value := by
  simp [topUpAmount, requireTopUpRight, Actor.customer, Actor.owns, bind, Except.bind]

/-- A turn that is rejected changes nothing, unless it opens a session without a name. -/
theorem Turn.unchanged_of_rejected {rejection : Rejection} (intact : script.service.Intact)
    (coupled : script.service.Coupled) (fresh : Ledger.Fresh stamp script.service.ledger.tables)
    (turn : Turn settings command stamp script (.error (.rejected rejection)) after) :
    after = script ∨ command.Nameless settings := by
  generalize same : (Except.error (.rejected rejection) : Except Failure Unit) = result at turn
  cases turn with
  | refused => exact .inl rfl
  | asked request passed =>
    have other := Request.isDelivery_of_isPassed passed
    have kept := Request.unchanged_of_rejected intact fresh other (map_eq_error.mp same.symm)
    exact .inl (by rw [kept])
  | opened | expired => cases same
  | @abandoned user value opening later _ kind hasUser hasAmount nameless opens =>
    cases allowed : topUpAmount settings (.customer user) user value with
    | error refusal =>
      rw [checkout_of_error allowed] at opens
      cases opens
    | ok amount =>
      rw [topUpAmount_customer] at allowed
      exact .inr ⟨kind, isOk_iff.mpr ⟨user, hasUser⟩,
        ⟨value, amount, Command.demand_eq_ok.mp hasAmount, allowed⟩,
        isOk_eq_false_iff.mpr ⟨_, nameless⟩⟩
  | @paid session event gateway pays result later delivers =>
    obtain ⟨known, present, _⟩ := Gateway.completeSession_eq_ok.mp pays
    have refused := deliver_own_not_rejected (intact.elsewhere gateway)
      (coupled session known present) event delivers rejection
    exact (refused (map_eq_error.mp same.symm)).elim

/-- Nothing keeps a customer from opening a session with an amount that may be deposited. -/
theorem checkout_of_customer {service : Service} (intact : service.Intact)
    (fresh : Ledger.Fresh stamp service.ledger.tables) (user : UserId) {value : Decimal}
    {amount : Amount} (allowed : settings.depositAmount value = .ok amount) :
    ∃ opening later,
      Service.checkout settings (.customer user) user value stamp service = (.ok opening, later) ∧
      later.ledger.tables.entries.get? stamp.entry ≠ none := by
  obtain ⟨⟨tables, outages⟩, gateway⟩ := service
  obtain rfl : outages = [] := intact.outages
  rw [← topUpAmount_customer settings user value] at allowed
  rcases checkout_apply settings gateway fresh (.customer user) user value with
    ⟨rejection, refused, _⟩ | ⟨_, wallet, first, _, _, _, _, rfl, upkeeps, known, unused, run⟩
  · rw [refused] at allowed
    cases allowed
  · have solvent : first.Solvent := upkeeps.keeps Ledger.Upkeep.solvent intact.solvent
    obtain ⟨balance, computed⟩ := (solvent known).balance
    rw [computed] at run
    refine ⟨_, _, run, ?_⟩
    rw [Ledger.Tables.putEntry_of_none unused]
    simp [Entry.pendingDeposit]

/-- A rule that passes leaves the script alone. -/
theorem rule_of_ok {α : Type} {result : Except Rejection α} {value : α}
    (passes : result = .ok value) (script : Script) : rule result script = (.ok value, script) := by
  rw [rule_apply, passes]
  rfl

/-- A checkout without a name is rejected only once its session is open. -/
theorem checkout_of_nameless {user : UserId} {value : Decimal} {rejection : Rejection}
    {opening : Checkout × Receipt} {later : Service} (hasUser : command.demandUser = .ok user)
    (hasAmount : command.demandAmount = .ok value)
    (nameless : command.demandSession = .error rejection)
    (opens : Service.checkout settings (.customer user) user value stamp script.service =
      (.ok opening, later)) :
    Script.checkout settings command stamp script =
      (.error (.rejected rejection), { script with service := later }) := by
  rw [Script.checkout, bind_of_ok (rule_of_ok hasUser script),
    bind_of_ok (rule_of_ok hasAmount script), bind_of_ok (onService_of_run opens), nameless]
  rfl

/-- A checkout without a name is rejected, and leaves an entry behind. -/
theorem apply_of_nameless (intact : script.service.Intact)
    (fresh : Ledger.Fresh stamp script.service.ledger.tables)
    (nameless : command.Nameless settings) :
    (∃ rejection, (apply settings command stamp script).1 = .error (.rejected rejection)) ∧
      (apply settings command stamp script).2 ≠ script := by
  obtain ⟨user, hasUser⟩ := isOk_iff.mp nameless.user
  obtain ⟨value, amount, given, allowed⟩ := nameless.amount
  obtain ⟨rejection, missing⟩ := isOk_eq_false_iff.mp nameless.session
  obtain ⟨opening, later, opens, recorded⟩ := checkout_of_customer intact fresh user allowed
  have hasAmount : command.demandAmount = .ok value := Command.demand_eq_ok.mpr given
  have applied : apply settings command stamp script =
      (.error (.rejected rejection), { script with service := later }) := by
    rw [apply, nameless.kind]
    exact checkout_of_nameless hasUser hasAmount missing opens
  rw [applied]
  refine ⟨⟨rejection, rfl⟩, fun same => recorded ?_⟩
  rw [← fresh.entry, ← congrArg Script.service same]

end Turns

/-! ## Deleting what is rejected -/

/-- A row of a command file, with the stamp it is applied under. -/
abbrev Row : Type :=
  Except Rejection Command × Stamp

/-- The rows that are left when the rejected ones are deleted. -/
def accepted (settings : Settings) : List Row → Script → List Row
  | [], _ => []
  | (.error _, _) :: rest, script => accepted settings rest script
  | (.ok command, stamp) :: rest, script =>
    match apply settings command stamp script with
    | (.error (.rejected _), after) => accepted settings rest after
    | (_, after) => (.ok command, stamp) :: accepted settings rest after

/-- Every command has a fresh stamp when its turn comes. -/
def AllFresh (settings : Settings) : List Row → Script → Prop
  | [], _ => True
  | (.error _, _) :: rest, script => AllFresh settings rest script
  | (.ok command, stamp) :: rest, script =>
    Ledger.Fresh stamp script.service.ledger.tables ∧
      AllFresh settings rest (apply settings command stamp script).2

instance decidableAllFresh (settings : Settings) :
    (rows : List Row) → (script : Script) → Decidable (AllFresh settings rows script)
  | [], _ => .isTrue trivial
  | (.error _, _) :: rest, script => decidableAllFresh settings rest script
  | (.ok command, stamp) :: rest, script =>
    have := decidableAllFresh settings rest (apply settings command stamp script).2
    inferInstanceAs (Decidable (_ ∧ _))

/-- No row is a checkout without a name. -/
def AllNamed (settings : Settings) (rows : List Row) : Prop :=
  ∀ command stamp, (.ok command, stamp) ∈ rows → ¬ command.Nameless settings

section Rows

variable {settings : Settings} {script : Script}

/-- Only a checkout without a name is rejected and changes something. -/
theorem Reachable.unchanged_of_rejected (reachable : Reachable settings script) {command : Command}
    {stamp : Stamp} (fresh : Ledger.Fresh stamp script.service.ledger.tables)
    {rejection : Rejection} {after : Script}
    (applied : apply settings command stamp script = (.error (.rejected rejection), after)) :
    after = script ∨ command.Nameless settings := by
  obtain ⟨steps, run⟩ := reachable.service_reachable
  have turn : Turn settings command stamp script _ _ := apply_turns settings command stamp script
  rw [applied] at turn
  exact turn.unchanged_of_rejected run.intact reachable.coupled fresh

/-- A run goes on from where the command left the script. -/
theorem run_ok (command : Command) (stamp : Stamp) (rest : List Row) :
    (run settings ((.ok command, stamp) :: rest) script).2 =
      (run settings rest (apply settings command stamp script).2).2 :=
  rfl

/-- Whether or not the rejected rows are there, the script ends up the same. -/
theorem run_accepted (rows : List Row) (reachable : Reachable settings script)
    (fresh : AllFresh settings rows script) (named : AllNamed settings rows) :
    (run settings (accepted settings rows script) script).2 = (run settings rows script).2 := by
  induction rows generalizing script with
  | nil => rfl
  | cons row rest ih =>
    obtain ⟨content, stamp⟩ := row
    have later : AllNamed settings rest := fun command stamp member =>
      named command stamp (List.mem_cons_of_mem _ member)
    cases content with
    | error rejection => exact ih reachable fresh later
    | ok command =>
      have onward := ih (reachable.step command fresh.1) fresh.2 later
      rcases applied : apply settings command stamp script with ⟨result, after⟩
      rw [applied] at onward
      rcases result with (rejection | overflow) | done
      · have same : after =
          script := (reachable.unchanged_of_rejected fresh.1 applied).resolve_right
            (named command stamp List.mem_cons_self)
        subst same
        simp only [accepted, run_ok, applied, onward]
      all_goals simp only [accepted, run_ok, applied, onward]

/-- Commands that are rejected leave no trace, and can be deleted from their file. Only a checkout
without a name for its session is rejected after the session has been opened. -/
theorem rejected_without_trace (reachable : Reachable settings script) :
    (∀ (command : Command) (stamp : Stamp), Ledger.Fresh stamp script.service.ledger.tables →
      (((∃ rejection, (apply settings command stamp script).1 = .error (.rejected rejection)) ∧
        (apply settings command stamp script).2 ≠ script) ↔ command.Nameless settings)) ∧
      ∀ rows : List Row, AllFresh settings rows script → AllNamed settings rows →
        (run settings (accepted settings rows script) script).2 = (run settings rows script).2 := by
  refine ⟨fun command stamp fresh => ⟨?_, fun nameless => ?_⟩,
    fun rows => run_accepted rows reachable⟩
  · rintro ⟨⟨rejection, rejected⟩, changed⟩
    exact (reachable.unchanged_of_rejected fresh (Prod.ext rejected rfl)).resolve_left changed
  · obtain ⟨steps, run⟩ := reachable.service_reachable
    exact apply_of_nameless run.intact fresh nameless

end Rows

/-- A script that nothing has been applied to. -/
def untouched : Script :=
  { service := { gateway := { secret := "whsec_sandbox" } } }

/-- A checkout of user 1 over twenty-five. -/
def openTopUp (name : Option String) : Command :=
  { kind := .checkout, user := some ⟨1⟩, amount := some (centsOf 2500), session := name }

/-- A checkout with a name, the placement of no order, a row that cannot be read, and the payment of
the session. -/
def mixedRows : List Row :=
  [(.ok (openTopUp (some "first")), stampOf 1),
    (.ok { kind := .place, user := some ⟨1⟩ }, stampOf 2),
    (.error (.invalidCommand (.stated "unreadable")), stampOf 3),
    (.ok { kind := .webhook, session := some "first", event := some "evt" }, stampOf 4)]

/-- The rows that are rejected can be deleted. -/
theorem mixedRows_without_rejected :
    Reachable {} untouched ∧ AllFresh {} mixedRows untouched ∧ AllNamed {} mixedRows ∧
      (run {} (accepted {} mixedRows untouched) untouched).2 = (run {} mixedRows untouched).2 := by
  have reachable : Reachable {} untouched := .start "whsec_sandbox"
  have fresh : AllFresh {} mixedRows untouched := by decide
  have named : AllNamed {} mixedRows := by
    intro command stamp member nameless
    simp only [mixedRows, List.mem_cons, Prod.mk.injEq, Except.ok.injEq, List.not_mem_nil, or_false]
      at member
    rcases member with ⟨rfl, -⟩ | ⟨rfl, -⟩ | ⟨⟨⟩, -⟩ | ⟨rfl, -⟩
    · cases nameless.session
    · cases nameless.kind
    · cases nameless.kind
  exact ⟨reachable, fresh, named, (rejected_without_trace reachable).2 mixedRows fresh named⟩

/-- The checkout that is rejected for want of a name leaves a wallet behind. -/
theorem openTopUp_leaves_wallet :
    Reachable {} untouched ∧ Ledger.Fresh (stampOf 1) untouched.service.ledger.tables ∧
      (apply {} (openTopUp none) (stampOf 1) untouched).1 =
        .error (.rejected (.invalidCommand (.missingColumn .checkout .session))) ∧
      (apply {} (openTopUp none) (stampOf 1) untouched).2 ≠ untouched := by
  refine ⟨.start "whsec_sandbox", by decide, by decide, fun same => ?_⟩
  have wallets :=
    congrArg (fun script => (script.service.ledger.tables.wallets.get? ⟨1⟩).isSome) same
  revert wallets
  decide

end Script

end Prepaid
