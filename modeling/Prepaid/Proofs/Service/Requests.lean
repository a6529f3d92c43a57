import Prepaid.Proofs.Ledger.Delivery
import Prepaid.Proofs.Ledger.Solvent
import Prepaid.Service

/-!
# Requests

All calls of the service as data. `Request.perform_changes` is the one theorem about
them: whatever is asked, one change is committed, and it confirms a top-up exactly if
the answer says so.
-/

namespace Prepaid

open Ledger

namespace Service

/-- What the service can be asked for. -/
inductive Request where
  | deposit (user : UserId) (value : Decimal)
  | recordTopUp (user : UserId) (amount : Amount) (session : String)
  | confirmTopUp (session : String) (payment : Option String)
  | hold (order : OrderId)
  | capture (order : OrderId)
  | release (order : OrderId) (precondition : Order → Except Rejection Unit)
  | refund (order : OrderId)
  | register (order : NewOrder)
  | place (actor : Actor) (order : OrderId)
  | prepare (actor : Actor) (order : OrderId)
  | charge (actor : Actor) (order : OrderId)
  | complete (actor : Actor) (order : OrderId)
  | repay (actor : Actor) (order : OrderId)
  | cancel (actor : Actor) (order : OrderId) (now : Instant)
  | checkout (actor : Actor) (user : UserId) (value : Decimal)
  | deliver (body : List UInt8) (signature : String)
  | reconcile (session : String)

/-- What the service answers. -/
inductive Answer where
  | moved (receipt : Receipt)
  | confirmed (receipt : Option Receipt)
  | order (order : Order)
  | opened (checkout : Checkout) (receipt : Receipt)
  | delivered (delivery : Delivery)
  | reconciled (outcome : Outcome)

namespace Request

/-- Performs a request. -/
def perform (settings : Settings) (stamp : Stamp) : Request → Call Answer
  | .deposit user value => .moved <$> onLedger (Ledger.deposit settings user value stamp)
  | .recordTopUp user amount session =>
    .moved <$> onLedger (Ledger.recordTopUp user amount session stamp)
  | .confirmTopUp session payment =>
    .confirmed <$> onLedger (Ledger.confirmTopUp session payment stamp)
  | .hold order => .moved <$> onLedger (Ledger.hold order stamp)
  | .capture order => .moved <$> onLedger (Ledger.capture order stamp)
  | .release order precondition => .moved <$> onLedger (Ledger.release order precondition stamp)
  | .refund order => .moved <$> onLedger (Ledger.refund order stamp)
  | .register order => .order <$> onLedger (Ledger.register order stamp)
  | .place actor order => .moved <$> onLedger (Ledger.place actor order stamp)
  | .prepare actor order => .order <$> onLedger (Ledger.prepare actor order stamp)
  | .charge actor order => .moved <$> onLedger (Ledger.charge actor order stamp)
  | .complete actor order => .order <$> onLedger (Ledger.complete actor order stamp)
  | .repay actor order => .moved <$> onLedger (Ledger.repay actor order stamp)
  | .cancel actor order now => .moved <$> onLedger (Ledger.cancel settings actor order now stamp)
  | .checkout actor user value =>
    (fun (opened, receipt) => .opened opened receipt) <$>
      Service.checkout settings actor user value stamp
  | .deliver body signature => .delivered <$> Service.deliver body signature stamp
  | .reconcile session => .reconciled <$> Service.reconcile session stamp

/-- The checkout session that a request is about, as far as it may credit a top-up. -/
def session? (gateway : Gateway) : Request → Option String
  | .confirmTopUp session _ => some session
  | .deliver body signature =>
    match gateway.verify body signature with
    | .ok notice => notice.session?.map PaidSession.id
    | .error _ => none
  | .reconcile session => some session
  | _ => none

end Request

/-- Whether an answer says that a top-up has been credited. -/
def Answer.isCredit : Answer → Bool
  | .confirmed receipt => receipt.isSome
  | .delivered delivery => delivery.outcome = .credited
  | .reconciled outcome => outcome = .credited
  | _ => false

/-- The answer to a request says that it has credited a given top-up. -/
def Request.Reports (request : Request) (service : Service) (answer : Except Failure Answer)
    (topUp : EntryId) : Prop :=
  ∃ result session, answer = .ok result ∧ result.isCredit = true ∧
    request.session? service.gateway = some session ∧
    service.ledger.tables.entryOfSession.get? session = some topUp

/-- A call of the ledger leaves the gateway. -/
theorem onLedger_of_run {α : Type} {call : Ledger.Call α} {ledger after : Ledger}
    {gateway : Gateway} {result : Except Failure α} (run : call ledger = (result, after)) :
    onLedger call { ledger, gateway } = (result, { ledger := after, gateway }) := by
  rw [onLedger, run]

/-- A rule leaves the whole service. -/
theorem onLedger_rule {α : Type} (result : Except Rejection α) (service : Service) :
    onLedger (Ledger.rule result) service = (orReject result, service) := by
  rw [onLedger, rule_apply]

/-- What performing a request amounts to, for the tables and for what is reported. -/
def Request.Changes (settings : Settings) (stamp : Stamp) (service : Service) (request : Request) :
    Prop :=
  ∃ topUp answer after gateway,
    request.perform settings stamp service = (answer, { ledger := { tables := after }, gateway }) ∧
      Change stamp service.ledger.tables topUp after ∧
      ∀ id, topUp = some id ↔ request.Reports service answer id

section Requests

variable {settings : Settings} {stamp : Stamp} {tables : Tables} {gateway : Gateway}
    {request : Request}

/-- A request that only the ledger has to do with, and that neither opens nor confirms a top-up. -/
def Request.isPlain : Request → Bool
  | .recordTopUp _ _ _ | .confirmTopUp _ _ | .checkout _ _ _ | .deliver _ _ | .reconcile _ => false
  | _ => true

/-- A plain request is a call of the ledger that commits one change, and nothing if it is
rejected. -/
theorem Request.plain_commits (settings : Settings) (sound : Tables.Sound tables)
    (fresh : Fresh stamp tables) (plain : request.isPlain = true) :
    ∃ (α : Type) (call : Ledger.Call α) (wrap : α → Answer),
      request.perform settings stamp = wrap <$> onLedger call ∧ Commits stamp tables call := by
  cases request with
  | recordTopUp | confirmTopUp | checkout | deliver | reconcile => cases plain
  | deposit user value => exact ⟨_, _, _, rfl, deposit_commits fresh settings user value⟩
  | hold order => exact ⟨_, _, _, rfl, hold_commits sound fresh order⟩
  | capture order => exact ⟨_, _, _, rfl, capture_commits sound fresh order⟩
  | release order precondition =>
    exact ⟨_, _, _, rfl, release_commits sound fresh order precondition⟩
  | refund order => exact ⟨_, _, _, rfl, refund_commits sound fresh order⟩
  | register order => exact ⟨_, _, _, rfl, register_commits order⟩
  | place actor order => exact ⟨_, _, _, rfl, place_commits sound fresh actor order⟩
  | prepare actor order => exact ⟨_, _, _, rfl, prepare_commits sound actor order⟩
  | charge actor order => exact ⟨_, _, _, rfl, charge_commits sound fresh actor order⟩
  | complete actor order => exact ⟨_, _, _, rfl, complete_commits sound actor order⟩
  | repay actor order => exact ⟨_, _, _, rfl, repay_commits sound fresh actor order⟩
  | cancel actor order now =>
    exact ⟨_, _, _, rfl, cancel_commits sound fresh settings actor order now⟩

/-- A plain request commits one change, and credits no top-up. -/
theorem Request.changes_of_plain (sound : Tables.Sound tables) (fresh : Fresh stamp tables)
    (plain : request.isPlain = true) :
    request.Changes settings stamp { ledger := { tables }, gateway } := by
  obtain ⟨α, call, wrap, performs, commits⟩ := Request.plain_commits settings sound fresh plain
  have silent : request.session? gateway = none := by cases request <;> first | rfl | cases plain
  obtain ⟨result, after, run, change, _⟩ := commits
  refine ⟨none, result.map wrap, after, gateway, ?_, change, ?_⟩
  · rw [performs, map_apply, onLedger_of_run run]
  · intro id
    constructor
    · rintro ⟨⟩
    · rintro ⟨_, session, _, _, about, _⟩
      rw [silent] at about
      cases about

/-- The record of a top-up commits one change, and credits no top-up. -/
theorem Request.changes_of_recordTopUp (fresh : Fresh stamp tables) (user : UserId)
    (amount : Amount) (session : String) :
    (Request.recordTopUp user amount session).Changes settings stamp
      { ledger := { tables }, gateway } := by
  obtain ⟨wallet, first, upkeeps, found, unused, run⟩ := recordTopUp_apply fresh user amount session
  refine ⟨none, _, _, gateway, by rw [perform, map_apply, onLedger_of_run run], ?_, ?_⟩
  · exact .before upkeeps (Posting.toppedUp found unused).change
  · intro id
    constructor
    · rintro ⟨⟩
    · rintro ⟨_, session, _, _, about, _⟩
      cases about

/-- A confirmation commits one change, and credits the top-up that it reports. -/
theorem Request.changes_of_confirmTopUp (sound : Tables.Sound tables) (solvent : tables.Solvent)
    (session : String) (payment : Option String) :
    (Request.confirmTopUp session payment).Changes settings stamp
      { ledger := { tables }, gateway } := by
  obtain ⟨result, after, run, confirmation⟩ := confirmTopUp_apply sound session payment stamp
  obtain ⟨topUp, change, credits⟩ := confirmation.changes sound solvent
  refine ⟨topUp, result.map .confirmed, after, gateway, ?_, change, ?_⟩
  · rw [perform, map_apply, onLedger_of_run run]
  · intro id
    rw [credits id]
    rcases result with failure | receipt <;>
      simp [Reports, Except.map, Answer.isCredit, session?, Option.isSome_iff_exists]

/-- Deliveries and reconciliations are calls of the ledger that look at the gateway. -/
theorem deliver_of_run {body : List UInt8} {signature : String} {ledger after : Ledger}
    {result : Except Failure Delivery}
    (run : Ledger.deliver gateway body signature stamp ledger = (result, after)) :
    deliver body signature stamp { ledger, gateway } = (result, { ledger := after, gateway }) :=
  onLedger_of_run run

/-- A poll leaves the gateway. -/
theorem reconcile_of_run {session : String} {ledger after : Ledger}
    {result : Except Failure Outcome}
    (run : Ledger.reconcile gateway session stamp ledger = (result, after)) :
    reconcile session stamp { ledger, gateway } = (result, { ledger := after, gateway }) :=
  onLedger_of_run run

/-- A delivery commits one change, and credits the top-up that it reports. -/
theorem Request.changes_of_deliver (sound : Tables.Sound tables) (solvent : tables.Solvent)
    (body : List UInt8) (signature : String) :
    (Request.deliver body signature).Changes settings stamp { ledger := { tables }, gateway } := by
  cases verified : gateway.verify body signature with
  | error rejection =>
    refine ⟨none, .error (.rejected rejection), tables, gateway, ?_, .unchanged, ?_⟩
    · rw [perform, map_apply, deliver_of_run (deliver_of_error verified stamp _)]
      rfl
    · simp [Reports]
  | ok notice =>
    obtain ⟨topUp, result, after, run, change, credits⟩ := process_changes sound solvent notice
    refine ⟨topUp, result.map .delivered, after, gateway, ?_, change, ?_⟩
    · rw [← deliver_of_ok verified] at run
      rw [perform, map_apply, deliver_of_run run]
    · intro id
      rw [credits id]
      rcases result with failure | delivery <;>
        simp [Reports, Except.map, Answer.isCredit, session?, verified]

/-- A poll commits one change, and credits the top-up that it reports. -/
theorem Request.changes_of_reconcile (sound : Tables.Sound tables) (solvent : tables.Solvent)
    (session : String) :
    (Request.reconcile session).Changes settings stamp { ledger := { tables }, gateway } := by
  by_cases paid : ∃ known, gateway.sessions.get? session = some known ∧ known.state = .paid
  · obtain ⟨known, found, paid⟩ := paid
    obtain ⟨result, after, confirmation, run⟩ := reconcile_of_paid sound stamp found paid
    obtain ⟨topUp, change, credits⟩ := confirmation.changes sound solvent
    let outcome := result.map fun receipt => (confirmationOutcome receipt).1
    refine ⟨topUp, outcome.map .reconciled, after, gateway, ?_, change, ?_⟩
    · rw [perform, map_apply, reconcile_of_run run]
    · intro id
      rw [credits id]
      rcases result with _ | _ | _ <;>
        simp [outcome, Reports, Except.map, Answer.isCredit, session?, confirmationOutcome]
  · simp only [not_exists, not_and] at paid
    obtain ⟨result, run, silent⟩ := reconcile_of_unpaid stamp tables paid
    refine ⟨none, result.map .reconciled, tables, gateway, ?_, .unchanged, ?_⟩
    · rw [perform, map_apply, reconcile_of_run run]
    · intro id
      constructor
      · rintro ⟨⟩
      · rintro ⟨answer, _, answered, credit, _⟩
        rcases result with failure | outcome
        · cases answered
        · cases answered
          simp only [Answer.isCredit, decide_eq_true_eq] at credit
          exact (silent (by rw [credit])).elim

/-- The amount of a top-up, if the actor may make it. -/
def topUpAmount (settings : Settings) (actor : Actor) (user : UserId) (value : Decimal) :
    Except Rejection Amount := do
  requireTopUpRight actor user
  settings.depositAmount value

/-- A checkout over a refused amount opens no session. -/
theorem checkout_of_error {actor : Actor} {user : UserId} {value : Decimal} {rejection : Rejection}
    (refused : topUpAmount settings actor user value = .error rejection) (service : Service) :
    checkout settings actor user value stamp service = (.error (.rejected rejection), service) := by
  have checked : onLedger (Ledger.rule (topUpAmount settings actor user value)) service =
      (.error (.rejected rejection), service) := by
    rw [onLedger_rule, refused]
    rfl
  exact bind_of_error checked

/-- A checkout over an allowed amount opens a session and records its top-up. -/
theorem checkout_of_ok {actor : Actor} {user : UserId} {value : Decimal} {amount : Amount}
    {opening : Checkout × Gateway} {ledger after : Ledger} {result : Except Failure Receipt}
    (allowed : topUpAmount settings actor user value = .ok amount)
    (opens : gateway.openSession user amount settings.currency stamp = opening)
    (run : Ledger.recordTopUp user amount opening.1.session stamp ledger = (result, after)) :
    checkout settings actor user value stamp { ledger, gateway } =
      (result.map fun receipt => (opening.1, receipt),
        { ledger := after, gateway := opening.2 }) := by
  have checked :
      onLedger (Ledger.rule (topUpAmount settings actor user value)) { ledger, gateway } =
      (.ok amount, { ledger, gateway }) := by
    rw [onLedger_rule, allowed]
    rfl
  subst opens
  apply (bind_of_ok checked).trans
  let opening := gateway.openSession user amount settings.currency stamp
  change (onLedger (Ledger.recordTopUp user amount opening.1.session stamp) >>= fun receipt =>
    pure (opening.1, receipt)) { ledger, gateway := opening.2 } = _
  rw [bind_apply, onLedger_of_run run]
  cases result <;> rfl

/-- A checkout is refused, or it opens a session and puts the entry that waits for it into the
user's wallet. -/
theorem checkout_apply (settings : Settings) (gateway : Gateway) (fresh : Fresh stamp tables)
    (actor : Actor) (user : UserId) (value : Decimal) :
    (∃ rejection, topUpAmount settings actor user value = .error rejection ∧
      checkout settings actor user value stamp { ledger := { tables }, gateway } =
        (.error (.rejected rejection), { ledger := { tables }, gateway })) ∨
    ∃ amount wallet first opening entry, topUpAmount settings actor user value = .ok amount ∧
      gateway.openSession user amount settings.currency stamp = opening ∧
      Entry.pendingDeposit stamp.entry wallet.id amount wallet.current opening.1.session stamp.now =
        entry ∧
      Upkeeps stamp tables first ∧ first.wallets.get? user = some wallet ∧
      first.entries.get? stamp.entry = none ∧
      checkout settings actor user value stamp { ledger := { tables }, gateway } =
        ((orOverflow wallet.balance).map fun balance => (opening.1, ⟨balance, some entry, none⟩),
          { ledger := { tables := first.putEntry entry }, gateway := opening.2 }) := by
  cases allowed : topUpAmount settings actor user value with
  | error rejection => exact .inl ⟨rejection, rfl, checkout_of_error allowed _⟩
  | ok amount =>
    let opening := gateway.openSession user amount settings.currency stamp
    obtain ⟨wallet, first, upkeeps, found, unused, run⟩ :=
      recordTopUp_apply fresh user amount opening.1.session
    refine .inr ⟨amount, wallet, first, opening, _, rfl, rfl, rfl, upkeeps, found, unused, ?_⟩
    rw [checkout_of_ok allowed rfl run]
    cases orOverflow wallet.balance <;> rfl

/-- A checkout commits one change, and credits no top-up. -/
theorem Request.changes_of_checkout (fresh : Fresh stamp tables) (actor : Actor) (user : UserId)
    (value : Decimal) :
    (Request.checkout actor user value).Changes settings stamp
      { ledger := { tables }, gateway } := by
  rcases checkout_apply settings gateway fresh actor user value with
    ⟨rejection, _, run⟩ | ⟨amount, wallet, first, opening, entry, _, _, rfl, upkeeps, found, unused,
      run⟩
  · refine ⟨none, .error (.rejected rejection), tables, gateway, ?_, .unchanged, by simp [Reports]⟩
    rw [perform, map_apply, run]
    rfl
  · refine ⟨none, _, _, opening.2, by rw [perform, map_apply, run], ?_, ?_⟩
    · exact .before upkeeps (Posting.toppedUp found unused).change
    · intro id
      constructor
      · rintro ⟨⟩
      · rintro ⟨_, session, _, _, about, _⟩
        cases about

/-- Every request commits one change, which confirms a top-up exactly if the answer says so. -/
theorem Request.perform_changes (sound : Tables.Sound tables) (solvent : tables.Solvent)
    (fresh : Fresh stamp tables) (request : Request) :
    request.Changes settings stamp { ledger := { tables }, gateway } := by
  cases request with
  | recordTopUp user amount session => exact changes_of_recordTopUp fresh user amount session
  | confirmTopUp session payment => exact changes_of_confirmTopUp sound solvent session payment
  | checkout actor user value => exact changes_of_checkout fresh actor user value
  | deliver body signature => exact changes_of_deliver sound solvent body signature
  | reconcile session => exact changes_of_reconcile sound solvent session
  | _ => exact changes_of_plain sound fresh rfl

end Requests

end Service

end Prepaid
