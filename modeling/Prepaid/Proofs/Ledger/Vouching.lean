import Prepaid.Proofs.Ledger.Delivery
import Prepaid.Proofs.Ledger.Ruling

/-!
# Vouching

Some rejections do not refuse what is asked for, but say that the tables contradict
themselves: that money is not held which must be, or that a row is missing. A result
vouches for the tables if it is none of these. The results of all calls do, as far as
the rows that they meet are those of a run.
-/

namespace Prepaid

/-- The rejection says that the tables do not have what they must have: money that is held, a wallet
or an entry. -/
def Rejection.accusesTables : Rejection → Bool
  | .holdMismatch .. | .storage _ | .entryNotFound _ => true
  | _ => false

/-! ## What is refused before the tables are asked -/

section Rules

variable {rejection : Rejection} {settings : Settings}

/-- An amount is refused for its own sake. -/
theorem Amount.ofDecimal_error {value : Decimal}
    (refused : Amount.ofDecimal value = .error rejection) :
    rejection.accusesTables = false := by
  unfold ofDecimal at refused
  split at refused <;> cases refused
  rfl

/-- A deposit is refused for its own amount. -/
theorem Settings.depositAmount_error {value : Decimal}
    (refused : settings.depositAmount value = .error rejection) :
    rejection.accusesTables = false := by
  unfold depositAmount at refused
  cases amount : Amount.ofDecimal value with
  | error refusal =>
    rw [amount] at refused
    cases refused
    exact Amount.ofDecimal_error amount
  | ok amount =>
    rw [amount] at refused
    simp only [bind, Except.bind] at refused
    split at refused <;> cases refused
    rfl

/-- A registration is refused for what the order says. -/
theorem Order.register_error {new : NewOrder} {now : Instant}
    (refused : Order.register new now = .error rejection) : rejection.accusesTables = false := by
  unfold register at refused
  cases total : Amount.ofDecimal new.total with
  | error refusal =>
    rw [total] at refused
    cases refused
    exact Amount.ofDecimal_error total
  | ok amount =>
    rw [total] at refused
    cases refused

/-- A cutoff is refused for its own sake. -/
theorem Settings.cutoff_error (refused : settings.cutoff = .error rejection) :
    rejection.accusesTables = false := by
  unfold cutoff at refused
  split at refused
  · cases refused
    rfl
  · split at refused <;> cases refused
    rfl

/-- An order that can no longer be cancelled accuses no tables. -/
theorem Order.requireCancellable_error {order : Order} {cutoff : Int} {now : Instant}
    (refused : order.requireCancellable cutoff now = .error rejection) :
    rejection.accusesTables = false := by
  unfold requireCancellable deadline at refused
  split at refused
  · simp only [bind, Except.bind] at refused
    split at refused <;> cases refused
    rfl
  · cases refused
    rfl

/-- A delivery is refused for what it says or how it is signed. -/
theorem Gateway.verify_error {gateway : Gateway} {body : List UInt8} {signature : String}
    (refused : gateway.verify body signature = .error rejection) :
    rejection.accusesTables = false := by
  unfold verify at refused
  split at refused
  · cases refused
    rfl
  · split at refused <;> cases refused
    rfl

/-- A session that is unknown accuses no tables. -/
theorem Gateway.session_error {gateway : Gateway} {session : String}
    (refused : gateway.session session = .error rejection) : rejection.accusesTables = false := by
  unfold Gateway.session at refused
  split at refused <;> cases refused
  rfl

end Rules

namespace Ledger

variable {rejection : Rejection} {stamp : Stamp} {tables after : Tables}

/-- A cancellation is refused for who asks and when. -/
theorem cancellable_error {actor : Actor} {cutoff : Int} {now : Instant} {order : Order}
    (refused : cancellable actor cutoff now order = .error rejection) :
    rejection.accusesTables = false := by
  unfold cancellable at refused
  split at refused
  · exact Order.requireCancellable_error refused
  · cases refused
    rfl

/-- A customer who asks for what staff does accuses no tables. -/
theorem requireStaff_error {actor : Actor} {action : OrderAction}
    (refused : requireStaff actor action = .error rejection) : rejection.accusesTables = false := by
  unfold requireStaff at refused
  split at refused <;> cases refused
  rfl

/-! ## Results that accuse nothing -/

/-- The result vouches for the tables: if it is a rejection then not one that accuses them. -/
def Vouches {α : Type} (result : Except Failure α) : Prop :=
  ∀ rejection, result = .error (.rejected rejection) → rejection.accusesTables = false

section Vouching

variable {α β : Type} {ledger : Ledger} {id : OrderId}

/-- A success accuses nothing. -/
theorem Vouches.of_ok {value : α} : Vouches (.ok value : Except Failure α) := by
  rintro _ ⟨⟩

/-- A result vouches however its answer is put. -/
theorem Vouches.map {result : Except Failure α} (vouches : Vouches result) (change : α → β) :
    Vouches (result.map change) :=
  fun rejection rejected => vouches rejection (map_eq_error.mp rejected)

/-- A rule vouches if it is broken for its own sake. -/
theorem Vouches.rule {outcome : Except Rejection α} {next : α → Call β}
    (refused : ∀ rejection, outcome = .error rejection → rejection.accusesTables = false)
    (passed : ∀ value, outcome = .ok value → Vouches (next value ledger).1) :
    Vouches ((Ledger.rule outcome >>= next) ledger).1 := by
  cases outcome with
  | error rejection =>
    rw [bind_of_error (rule_apply _ _)]
    rintro _ ⟨⟩
    exact refused rejection rfl
  | ok value =>
    rw [bind_of_ok (rule_apply _ _)]
    exact passed value rfl

/-- An overflow is no rejection. -/
theorem Vouches.orOverflow {result : Except Overflow α} : Vouches (orOverflow result) :=
  fun _ rejected => (orOverflow_ne_rejected rejected).elim

/-- A ruling vouches if its own reasons do. -/
theorem Ruling.vouches {allowed : List OrderStatus} {action : OrderAction} {passes : Order → Prop}
    {reason : Order → Rejection → Prop} {result : Except Failure α}
    (ruling : Ruling tables id allowed action passes reason result)
    (because : ∀ order rejection, reason order rejection → rejection.accusesTables = false) :
    Vouches result := by
  intro rejection rejected
  rcases ruling.rejection_cases rejected with rfl | ⟨status, rfl⟩ | ⟨order, _, refused⟩
  · rfl
  · rfl
  · exact because order rejection refused

/-- No hold accuses the tables. -/
theorem hold_vouches (regular : tables.Regular) (exactly : tables.ExactFor id) :
    Vouches (hold id stamp { tables }).1 := by
  refine (hold_ruled regular exactly stamp).vouches ?_
  rintro order _ ⟨available, _, rfl⟩
  rfl

/-- No capture accuses the tables. -/
theorem capture_vouches (regular : tables.Regular) (exactly : tables.ExactFor id) :
    Vouches (capture id stamp { tables }).1 := by
  refine (capture_ruled regular exactly stamp).vouches ?_
  rintro order _ rfl
  rfl

/-- No refund accuses the tables. -/
theorem refund_vouches (regular : tables.Regular) (exactly : tables.ExactWithRefund id) :
    Vouches (refund id stamp { tables }).1 :=
  (refund_ruled regular exactly stamp).vouches fun _ _ refused => refused.elim

/-- No advance accuses the tables. -/
theorem advance_vouches (sound : tables.Sound) {allowed : List OrderStatus} {next : OrderStatus}
    (can : ∀ status ∈ allowed, status.canBecome next = true) (action : OrderAction) :
    Vouches (advance id allowed next action stamp { tables }).1 :=
  (advance_ruled sound can action stamp).vouches fun _ _ refused => refused.elim

/-- No placement accuses the tables. -/
theorem place_vouches (regular : tables.Regular) (exactly : tables.ExactFor id) (actor : Actor) :
    Vouches (place actor id stamp { tables }).1 := by
  rw [place, bind_of_ok (get_apply _)]
  cases tables.orders.get? id with
  | none =>
    rintro _ ⟨⟩
    rfl
  | some order =>
    cases own : actor.owns order.customer with
    | true =>
      simp only [own]
      exact hold_vouches regular exactly
    | false =>
      simp only [own]
      rintro _ ⟨⟩
      rfl

/-- No deposit accuses the tables. -/
theorem deposit_vouches (solvent : tables.Solvent) (settings : Settings) (user : UserId)
    (value : Decimal) :
    Vouches (deposit settings user value stamp { tables }).1 := by
  intro rejection rejected
  cases allowed : settings.depositAmount value with
  | error refusal =>
    rw [deposit, allowed, bind_of_error (rule_apply _ _)] at rejected
    cases rejected
    exact Settings.depositAmount_error allowed
  | ok amount =>
    rcases deposit_of_ok solvent allowed user stamp with ⟨receipt, done⟩ | ⟨overflow, full⟩
    · rw [done] at rejected
      cases rejected
    · rw [full] at rejected
      cases rejected

/-- No top-up that is recorded accuses the tables. -/
theorem recordTopUp_vouches (solvent : tables.Solvent) (user : UserId) (amount : Amount)
    (session : String) :
    Vouches (recordTopUp user amount session stamp { tables }).1 := by
  obtain ⟨receipt, done⟩ := exists_recordTopUp solvent user amount session stamp
  rw [done]
  exact .of_ok

/-- No registration accuses the tables. -/
theorem register_vouches (new : NewOrder) : Vouches (register new stamp { tables }).1 := by
  intro rejection rejected
  rcases register_rejected rejected with refused | ⟨id, rfl⟩
  · exact Order.register_error refused
  · rfl

/-! ## What confirms top-ups -/

/-- No way to confirm a session accuses the tables. -/
theorem Confirmation.vouches {session : String} {payment : Option String}
    {result : Except Failure (Option Receipt)}
    (confirmation : Confirmation session payment stamp tables result after) : Vouches result := by
  cases confirmation with
  | unknown =>
    rintro _ ⟨⟩
    rfl
  | settled => exact .of_ok
  | overflowed => rintro _ ⟨⟩
  | credited => exact Vouches.orOverflow.map _

/-- No confirmation accuses the tables. -/
theorem confirmTopUp_vouches (sound : tables.Sound) (session : String) (payment : Option String) :
    Vouches (confirmTopUp session payment stamp { tables }).1 := by
  obtain ⟨result, after, run, confirmation⟩ := confirmTopUp_apply sound session payment stamp
  rw [run]
  exact confirmation.vouches

/-- No way to handle a notice accuses the tables. -/
theorem Handling.vouches {notice : Notice} {result : Except Failure (Outcome × Option Balance)}
    (handling : Handling notice stamp tables result after) : Vouches result := by
  cases handling with
  | ignored => exact .of_ok
  | malformed =>
    rintro _ ⟨⟩
    rfl
  | confirmed completed names confirmation => exact confirmation.vouches.map _

/-- No delivery accuses the tables. -/
theorem process_vouches (sound : tables.Sound) (notice : Notice) :
    Vouches (process notice stamp { tables }).1 := by
  cases done : (noticeRecord notice stamp.now { tables }).isCompleted with
  | true =>
    rw [process_of_completed done]
    exact .of_ok
  | false =>
    obtain ⟨result, middle, handling, run⟩ := process_of_open sound done
    rw [run]
    exact handling.vouches.map _

/-- No poll accuses the tables. -/
theorem reconcile_vouches (sound : tables.Sound) (gateway : Gateway) (session : String) :
    Vouches (reconcile gateway session stamp { tables }).1 := by
  refine .rule (fun _ => Gateway.session_error) fun known found => ?_
  split
  · obtain ⟨result, after, run, confirmation⟩ :=
      confirmTopUp_apply sound session known.payment stamp
    rw [bind_apply, run]
    rcases result with failure | _ | receipt
    · exact confirmation.vouches.map fun _ => Outcome.credited
    · exact .of_ok
    · exact .of_ok
  · exact .of_ok

end Vouching

end Ledger

end Prepaid
