import Prepaid.Proofs.Gateway.Sessions
import Prepaid.Proofs.Service.Run

/-!
# The lives of sessions

A session is opened unpaid, and then it is paid or it expires. From then on it stays as it
is, with the payment under which it was paid, whatever the gateway is asked for. No call
has to do with more than one session, and one that is refused changes none.
-/

namespace Prepaid

/-- What the gateway can be asked to do with sessions. -/
inductive SessionCall where
  | create (user : UserId) (amount : Amount) (currency : String) (stamp : Stamp)
  | complete (session event : String) (stamp : Stamp)
  | expire (session : String)
  | status (session : String)

/-- What the gateway answers. -/
inductive SessionAnswer where
  | created (checkout : Checkout)
  | completed (body : String)
  | expired
  | status (state : SessionState) (payment : Option String)

namespace SessionCall

/-- The name under which a session is opened. -/
def newName (stamp : Stamp) : String :=
  "cs_" ++ stamp.session.toCompactText

/-- The session that a call is about. -/
def session : SessionCall → String
  | .create _ _ _ stamp => newName stamp
  | .complete id _ _ | .expire id | .status id => id

/-- The name that a call takes for a new session. -/
def generated? : SessionCall → Option String
  | .create _ _ _ stamp => some (newName stamp)
  | _ => none

/-- The names that calls take for new sessions. -/
def generated (calls : List SessionCall) : List String :=
  calls.filterMap generated?

/-- Answers a call. The gateway is what it was if the call is refused. -/
def perform (gateway : Gateway) : SessionCall → Except Rejection SessionAnswer × Gateway
  | .create user amount currency stamp =>
    let (checkout, after) := gateway.openSession user amount currency stamp
    (.ok (.created checkout), after)
  | .complete id event stamp =>
    match gateway.completeSession id stamp with
    | .ok after => (.ok (.completed (after.completedBody event id)), after)
    | .error rejection => (.error rejection, gateway)
  | .expire id =>
    match gateway.expireSession id with
    | .ok after => (.ok .expired, after)
    | .error rejection => (.error rejection, gateway)
  | .status id => ((gateway.session id).map fun known => .status known.state known.payment, gateway)

/-- Answers calls one after the other. -/
def performAll (calls : List SessionCall) (gateway : Gateway) : Gateway :=
  calls.foldl (fun gateway call => (call.perform gateway).2) gateway

/-- Whether nothing speaks against a call. -/
def Admitted (gateway : Gateway) : SessionCall → Prop
  | .create _ _ _ _ => True
  | .complete id _ _ => ∃ known, gateway.sessions.get? id = some known ∧ known.state ≠ .expired
  | .expire id | .status id => ∃ known, gateway.sessions.get? id = some known

end SessionCall

namespace CheckoutSession

/-- Exactly a session that is paid has a payment. -/
def Regular (session : CheckoutSession) : Prop :=
  session.payment.isSome = true ↔ session.state = .paid

/-- What may become of a session. Nothing does once it is paid or has expired. -/
structure Becomes (old new : CheckoutSession) : Prop where
  user : new.user = old.user
  amount : new.amount = old.amount
  currency : new.currency = old.currency
  settled : old.state ≠ .unpaid → new = old

/-- A session may stay what it is. -/
theorem Becomes.refl (session : CheckoutSession) : session.Becomes session :=
  ⟨rfl, rfl, rfl, fun _ => rfl⟩

/-- What a session may become later is what it may become at all. -/
theorem Becomes.trans {first second third : CheckoutSession} (before : first.Becomes second)
    (after : second.Becomes third) : first.Becomes third where
  user := after.user.trans before.user
  amount := after.amount.trans before.amount
  currency := after.currency.trans before.currency
  settled done := by
    obtain rfl := before.settled done
    exact after.settled done

/-- A payment is final. -/
theorem Becomes.payment {old new : CheckoutSession} (regular : old.Regular)
    (becomes : old.Becomes new) {payment : String} (paid : old.payment = some payment) :
    new.payment = some payment := by
  have state : old.state = .paid := regular.mp (by rw [paid]; rfl)
  rw [becomes.settled (by rw [state]; decide), paid]

/-- Paying a paid session once more gives it no other payment. -/
theorem pay_of_paid {session : CheckoutSession} (regular : session.Regular)
    (paid : session.state = .paid) (stamp : Stamp) : session.pay stamp = session := by
  obtain ⟨payment, named⟩ := Option.isSome_iff_exists.mp (regular.mpr paid)
  simp only [pay, named, Option.getD_some, ← paid]
  rw [← named]

/-- A session that has been paid is regular, whatever it was. -/
theorem Regular.pay (session : CheckoutSession) (stamp : Stamp) : (session.pay stamp).Regular := by
  simp [Regular, CheckoutSession.pay]

end CheckoutSession

namespace Gateway

/-- All sessions are regular. -/
def Regular (gateway : Gateway) : Prop :=
  ∀ id known, gateway.sessions.get? id = some known → known.Regular

end Gateway

namespace SessionCall

/-- What a call comes to, and the gateway afterwards. -/
inductive Effect (gateway : Gateway) : SessionCall → Except Rejection SessionAnswer → Gateway →
    Prop where
  | created (user : UserId) (amount : Amount) (currency : String) (stamp : Stamp)
      (checkout : Checkout) : Effect gateway (.create user amount currency stamp)
        (.ok (.created checkout))
        (gateway.putSession (newName stamp)
          { user, amount, currency, state := .unpaid, payment := none })
  | paid {id : String} {known : CheckoutSession} (event : String) (stamp : Stamp) (body : String)
      (present : gateway.sessions.get? id = some known) (unpaid : known.state = .unpaid) :
      Effect gateway (.complete id event stamp) (.ok (.completed body))
        (gateway.putSession id (known.pay stamp))
  | paidBefore {id : String} {known : CheckoutSession} (event : String) (stamp : Stamp)
      (body : String) (present : gateway.sessions.get? id = some known)
      (paid : known.state = .paid) : Effect gateway (.complete id event stamp)
        (.ok (.completed body)) gateway
  | tooLate {id : String} {known : CheckoutSession} (event : String) (stamp : Stamp)
      (rejection : Rejection) (present : gateway.sessions.get? id = some known)
      (expired : known.state = .expired) : Effect gateway (.complete id event stamp)
        (.error rejection) gateway
  | expired {id : String} {known : CheckoutSession}
      (present : gateway.sessions.get? id = some known) (unpaid : known.state = .unpaid) :
      Effect gateway (.expire id) (.ok .expired)
        (gateway.putSession id { known with state := .expired })
  | settledBefore {id : String} {known : CheckoutSession}
      (present : gateway.sessions.get? id = some known) (settled : known.state ≠ .unpaid) :
      Effect gateway (.expire id) (.ok .expired) gateway
  | told {id : String} {known : CheckoutSession} (present : gateway.sessions.get? id = some known) :
      Effect gateway (.status id) (.ok (.status known.state known.payment)) gateway
  | unknown {call : SessionCall} (rejection : Rejection) (named : call.generated? = none)
      (absent : gateway.sessions.get? call.session = none) : Effect gateway call
        (.error rejection) gateway

/-- The name that a call takes for a new session is not taken yet. -/
def Unused (gateway : Gateway) (call : SessionCall) : Prop :=
  ∀ name, call.generated? = some name → gateway.sessions.get? name = none

/-- How a call changes one session: not at all, by opening it, by paying it, or by letting it
expire. -/
inductive Move (call : SessionCall) (id : String) : Option CheckoutSession →
    Option CheckoutSession → Prop where
  | kept (session : Option CheckoutSession) : Move call id session session
  | opened {user : UserId} {amount : Amount} {currency : String} {stamp : Stamp}
      (asked : call = .create user amount currency stamp) (own : id = newName stamp) :
      Move call id none (some { user, amount, currency, state := .unpaid, payment := none })
  | paid {known : CheckoutSession} {event : String} {stamp : Stamp}
      (asked : call = .complete id event stamp) (unpaid : known.state = .unpaid) : Move call id
        (some known) (some (known.pay stamp))
  | expired {known : CheckoutSession} (asked : call = .expire id) (unpaid : known.state = .unpaid) :
      Move call id (some known) (some { known with state := .expired })

section Calls

variable {gateway after : Gateway} {call : SessionCall} {answer : Except Rejection SessionAnswer}

/-- A session that was never opened is unknown. -/
theorem session_of_none {id : String} (absent : gateway.sessions.get? id = none) :
    gateway.session id = .error (.gateway (.unknownSession id)) := by
  rw [Gateway.session, absent]

/-- What is paid already is not changed by being completed again, its payment being named. -/
theorem effect_complete (regular : gateway.Regular) (id event : String) (stamp : Stamp) :
    Effect gateway (.complete id event stamp) ((complete id event stamp).perform gateway).1
      ((complete id event stamp).perform gateway).2 := by
  cases present : gateway.sessions.get? id with
  | none =>
    have refused : gateway.completeSession id stamp = .error (.gateway (.unknownSession id)) := by
      rw [Gateway.completeSession, session_of_none present]
      rfl
    rw [perform, refused]
    exact .unknown _ rfl present
  | some known =>
    have found : gateway.session id = .ok known := by rw [Gateway.session, present]
    cases state : known.state with
    | expired =>
      have refused : gateway.completeSession id stamp = .error (.gateway (.expiredSession id)) := by
        rw [Gateway.completeSession, found]
        simp [bind, Except.bind, state, throw, throwThe, MonadExceptOf.throw]
      rw [perform, refused]
      exact .tooLate event stamp _ present state
    | unpaid =>
      have pays : gateway.completeSession id stamp =
          .ok (gateway.putSession id (known.pay stamp)) :=
        Gateway.completeSession_eq_ok.mpr ⟨known, present, by rw [state]; decide, rfl⟩
      rw [perform, pays]
      exact .paid event stamp _ present state
    | paid =>
      have same : gateway.putSession id (known.pay stamp) = gateway := by
        rw [CheckoutSession.pay_of_paid (regular id known present) state, Gateway.putSession,
          Table.put_self present]
      have pays : gateway.completeSession id stamp = .ok gateway :=
        Gateway.completeSession_eq_ok.mpr ⟨known, present, by rw [state]; decide, same⟩
      rw [perform, pays]
      exact .paidBefore event stamp _ present state

/-- A call to let a session expire comes to one of the effects. -/
theorem effect_expire (gateway : Gateway) (id : String) :
    Effect gateway (.expire id) ((expire id).perform gateway).1
      ((expire id).perform gateway).2 := by
  cases present : gateway.sessions.get? id with
  | none =>
    have refused : gateway.expireSession id = .error (.gateway (.unknownSession id)) := by
      rw [Gateway.expireSession, session_of_none present]
      rfl
    rw [perform, refused]
    exact .unknown _ rfl present
  | some known =>
    by_cases unpaid : known.state = .unpaid
    · have expires : gateway.expireSession id =
          .ok (gateway.putSession id { known with state := .expired }) :=
        Gateway.expireSession_eq_ok.mpr ⟨known, present, if_pos unpaid⟩
      rw [perform, expires]
      exact .expired present unpaid
    · have expires : gateway.expireSession id = .ok gateway :=
        Gateway.expireSession_eq_ok.mpr ⟨known, present, if_neg unpaid⟩
      rw [perform, expires]
      exact .settledBefore present unpaid

/-- A call for the state of a session comes to one of the effects. -/
theorem effect_status (gateway : Gateway) (id : String) :
    Effect gateway (.status id) ((status id).perform gateway).1
      ((status id).perform gateway).2 := by
  cases present : gateway.sessions.get? id with
  | none =>
    rw [perform, session_of_none present]
    exact .unknown _ rfl present
  | some known =>
    have found : gateway.session id = .ok known := by rw [Gateway.session, present]
    rw [perform, found]
    exact .told present

/-- Every call has one of the effects. -/
theorem perform_effect (regular : gateway.Regular) (call : SessionCall) :
    Effect gateway call (call.perform gateway).1 (call.perform gateway).2 := by
  cases call with
  | create user amount currency stamp => exact .created user amount currency stamp _
  | complete id event stamp => exact effect_complete regular id event stamp
  | expire id => exact effect_expire gateway id
  | status id => exact effect_status gateway id

namespace Effect

/-- A call that is refused changes nothing. -/
theorem failed {rejection : Rejection} (effect : Effect gateway call (.error rejection) after) :
    after = gateway := by
  cases effect <;> rfl

/-- A call succeeds exactly if nothing speaks against it. -/
theorem succeeds_iff (effect : Effect gateway call answer after) :
    (∃ told, answer = .ok told) ↔ call.Admitted gateway := by
  cases effect with
  | created => simp [Admitted]
  | paid event stamp body present unpaid => simp [Admitted, present, unpaid]
  | paidBefore event stamp body present paid => simp [Admitted, present, paid]
  | tooLate event stamp rejection present expired => simp [Admitted, present, expired]
  | expired present | settledBefore present | told present => simp [Admitted, present]
  | unknown rejection named absent =>
    cases call with
    | create => cases named
    | _ => simp_all [Admitted, session]

/-- A call changes no session but the one it is about. -/
theorem elsewhere (effect : Effect gateway call answer after) {other : String}
    (apart : other ≠ call.session) :
    after.sessions.get? other = gateway.sessions.get? other := by
  cases effect with
  | paidBefore | tooLate | settledBefore | told | unknown => rfl
  | created | paid | expired =>
    rw [Gateway.putSession, Table.get?_put, if_neg]
    exact fun same => apart same.symm

/-- No call opens a session under a name that is taken. -/
theorem moves (effect : Effect gateway call answer after) (unused : call.Unused gateway)
    (id : String) :
    Move call id (gateway.sessions.get? id) (after.sessions.get? id) := by
  by_cases own : id = call.session
  · subst own
    cases effect with
    | created user amount currency stamp =>
      have absent : gateway.sessions.get? (newName stamp) = none := unused _ rfl
      simp only [session, Gateway.putSession, Table.get?_put, if_true, absent]
      exact .opened rfl rfl
    | paid event stamp body present unpaid =>
      simp only [session, Gateway.putSession, Table.get?_put, if_true, present]
      exact .paid rfl unpaid
    | expired present unpaid =>
      simp only [session, Gateway.putSession, Table.get?_put, if_true, present]
      exact .expired rfl unpaid
    | _ => exact .kept _
  · rw [effect.elsewhere own]
    exact .kept _

/-- The payment that a completed session has then is the one that it had before, if it had one. -/
theorem completes {id event : String} {stamp : Stamp} {told : SessionAnswer}
    (effect : Effect gateway (.complete id event stamp) (.ok told) after) :
    ∃ paid, after.sessions.get? id = some paid ∧ paid.state = .paid := by
  cases effect with
  | @paid _ known _ _ body present unpaid =>
    refine ⟨known.pay stamp, ?_, rfl⟩
    rw [Gateway.putSession, Table.get?_put, if_pos rfl]
  | paidBefore event stamp body present paid => exact ⟨_, present, paid⟩

/-- Letting a session expire spares one that is paid. -/
theorem expires {id : String} {known : CheckoutSession} {answer : Except Rejection SessionAnswer}
    (effect : Effect gateway (.expire id) answer after)
    (present : gateway.sessions.get? id = some known) :
    after.sessions.get? id =
      some (if known.state = .unpaid then { known with state := .expired } else known) := by
  cases effect with
  | expired found unpaid =>
    cases present.symm.trans found
    rw [if_pos unpaid, Gateway.putSession, Table.get?_put, if_pos rfl]
  | settledBefore found settled =>
    cases present.symm.trans found
    rw [if_neg settled, present]
  | unknown rejection named absent => cases present.symm.trans absent

end Effect

namespace Move

variable {id : String} {old new : Option CheckoutSession}

/-- A regular session stays regular, and a new one is. -/
theorem regular (move : Move call id old new) (regular : ∀ known, old = some known → known.Regular)
    {session : CheckoutSession} (found : new = some session) : session.Regular := by
  cases move with
  | kept => exact regular session found
  | opened =>
    cases found
    simp [CheckoutSession.Regular]
  | paid =>
    cases found
    exact .pay _ _
  | expired asked unpaid =>
    cases found
    have none := regular _ rfl
    simp_all [CheckoutSession.Regular]

/-- A session is never lost, and stays as it is once it is paid or has expired. -/
theorem becomes {known : CheckoutSession} (move : Move call id (some known) new) :
    ∃ later, new = some later ∧ known.Becomes later := by
  cases move with
  | kept => exact ⟨known, rfl, .refl known⟩
  | paid asked unpaid => exact ⟨_, rfl, rfl, rfl, rfl, fun settled => (settled unpaid).elim⟩
  | expired asked unpaid => exact ⟨_, rfl, rfl, rfl, rfl, fun settled => (settled unpaid).elim⟩

/-- Only the name that a call takes is new. -/
theorem named (move : Move call id none new) {session : CheckoutSession}
    (found : new = some session) :
    call.generated? = some id := by
  cases move with
  | kept => cases found
  | opened asked own => rw [asked, own, generated?]

end Move

end Calls

/-- The names that calls take are not taken yet, and no two of them are the same. -/
structure Fresh (calls : List SessionCall) (gateway : Gateway) : Prop where
  distinct : (generated calls).Nodup
  unused : ∀ name ∈ generated calls, gateway.sessions.get? name = none

section Runs

variable {gateway : Gateway} {call : SessionCall} {calls : List SessionCall}

/-- The name that the first call takes is not taken yet. -/
theorem Fresh.head (fresh : Fresh (call :: calls) gateway) : call.Unused gateway := by
  intro name taken
  refine fresh.unused name ?_
  simp [generated, taken]

/-- The names of the others are not taken by the first call. -/
theorem Fresh.tail (regular : gateway.Regular) (fresh : Fresh (call :: calls) gateway) :
    Fresh calls (call.perform gateway).2 where
  distinct := by
    have distinct := fresh.distinct
    unfold generated at distinct ⊢
    rw [List.filterMap_cons] at distinct
    split at distinct
    · exact distinct
    · exact (List.nodup_cons.mp distinct).2
  unused name later := by
    have absent : gateway.sessions.get? name = none := by
      refine fresh.unused name ?_
      unfold generated at later ⊢
      rw [List.filterMap_cons]
      split
      · exact later
      · exact List.mem_cons_of_mem _ later
    have move := (perform_effect regular call).moves fresh.head name
    rw [absent] at move
    rw [Option.eq_none_iff_forall_ne_some]
    intro session found
    have taken := move.named found
    have distinct := fresh.distinct
    rw [generated, List.filterMap_cons_some taken] at distinct
    exact (List.nodup_cons.mp distinct).1 later

/-- A call keeps all sessions regular. -/
theorem regular_perform (regular : gateway.Regular) (unused : call.Unused gateway) :
    (call.perform gateway).2.Regular := fun id _ found =>
  ((perform_effect regular call).moves unused id).regular (regular id) found

/-- Calls one after the other keep all sessions regular. -/
theorem regular_performAll (regular : gateway.Regular) (fresh : Fresh calls gateway) :
    (performAll calls gateway).Regular := by
  induction calls generalizing gateway with
  | nil => exact regular
  | cons call rest ih => exact ih (regular_perform regular fresh.head) (fresh.tail regular)

/-- What calls leave for those behind them. -/
theorem Fresh.performAll {earlier later : List SessionCall} (regular : gateway.Regular)
    (fresh : Fresh (earlier ++ later) gateway) : Fresh later (performAll earlier gateway) := by
  induction earlier generalizing gateway with
  | nil => exact fresh
  | cons call rest ih => exact ih (regular_perform regular fresh.head) (fresh.tail regular)

/-- Calls make of a session only what may become of it. -/
theorem becomes_performAll (regular : gateway.Regular) (fresh : Fresh calls gateway) {id : String}
    {known : CheckoutSession} (present : gateway.sessions.get? id = some known) :
    ∃ new, (SessionCall.performAll calls gateway).sessions.get? id = some new ∧
    known.Becomes new := by
  induction calls generalizing gateway known with
  | nil => exact ⟨known, present, .refl known⟩
  | cons call rest ih =>
    have move := (perform_effect regular call).moves fresh.head id
    rw [present] at move
    obtain ⟨next, found, before⟩ := move.becomes
    obtain ⟨new, later, after⟩ := ih (regular_perform regular fresh.head) (fresh.tail regular) found
    exact ⟨new, later, before.trans after⟩

end Runs

/-- What a call does to the sessions of a gateway. -/
structure Lawful (gateway : Gateway) (call : SessionCall) : Prop where
  moves : ∀ id, Move call id (gateway.sessions.get? id) ((call.perform gateway).2.sessions.get? id)
  elsewhere : ∀ other, other ≠ call.session →
    (call.perform gateway).2.sessions.get? other = gateway.sessions.get? other
  succeeds : (∃ told, (call.perform gateway).1 = .ok told) ↔ call.Admitted gateway
  failed : ∀ rejection, (call.perform gateway).1 = .error rejection →
    (call.perform gateway).2 = gateway
  completes : ∀ id event stamp, call = .complete id event stamp → call.Admitted gateway →
    ∃ paid, (call.perform gateway).2.sessions.get? id = some paid ∧ paid.state = .paid
  expires : ∀ id known, call = .expire id → gateway.sessions.get? id = some known →
    (call.perform gateway).2.sessions.get? id =
      some (if known.state = .unpaid then { known with state := .expired } else known)

/-- Every call is lawful while the sessions are regular. -/
theorem lawful {gateway : Gateway} {call : SessionCall} (regular : gateway.Regular)
    (unused : call.Unused gateway) :
    call.Lawful gateway := by
  have effect := perform_effect regular call
  refine ⟨effect.moves unused, fun other => effect.elsewhere, effect.succeeds_iff,
    fun rejection refused => ?_, fun id event stamp asked admitted => ?_,
    fun id known asked present => ?_⟩
  · rw [refused] at effect
    exact effect.failed
  · obtain ⟨told, succeeds⟩ := effect.succeeds_iff.mpr admitted
    subst asked
    rw [succeeds] at effect
    exact effect.completes
  · subst asked
    exact effect.expires present

/-- Whatever a gateway is asked for, each session is paid or expires once and is final then, with a
payment exactly if it is paid; and each call changes at most the one session that it is about. -/
theorem sessions_settle_for_good (secret : String) (earlier later : List SessionCall)
    (distinct : (generated (earlier ++ later)).Nodup) :
    (∀ id known, (performAll earlier { secret }).sessions.get? id = some known →
      (known.payment.isSome = true ↔ known.state = .paid) ∧
        ∃ new, (performAll (earlier ++ later) { secret }).sessions.get? id = some new ∧
          known.Becomes new ∧
          ∀ payment, known.payment = some payment → new.payment = some payment) ∧
      ∀ call rest, later = call :: rest → call.Lawful (performAll earlier { secret }) := by
  have nothing : ({ secret } : Gateway).Regular := fun _ _ found => by cases found
  have fresh : Fresh (earlier ++ later) { secret } := ⟨distinct, fun _ _ => rfl⟩
  have before : Fresh earlier { secret } := by
    refine ⟨?_, fun _ _ => rfl⟩
    rw [generated, List.filterMap_append] at distinct
    exact (List.nodup_append.mp distinct).1
  have regular := regular_performAll nothing before
  have onward := fresh.performAll nothing
  refine ⟨fun id known present => ⟨regular id known present, ?_⟩, fun call rest split => ?_⟩
  · obtain ⟨new, found, becomes⟩ := becomes_performAll regular onward present
    refine ⟨new, ?_, becomes, fun payment => becomes.payment (regular id known present)⟩
    rwa [performAll, List.foldl_append]
  · subst split
    exact lawful regular onward.head

open Service in
/-- Opens two sessions and completes one of them. -/
def openedAndPaid : List SessionCall :=
  [.create ⟨1⟩ ⟨.ofDecimal (centsOf 500), by decide⟩ "usd" (stampOf 1),
    .create ⟨2⟩ ⟨.ofDecimal (centsOf 700), by decide⟩ "usd" (stampOf 2),
    .complete (newName (stampOf 1)) "evt" (stampOf 3)]

open Service in
/-- Lets the other session expire, and completes both. -/
def settledOnce : List SessionCall :=
  [.expire (newName (stampOf 2)), .complete (newName (stampOf 2)) "late" (stampOf 4),
    .complete (newName (stampOf 1)) "again" (stampOf 5)]

open Service in
/-- The completed session stays paid, whatever is called afterwards. -/
theorem openedAndPaid_settled : (generated (openedAndPaid ++ settledOnce)).Nodup ∧
    (∃ known,
      (performAll openedAndPaid { secret := "whsec" }).sessions.get? (newName (stampOf 1)) =
        some known ∧
      known.state = .paid ∧
      (performAll (openedAndPaid ++ settledOnce) { secret := "whsec" }).sessions.get?
        (newName (stampOf 1)) = some known) ∧
    Lawful (performAll openedAndPaid { secret := "whsec" }) (.expire (newName (stampOf 2))) := by
  have distinct : (generated (openedAndPaid ++ settledOnce)).Nodup := by decide
  obtain ⟨lives, lawful⟩ := sessions_settle_for_good "whsec" openedAndPaid settledOnce distinct
  have paid :
      ((performAll openedAndPaid { secret := "whsec" }).sessions.get? (newName (stampOf 1))).map
      CheckoutSession.state = some .paid := by decide
  obtain ⟨known, present, state⟩ := Option.map_eq_some_iff.mp paid
  obtain ⟨_, new, found, becomes, _⟩ := lives _ known present
  rw [becomes.settled (by rw [state]; decide)] at found
  exact ⟨distinct, ⟨known, present, state, found⟩, lawful _ _ rfl⟩

end SessionCall

end Prepaid
