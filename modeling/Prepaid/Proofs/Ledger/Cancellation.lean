import Prepaid.Proofs.Ledger.Confinement
import Prepaid.Proofs.Time.Instant

/-!
# Cancellations

Whether an order can be cancelled, in the order in which it is asked: the cutoff has
to be one that can be used, the order has to be there and unpaid, the actor has to own
it, and the deadline has to exist and not to have passed. `Hinders` says which of these
is the first that fails. A cancellation that goes through gives back the hold, if there
is one, and nothing else.
-/

namespace Prepaid

/-! ## The conditions -/

/-- The longest span of time, in milliseconds. -/
abbrev Settings.longestMillis : Int := 2 ^ 63 - 1

/-- The cutoff is a span of time, and not a negative one. -/
structure Settings.UsableCutoff (settings : Settings) : Prop where
  nonneg : 0 ≤ settings.cutoffMinutes
  short : settings.cutoffMinutes * 60000 ≤ longestMillis

/-- The cutoff in seconds, whether it can be used or not. -/
def Settings.cutoffSeconds (settings : Settings) : Int :=
  settings.cutoffMinutes * 60

/-- What is wrong with the cutoff of some settings. -/
inductive Settings.CutoffFault (settings : Settings) : SettingsFault → Prop where
  | negative (below : settings.cutoffMinutes < 0) :
    CutoffFault settings (.negativeCutoff settings.cutoffMinutes)
  | tooLong (nonneg : 0 ≤ settings.cutoffMinutes)
    (long : longestMillis < settings.cutoffMinutes * 60000) : CutoffFault settings
      (.cutoffOutOfRange settings.cutoffMinutes)

/-- The last instant at which an order can be cancelled. -/
abbrev Order.ClosesAt (settings : Settings) (order : Order) (deadline : Instant) : Prop :=
  deadline.LiesBefore settings.cutoffSeconds order.windowStart

namespace Ledger

/-- An actor can cancel an order at an instant. -/
structure Cancels (settings : Settings) (actor : Actor) (now : Instant) (order : Order) : Prop where
  unpaid : order.status ∈ [.pending, .confirmed, .preparing]
  own : actor.user = order.customer
  inTime : ∃ deadline, order.ClosesAt settings deadline ∧ ¬ deadline < now

/-- Why a cancellation is refused. Whatever is asked before a reason does not hinder. -/
inductive Hinders (settings : Settings) (actor : Actor) (id : OrderId) (now : Instant)
    (tables : Tables) :
    Rejection → Prop where
  | cutoff {fault : SettingsFault} (unusable : settings.CutoffFault fault) :
    Hinders settings actor id now tables (.invalidSettings fault)
  | unknown (usable : settings.UsableCutoff) (absent : tables.orders.get? id = none) :
    Hinders settings actor id now tables (.orderNotFound id)
  | misplaced {order : Order} (usable : settings.UsableCutoff)
    (known : tables.orders.get? id = some order)
    (other : order.status ∉ [.pending, .confirmed, .preparing]) : Hinders settings actor id now
      tables (.invalidOrderState id order.status .release)
  | foreign {order : Order} (usable : settings.UsableCutoff)
    (known : tables.orders.get? id = some order)
    (going : order.status ∈ [.pending, .confirmed, .preparing])
    (other : actor.user ≠ order.customer) : Hinders settings actor id now tables
      (.forbidden .cancelOrderOfOther)
  | unreachable {order : Order} (usable : settings.UsableCutoff)
    (known : tables.orders.get? id = some order)
    (going : order.status ∈ [.pending, .confirmed, .preparing]) (own : actor.user = order.customer)
    (never : ∀ deadline, ¬ order.ClosesAt settings deadline) : Hinders settings actor id now tables
      (.invalidSettings (.deadlineOutOfRange settings.cutoffMinutes id))
  | late {order : Order} {deadline : Instant} (usable : settings.UsableCutoff)
    (known : tables.orders.get? id = some order)
    (going : order.status ∈ [.pending, .confirmed, .preparing]) (own : actor.user = order.customer)
    (closes : order.ClosesAt settings deadline) (passed : deadline < now) : Hinders settings actor
      id now tables (.deadlinePassed id deadline)

end Ledger

/-! ## The checks and their conditions -/

namespace Settings

variable {settings : Settings}

/-- A span of minutes is too long in milliseconds exactly if it is too long in whole seconds. -/
theorem cutoff_eq_ok_iff {cutoff : Int} :
    settings.cutoff = .ok cutoff ↔ settings.UsableCutoff ∧ settings.cutoffSeconds = cutoff := by
  unfold Settings.cutoff cutoffSeconds
  split
  · next negative =>
    simp only [reduceCtorEq, false_iff, not_and]
    exact fun usable => (Int.not_le.mpr negative usable.nonneg).elim
  · next nonneg =>
    split
    · next long =>
      simp only [reduceCtorEq, false_iff, not_and]
      intro usable
      have short := usable.short
      simp only [longestSpan, longestMillis] at long short
      omega
    · next short =>
      have usable : settings.UsableCutoff := by
        refine ⟨by omega, ?_⟩
        simp only [longestSpan, longestMillis] at short ⊢
        omega
      rw [Except.ok.injEq]
      exact ⟨fun same => ⟨usable, same⟩, fun found => found.2⟩

/-- The cutoff is refused for what is wrong with it. -/
theorem cutoff_eq_error_iff {rejection : Rejection} : settings.cutoff = .error rejection ↔
    ∃ fault, settings.CutoffFault fault ∧ rejection = .invalidSettings fault := by
  constructor
  · intro refused
    unfold Settings.cutoff at refused
    split at refused
    · next negative =>
      cases refused
      exact ⟨_, .negative negative, rfl⟩
    · next nonneg =>
      split at refused
      · next long =>
        cases refused
        refine ⟨_, .tooLong (by omega) ?_, rfl⟩
        simp only [longestSpan, longestMillis] at long ⊢
        omega
      · cases refused
  · rintro ⟨fault, negative | ⟨nonneg, long⟩, rfl⟩
    · rw [Settings.cutoff, if_pos negative]
    · simp only [longestMillis] at long
      rw [Settings.cutoff, if_neg (by omega), if_pos (by simp only [longestSpan]; omega)]

/-- A cutoff with a fault cannot be used. -/
theorem not_usable_of_fault {fault : SettingsFault} (unusable : settings.CutoffFault fault) :
    ¬ settings.UsableCutoff := by
  intro usable
  have done := cutoff_eq_ok_iff.mpr ⟨usable, rfl⟩
  rw [cutoff_eq_error_iff.mpr ⟨fault, unusable, rfl⟩] at done
  cases done

end Settings

namespace Ledger

section Checks

variable {settings : Settings} {actor : Actor} {now : Instant} {order : Order}

/-- The checks that a release makes for a cancellation, once the cutoff is known to be usable. -/
theorem deadline_eq_ok_iff (usable : settings.UsableCutoff) {deadline : Instant} :
    order.deadline settings.cutoffSeconds = .ok deadline ↔ order.ClosesAt settings deadline := by
  have forward : 0 ≤ settings.cutoffSeconds := Int.mul_nonneg usable.nonneg (by decide)
  rw [Order.ClosesAt, ← Instant.minusSeconds?_eq_some_iff forward, Order.deadline]
  cases order.windowStart.minusSeconds? settings.cutoffSeconds <;> simp

/-- An order has no deadline exactly if there is no instant for it. -/
theorem deadline_eq_error_iff (usable : settings.UsableCutoff) {rejection : Rejection} :
    order.deadline settings.cutoffSeconds = .error rejection ↔
      (∀ deadline, ¬ order.ClosesAt settings deadline) ∧
        rejection = .invalidSettings (.deadlineOutOfRange settings.cutoffMinutes order.id) := by
  have forward : 0 ≤ settings.cutoffSeconds := Int.mul_nonneg usable.nonneg (by decide)
  have minutes : Int.tdiv settings.cutoffSeconds 60 = settings.cutoffMinutes :=
    Int.mul_tdiv_cancel _ (by decide)
  simp only [Order.ClosesAt, ← Instant.minusSeconds?_eq_some_iff forward, Order.deadline]
  cases order.windowStart.minusSeconds? settings.cutoffSeconds <;> simp [minutes, eq_comm]

/-- An order may be cancelled by its customer up to its deadline. -/
theorem cancellable_eq_ok_iff (usable : settings.UsableCutoff) :
    cancellable actor settings.cutoffSeconds now order = .ok () ↔
      actor.user = order.customer ∧ ∃ deadline, order.ClosesAt settings deadline ∧
      ¬ deadline < now := by
  simp only [cancellable, Actor.owns, decide_eq_true_eq, Order.requireCancellable,
    ← deadline_eq_ok_iff usable]
  by_cases own : actor.user = order.customer
  · rw [if_pos own]
    cases order.deadline settings.cutoffSeconds <;> simp [own, bind, Except.bind]
  · simp [own]

/-- It is asked who cancels, then whether there is a deadline, then whether it has passed. -/
theorem cancellable_eq_error_iff (usable : settings.UsableCutoff) {rejection : Rejection} :
    cancellable actor settings.cutoffSeconds now order = .error rejection ↔
      actor.user ≠ order.customer ∧ rejection = .forbidden .cancelOrderOfOther ∨
      actor.user = order.customer ∧ (∀ deadline, ¬ order.ClosesAt settings deadline) ∧
        rejection = .invalidSettings (.deadlineOutOfRange settings.cutoffMinutes order.id) ∨
      actor.user = order.customer ∧ ∃ deadline, order.ClosesAt settings deadline ∧ deadline < now ∧
        rejection = .deadlinePassed order.id deadline := by
  rw [← deadline_eq_error_iff usable]
  simp only [cancellable, Actor.owns, decide_eq_true_eq, Order.requireCancellable,
    ← deadline_eq_ok_iff usable]
  by_cases own : actor.user = order.customer
  · rw [if_pos own]
    cases order.deadline settings.cutoffSeconds with
    | error refusal => simp [own, bind, Except.bind]
    | ok deadline => by_cases passed : deadline < now <;>
      simp [own, passed, bind, Except.bind, eq_comm]
  · simp [own, eq_comm]

end Checks

/-! ## The answer -/

section Answer

variable {α : Type} {tables : Tables} {id : OrderId}

/-- A ruled call that has at most one reason to refuse an order is refused for nothing else. -/
theorem Ruling.rejected_iff {allowed : List OrderStatus} {action : OrderAction}
    {passes : Order → Prop} {reason : Order → Rejection → Prop} {result : Except Failure α}
    (ruling : Ruling tables id allowed action passes reason result)
    (only : ∀ {order rejection other}, reason order rejection → reason order other →
      rejection = other)
    (fails : ∀ {order rejection}, reason order rejection → ¬ passes order) {rejection : Rejection} :
    result = .error (.rejected rejection) ↔
      tables.orders.get? id = none ∧ rejection = .orderNotFound id ∨
      ∃ order, tables.orders.get? id = some order ∧
        (order.status ∉ allowed ∧ rejection = .invalidOrderState id order.status action ∨
          order.status ∈ allowed ∧ reason order rejection) := by
  constructor
  · intro rejected
    cases known : tables.orders.get? id with
    | none =>
      rw [ruling.unknown known] at rejected
      cases rejected
      exact .inl ⟨rfl, rfl⟩
    | some order =>
      refine .inr ⟨order, rfl, ?_⟩
      by_cases inState : order.status ∈ allowed
      · refine .inr ⟨inState, ?_⟩
        by_cases passed : passes order
        · obtain ⟨value, done⟩ := ruling.succeeds_iff.mpr ⟨order, known, inState, passed⟩
          rw [done] at rejected
          cases rejected
        · obtain ⟨refusal, because, refused⟩ := ruling.refused order known inState passed
          rw [refused] at rejected
          cases rejected
          exact because
      · rw [ruling.misplaced order known inState] at rejected
        cases rejected
        exact .inl ⟨inState, rfl⟩
  · rintro (⟨absent, rfl⟩ | ⟨order, known, ⟨other, rfl⟩ | ⟨inState, because⟩⟩)
    · exact ruling.unknown absent
    · exact ruling.misplaced order known other
    · obtain ⟨refusal, same, refused⟩ := ruling.refused order known inState (fails because)
      rwa [only because same]

variable {settings : Settings} {actor : Actor} {now : Instant} {stamp : Stamp}

/-- A cancellation with a usable cutoff is a release that is asked for by the customer, in time. -/
theorem cancel_of_usable (usable : settings.UsableCutoff) (ledger : Ledger) :
    cancel settings actor id now stamp ledger =
      release id (cancellable actor settings.cutoffSeconds now) stamp ledger := by
  rw [cancel, Settings.cutoff_eq_ok_iff.mpr ⟨usable, rfl⟩]
  exact bind_of_ok (rule_apply _ _)

/-- Settings that cannot be used are found before anything is read. -/
theorem cancel_of_fault {fault : SettingsFault} (unusable : settings.CutoffFault fault)
    (ledger : Ledger) :
    cancel settings actor id now stamp ledger =
      (.error (.rejected (.invalidSettings fault)), ledger) := by
  rw [cancel, Settings.cutoff_eq_error_iff.mpr ⟨fault, unusable, rfl⟩]
  exact bind_of_error (rule_apply _ _)

/-- A cutoff can be used, or something is wrong with it. -/
theorem usable_or_fault (settings : Settings) :
    settings.UsableCutoff ∨ ∃ fault, settings.CutoffFault fault := by
  cases asked : settings.cutoff with
  | ok cutoff => exact .inl (Settings.cutoff_eq_ok_iff.mp asked).1
  | error rejection =>
    obtain ⟨fault, unusable, _⟩ := Settings.cutoff_eq_error_iff.mp asked
    exact .inr ⟨fault, unusable⟩

/-- A cancellation succeeds exactly if the order is there and the actor can cancel it. -/
theorem cancel_succeeds_iff (regular : tables.Regular) (exactly : tables.ExactFor id) :
    (∃ receipt, (cancel settings actor id now stamp { tables }).1 = .ok receipt) ↔
      settings.UsableCutoff ∧ ∃ order, tables.orders.get? id = some order ∧
        Cancels settings actor now order := by
  rcases usable_or_fault settings with usable | ⟨fault, unusable⟩
  · rw [cancel_of_usable usable, (release_ruled regular exactly _ stamp).succeeds_iff]
    simp only [cancellable_eq_ok_iff usable, usable, true_and]
    constructor
    · rintro ⟨order, known, unpaid, own, inTime⟩
      exact ⟨order, known, unpaid, own, inTime⟩
    · rintro ⟨order, known, cancels⟩
      exact ⟨order, known, cancels.unpaid, cancels.own, cancels.inTime⟩
  · rw [cancel_of_fault unusable]
    simp [Settings.not_usable_of_fault unusable]

/-- A cancellation is refused for the first reason there is. -/
theorem cancel_rejected_iff (regular : tables.Regular) (exactly : tables.ExactFor id)
    {rejection : Rejection} :
    (cancel settings actor id now stamp { tables }).1 = .error (.rejected rejection) ↔
      Hinders settings actor id now tables rejection := by
  rcases usable_or_fault settings with usable | ⟨fault, unusable⟩
  · rw [cancel_of_usable usable, (release_ruled regular exactly _ stamp).rejected_iff]
    · simp only [cancellable_eq_error_iff usable]
      constructor
      · rintro (⟨absent, rfl⟩ | ⟨order, known,
          ⟨other, rfl⟩ | ⟨going, ⟨other, rfl⟩ | ⟨own, never, rfl⟩ |
          ⟨own, deadline, closes, passed, rfl⟩⟩⟩)
        · exact .unknown usable absent
        · exact .misplaced usable known other
        · exact .foreign usable known going other
        · rw [regular.sound.order_id known]
          exact .unreachable usable known going own never
        · rw [regular.sound.order_id known]
          exact .late usable known going own closes passed
      · intro hinders
        cases hinders with
        | cutoff unusable => exact (Settings.not_usable_of_fault unusable usable).elim
        | unknown _ absent => exact .inl ⟨absent, rfl⟩
        | misplaced _ known other => exact .inr ⟨_, known, .inl ⟨other, rfl⟩⟩
        | foreign _ known going other => exact .inr ⟨_, known, .inr ⟨going, .inl ⟨other, rfl⟩⟩⟩
        | unreachable _ known going own never =>
          obtain rfl := regular.sound.order_id known
          exact .inr ⟨_, known, .inr ⟨going, .inr (.inl ⟨own, never, rfl⟩)⟩⟩
        | late _ known going own closes passed =>
          obtain rfl := regular.sound.order_id known
          exact .inr ⟨_, known, .inr ⟨going, .inr (.inr ⟨own, _, closes, passed, rfl⟩)⟩⟩
    · intro order rejection other refused again
      rw [refused] at again
      exact Except.error.inj again
    · intro order rejection refused accepted
      rw [refused] at accepted
      cases accepted
  · rw [cancel_of_fault unusable]
    constructor
    · rintro ⟨⟩
      exact .cutoff unusable
    · intro hinders
      have never := Settings.not_usable_of_fault unusable
      cases hinders with
      | cutoff other =>
        have same := Settings.cutoff_eq_error_iff.mpr ⟨_, other, rfl⟩
        rw [Settings.cutoff_eq_error_iff.mpr ⟨_, unusable, rfl⟩] at same
        rw [Except.error.inj same]
      | unknown usable | misplaced usable | foreign usable | unreachable usable | late usable =>
        exact (never usable).elim

/-- No sum of a cancellation overflows while credits are exact. -/
theorem cancel_computed (regular : tables.Regular) (exactly : tables.ExactFor id)
    (overflow : Overflow) :
    (cancel settings actor id now stamp { tables }).1 ≠ .error (.overflow overflow) := by
  rcases usable_or_fault settings with usable | ⟨fault, unusable⟩
  · rw [cancel_of_usable usable]
    exact (release_ruled regular exactly _ stamp).computed overflow
  · rw [cancel_of_fault unusable]
    rintro ⟨⟩

end Answer

/-! ## The effect -/

section Effect

variable {tables : Tables} {id : OrderId} {stamp : Stamp}
    {precondition : Order → Except Rejection Unit}

/-- What is still on hold for an order, in cents. -/
def Tables.heldFor (order : Order) (tables : Tables) : Int :=
  if (tables.pendingHold? order.id).isSome then order.total.cents else 0

/-- The hold of an order is over its total. -/
theorem Tables.Regular.hold_amount (regular : tables.Regular) {order : Order} {entry : Entry}
    (known : tables.orders.get? order.id = some order)
    (holds : tables.pendingHold? order.id = some entry) :
    entry.amount = order.total :=
  (regular.agreed.backed known).total entry (regular.sound.pendingHold?_spec holds).1

/-- The wallet of the customer keeps what it has, and has no more held for the order. -/
theorem releaseStep_effect (regular : tables.Regular) {order : Order}
    (known : tables.orders.get? order.id = some order)
    (exactly : tables.creditedTo order.customer ≤ Money.maxCents) {after : Wallet × Option Entry}
    (stepped : Decision.releaseStep precondition stamp tables order
      (tables.walletOf stamp order.customer) = .ok after) :
    after.1.current = tables.currentOf order.customer ∧
      after.1.held.cents = (tables.heldOf order.customer).cents - tables.heldFor order := by
  simp only [Decision.releaseStep, bind_result_eq_ok] at stepped
  obtain ⟨_, _, stepped⟩ := stepped
  cases holds : tables.pendingHold? order.id with
  | none =>
    simp only [holds] at stepped
    split at stepped
    · obtain rfl := pure_eq_ok.mp stepped
      simp [Tables.heldFor, holds, Tables.current_walletOf, Tables.held_walletOf]
    · cases stepped
  | some entry =>
    simp only [holds, bind_result_eq_ok, pure_eq_ok] at stepped
    obtain ⟨freed, release, rfl⟩ := stepped
    obtain ⟨covered, bounded⟩ := regular.balanced.bounds exactly stamp
    obtain ⟨held, current, _⟩ := Wallet.release_exact release (by omega)
    refine ⟨current.trans Tables.current_walletOf, ?_⟩
    rw [held, Tables.held_walletOf, regular.hold_amount known holds, Tables.heldFor, holds]
    rfl

/-- An order has a hold exactly if it is confirmed or being prepared. -/
theorem Tables.Regular.heldFor_eq (regular : tables.Regular) {order : Order}
    (known : tables.orders.get? order.id = some order)
    (exactly : tables.creditedTo order.customer ≤ Money.maxCents) (going : order.status ∈ unpaid)
    (stamp : Stamp) :
    tables.heldFor order = if order.status = .pending then 0 else order.total.cents := by
  by_cases pending : order.status = .pending
  · rw [if_pos pending, heldFor, regular.pendingHold?_of_pending known pending]
    rfl
  · have held : order.status = .confirmed ∨ order.status = .preparing := by
      simpa [unpaid, pending] using going
    obtain ⟨entry, holds, _⟩ := regular.exists_hold known held exactly stamp
    rw [if_neg pending, heldFor, holds]
    rfl

/-- A release cancels the order, and does to its customer's balance what the step of the wallet
does. -/
theorem release_effect (regular : tables.Regular) (exactly : tables.ExactFor id)
    {decision : Decision Receipt}
    (decided : Decision.release id precondition stamp tables = .ok decision) :
    ∃ order, tables.orders.get? id = some order ∧
      (tables.book decision.booking).orders =
      tables.orders.put id (order.moveTo .cancelled stamp.now) ∧
      (tables.book decision.booking).currentOf order.customer = tables.currentOf order.customer ∧
      ((tables.book decision.booking).heldOf order.customer).cents =
        (tables.heldOf order.customer).cents - tables.heldFor order := by
  simp only [Decision.release, bind_result_eq_ok, orderIn_eq_ok] at decided
  obtain ⟨order, ⟨known, going⟩, decided⟩ := decided
  obtain rfl := regular.sound.order_id known
  simp only [Decision.conclude, bind_result_eq_ok, orReject_eq_ok, pure_eq_ok] at decided
  obtain ⟨⟨wallet, row?⟩, stepped, moved, advanced, rfl⟩ := decided
  obtain ⟨_, rfl⟩ := Order.advance_eq_ok.mp advanced
  obtain ⟨current, held⟩ := releaseStep_effect regular known (exactly order known) stepped
  obtain ⟨_, strides⟩ := releaseStep_strides regular.sound regular.agreed known stepped
  have owner : wallet.owner = order.customer :=
    strides.same.2.trans (owner_walletOf regular.sound _ _)
  have put :
      (tables.book { wallet? := some wallet, order? := some (order.moveTo .cancelled stamp.now),
                     row? }).wallets.get? order.customer = some wallet := by
    rw [Tables.book_wallets, Option.elim_some, owner, Table.get?_put, if_pos rfl]
  refine ⟨order, known, Tables.book_orders _ _, ?_, ?_⟩
  · rw [Tables.currentOf_of_get? put, current]
  · rw [Tables.heldOf_of_get? put, held]

end Effect

end Ledger

end Prepaid
