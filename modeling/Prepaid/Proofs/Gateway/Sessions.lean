import Prepaid.Gateway.Basic
import Prepaid.Proofs.Table

/-!
# Sessions at the gateway

What it takes to pay a session and to abandon one, and what either leaves behind.
Neither opens a session.
-/

namespace Prepaid.Gateway

variable {gateway after : Gateway} {id : String} {stamp : Stamp}

/-- A session is completed if it is known and has not expired. -/
theorem completeSession_eq_ok :
    gateway.completeSession id stamp = .ok after ↔
      ∃ known, gateway.sessions.get? id = some known ∧ known.state ≠ .expired ∧
        gateway.putSession id (known.pay stamp) = after := by
  unfold completeSession session
  cases gateway.sessions.get? id with
  | none => simp [bind, Except.bind]
  | some known =>
    by_cases expired : known.state = .expired <;>
      simp [bind, Except.bind, pure, Except.pure, throw, throwThe, MonadExceptOf.throw, expired]

/-- A known session expires if it is unpaid, and is left alone if it is not. -/
theorem expireSession_eq_ok :
    gateway.expireSession id = .ok after ↔
      ∃ known, gateway.sessions.get? id = some known ∧
        (if known.state = .unpaid then gateway.putSession id { known with state := .expired }
          else gateway) =
          after := by
  unfold expireSession session
  cases gateway.sessions.get? id with
  | none => simp [bind, Except.bind]
  | some known => by_cases unpaid : known.state = .unpaid <;>
    simp [bind, Except.bind, pure, Except.pure, unpaid]

/-- A session that is changed was there before. -/
theorem exists_of_putSession {old new known : CheckoutSession} {other : String}
    (present : gateway.sessions.get? id = some old)
    (found : (gateway.putSession id new).sessions.get? other = some known) :
    ∃ before, gateway.sessions.get? other = some before := by
  simp only [putSession, Table.get?_put] at found
  split at found
  · next same =>
    subst same
    exact ⟨old, present⟩
  · exact ⟨known, found⟩

/-- Completing a session opens none. -/
theorem exists_of_completeSession (pays : gateway.completeSession id stamp = .ok after)
    {other : String} {known : CheckoutSession} (found : after.sessions.get? other = some known) :
    ∃ before, gateway.sessions.get? other = some before := by
  obtain ⟨old, present, _, rfl⟩ := completeSession_eq_ok.mp pays
  exact exists_of_putSession present found

/-- Letting a session expire opens none. -/
theorem exists_of_expireSession (expires : gateway.expireSession id = .ok after) {other : String}
    {known : CheckoutSession} (found : after.sessions.get? other = some known) :
    ∃ before, gateway.sessions.get? other = some before := by
  obtain ⟨old, present, rfl⟩ := expireSession_eq_ok.mp expires
  split at found
  · exact exists_of_putSession present found
  · exact ⟨known, found⟩

end Prepaid.Gateway
