import Prepaid.Proofs.Command.Turns
import Prepaid.Proofs.Gateway.Sessions
import Prepaid.Proofs.Gateway.Wire

/-!
# Notices on their way

What the gateway writes about a session arrives as it was meant, whatever characters
there are in the names of the notice and of the session: the body that it sends is
verified under its own signature, and names the session together with the payment that
the gateway reports of it at that time.
-/

namespace Prepaid

namespace Gateway

/-- The payment that the gateway reports when it is asked about a session. A session that it does
not know has none. -/
def reportedPayment (session : String) (gateway : Gateway) : Option String :=
  match gateway.session session with
  | .ok known => known.payment
  | .error _ => none

/-- A body that the gateway has signed arrives as the notice that a session is completed: under the
name of the notice, and with the session and its payment in it. -/
def Conveys (gateway : Gateway) (body event session : String) (payment : Option String) : Prop :=
  ∃ notice, gateway.verify (Text.bytes body) (gateway.sign (Text.bytes body)) = .ok notice ∧
    notice.id = event ∧ notice.type = Notice.sessionCompleted ∧
    notice.session? = some ⟨session, payment⟩

/-- The payment that is reported is the one the session has. -/
theorem reportedPayment_eq (session : String) (gateway : Gateway) :
    gateway.reportedPayment session = (gateway.sessions.get? session).bind (·.payment) := by
  unfold reportedPayment Gateway.session
  cases gateway.sessions.get? session <;> rfl

/-- A session that has been paid has a payment. -/
theorem isSome_reportedPayment {gateway after : Gateway} {session : String} {stamp : Stamp}
    (pays : gateway.completeSession session stamp = .ok after) :
    (after.reportedPayment session).isSome = true := by
  obtain ⟨known, _, _, rfl⟩ := completeSession_eq_ok.mp pays
  rw [reportedPayment_eq, putSession, Table.get?_put, if_pos rfl]
  rfl

/-- A body that the gateway writes arrives with what it was written from. -/
theorem conveys_completedBody (event session : String) (gateway : Gateway) :
    gateway.Conveys (gateway.completedBody event session) event session
      (gateway.reportedPayment session) := by
  rw [reportedPayment_eq]
  exact gateway.verify_completedBody event session

end Gateway

namespace Service

/-- A payment completes its session, and hands back the body about it. -/
theorem exists_of_pay {service after : Service} {session event body : String} {stamp : Stamp}
    (paid : pay session event stamp service = (.ok body, after)) :
    service.gateway.completeSession session stamp = .ok after.gateway ∧
      body = after.gateway.completedBody event session := by
  cases pays : service.gateway.completeSession session stamp with
  | error rejection =>
    rw [pay_of_error event pays] at paid
    cases paid
  | ok gateway =>
    rw [pay_of_ok event pays, Prod.mk.injEq, Except.ok.injEq] at paid
    obtain ⟨rfl, rfl⟩ := paid
    exact ⟨rfl, rfl⟩

/-- The bodies that the gateway writes about a session, when it is asked for one and when the
session is paid, arrive as the notice that they were written for. They name the session and the
payment that the gateway reports of it, which is there once the session is paid and is missing for a
session that is not known. -/
theorem own_notices_arrive (gateway : Gateway) (event session : String) :
    gateway.Conveys (gateway.completedBody event session) event session
      (gateway.reportedPayment session) ∧
    (gateway.sessions.get? session = none →
      gateway.Conveys (gateway.completedBody event session) event session none) ∧
    ∀ ledger stamp body after, pay session event stamp { ledger, gateway } = (.ok body, after) →
      after.gateway.Conveys body event session (after.gateway.reportedPayment session) ∧
        (after.gateway.reportedPayment session).isSome = true := by
  have conveys := gateway.conveys_completedBody event session
  refine ⟨conveys, fun unknown => ?_, fun ledger stamp body after paid => ?_⟩
  · rwa [Gateway.reportedPayment_eq, unknown] at conveys
  · obtain ⟨pays, rfl⟩ := exists_of_pay paid
    exact ⟨after.gateway.conveys_completedBody event session, Gateway.isSome_reportedPayment pays⟩

/-- A name with characters in it that have to be escaped. -/
def quotedName : String := "\"cs\"\\\n"

/-- The session of that name. -/
def quotedSession : CheckoutSession where
  user := ⟨1⟩
  amount := ⟨.ofDecimal (centsOf 1200), by decide⟩
  currency := "usd"
  state := .unpaid
  payment := none

/-- A gateway with that session, which is open. -/
def quotingGateway : Gateway where
  secret := "secret"
  sessions := Table.empty.put quotedName quotedSession

/-- Names that have to be escaped arrive as they are. -/
theorem quoted_notice_arrives :
    ∃ body after,
      pay quotedName "\x01evt\t" (stampOf 7) { gateway := quotingGateway } = (.ok body, after) ∧
      after.gateway.Conveys body "\x01evt\t" quotedName
        (some "pi_00000000000000000000000000000007") := by
  let paid := quotingGateway.putSession quotedName (quotedSession.pay (stampOf 7))
  have pays : quotingGateway.completeSession quotedName (stampOf 7) = .ok paid := rfl
  have answered : pay quotedName "\x01evt\t" (stampOf 7) { gateway := quotingGateway } =
      (.ok (paid.completedBody "\x01evt\t" quotedName), { gateway := paid }) :=
    pay_of_ok "\x01evt\t" pays
  have reported : paid.reportedPayment quotedName = some "pi_00000000000000000000000000000007" := by
    decide +kernel
  have arrives :=
    ((own_notices_arrive quotingGateway "\x01evt\t" quotedName).2.2 _ _ _ _ answered).1
  exact ⟨_, _, answered, reported ▸ arrives⟩

end Service

end Prepaid
