import Prepaid.Gateway.Basic
import Prepaid.Proofs.Json.Reading
import Prepaid.Proofs.Text.Bytes

/-!
# The gateway's own notices

Whatever the gateway writes about a session it accepts again: the body is read back
as the notice that it was made of, and its signature is the one that is asked for.
-/

namespace Prepaid

namespace Signature

/-- Bytes that are written in hexadecimal are read back, wherever the digits stand. -/
theorem readPairs_hex (position : Nat) (bytes : List UInt8) :
    readPairs position (Text.hex bytes) = .ok bytes := by
  induction bytes generalizing position with
  | nil => rfl
  | cons byte rest ih =>
    have bound := byte.toNat_lt
    have whole : UInt8.ofNat (16 * (byte.toNat / 16) + byte.toNat % 16) = byte := by
      rw [Nat.div_add_mod, UInt8.ofNat_toNat]
    rw [Text.hex_cons, readPairs, Text.hexDigit?_digitChar (by omega),
      Text.hexDigit?_digitChar (by omega)]
    simp only [ih, Except.map, whole]

/-- Bytes that are written in hexadecimal are read back. -/
theorem readDigits_hex (bytes : List UInt8) : readDigits (Text.hex bytes) = .ok bytes := by
  rw [readDigits, if_neg (by rw [Text.length_hex]; omega), readPairs_hex]

/-- The digest is read out of a signature. -/
theorem read_sign (secret : String) (body : List UInt8) :
    read (sign secret body) = .ok (digest secret body) := by
  have letters : ∀ c ∈ scheme, c.toNat < 128 := by simp [scheme]
  have narrow : ∀ c ∈ scheme ++ Text.hex (digest secret body), c.toNat < 128 := by
    intro c member
    rcases List.mem_append.mp member with front | back
    · exact letters c front
    · exact Text.hex_narrow c back
  rw [read, sign, Text.map_charOfByte_bytes narrow]
  exact readDigits_hex _

/-- A signature passes its own check. -/
theorem check_sign (secret : String) (body : List UInt8) :
    check secret body (sign secret body) = .ok () := by
  rw [check, read_sign]
  exact if_pos rfl

end Signature

namespace Notice

variable (event session : String) (payment : Option String)

/-- A notice of a completed session has text in it, and no numbers. -/
theorem completedBody_textual : (completedBody event session payment).toTree.Textual := by
  cases payment <;>
    simp [completedBody, PaidSession.toJson, Json.ofOption, Json.toTree, Json.memberTrees,
      Json.Tree.Textual, Json.Tree.TextualMembers]

/-- A notice of a completed session is read back as it was written. -/
theorem ofText?_completedBody :
    Json.ofText? (completedBody event session payment).toText =
      some (completedBody event session payment) := by
  rw [Json.ofText?_toText (completedBody_textual event session payment)]
  cases payment <;> rfl

/-- A notice of a completed session is about that session, and names its payment. -/
theorem session?_completedBody (type : String) :
    session? ⟨event, type, completedBody event session payment⟩ = some ⟨session, payment⟩ := by
  cases payment <;> rfl

end Notice

namespace Gateway

/-- The gateway reads its own bodies as the notices that they were written for. -/
theorem verify_own (event session : String) (gateway : Gateway) :
    gateway.verify (Text.bytes (gateway.completedBody event session))
        (gateway.sign (Text.bytes (gateway.completedBody event session))) =
      .ok ⟨event, Notice.sessionCompleted,
        Notice.completedBody event session ((gateway.sessions.get? session).bind (·.payment))⟩ := by
  have written : Gateway.notice (Text.bytes (gateway.completedBody event session)) =
      .ok ⟨event, Notice.sessionCompleted,
        Notice.completedBody event session ((gateway.sessions.get? session).bind (·.payment))⟩ := by
    rw [Gateway.notice, Text.ofBytes?_bytes, Option.bind_some, completedBody,
      Notice.ofText?_completedBody]
    rfl
  rw [verify, sign, Signature.check_sign]
  simp only [written]

/-- The gateway verifies its own notices, whatever their identifier and their session. -/
theorem verify_completedBody (event session : String) (gateway : Gateway) :
    ∃ notice, gateway.verify (Text.bytes (gateway.completedBody event session))
        (gateway.sign (Text.bytes (gateway.completedBody event session))) = .ok notice ∧
      notice.id = event ∧ notice.type = Notice.sessionCompleted ∧
      notice.session? = some ⟨session, (gateway.sessions.get? session).bind (·.payment)⟩ :=
  ⟨_, verify_own event session gateway, rfl, rfl, Notice.session?_completedBody event session _ _⟩

end Gateway

end Prepaid
