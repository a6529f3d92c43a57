import Prepaid.Gateway.Basic
import Prepaid.Proofs.Gateway.Wire
import Prepaid.Proofs.Json.Exact

/-!
# Verified deliveries

Exactly which signatures are accepted, and which bodies hold a notice. A signature is
accepted if it is the one that is asked for, up to the case of its hexadecimal letters;
nothing shorter, nothing longer and no other spelling passes. A body holds a notice if it
is strict JSON and names an identifier and a type.
-/

namespace Prepaid

/-! ## Digests -/

namespace Digest

/-- A number is written with as many bytes as it is asked for. -/
theorem Sha256.length_bytesOfNat (width value : Nat) :
    (Sha256.bytesOfNat width value).length = width := by
  induction width with
  | zero => rfl
  | succ width ih => rw [Sha256.bytesOfNat, List.length_cons, ih]

/-- A digest has 32 bytes. -/
theorem length_sha256 (message : List UInt8) : (sha256 message).length = 32 := by
  simp [sha256, Sha256.State.words, Sha256.length_bytesOfNat]

/-- An authentication code has 32 bytes. -/
theorem length_hmacSha256 (key message : List UInt8) : (hmacSha256 key message).length = 32 :=
  length_sha256 _

end Digest

/-! ## Signatures -/

namespace Signature

variable {secret signature : String} {body bytes : List UInt8} {digits : List Char}

/-- An even number of digits is read as the bytes they spell, and as nothing else. -/
theorem readPairs_eq_ok_iff {position : Nat} (even : digits.length % 2 = 0) :
    readPairs position digits = .ok bytes ↔ Text.SpellsBytes bytes digits := by
  constructor
  · intro read
    fun_induction readPairs position digits generalizing bytes with
    | case1 | case2 => cases read
    | case3 position high low rest upper lower second first ih =>
      have upperSmall := Text.hexDigit?_lt first
      have lowerSmall := Text.hexDigit?_lt second
      cases found : readPairs (position + 2) rest with
      | error fault =>
        rw [found] at read
        cases read
      | ok others =>
        rw [found] at read
        cases read
        refine .cons first second ?_ (ih (by simp only [List.length_cons] at even; omega) found)
        rw [UInt8.toNat_ofNat']
        omega
    | case4 digits position short =>
      cases read
      match digits with
      | [] => exact .nil
      | [_] => cases even
      | high :: low :: rest => exact (short high low rest rfl).elim
  · intro spells
    induction spells generalizing position with
    | nil => rfl
    | @cons byte bytes high low rest upper lower first second whole others ih =>
      have same : UInt8.ofNat (16 * upper + lower) = byte := by rw [← whole, UInt8.ofNat_toNat]
      rw [readPairs, first, second]
      simp only [ih (by simp only [List.length_cons] at even; omega), Except.map, same]

/-- Digits are read as the bytes they spell, and as nothing else. -/
theorem readDigits_eq_ok_iff : readDigits digits = .ok bytes ↔ Text.SpellsBytes bytes digits := by
  rw [readDigits]
  split
  · next odd =>
    simp only [reduceCtorEq, false_iff]
    intro spells
    rw [spells.length_eq] at odd
    omega
  · next even => exact readPairs_eq_ok_iff (by omega)

/-- The scheme has characters of seven bits. -/
theorem scheme_narrow : ∀ c ∈ scheme, c.toNat < 128 := by simp [scheme]

/-- The reader goes through the bytes of a signature, and accepts only those of seven bits. -/
theorem read_eq_ok_iff :
    read signature = .ok bytes ↔
      ∃ digits, signature.toList = scheme ++ digits ∧ Text.SpellsBytes bytes digits := by
  constructor
  · intro found
    unfold read at found
    split at found
    · next digits spelled =>
      have spells := readDigits_eq_ok_iff.mp found
      have narrow : ∀ byte ∈ Text.bytes signature, byte.toNat < 128 := by
        intro byte member
        have shown : Text.charOfByte byte ∈ scheme ++ digits := by
          rw [← show _ = scheme ++ digits from spelled]
          exact List.mem_map_of_mem member
        rw [← Text.toNat_charOfByte]
        rcases List.mem_append.mp shown with front | back
        · exact scheme_narrow _ front
        · exact spells.narrow _ back
      exact ⟨digits, (Text.toList_eq_of_narrow narrow).trans spelled, spells⟩
    · cases found
  · rintro ⟨digits, written, spells⟩
    have same : String.ofList (scheme ++ digits) = signature := by
      rw [← written, String.ofList_toList]
    have narrow : ∀ c ∈ scheme ++ digits, c.toNat < 128 := fun c member =>
      (List.mem_append.mp member).elim (scheme_narrow c) (spells.narrow c)
    rw [read, ← same, Text.map_charOfByte_bytes narrow]
    exact readDigits_eq_ok_iff.mpr spells

/-- A signature passes if its digits spell the digest, all of it and nothing else. -/
theorem check_eq_ok_iff : check secret body signature = .ok () ↔
    ∃ digits, signature.toList = scheme ++ digits ∧
    Text.SpellsBytes (digest secret body) digits := by
  rw [← read_eq_ok_iff, check]
  cases read signature with
  | error fault => simp [bind, Except.bind]
  | ok claimed => simp [bind, Except.bind]

/-- A signature passes if it is the right one up to the case of its letters. -/
theorem check_eq_ok_iff_lower : check secret body signature = .ok () ↔
    scheme <+: signature.toList ∧ signature.map Text.lowerHexLetter = sign secret body := by
  have lowered (digits : List Char) :
      (scheme ++ digits).map Text.lowerHexLetter = scheme ++ digits.map Text.lowerHexLetter := by
    rw [List.map_append]
    rfl
  have spelled : signature.map Text.lowerHexLetter = sign secret body ↔
      signature.toList.map Text.lowerHexLetter = scheme ++ Text.hex (digest secret body) := by
    rw [← String.toList_inj, String.toList_map, sign, String.toList_ofList]
  rw [check_eq_ok_iff, spelled]
  constructor
  · rintro ⟨digits, written, spells⟩
    rw [written, lowered, Text.spellsBytes_iff.mp spells]
    exact ⟨List.prefix_append _ _, rfl⟩
  · rintro ⟨⟨digits, written⟩, same⟩
    rw [← written, lowered] at same
    exact ⟨digits, written.symm, Text.spellsBytes_iff.mpr (List.append_cancel_left same)⟩

/-- A signature is not refused for what the body says. -/
theorem check_error {fault : SignatureFault}
    (refused : check secret body signature = .error fault) :
    fault ≠ .malformedBody ∧ fault ≠ .malformedNotice := by
  have pairs {position : Nat} {digits : List Char} {fault : SignatureFault}
      (refused : readPairs position digits = .error fault) :
      fault ≠ .malformedBody ∧ fault ≠ .malformedNotice := by
    fun_induction readPairs position digits generalizing fault with
    | case1 | case2 =>
      cases refused
      simp
    | case3 position _ _ rest _ _ _ _ ih =>
      cases found : readPairs (position + 2) rest with
      | error fault =>
        rw [found] at refused
        cases refused
        exact ih found
      | ok others =>
        rw [found] at refused
        cases refused
    | case4 => cases refused
  rw [check] at refused
  cases found : read signature with
  | error other =>
    rw [found] at refused
    cases refused
    unfold read at found
    split at found
    · unfold readDigits at found
      split at found
      · cases found
        simp
      · exact pairs found
    · cases found
      simp
  | ok claimed =>
    rw [found] at refused
    simp only [bind, Except.bind] at refused
    split at refused
    · cases refused
    · cases refused
      simp

end Signature

/-! ## Notices -/

namespace Notice

/-- A body names an identifier and a type: as members of an object, or as the two elements of an
array. -/
inductive Named : Json → String → String → Prop where
  | members {members : List (String × Json)} {id type : String}
    (identifier : ("id", .string id) ∈ members) (kind : ("type", .string type) ∈ members) : Named
      (.object members) id type
  | elements {id type : String} : Named (.array [.string id, .string type]) id type

/-- Only a string is read as text. -/
theorem text?_toTree_eq_some_iff {value : Json} {content : String} :
    value.toTree.text? = some content ↔ value = .string content := by
  cases value <;> simp [Json.toTree, Json.Tree.text?]

/-- A required field must be given. -/
theorem required?_eq_some_iff {field : Json.Field} {tree : Json.Tree} :
    field.required? = some tree ↔ field = .given tree := by
  cases field <;> simp [Json.Field.required?]

/-- A field that is required to be text. -/
theorem text?_field_eq_some_iff {members : List (String × Json)}
    (ordered : Json.KeysOrdered members) {key content : String} :
    (Json.fieldOf (Json.memberTrees members) key).required?.bind Json.Tree.text? = some content ↔
      (key, .string content) ∈ members := by
  simp only [Option.bind_eq_some_iff, required?_eq_some_iff, ordered.fieldOf_eq_given_iff]
  constructor
  · rintro ⟨_, ⟨value, present, rfl⟩, shown⟩
    rwa [text?_toTree_eq_some_iff.mp shown] at present
  · intro present
    exact ⟨_, ⟨_, present, rfl⟩, rfl⟩

/-- A body whose keys are distinct holds a notice exactly if it names an identifier and a type. -/
theorem ofBody?_eq_some_iff {body : Json}
    (ordered : ∀ members, body = .object members → Json.KeysOrdered members) {notice : Notice} :
    ofBody? body = some notice ↔ notice.body = body ∧ Named body notice.id notice.type := by
  obtain ⟨id, type, kept⟩ := notice
  cases body with
  | null | bool | number | string =>
    simp only [ofBody?, Json.toTree, Json.Tree.fields?, reduceCtorEq, false_iff, not_and]
    rintro _ ⟨⟩
  | object members =>
    have distinct := (ordered members rfl).distinct ["id", "type"]
    have fields : ofBody? (.object members) = (do
        let id ← (Json.fieldOf (Json.memberTrees members) "id").required?.bind Json.Tree.text?
        let type ← (Json.fieldOf (Json.memberTrees members) "type").required?.bind Json.Tree.text?
        pure { id, type, body := .object members }) := by
      simp only [ofBody?, Json.toTree, Json.Tree.fields?, if_pos distinct, List.map_cons,
        List.map_nil]
    simp only [fields, Option.bind_eq_bind, Option.bind_eq_some_iff, Option.pure_def,
      Option.some.injEq, text?_field_eq_some_iff (ordered members rfl), Notice.mk.injEq]
    constructor
    · rintro ⟨_, identifier, _, kind, rfl, rfl, rfl⟩
      exact ⟨rfl, .members identifier kind⟩
    · rintro ⟨rfl, ⟨identifier, kind⟩⟩
      exact ⟨_, identifier, _, kind, rfl, rfl, rfl⟩
  | array elements =>
    have two : Named (.array elements) id type ↔ elements = [.string id, .string type] :=
      ⟨fun named => by cases named; rfl, fun same => same ▸ .elements⟩
    rw [two]
    have other (length : elements.length ≠ 2) : ofBody? (.array elements) = none := by
      rcases elements with _ | ⟨first, _ | ⟨second, _ | ⟨third, rest⟩⟩⟩
      · rfl
      · simp [ofBody?, Json.toTree, Json.elementTrees, Json.Tree.fields?, Json.fieldsOfArray,
          Json.Field.required?]
      · exact (length rfl).elim
      · simp [ofBody?, Json.toTree, Json.elementTrees, Json.Tree.fields?]
    by_cases length : elements.length = 2
    · obtain ⟨first, second, rfl⟩ := List.length_eq_two.mp length
      have read : ofBody? (.array [first, second]) = some ⟨id, type, kept⟩ ↔
          first = .string id ∧ second = .string type ∧ .array [first, second] = kept := by
        simp [ofBody?, Json.toTree, Json.elementTrees, Json.Tree.fields?, Json.fieldsOfArray,
          Json.Field.required?, Option.bind_eq_some_iff, text?_toTree_eq_some_iff]
      rw [read]
      constructor
      · rintro ⟨rfl, rfl, rfl⟩
        exact ⟨rfl, rfl⟩
      · rintro ⟨rfl, ⟨⟩⟩
        exact ⟨rfl, rfl, rfl⟩
    · rw [other length]
      constructor
      · intro read
        cases read
      · rintro ⟨-, rfl⟩
        exact (length rfl).elim

end Notice

namespace Gateway

variable {body : List UInt8}

/-- A body holds a notice exactly if it is strict JSON in UTF-8 and names an identifier and a type.
The notice carries all of the body. -/
theorem notice_eq_ok_iff {notice : Notice} : Gateway.notice body = .ok notice ↔
    ∃ text tree, Text.bytes text = body ∧ Json.Strict text.toList tree ∧
      Json.ofTree? Json.depthLimit tree = some notice.body ∧
      Notice.Named notice.body notice.id notice.type := by
  have valued {value : Json} : (Text.ofBytes? body).bind Json.ofText? = some value ↔
      ∃ text tree, Text.bytes text = body ∧ Json.Strict text.toList tree ∧
        Json.ofTree? Json.depthLimit tree = some value := by
    simp only [Option.bind_eq_some_iff, Text.ofBytes?_eq_some_iff, Json.ofText?_eq_some_iff,
      exists_and_left]
  have ordered {value : Json} (read : (Text.ofBytes? body).bind Json.ofText? = some value) :
      ∀ members, value = .object members → Json.KeysOrdered members := by
    rintro members rfl
    obtain ⟨_, tree, _, _, made⟩ := valued.mp read
    exact Json.keysOrdered_of_ofTree? made
  rw [Gateway.notice]
  constructor
  · intro found
    split at found
    · cases found
    · next value read =>
      split at found
      · cases found
      · next held =>
        cases found
        obtain ⟨rfl, named⟩ := (Notice.ofBody?_eq_some_iff (ordered read)).mp held
        obtain ⟨text, tree, spelled, strict, made⟩ := valued.mp read
        exact ⟨text, tree, spelled, strict, made, named⟩
  · rintro ⟨text, tree, spelled, strict, made, named⟩
    have read := valued.mpr ⟨text, tree, spelled, strict, made⟩
    have held := (Notice.ofBody?_eq_some_iff (ordered read)).mpr ⟨rfl, named⟩
    simp only [read, held]

/-- What is wrong with a body is never mistaken for a wrong signature. -/
theorem notice_error {fault : SignatureFault} (refused : Gateway.notice body = .error fault) :
    fault = .malformedBody ∨ fault = .malformedNotice := by
  rw [Gateway.notice] at refused
  split at refused
  · cases refused
    exact .inl rfl
  · split at refused
    · cases refused
      exact .inr rfl
    · cases refused

/-- A delivery is verified if its signature passes and its body is a notice. -/
theorem verify_eq_ok_iff {gateway : Gateway} {body : List UInt8} {signature : String}
    {notice : Notice} :
    gateway.verify body signature = .ok notice ↔
      Signature.check gateway.secret body signature = .ok () ∧
      Gateway.notice body = .ok notice := by
  rw [verify]
  cases checked : Signature.check gateway.secret body signature with
  | error fault => simp
  | ok =>
    cases held : Gateway.notice body <;> simp

/-- What is refused for its body has passed as signed. -/
theorem verify_eq_error {gateway : Gateway} {body : List UInt8} {signature : String}
    {rejection : Rejection} (refused : gateway.verify body signature = .error rejection) :
    ∃ fault, rejection = .invalidSignature fault ∧
      (Signature.check gateway.secret body signature = .ok () ↔ fault = .malformedBody ∨
        fault = .malformedNotice) := by
  rw [verify] at refused
  cases checked : Signature.check gateway.secret body signature with
  | error fault =>
    rw [checked] at refused
    cases refused
    obtain ⟨notBody, notNotice⟩ := Signature.check_error checked
    exact ⟨fault, rfl, by simp [notBody, notNotice]⟩
  | ok =>
    rw [checked] at refused
    simp only at refused
    cases held : Gateway.notice body with
    | error fault =>
      rw [held] at refused
      cases refused
      exact ⟨fault, rfl, by simp [notice_error held]⟩
    | ok notice =>
      rw [held] at refused
      cases refused

/-- A delivery is verified exactly if it is signed with all 32 bytes of the keyed digest of its
body, written behind the scheme in hexadecimal digits of either case, and its body is JSON in UTF-8
that names an identifier and a type. The body is spelled by the grammar and keeps three limits
without which it has no value: its arrays and objects nest less than 128 deep, its numbers are
finite, and its surrogates are paired. Its own signatures are of this form. What is refused for its
body has passed as signed. -/
theorem verify_exact (gateway : Gateway) (body : List UInt8) (signature : String) :
    let tag := Digest.hmacSha256 (Text.bytes gateway.secret) body
    let signed := Signature.check gateway.secret body signature = .ok ()
    tag.length = 32 ∧ (gateway.sign body).toList = ['v', '1', '='] ++ Text.hex tag ∧
    (signed ↔ ∃ digits, signature.toList = ['v', '1', '='] ++ digits ∧ digits.length = 64 ∧
      Text.SpellsBytes tag digits) ∧
    (signed ↔ ['v', '1', '='] <+: signature.toList ∧
      signature.map Text.lowerHexLetter = gateway.sign body) ∧
    (∀ notice, gateway.verify body signature = .ok notice ↔ signed ∧
      ∃ text tree, Text.bytes text = body ∧ Json.SpellsText tree text.toList ∧
        tree.nesting < 128 ∧ tree.FiniteNumbers ∧ tree.PairedSurrogates ∧
          Json.ofTree? Json.depthLimit tree = some notice.body ∧
            Notice.Named notice.body notice.id notice.type) ∧
    ∀ rejection, gateway.verify body signature = .error rejection → ∃ fault,
      rejection = .invalidSignature fault ∧
      (signed ↔ fault = .malformedBody ∨ fault = .malformedNotice) := by
  intro tag signed
  have whole : tag.length = 32 := Digest.length_hmacSha256 _ _
  have spelled : signed ↔ ∃ digits, signature.toList = ['v', '1', '='] ++ digits ∧
      Text.SpellsBytes tag digits :=
    Signature.check_eq_ok_iff
  refine ⟨whole, String.toList_ofList, ?_, Signature.check_eq_ok_iff_lower, fun notice => ?_,
    fun rejection refused => verify_eq_error refused⟩
  · rw [spelled]
    refine exists_congr fun digits => and_congr_right
      fun _ => ⟨fun spells => ⟨?_, spells⟩, And.right⟩
    rw [spells.length_eq, whole]
  · rw [verify_eq_ok_iff, notice_eq_ok_iff]
    simp only [Json.Strict, and_assoc]
    exact Iff.rfl

example : sign (Text.bytes "what do ya want for nothing?") { secret := "Jefe" } =
    "v1=5bdcc146bf60754e6a042426089575c75a003f089d2739839dec58b964ec3843" := by decide +kernel

end Gateway

end Prepaid
