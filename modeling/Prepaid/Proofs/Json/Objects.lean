import Mathlib.Data.List.TakeDrop
import Prepaid.Json.Record
import Prepaid.Proofs.Json.Reading
import Prepaid.Proofs.Text.Digits

/-!
# Written objects with naturals

A natural is written by its digits and read back as that spelling, whose value it is.
An object is read back member by member, whatever its members are read back as.
-/

namespace Prepaid.Json

open Reader

/-- What may stand behind a value: a comma, the end of an array or an object, or nothing. -/
def Reader.Closes (rest : List Char) : Prop :=
  ∀ c ∈ rest.head?, c ∈ [',', ']', '\x7d']

/-- The tree that the reader makes of the written form of another one. -/
def Tree.ReadAs (written back : Tree) : Prop :=
  ∀ limit rest, written.chars.length ≤ limit → Closes rest →
    value? limit (written.chars ++ rest) = some (back, rest)

/-- A tree without numbers is read as it was written. -/
theorem Tree.readAs_of_textual {tree : Tree} (textual : tree.Textual) : tree.ReadAs tree :=
  fun limit rest enough _ => (readsBack limit).value tree rest textual enough

/-! ## Naturals -/

/-- A natural as its digits spell it. -/
def NumberText.ofNatural (value : Nat) : NumberText :=
  ⟨false, Text.ofNat value, [], none⟩

/-- A natural is spelled by its digits. -/
theorem spelling_natural (value : Nat) : (Number.integer value).spelling = .ofNatural value := by
  simp [Number.spelling, NumberText.ofNatural, show ¬ (value : Int) < 0 by omega]

/-- The digits of a natural come to its value. -/
theorem digitsValue_ofNat (value : Nat) : digitsValue (Text.ofNat value) = value := by
  rw [digitsValue, ← Nat.ofDigitChars_eq_foldl, Text.ofNat, Nat.ofDigitChars_ten_toDigits]

/-- A natural of 64 bits is read as an integer. -/
theorem NumberText.value?_ofNatural {value : Nat} (fits : value ≤ Text.maxNat64) :
    (ofNatural value).value? = some (.integer value) := by
  simp only [value?, ofNatural, digitsValue_ofNat, List.isEmpty_nil, Option.isNone_none,
    Bool.not_false, Bool.and_self, Bool.true_and, decide_eq_true_eq, if_pos fits]

/-- No digit stands behind a value. -/
theorem noDigit_of_closes {rest : List Char} (closes : Closes rest) : Text.NoDigit rest := by
  intro c head
  have listed := closes c head
  simp only [List.mem_cons, List.not_mem_nil, or_false] at listed
  rcases listed with rfl | rfl | rfl <;> rfl

/-- The digits of a natural are a whole part. -/
theorem whole?_ofNat (value : Nat) {rest : List Char} (closes : Closes rest) :
    whole? (Text.ofNat value ++ rest) = some (Text.ofNat value, rest) := by
  have ends := noDigit_of_closes closes
  have split : digits? (Text.ofNat value ++ rest) = some (Text.ofNat value, rest) := by
    rw [Reader.digits?, List.span_eq_takeWhile_dropWhile,
      Text.takeWhile_digits Text.isDigit_ofNat ends, Text.dropWhile_digits Text.isDigit_ofNat ends]
    simp [Text.ofNat_ne_nil]
  have start : (Text.ofNat value).length = 1 ∨ (Text.ofNat value).head? ≠ some '0' := by
    by_cases zero : value = 0
    · rw [zero]
      exact .inl rfl
    · exact .inr (Text.head?_ofNat (by omega))
  rw [whole?, split]
  rcases start with one | other <;> simp [*]

/-- A number without a point and an exponent ends where a value ends. -/
theorem unsigned?_ofNat (negative : Bool) (value : Nat) {rest : List Char} (closes : Closes rest) :
    unsigned? negative (Text.ofNat value ++ rest) =
      some (⟨negative, Text.ofNat value, [], none⟩, rest) := by
  have fraction : Reader.fraction? rest = some ([], rest) ∧
      Reader.exponent? rest = some (none, rest) := by
    cases rest with
    | nil => exact ⟨rfl, rfl⟩
    | cons c rest =>
      have listed := closes c rfl
      simp only [List.mem_cons, List.not_mem_nil, or_false] at listed
      rcases listed with rfl | rfl | rfl <;> exact ⟨rfl, rfl⟩
  rw [unsigned?]
  simp only [whole?_ofNat value closes, fraction, Option.bind_eq_bind, Option.bind_some]
  rfl

/-- A digit starts a number without a sign. -/
theorem value?_of_isDigit {c : Char} (digit : c.isDigit = true) (limit : Nat) (rest : List Char) :
    value? (limit + 1) (c :: rest) =
      (unsigned? false (c :: rest)).map fun (text, rest) => (.number (.spelled text), rest) := by
  have visible : c ≠ ' ' ∧ c ≠ '\n' ∧ c ≠ '\t' ∧ c ≠ '\r' := by
    refine ⟨?_, ?_, ?_, ?_⟩ <;> rintro rfl <;> cases digit
  have number : Reader.number? (c :: rest) = unsigned? false (c :: rest) := by
    unfold Reader.number?
    split
    · next minus =>
      cases minus
      cases digit
    · rfl
  rw [value?, skip_cons visible]
  -- Every other kind of value starts with a character that is no digit.
  split
  all_goals first
    | next head =>
      cases head
      cases digit
    | rw [number]

/-- A natural is read as its spelling. -/
theorem Tree.readAs_natural (value : Nat) :
    Tree.ReadAs (.number (.known (.integer value)))
      (.number (.spelled (Number.integer value).spelling)) := by
  rw [spelling_natural]
  intro limit rest enough closes
  have written : (Tree.number (.known (.integer value))).chars = Text.ofNat value := by
    simp [Tree.chars, Numeral.chars, spelling_natural, NumberText.ofNatural, NumberText.chars]
  obtain ⟨c, others, digits, digit⟩ := Text.exists_ofNat value
  have read := unsigned?_ofNat false value closes
  rw [written, digits] at enough ⊢
  rw [digits] at read
  obtain ⟨limit, rfl⟩ := Nat.exists_eq_add_one_of_ne_zero (Nat.ne_zero_of_lt enough)
  rw [List.cons_append, value?_of_isDigit digit, ← List.cons_append, read, ← digits]
  rfl

/-! ## Objects -/

/-- A member of an object is read back under its key. -/
inductive MemberReadAs : String × Json → Option String × Tree → Prop where
  | keyed (key : String) {value : Json} {back : Tree} (reads : value.toTree.ReadAs back) :
      MemberReadAs (key, value) (some key, back)

/-- The members of an object are read one after the other. -/
theorem members?_memberTrees {first : String × Json} {members : List (String × Json)}
    {firstBack : Option String × Tree} {back : List (Option String × Tree)}
    (head : MemberReadAs first firstBack) (tail : List.Forall₂ MemberReadAs members back)
    (limit : Nat) (rest : List Char)
    (enough : (Tree.memberChars (memberTrees (first :: members))).length < limit) :
    members? limit (Tree.memberChars (memberTrees (first :: members)) ++ '\x7d' :: rest) =
      some (firstBack :: back, rest) := by
  -- By induction on the members behind the first one; each of them takes one off the limit.
  induction tail generalizing first firstBack limit with
  | nil =>
    obtain ⟨key, reads⟩ := head
    obtain ⟨limit, rfl⟩ := Nat.exists_eq_add_one_of_ne_zero (Nat.ne_zero_of_lt enough)
    simp only [memberTrees, Tree.memberChars, List.length_append, List.length_cons] at enough
    have value := reads limit ('\x7d' :: rest) (by omega) (by simp [Closes])
    simp [memberTrees, Tree.memberChars, members?, key?_stringChars, value]
  | @cons next nextBack members _ second _ ih =>
    obtain ⟨key, reads⟩ := head
    obtain ⟨limit, rfl⟩ := Nat.exists_eq_add_one_of_ne_zero (Nat.ne_zero_of_lt enough)
    simp only [memberTrees, Tree.memberChars, List.length_append, List.length_cons] at enough
    have value := reads limit
      (',' :: (Tree.memberChars (memberTrees (next :: members)) ++ '\x7d' :: rest)) (by omega)
        (by simp [Closes])
    have later := ih second limit (by simp only [memberTrees]; omega)
    simp only [memberTrees] at value later
    simp [memberTrees, Tree.memberChars, members?, key?_stringChars, value, later]

/-- An object is read back as its members are. -/
theorem readAs_object {members : List (String × Json)} {back : List (Option String × Tree)}
    (each : List.Forall₂ MemberReadAs members back) :
    (Json.object members).toTree.ReadAs (.object back) := by
  intro limit rest enough closes
  rw [toTree] at enough ⊢
  obtain ⟨limit, rfl⟩ : ∃ fewer, limit = fewer + 1 :=
    ⟨limit - 1, by simp [Tree.chars] at enough; omega⟩
  cases each with
  | nil => simp [memberTrees, Tree.chars, Tree.memberChars, value?]
  | @cons first _ members _ head tail =>
    simp only [Tree.chars, List.length_cons, List.length_append] at enough
    have read := members?_memberTrees head tail limit rest (by omega)
    obtain ⟨others, start⟩ :=
      ReadsBack.memberChars_head (some first.1, first.2.toTree) (memberTrees members)
    rw [memberTrees, start, List.cons_append] at read
    rw [Tree.chars, memberTrees, start]
    simp [value?, read]

/-! ## Values -/

mutual

/-- The tree that the reader makes of the written form of a value. -/
def respelled : Json → Tree
  | .null => .null
  | .bool value => .bool value
  | .number value => .number (.spelled value.spelling)
  | .string content => .string (some content)
  | .array elements => .array (respelledElements elements)
  | .object members => .object (respelledMembers members)

/-- The trees of the elements of an array. -/
def respelledElements : List Json → List Tree
  | [] => []
  | element :: rest => element.respelled :: respelledElements rest

/-- The trees of the members of an object. -/
def respelledMembers : List (String × Json) → List (Option String × Tree)
  | [] => []
  | (key, value) :: rest => (some key, value.respelled) :: respelledMembers rest

end

mutual

/-- A value as records hold it: its numbers are naturals, and there are no arrays in it. -/
def Recorded : Json → Prop
  | .null | .bool _ | .string _ => True
  | .number value => ∃ natural : Nat, value = .integer natural
  | .array _ => False
  | .object members => RecordedMembers members

/-- All members of an object are as records hold them. -/
def RecordedMembers : List (String × Json) → Prop
  | [] => True
  | (_, value) :: rest => value.Recorded ∧ RecordedMembers rest

end

mutual

/-- What records hold is read back as it is spelled. -/
theorem readAs_respelled : (value : Json) → value.Recorded → value.toTree.ReadAs value.respelled
  | .null, _ => Tree.readAs_of_textual trivial
  | .bool _, _ => Tree.readAs_of_textual trivial
  | .string _, _ => Tree.readAs_of_textual rfl
  | .number _, recorded => by
    obtain ⟨natural, rfl⟩ := recorded
    exact Tree.readAs_natural natural
  | .array _, recorded => recorded.elim
  | .object members, recorded => readAs_object (membersReadAs_respelled members recorded)

/-- The members of a recorded object are read back one by one. -/
theorem membersReadAs_respelled :
    (members : List (String × Json)) → RecordedMembers members →
      List.Forall₂ MemberReadAs members (respelledMembers members)
  | [], _ => .nil
  | (key, value) :: rest, recorded =>
    .cons (.keyed key (readAs_respelled value recorded.1)) (membersReadAs_respelled rest recorded.2)

end

/-- What records hold is the only thing in its text. -/
theorem ofText?_toText_of_recorded {value : Json} (recorded : value.Recorded) :
    Tree.ofText? value.toText = some value.respelled := by
  have read := readAs_respelled value recorded (2 * value.toTree.chars.length + 2) [] (by omega)
    (by simp [Closes])
  rw [List.append_nil] at read
  rw [Tree.ofText?, toText, String.toList_ofList, Tree.ofChars?, read]
  rfl

end Prepaid.Json
