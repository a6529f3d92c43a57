import Mathlib.Data.List.Nodup
import Prepaid.Proofs.Json.Grammar

/-!
# The reader of JSON is exact

It gives a tree for a text if and only if the text spells that tree, whatever the limits
are that it carries along. A tree has a value if and only if it does not nest too deeply,
its strings are text and its numbers are finite; the members of an object then have
distinct keys.
-/

namespace Prepaid.Json

open Reader

/-! ## What is read is spelled -/

/-- What the reader takes under a limit has been spelled. -/
structure Sound (limit : Nat) : Prop where
  value : ∀ {text tree rest}, value? limit text = some (tree, rest) →
    ∃ before spelled, text = before ++ (spelled ++ rest) ∧ Blanks before ∧
    Spells (.value tree) spelled
  elements : ∀ {text elements rest}, elements? limit text = some (elements, rest) →
    ∃ spelled, text = spelled ++ ']' :: rest ∧ Spells (.elements elements) spelled
  members : ∀ {text members rest}, members? limit text = some (members, rest) →
    ∃ spelled, text = spelled ++ '\x7d' :: rest ∧ Spells (.members members) spelled

namespace Sound

variable {limit : Nat} {text rest : List Char}

/-- A reader without room reads nothing. -/
theorem zero : Sound 0 where
  value read := by cases read
  elements read := by cases read
  members read := by cases read

/-- The value that is read has been spelled, behind blanks. -/
theorem value_succ (inner : Sound limit) {tree : Tree}
    (read : value? (limit + 1) text = some (tree, rest)) :
    ∃ before spelled, text = before ++ (spelled ++ rest) ∧ Blanks before ∧
    Spells (.value tree) spelled := by
  obtain ⟨before, leading, split⟩ := exists_skip text
  suffices spelt : ∃ spelled, skip text = spelled ++ rest ∧ Spells (.value tree) spelled by
    obtain ⟨spelled, behind, spells⟩ := spelt
    exact ⟨before, spelled, by rw [← behind]; exact split, leading, spells⟩
  clear split
  unfold value? at read
  split at read
  · next head => cases read; exact ⟨_, head, .null⟩
  · next head => cases read; exact ⟨_, head, .true⟩
  · next head => cases read; exact ⟨_, head, .false⟩
  · next head =>
    obtain ⟨⟨content, behind⟩, found, same⟩ := Option.map_eq_some_iff.mp read
    cases same
    obtain ⟨spelled, rfl, spells⟩ := string?_sound found
    exact ⟨'"' :: spelled, head, .string spells⟩
  · next inside head =>
    split at read
    · next close =>
      cases read
      obtain ⟨gap, blanks, splitGap⟩ := exists_skip inside
      rw [close] at splitGap
      exact ⟨'[' :: (gap ++ [']']), by rw [head, splitGap]; simp, .emptyArray blanks⟩
    · obtain ⟨⟨elements, behind⟩, found, same⟩ := Option.map_eq_some_iff.mp read
      cases same
      obtain ⟨spelled, rfl, spells⟩ := inner.elements found
      exact ⟨'[' :: (spelled ++ [']']), by rw [head]; simp, .array spells⟩
  · next inside head =>
    split at read
    · next close =>
      cases read
      obtain ⟨gap, blanks, splitGap⟩ := exists_skip inside
      rw [close] at splitGap
      exact ⟨'\x7b' :: (gap ++ ['\x7d']), by rw [head, splitGap]; simp, .emptyObject blanks⟩
    · obtain ⟨⟨members, behind⟩, found, same⟩ := Option.map_eq_some_iff.mp read
      cases same
      obtain ⟨spelled, rfl, spells⟩ := inner.members found
      exact ⟨'\x7b' :: (spelled ++ ['\x7d']), by rw [head]; simp, .object spells⟩
  · obtain ⟨⟨number, behind⟩, found, same⟩ := Option.map_eq_some_iff.mp read
    cases same
    obtain ⟨spelled, whole, spells⟩ := number?_sound found
    exact ⟨spelled, whole, .number spells⟩

/-- The elements that are read have been spelled, up to the bracket. -/
theorem elements_succ (inner : Sound limit) {elements : List Tree}
    (read : elements? (limit + 1) text = some (elements, rest)) :
    ∃ spelled, text = spelled ++ ']' :: rest ∧ Spells (.elements elements) spelled := by
  unfold elements? at read
  split at read
  · cases read
  · next element behind found =>
    obtain ⟨before, spelled, rfl, leading, spells⟩ := inner.value found
    obtain ⟨after, trailing, splitAfter⟩ := exists_skip behind
    split at read
    · next comma =>
      obtain ⟨⟨others, remaining⟩, more, same⟩ := Option.map_eq_some_iff.mp read
      cases same
      obtain ⟨spelledOthers, rfl, spellsOthers⟩ := inner.elements more
      rw [comma] at splitAfter
      exact ⟨_, by rw [splitAfter]; simp, .element leading spells trailing spellsOthers⟩
    · next close =>
      cases read
      rw [close] at splitAfter
      exact ⟨_, by rw [splitAfter]; simp, .lastElement leading spells trailing⟩
    · cases read

/-- The members that are read have been spelled, up to the brace. -/
theorem members_succ (inner : Sound limit) {members : List (Option String × Tree)}
    (read : members? (limit + 1) text = some (members, rest)) :
    ∃ spelled, text = spelled ++ '\x7d' :: rest ∧ Spells (.members members) spelled := by
  unfold members? at read
  split at read
  · cases read
  · next key behind keyed =>
    obtain ⟨before, name, gap, rfl, leading, named, apart⟩ := key?_sound keyed
    split at read
    · cases read
    · next value behind found =>
      obtain ⟨between, spelled, rfl, colon, spells⟩ := inner.value found
      obtain ⟨after, trailing, splitAfter⟩ := exists_skip behind
      split at read
      · next comma =>
        obtain ⟨⟨others, remaining⟩, more, same⟩ := Option.map_eq_some_iff.mp read
        cases same
        obtain ⟨spelledOthers, rfl, spellsOthers⟩ := inner.members more
        rw [comma] at splitAfter
        exact ⟨_, by rw [splitAfter]; simp,
          .member leading named apart colon spells trailing spellsOthers⟩
      · next close =>
        cases read
        rw [close] at splitAfter
        exact ⟨_, by rw [splitAfter]; simp, .lastMember leading named apart colon spells trailing⟩
      · cases read

end Sound

/-- What the reader takes has been spelled, under every limit. -/
theorem sound (limit : Nat) : Sound limit := by
  induction limit with
  | zero => exact .zero
  | succ limit ih => exact ⟨ih.value_succ, ih.elements_succ, ih.members_succ⟩

/-! ## What is spelled is read -/

section Complete

variable {text rest : List Char}

/-- A value ends before blanks and what separates it from others. -/
theorem ends_blanks {blanks : List Char} (trailing : Blanks blanks) (rest : List Char)
    (closes : Closes rest) :
    Ends (blanks ++ rest) := by
  intro c head
  have listed : c = ' ' ∨ c = '\n' ∨ c = '\t' ∨ c = '\r' ∨ c = ',' ∨ c = ']' ∨ c = '\x7d' := by
    cases blanks with
    | nil => simpa using Or.inr (Or.inr (Or.inr (Or.inr (closes c head))))
    | cons blank others =>
      cases head
      have own := trailing c List.mem_cons_self
      tauto
  rcases listed with rfl | rfl | rfl | rfl | rfl | rfl | rfl <;> decide

/-- A bracket that closes an array starts none of its elements, and a brace that closes an object
none of its members. -/
theorem elements?_of_close (limit : Nat) (close : skip text = ']' :: rest) :
    elements? limit text = none := by
  match limit with
  | 0 | 1 => rfl
  | limit + 2 =>
    have value : value? (limit + 1) text = none := by
      rw [value?, close]
      rfl
    rw [elements?, value]

/-- A brace that closes an object starts none of its members. -/
theorem members?_of_close (limit : Nat) (close : skip text = '\x7d' :: rest) :
    members? limit text = none := by
  match limit with
  | 0 => rfl
  | limit + 1 =>
    have key : key? text = none := by rw [key?, close]; rfl
    rw [members?, key]

/-- The reader accepts what spells a phrase, under every limit that is large enough. -/
def Accepts : Phrase → List Char → Prop
  | .value tree, spelled => ∀ limit before rest, 2 * spelled.length < limit → Blanks before →
    Ends rest → value? limit (before ++ (spelled ++ rest)) = some (tree, rest)
  | .elements elements, spelled => ∀ limit rest, 2 * spelled.length + 1 < limit →
    elements? limit (spelled ++ ']' :: rest) = some (elements, rest)
  | .members members, spelled => ∀ limit rest, 2 * spelled.length + 1 < limit →
    members? limit (spelled ++ '\x7d' :: rest) = some (members, rest)

namespace Accepts

/-- A value is accepted if it is once the limit is not zero and the blanks are dropped. -/
theorem of_cons {tree : Tree} {c : Char} {others : List Char}
    (visible : c ≠ ' ' ∧ c ≠ '\n' ∧ c ≠ '\t' ∧ c ≠ '\r')
    (reads : ∀ limit rest text, 2 * others.length + 1 < limit → Ends rest →
      skip text = c :: (others ++ rest) → value? limit text = some (tree, rest)) :
    Accepts (.value tree) (c :: others) := by
  intro limit before rest enough leading ends
  refine reads limit rest _ ?_ ends (skip_blanks_cons leading visible _)
  simp only [List.length_cons] at enough
  omega

/-- A number is accepted. -/
theorem number {number : NumberText} (spells : SpellsNumber number text) :
    Accepts (.value (.number (.spelled number))) text := by
  have read {rest : List Char} (ends : Ends rest) : number? (text ++ rest) = some (number, rest) :=
    number?_complete spells ends
  obtain ⟨c, others, rfl, start⟩ : ∃ c others, text = c :: others ∧
      (c = '-' ∨ c.isDigit = true) := by
    obtain @⟨negative, whole, fraction, places, power, exponent, digits, _, _, _⟩ := spells
    obtain ⟨c, others, rfl⟩ := List.exists_cons_of_ne_nil digits.nonempty
    cases negative with
    | true => exact ⟨'-', _, rfl, .inl rfl⟩
    | false => exact ⟨c, _, rfl, .inr (digits.each c List.mem_cons_self)⟩
  refine of_cons ?_ fun limit rest text enough ends head => ?_
  · refine ⟨?_, ?_, ?_, ?_⟩ <;> rintro rfl <;> rcases start with absurdly | absurdly <;>
      cases absurdly
  · obtain ⟨limit, rfl⟩ := Nat.exists_eq_add_one_of_ne_zero (Nat.ne_zero_of_lt enough)
    rw [value?, head]
    -- No other kind of value starts with a minus sign or a digit.
    split
    all_goals first
      | next other =>
        obtain ⟨rfl, _⟩ := List.cons.inj other
        rcases start with absurdly | absurdly <;> cases absurdly
      | rw [← List.cons_append, read ends]; rfl

/-- A string is accepted. -/
theorem string {content : Option String} (spells : SpellsString content text) :
    Accepts (.value (.string content)) text := by
  obtain ⟨behind, rfl, reads⟩ := string?_complete spells
  refine of_cons (by decide) fun limit rest text enough ends head => ?_
  obtain ⟨limit, rfl⟩ := Nat.exists_eq_add_one_of_ne_zero (Nat.ne_zero_of_lt enough)
  rw [value?, head]
  simp only [reads, Option.map_some]

/-- An array without elements is accepted. -/
theorem emptyArray {gap : List Char} (blanks : Blanks gap) :
    Accepts (.value (.array [])) ('[' :: (gap ++ [']'])) := by
  refine of_cons (by decide) fun limit rest text enough ends head => ?_
  obtain ⟨limit, rfl⟩ := Nat.exists_eq_add_one_of_ne_zero (Nat.ne_zero_of_lt enough)
  rw [List.append_assoc, List.singleton_append] at head
  have close : skip (gap ++ ']' :: rest) = ']' :: rest := skip_blanks_cons blanks (by decide) rest
  rw [value?, head]
  simp only [close]

/-- An object without members is accepted. -/
theorem emptyObject {gap : List Char} (blanks : Blanks gap) :
    Accepts (.value (.object [])) ('\x7b' :: (gap ++ ['\x7d'])) := by
  refine of_cons (by decide) fun limit rest text enough ends head => ?_
  obtain ⟨limit, rfl⟩ := Nat.exists_eq_add_one_of_ne_zero (Nat.ne_zero_of_lt enough)
  rw [List.append_assoc, List.singleton_append] at head
  have close : skip (gap ++ '\x7d' :: rest) = '\x7d' :: rest :=
    skip_blanks_cons blanks (by decide) rest
  rw [value?, head]
  simp only [close]

/-- An array is accepted if its elements are. -/
theorem array {elements : List Tree} (inner : Accepts (.elements elements) text) :
    Accepts (.value (.array elements)) ('[' :: (text ++ [']'])) := by
  refine of_cons (by decide) fun limit rest whole enough ends head => ?_
  obtain ⟨limit, rfl⟩ := Nat.exists_eq_add_one_of_ne_zero (Nat.ne_zero_of_lt enough)
  simp only [List.length_append, List.length_singleton] at enough
  have read : elements? limit (text ++ ']' :: rest) = some (elements, rest) :=
    inner limit rest (by omega)
  rw [List.append_assoc, List.singleton_append] at head
  rw [value?, head]
  simp only
  split
  · next close =>
    rw [elements?_of_close limit close] at read
    cases read
  · rw [read, Option.map_some]

/-- An object is accepted if its members are. -/
theorem object {members : List (Option String × Tree)} (inner : Accepts (.members members) text) :
    Accepts (.value (.object members)) ('\x7b' :: (text ++ ['\x7d'])) := by
  refine of_cons (by decide) fun limit rest whole enough ends head => ?_
  obtain ⟨limit, rfl⟩ := Nat.exists_eq_add_one_of_ne_zero (Nat.ne_zero_of_lt enough)
  simp only [List.length_append, List.length_singleton] at enough
  have read : members? limit (text ++ '\x7d' :: rest) = some (members, rest) :=
    inner limit rest (by omega)
  rw [List.append_assoc, List.singleton_append] at head
  rw [value?, head]
  simp only
  split
  · next close =>
    rw [members?_of_close limit close] at read
    cases read
  · rw [read, Option.map_some]

/-- A value is accepted between blanks, before what separates it from others. -/
theorem between {tree : Tree} (value : Accepts (.value tree) text) (limit : Nat)
    (enough : 2 * text.length < limit) {before after : List Char} (leading : Blanks before)
    (trailing : Blanks after) {c : Char} (listed : c ∈ [',', ']', '\x7d']) (rest : List Char) :
    value? limit (before ++ (text ++ (after ++ c :: rest))) = some (tree, after ++ c :: rest) ∧
      skip (after ++ c :: rest) = c :: rest := by
  constructor
  · refine value limit before _ enough leading (ends_blanks trailing _ ?_)
    rintro _ ⟨⟩
    exact listed
  · refine skip_blanks_cons trailing ?_ rest
    simp only [List.mem_cons, List.not_mem_nil, or_false] at listed
    rcases listed with rfl | rfl | rfl <;> decide

/-- One element is accepted with blanks around it. -/
theorem lastElement {element : Tree} {before after : List Char} (leading : Blanks before)
    (value : Accepts (.value element) text) (trailing : Blanks after) :
    Accepts (.elements [element]) (before ++ (text ++ after)) := by
  intro limit rest enough
  obtain ⟨limit, rfl⟩ := Nat.exists_eq_add_one_of_ne_zero (Nat.ne_zero_of_lt enough)
  simp only [List.length_append] at enough
  obtain ⟨read, close⟩ := value.between limit (by omega) leading trailing
    (show ']' ∈ [',', ']', '\x7d'] by simp) rest
  simp only [List.append_assoc]
  simp only [elements?, read, close]

/-- An element is accepted in front of others. -/
theorem element {element : Tree} {elements : List Tree} {before after others : List Char}
    (leading : Blanks before) (value : Accepts (.value element) text) (trailing : Blanks after)
    (inner : Accepts (.elements elements) others) :
    Accepts (.elements (element :: elements)) (before ++ (text ++ (after ++ ',' :: others))) := by
  intro limit rest enough
  obtain ⟨limit, rfl⟩ := Nat.exists_eq_add_one_of_ne_zero (Nat.ne_zero_of_lt enough)
  simp only [List.length_append, List.length_cons] at enough
  obtain ⟨read, comma⟩ := value.between limit (by omega) leading trailing
    (show ',' ∈ [',', ']', '\x7d'] by simp) (others ++ ']' :: rest)
  have more := inner limit rest (by omega)
  simp only [List.append_assoc, List.cons_append]
  simp only [elements?, read, comma, more, Option.map_some]

/-- One member is accepted, with blanks around its key and its value. -/
theorem lastMember {key : Option String} {held : Tree} {before name gap between after : List Char}
    (leading : Blanks before) (named : SpellsString key name) (apart : Blanks gap)
    (colon : Blanks between) (value : Accepts (.value held) text) (trailing : Blanks after) :
    Accepts (.members [(key, held)])
      (before ++ (name ++ (gap ++ ':' :: (between ++ (text ++ after))))) := by
  intro limit rest enough
  obtain ⟨limit, rfl⟩ := Nat.exists_eq_add_one_of_ne_zero (Nat.ne_zero_of_lt enough)
  simp only [List.length_append, List.length_cons] at enough
  obtain ⟨read, close⟩ := value.between limit (by omega) colon trailing
    (show '\x7d' ∈ [',', ']', '\x7d'] by simp) rest
  simp only [List.append_assoc, List.cons_append]
  simp only [members?, key?_complete leading named apart, read, close]

/-- A member is accepted in front of others. -/
theorem member {key : Option String} {held : Tree} {members : List (Option String × Tree)}
    {before name gap between after others : List Char} (leading : Blanks before)
    (named : SpellsString key name) (apart : Blanks gap) (colon : Blanks between)
    (value : Accepts (.value held) text) (trailing : Blanks after)
    (inner : Accepts (.members members) others) :
    Accepts (.members ((key, held) :: members))
      (before ++ (name ++ (gap ++ ':' :: (between ++ (text ++ (after ++ ',' :: others)))))) := by
  intro limit rest enough
  obtain ⟨limit, rfl⟩ := Nat.exists_eq_add_one_of_ne_zero (Nat.ne_zero_of_lt enough)
  simp only [List.length_append, List.length_cons] at enough
  obtain ⟨read, comma⟩ := value.between limit (by omega) colon trailing
    (show ',' ∈ [',', ']', '\x7d'] by simp) (others ++ '\x7d' :: rest)
  have more := inner limit rest (by omega)
  simp only [List.append_assoc, List.cons_append]
  simp only [members?, key?_complete leading named apart, read, comma, more, Option.map_some]

end Accepts

/-- What the grammar derives, the reader takes. -/
theorem Spells.accepts {phrase : Phrase} (spells : Spells phrase text) : Accepts phrase text := by
  induction spells with
  | null | true | false =>
    refine .of_cons (by decide) fun limit rest text enough ends head => ?_
    obtain ⟨limit, rfl⟩ := Nat.exists_eq_add_one_of_ne_zero (Nat.ne_zero_of_lt enough)
    rw [value?, head]
    rfl
  | number spells => exact .number spells
  | string spells => exact .string spells
  | emptyArray blanks => exact .emptyArray blanks
  | array _ inner => exact inner.array
  | emptyObject blanks => exact .emptyObject blanks
  | object _ inner => exact inner.object
  | lastElement leading _ trailing value => exact .lastElement leading value trailing
  | element leading _ trailing _ value inner => exact .element leading value trailing inner
  | lastMember leading named apart colon _ trailing value =>
    exact .lastMember leading named apart colon value trailing
  | member leading named apart colon _ trailing _ value inner =>
    exact .member leading named apart colon value trailing inner

/-- The reader gives a tree for a text exactly if the text spells it. -/
theorem Tree.ofChars?_eq_some_iff {tree : Tree} : Tree.ofChars? text = some tree ↔
    SpellsText tree text := by
  constructor
  · intro read
    unfold Tree.ofChars? at read
    split at read
    · next other rest found =>
      split at read
      · next empty =>
        cases read
        obtain ⟨before, spelled, rfl, leading, spells⟩ := (sound _).value found
        exact .text leading spells (skip_eq_nil_iff.mp (List.isEmpty_iff.mp empty))
      · cases read
    · cases read
  · intro spells
    obtain @⟨before, spelled, after, leading, value, trailing⟩ := spells
    have ends : Ends (after ++ []) := ends_blanks trailing [] (by rintro _ ⟨⟩)
    rw [List.append_nil] at ends
    have enough : 2 * spelled.length < 2 * (before ++ (spelled ++ after)).length + 2 := by
      simp only [List.length_append]
      omega
    rw [Tree.ofChars?, value.accepts _ before after enough leading ends]
    simp [skip_eq_nil_iff.mpr trailing]

end Complete

/-! ## Trees that have a value -/

namespace Tree

mutual

/-- How many arrays and objects stand within each other. -/
def nesting : Tree → Nat
  | .null | .bool _ | .number _ | .string _ => 0
  | .array elements => nestingOfElements elements + 1
  | .object members => nestingOfMembers members + 1

def nestingOfElements : List Tree → Nat
  | [] => 0
  | element :: rest => max element.nesting (nestingOfElements rest)

def nestingOfMembers : List (Option String × Tree) → Nat
  | [] => 0
  | (_, value) :: rest => max value.nesting (nestingOfMembers rest)

end

mutual

/-- No number of a tree is too large for a floating-point number. -/
def FiniteNumbers : Tree → Prop
  | .null | .bool _ | .string _ => True
  | .number numeral => numeral.value?.isSome = true
  | .array elements => FiniteNumbersOfElements elements
  | .object members => FiniteNumbersOfMembers members

def FiniteNumbersOfElements : List Tree → Prop
  | [] => True
  | element :: rest => element.FiniteNumbers ∧ FiniteNumbersOfElements rest

def FiniteNumbersOfMembers : List (Option String × Tree) → Prop
  | [] => True
  | (_, value) :: rest => value.FiniteNumbers ∧ FiniteNumbersOfMembers rest

end

mutual

/-- No string and no key of a tree has a surrogate without its partner. -/
def PairedSurrogates : Tree → Prop
  | .null | .bool _ | .number _ => True
  | .string content => content.isSome = true
  | .array elements => PairedSurrogatesOfElements elements
  | .object members => PairedSurrogatesOfMembers members

def PairedSurrogatesOfElements : List Tree → Prop
  | [] => True
  | element :: rest => element.PairedSurrogates ∧ PairedSurrogatesOfElements rest

def PairedSurrogatesOfMembers : List (Option String × Tree) → Prop
  | [] => True
  | (key, value) :: rest => key.isSome = true ∧ value.PairedSurrogates ∧
    PairedSurrogatesOfMembers rest

end

mutual

/-- The strings and keys of a tree are text, and its numbers are finite. -/
def Meaningful : Tree → Prop
  | .null | .bool _ => True
  | .number numeral => numeral.value?.isSome = true
  | .string content => content.isSome = true
  | .array elements => MeaningfulElements elements
  | .object members => MeaningfulMembers members

def MeaningfulElements : List Tree → Prop
  | [] => True
  | element :: rest => element.Meaningful ∧ MeaningfulElements rest

def MeaningfulMembers : List (Option String × Tree) → Prop
  | [] => True
  | (key, value) :: rest => key.isSome = true ∧ value.Meaningful ∧ MeaningfulMembers rest

end

mutual

/-- A tree means something if its numbers are finite and its surrogates are paired. -/
theorem meaningful_iff : ∀ tree : Tree, tree.Meaningful ↔ tree.FiniteNumbers ∧ tree.PairedSurrogates
  | .null | .bool _ | .number _ | .string _ => by simp [Meaningful, FiniteNumbers, PairedSurrogates]
  | .array elements => by
    simp only [Meaningful, FiniteNumbers, PairedSurrogates, meaningfulElements_iff elements]
  | .object members => by
    simp only [Meaningful, FiniteNumbers, PairedSurrogates, meaningfulMembers_iff members]

/-- The elements of an array are meaningful exactly if their numbers are finite and their surrogates
are paired. -/
theorem meaningfulElements_iff : ∀ elements : List Tree,
    MeaningfulElements elements ↔ FiniteNumbersOfElements elements ∧
    PairedSurrogatesOfElements elements
  | [] => by simp [MeaningfulElements, FiniteNumbersOfElements, PairedSurrogatesOfElements]
  | element :: rest => by
    rw [MeaningfulElements, FiniteNumbersOfElements, PairedSurrogatesOfElements,
      meaningful_iff element, meaningfulElements_iff rest, and_and_and_comm]

/-- The members of an object are meaningful exactly if their numbers are finite and their surrogates
are paired. -/
theorem meaningfulMembers_iff : ∀ members : List (Option String × Tree),
    MeaningfulMembers members ↔ FiniteNumbersOfMembers members ∧ PairedSurrogatesOfMembers members
  | [] => by simp [MeaningfulMembers, FiniteNumbersOfMembers, PairedSurrogatesOfMembers]
  | (key, value) :: rest => by
    rw [MeaningfulMembers, FiniteNumbersOfMembers, PairedSurrogatesOfMembers, meaningful_iff value,
      meaningfulMembers_iff rest, and_and_and_comm, and_left_comm]

end

end Tree

mutual

/-- A tree has a value exactly if it is not nested too deep and is meaningful. -/
theorem ofTree?_isSome_iff : ∀ (tree : Tree) {depth : Nat}, 0 < depth →
    ((ofTree? depth tree).isSome = true ↔ tree.nesting < depth ∧ tree.Meaningful)
  | .null, _, positive | .bool _, _, positive => by
    simp [ofTree?, Tree.nesting, Tree.Meaningful, positive]
  | .number _, _, positive | .string _, _, positive => by
    simp [ofTree?, Tree.nesting, Tree.Meaningful, positive]
  | .array elements, depth, _ => by
    rw [ofTree?, Tree.nesting, Tree.Meaningful]
    split
    · next deep =>
      rw [Option.isSome_map, elementsOfTrees?_isSome_iff elements (by omega)]
      exact and_congr_left fun _ => by omega
    · next shallow =>
      simp only [Option.isSome_none, Bool.false_eq_true, false_iff]
      omega
  | .object members, depth, _ => by
    rw [ofTree?, Tree.nesting, Tree.Meaningful]
    split
    · next deep =>
      rw [Option.isSome_map, membersOfTrees?_isSome_iff members [] (by omega)]
      exact and_congr_left fun _ => by omega
    · next shallow =>
      simp only [Option.isSome_none, Bool.false_eq_true, false_iff]
      omega

/-- The elements of an array have values exactly if none is nested too deep and all are meaningful.
-/
theorem elementsOfTrees?_isSome_iff : ∀ (elements : List Tree) {depth : Nat}, 0 < depth →
    ((elementsOfTrees? depth elements).isSome = true ↔
      Tree.nestingOfElements elements < depth ∧ Tree.MeaningfulElements elements)
  | [], _, positive => by
    simp [elementsOfTrees?, Tree.nestingOfElements, Tree.MeaningfulElements, positive]
  | element :: rest, depth, positive => by
    have first := ofTree?_isSome_iff element positive
    have others := elementsOfTrees?_isSome_iff rest positive
    rw [elementsOfTrees?, Tree.nestingOfElements, Tree.MeaningfulElements, Nat.max_lt,
      and_and_and_comm, ← first, ← others]
    cases ofTree? depth element <;> cases elementsOfTrees? depth rest <;> simp

/-- The members of an object have values exactly if none is nested too deep and all are meaningful,
whatever members came before. -/
theorem membersOfTrees?_isSome_iff :
    ∀ (trees : List (Option String × Tree)) (members : List (String × Json))
    {depth : Nat}, 0 < depth → ((membersOfTrees? depth trees members).isSome = true ↔
      Tree.nestingOfMembers trees < depth ∧ Tree.MeaningfulMembers trees)
  | [], _, _, positive => by
    simp [membersOfTrees?, Tree.nestingOfMembers, Tree.MeaningfulMembers, positive]
  | (none, _) :: _, _, _, _ => by simp [membersOfTrees?, Tree.MeaningfulMembers]
  | (some key, tree) :: rest, members, depth, positive => by
    have first := ofTree?_isSome_iff tree positive
    rw [membersOfTrees?, Tree.nestingOfMembers, Tree.MeaningfulMembers, Nat.max_lt,
      Option.isSome_some, eq_self, true_and, and_and_and_comm, ← first]
    cases made : ofTree? depth tree with
    | none => simp
    | some value =>
      simp only [Option.isSome_some, true_and]
      exact membersOfTrees?_isSome_iff rest (insertMember key value members) positive

end

/-- A text is strict JSON if it spells a tree by the grammar and keeps the three limits of a reader:
arrays and objects nest less than `depthLimit` deep, numbers are finite, and surrogates are
paired. -/
def Strict (text : List Char) (tree : Tree) : Prop :=
  SpellsText tree text ∧ tree.nesting < depthLimit ∧ tree.FiniteNumbers ∧ tree.PairedSurrogates

/-- A text has a value exactly if it is strict JSON, and it is the value of what it spells. -/
theorem ofText?_eq_some_iff {text : String} {value : Json} :
    ofText? text = some value ↔ ∃ tree, Strict text.toList tree ∧
    ofTree? depthLimit tree = some value := by
  rw [ofText?, Tree.ofText?, Option.bind_eq_some_iff]
  refine exists_congr fun tree => ?_
  rw [Tree.ofChars?_eq_some_iff, Strict, ← tree.meaningful_iff, and_assoc]
  refine and_congr_right fun _ => ⟨fun made => ⟨?_, made⟩, And.right⟩
  exact (ofTree?_isSome_iff tree (by decide)).mp (Option.isSome_of_eq_some made)

/-! ## The keys of an object -/

section Keys

variable {members : List (String × Json)} {key : String} {value : Json}

/-- The members of an object stand in the order of their keys, which are distinct. -/
def KeysOrdered (members : List (String × Json)) : Prop :=
  members.Pairwise fun earlier later => earlier.1 < later.1

/-- The keys after a member is inserted are its own and those that were there. -/
theorem key_of_mem_insertMember {member : String × Json}
    (inserted : member ∈ insertMember key value members) :
    member.1 = key ∨ member ∈ members := by
  induction members with
  | nil =>
    rw [insertMember, List.mem_singleton] at inserted
    exact .inl (congrArg Prod.fst inserted)
  | cons first rest ih =>
    rw [insertMember] at inserted
    split at inserted
    · rcases List.mem_cons.mp inserted with rfl | old
      · exact .inl rfl
      · exact .inr old
    · split at inserted
      · rcases List.mem_cons.mp inserted with rfl | old
        · exact .inl rfl
        · exact .inr (List.mem_cons_of_mem _ old)
      · rcases List.mem_cons.mp inserted with rfl | later
        · exact .inr List.mem_cons_self
        · exact (ih later).imp_right (List.mem_cons_of_mem _)

/-- Members stay in order when one is inserted. -/
theorem KeysOrdered.insertMember (ordered : KeysOrdered members) (key : String) (value : Json) :
    KeysOrdered (insertMember key value members) := by
  induction members with
  | nil => exact List.pairwise_singleton _ _
  | cons first rest ih =>
    obtain ⟨front, back⟩ := List.pairwise_cons.mp ordered
    rw [Json.insertMember]
    split
    · next before =>
      refine List.pairwise_cons.mpr ⟨fun member present => ?_, ordered⟩
      rcases List.mem_cons.mp present with rfl | later
      · exact before
      · exact String.lt_trans before (front member later)
    · next notBefore =>
      split
      · next same =>
        exact List.pairwise_cons.mpr ⟨fun member present => same ▸ front member present, back⟩
      · next other =>
        have behind : first.1 < key :=
          String.not_le.mp fun le => notBefore (Std.lt_of_le_of_ne le other)
        refine List.pairwise_cons.mpr ⟨fun member present => ?_, ih back⟩
        rcases key_of_mem_insertMember present with named | old
        · rwa [named]
        · exact front member old

/-- The members of an object are put in order as they are read. -/
theorem KeysOrdered.membersOfTrees? {depth : Nat} {trees : List (Option String × Tree)}
    {result : List (String × Json)} (ordered : KeysOrdered members)
    (made : membersOfTrees? depth trees members = some result) : KeysOrdered result := by
  induction trees generalizing members with
  | nil =>
    cases made
    exact ordered
  | cons first rest ih =>
    obtain ⟨_ | key, tree⟩ := first
    · cases made
    · rw [Json.membersOfTrees?] at made
      split at made
      · exact ih (ordered.insertMember _ _) made
      · cases made

/-- An object that is read has its members in order. -/
theorem keysOrdered_of_ofTree? {depth : Nat} {tree : Tree}
    (made : ofTree? depth tree = some (.object members)) :
    KeysOrdered members := by
  cases tree with
  | object trees =>
    rw [ofTree?] at made
    split at made
    · obtain ⟨_, found, same⟩ := Option.map_eq_some_iff.mp made
      cases same
      exact KeysOrdered.membersOfTrees? List.Pairwise.nil found
    · cases made
  | null | bool => cases made
  | number | string => simp [ofTree?] at made
  | array => simp [ofTree?] at made

/-- Each member is made a tree under its own key. -/
theorem memberTrees_eq_map (members : List (String × Json)) :
    memberTrees members = members.map fun member => (some member.1, member.2.toTree) := by
  induction members with
  | nil => rfl
  | cons first rest ih => rw [memberTrees, ih, List.map_cons]

/-- Keys that are in strict order are distinct. -/
theorem KeysOrdered.nodup (ordered : KeysOrdered members) : (members.map Prod.fst).Nodup := by
  refine List.Pairwise.map Prod.fst (fun earlier later before => ?_) ordered
  exact Std.ne_of_lt before

/-- At most one member has a given key. -/
theorem KeysOrdered.length_le_one (ordered : KeysOrdered members)
    (named : ∀ member ∈ members, member.1 = key) :
    members.length ≤ 1 := by
  match members with
  | [] | [_] => simp
  | first :: second :: rest =>
    have before := (List.pairwise_cons.mp ordered).1 second List.mem_cons_self
    rw [named first (by simp), named second (by simp)] at before
    exact (String.lt_irrefl key before).elim

/-- No record sees a key twice. -/
theorem KeysOrdered.distinct (ordered : KeysOrdered members) (keys : List String) :
    keysDistinct keys (memberTrees members) = true := by
  have single (key : String) : (members.filter fun member => member.1 = key).length ≤ 1 :=
    KeysOrdered.length_le_one (List.Pairwise.filter _ ordered) fun _ kept =>
      of_decide_eq_true (List.mem_filter.mp kept).2
  simp [keysDistinct, memberTrees_eq_map, List.filter_map, Function.comp_def, single]

/-- A field of an object is what the object holds for the key. -/
theorem KeysOrdered.fieldOf_eq_given_iff (ordered : KeysOrdered members) {tree : Tree} :
    fieldOf (memberTrees members) key = .given tree ↔
      ∃ value, (key, value) ∈ members ∧ value.toTree = tree := by
  have found : (memberTrees members).find? (fun member => member.1 = some key) =
      (members.find? fun member => member.1 = key).map fun member =>
    (some member.1, member.2.toTree) := by
    simp only [memberTrees_eq_map, List.find?_map, Function.comp_def, Option.some.injEq]
  rw [fieldOf, found]
  cases named : members.find? fun member => member.1 = key with
  | none =>
    have absent := List.find?_eq_none.mp named
    simp only [Option.map_none, reduceCtorEq, false_iff, not_exists, not_and]
    intro value present
    exact (absent _ present (by simp)).elim
  | some member =>
    obtain ⟨name, held⟩ := member
    obtain rfl : name = key := by simpa using List.find?_some named
    have present := List.mem_of_find?_eq_some named
    simp only [Option.map_some, Field.given.injEq]
    constructor
    · rintro rfl
      exact ⟨held, present, rfl⟩
    · rintro ⟨value, other, rfl⟩
      cases List.inj_on_of_nodup_map ordered.nodup present other rfl
      rfl

end Keys

end Prepaid.Json
