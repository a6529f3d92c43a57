import Mathlib.Data.List.Basic
import Mathlib.Data.List.TakeWhile
import Prepaid.Proofs.Json.Objects

/-!
# The grammar of JSON

What it means that a text spells a tree, without saying how it is read. Here the
reader is followed through blanks, numbers, strings and keys; with these it takes what is
spelled, and nothing else.
-/

namespace Prepaid.Json

open Reader

/-! ## Texts and what they spell -/

/-- Blanks may stand around every symbol. -/
def Blanks (text : List Char) : Prop :=
  ∀ c ∈ text, c = ' ' ∨ c = '\n' ∨ c = '\t' ∨ c = '\r'

/-- At least one digit, and nothing else. -/
structure Digits (text : List Char) : Prop where
  nonempty : text ≠ []
  each : ∀ c ∈ text, c.isDigit = true

/-- The letters that stand behind a backslash for one character, and that character. -/
def escapes : List (Char × Char) :=
  [('"', '"'), ('\\', '\\'), ('/', '/'), ('b', '\x08'), ('f', '\x0c'), ('n', '\n'), ('r', '\r'),
    ('t', '\t')]

/-- A character of a string, or a code unit of one. -/
inductive SpellsPiece : Piece → List Char → Prop where
  | plain {c : Char} (quote : c ≠ '"') (backslash : c ≠ '\\') (visible : 32 ≤ c.toNat) :
    SpellsPiece (.literal c) [c]
  | escape {letter c : Char} (listed : (letter, c) ∈ escapes) : SpellsPiece
    (.literal c) ['\\', letter]
  | code {digits : List Char} {value : Nat} (four : digits.length = 4)
    (hex : Text.digits? 16 Text.hexDigit? digits = some value) : SpellsPiece (.code value)
      ('\\' :: 'u' :: digits)

/-- What stands between the quotes of a string. -/
inductive SpellsPieces : List Piece → List Char → Prop where
  | nil : SpellsPieces [] []
  | cons {piece : Piece} {pieces : List Piece} {first rest : List Char}
    (head : SpellsPiece piece first) (tail : SpellsPieces pieces rest) : SpellsPieces
    (piece :: pieces) (first ++ rest)

/-- A string in its quotes. Its surrogates may be without partners, and then it has no content. -/
inductive SpellsString : Option String → List Char → Prop where
  | quoted {pieces : List Piece} {text : List Char} (spells : SpellsPieces pieces text) :
    SpellsString ((assemble? pieces).map String.ofList) ('"' :: (text ++ ['"']))

/-- The places of a number, with the point in front of them. -/
inductive SpellsFraction : List Char → List Char → Prop where
  | none : SpellsFraction [] []
  | places {digits : List Char} (spells : Digits digits) : SpellsFraction digits ('.' :: digits)

/-- The exponent of a number. A plus sign is optional. -/
inductive SpellsExponent : Option Exponent → List Char → Prop where
  | none : SpellsExponent none []
  | power {mark : Char} {negative : Bool} {sign digits : List Char}
    (marked : mark = 'e' ∨ mark = 'E')
    (signed : (negative, sign) ∈ [(false, []), (false, ['+']), (true, ['-'])])
    (spells : Digits digits) : SpellsExponent (some ⟨negative, digits⟩) (mark :: (sign ++ digits))

/-- A number. Only a zero starts with a zero. -/
inductive SpellsNumber : NumberText → List Char → Prop where
  | number {negative : Bool} {whole fraction places power : List Char} {exponent : Option Exponent}
    (digits : Digits whole) (leading : whole.head? = some '0' → whole.length = 1)
    (fractional : SpellsFraction fraction places) (powered : SpellsExponent exponent power) :
    SpellsNumber ⟨negative, whole, fraction, exponent⟩
      ((if negative then ['-'] else []) ++ (whole ++ (places ++ power)))

/-- What the rules of the grammar are about: a value, or what stands between brackets or braces. -/
inductive Phrase where
  | value (tree : Tree)
  | elements (elements : List Tree)
  | members (members : List (Option String × Tree))

/-- A text spells a phrase. There are no blanks around a value, and no comma behind the last of
several. -/
inductive Spells : Phrase → List Char → Prop where
  | null : Spells (.value .null) ['n', 'u', 'l', 'l']
  | true : Spells (.value (.bool true)) ['t', 'r', 'u', 'e']
  | false : Spells (.value (.bool false)) ['f', 'a', 'l', 's', 'e']
  | number {number : NumberText} {text : List Char} (spells : SpellsNumber number text) :
    Spells (.value (.number (.spelled number))) text
  | string {content : Option String} {text : List Char} (spells : SpellsString content text) :
    Spells (.value (.string content)) text
  | emptyArray {gap : List Char} (blanks : Blanks gap) : Spells (.value (.array []))
    ('[' :: (gap ++ [']']))
  | array {elements : List Tree} {text : List Char} (inner : Spells (.elements elements) text) :
    Spells (.value (.array elements)) ('[' :: (text ++ [']']))
  | emptyObject {gap : List Char} (blanks : Blanks gap) :
    Spells (.value (.object [])) ('\x7b' :: (gap ++ ['\x7d']))
  | object {members : List (Option String × Tree)} {text : List Char}
    (inner : Spells (.members members) text) : Spells (.value (.object members))
      ('\x7b' :: (text ++ ['\x7d']))
  | lastElement {element : Tree} {before text after : List Char} (leading : Blanks before)
    (value : Spells (.value element) text) (trailing : Blanks after) :
    Spells (.elements [element]) (before ++ (text ++ after))
  | element {element : Tree} {elements : List Tree} {before text after rest : List Char}
    (leading : Blanks before) (value : Spells (.value element) text) (trailing : Blanks after)
    (others : Spells (.elements elements) rest) :
    Spells (.elements (element :: elements)) (before ++ (text ++ (after ++ ',' :: rest)))
  | lastMember {key : Option String} {value : Tree} {before name gap between text after : List Char}
    (leading : Blanks before) (named : SpellsString key name) (apart : Blanks gap)
    (colon : Blanks between) (held : Spells (.value value) text) (trailing : Blanks after) :
    Spells (.members [(key, value)])
      (before ++ (name ++ (gap ++ ':' :: (between ++ (text ++ after)))))
  | member {key : Option String} {value : Tree} {members : List (Option String × Tree)}
    {before name gap between text after rest : List Char} (leading : Blanks before)
    (named : SpellsString key name) (apart : Blanks gap) (colon : Blanks between)
    (held : Spells (.value value) text) (trailing : Blanks after)
    (others : Spells (.members members) rest) : Spells (.members ((key, value) :: members))
      (before ++ (name ++ (gap ++ ':' :: (between ++ (text ++ (after ++ ',' :: rest))))))

/-- A whole text: one value with blanks around it. -/
inductive SpellsText : Tree → List Char → Prop where
  | text {tree : Tree} {before text after : List Char} (leading : Blanks before)
    (value : Spells (.value tree) text) (trailing : Blanks after) :
    SpellsText tree (before ++ (text ++ after))

/-! ## Blanks -/

section Blanks

variable {text rest blanks : List Char}

/-- The reader drops blanks and nothing else. -/
theorem exists_skip (text : List Char) : ∃ blanks, Blanks blanks ∧ text = blanks ++ skip text := by
  refine ⟨text.takeWhile fun c => c = ' ' ∨ c = '\n' ∨ c = '\t' ∨ c = '\r', fun c member => ?_,
    (List.takeWhile_append_dropWhile).symm⟩
  simpa using List.mem_takeWhile_imp member

/-- Blanks are skipped. -/
theorem skip_append (leading : Blanks blanks) (rest : List Char) :
    skip (blanks ++ rest) = skip rest := by
  rw [skip, List.dropWhile_append_of_pos]
  · rfl
  · intro c member
    simpa using leading c member

/-- A symbol is no blank, so nothing behind it is dropped. -/
theorem skip_blanks_cons {c : Char} (leading : Blanks blanks)
    (visible : c ≠ ' ' ∧ c ≠ '\n' ∧ c ≠ '\t' ∧ c ≠ '\r') (rest : List Char) :
    skip (blanks ++ c :: rest) = c :: rest := by
  rw [skip_append leading, skip_cons visible]

/-- Only blanks are skipped to the end. -/
theorem skip_eq_nil_iff : skip text = [] ↔ Blanks text := by
  simp [skip, Blanks, List.dropWhile_eq_nil_iff]

end Blanks

/-! ## Numbers -/

section Numbers

variable {text digits rest : List Char}

/-- What may stand behind a number: nothing that would carry it on. -/
def Ends (rest : List Char) : Prop :=
  ∀ c ∈ rest.head?, c.isDigit = false ∧ c ≠ '.' ∧ c ≠ 'e' ∧ c ≠ 'E'

/-- No digit stands behind a number. -/
theorem Ends.noDigit (ends : Ends rest) : Text.NoDigit rest :=
  fun c head => (ends c head).1

/-- All digits in front are read, and at least one. -/
theorem digits?_eq_some_iff :
    Reader.digits? text = some (digits, rest) ↔ text = digits ++ rest ∧ Digits digits ∧
    Text.NoDigit rest := by
  rw [Reader.digits?, List.span_eq_takeWhile_dropWhile]
  constructor
  · intro read
    simp only [List.isEmpty_iff] at read
    split at read
    · cases read
    · next nonempty =>
      cases read
      refine ⟨List.takeWhile_append_dropWhile.symm,
        ⟨nonempty, fun c member => List.mem_takeWhile_imp member⟩, ?_⟩
      intro c head
      have other := List.head?_dropWhile_not Char.isDigit text
      rw [Option.mem_def.mp head] at other
      simpa using other
  · rintro ⟨rfl, spells, ends⟩
    rw [Text.takeWhile_digits spells.each ends, Text.dropWhile_digits spells.each ends]
    simp [spells.nonempty]

/-- The whole part takes all digits in front, and has no leading zero. -/
theorem whole?_eq_some_iff : whole? text = some (digits, rest) ↔
    text = digits ++ rest ∧ Digits digits ∧ (digits.head? = some '0' → digits.length = 1) ∧
      Text.NoDigit rest := by
  rw [whole?, Option.filter_eq_some_iff, digits?_eq_some_iff]
  simp only [Bool.or_eq_true, decide_eq_true_eq, bne_iff_ne]
  by_cases zero : digits.head? = some '0' <;> simp [zero, and_comm, and_left_comm]

/-- The fraction that is read has been spelled. -/
theorem fraction?_sound {fraction : List Char} (read : fraction? text = some (fraction, rest)) :
    ∃ places, text = places ++ rest ∧ SpellsFraction fraction places := by
  unfold fraction? at read
  split at read
  · obtain ⟨rfl, spells, _⟩ := digits?_eq_some_iff.mp read
    exact ⟨_, rfl, .places spells⟩
  · cases read
    exact ⟨[], rfl, .none⟩

/-- A fraction that is spelled is read. -/
theorem fraction?_complete {fraction places : List Char} (spells : SpellsFraction fraction places)
    (ends : Text.NoDigit rest) (point : rest.head? ≠ some '.') :
    fraction? (places ++ rest) = some (fraction, rest) := by
  cases spells with
  | none =>
    rw [List.nil_append]
    unfold fraction?
    split
    · simp at point
    · rfl
  | places spells =>
    rw [List.cons_append, fraction?]
    exact digits?_eq_some_iff.mpr ⟨rfl, spells, ends⟩

/-- The exponent that is read has been spelled. -/
theorem exponent?_sound {exponent : Option Exponent}
    (read : exponent? text = some (exponent, rest)) :
    ∃ power, text = power ++ rest ∧ SpellsExponent exponent power := by
  unfold exponent? at read
  split at read
  · split at read
    · next marked =>
      split at read
      all_goals
        obtain ⟨⟨digits, behind⟩, found, same⟩ := Option.map_eq_some_iff.mp read
        obtain ⟨rfl, spells, _⟩ := digits?_eq_some_iff.mp found
        cases same
      · exact ⟨_ :: (['-'] ++ digits), rfl, .power marked (by simp) spells⟩
      · exact ⟨_ :: (['+'] ++ digits), rfl, .power marked (by simp) spells⟩
      · exact ⟨_ :: ([] ++ digits), rfl, .power marked (by simp) spells⟩
    · cases read
      exact ⟨[], rfl, .none⟩
  · cases read
    exact ⟨[], rfl, .none⟩

/-- An exponent that is spelled is read. -/
theorem exponent?_complete {exponent : Option Exponent} {power : List Char}
    (spells : SpellsExponent exponent power) (ends : Ends rest) :
    exponent? (power ++ rest) = some (exponent, rest) := by
  cases spells with
  | none =>
    cases rest with
    | nil => rfl
    | cons c rest =>
      obtain ⟨_, _, lower, upper⟩ := ends c rfl
      simp [exponent?, lower, upper]
  | @power mark negative sign digits marked signed spells =>
    have read : Reader.digits? (digits ++ rest) = some (digits, rest) :=
      digits?_eq_some_iff.mpr ⟨rfl, spells, ends.noDigit⟩
    simp only [List.mem_cons, Prod.mk.injEq, List.not_mem_nil, or_false] at signed
    rcases signed with ⟨rfl, rfl⟩ | ⟨rfl, rfl⟩ | ⟨rfl, rfl⟩
    · -- Without a sign there is a digit, which is none.
      obtain ⟨c, others, rfl⟩ := List.exists_cons_of_ne_nil spells.nonempty
      have digit := spells.each c List.mem_cons_self
      simp only [List.nil_append, List.cons_append, exponent?, if_pos marked]
      split
      · next minus => cases minus; cases digit
      · next plus => cases plus; cases digit
      · rw [← List.cons_append, read]; rfl
    · simp only [List.cons_append, List.nil_append, exponent?, if_pos marked, read, Option.map_some]
    · simp only [List.cons_append, List.nil_append, exponent?, if_pos marked, read, Option.map_some]

/-- The number that is read behind a sign has been spelled. -/
theorem unsigned?_sound {negative : Bool} {number : NumberText}
    (read : unsigned? negative text = some (number, rest)) :
    ∃ spelled, text = spelled ++ rest ∧
      SpellsNumber number ((if negative then ['-'] else []) ++ spelled) := by
  simp only [unsigned?, Option.bind_eq_bind, Option.bind_eq_some_iff, Prod.exists, Option.pure_def,
    Option.some.injEq, Prod.mk.injEq] at read
  obtain ⟨whole, _, first, fraction, _, second, exponent, _, third, rfl, rfl⟩ := read
  obtain ⟨rfl, digits, leading, _⟩ := whole?_eq_some_iff.mp first
  obtain ⟨places, rfl, fractional⟩ := fraction?_sound second
  obtain ⟨power, rfl, powered⟩ := exponent?_sound third
  exact ⟨whole ++ (places ++ power), by simp, .number digits leading fractional powered⟩

/-- The number that is read has been spelled. -/
theorem number?_sound {number : NumberText} (read : number? text = some (number, rest)) :
    ∃ spelled, text = spelled ++ rest ∧ SpellsNumber number spelled := by
  unfold number? at read
  split at read <;> obtain ⟨spelled, rfl, spells⟩ := unsigned?_sound read
  · exact ⟨'-' :: spelled, rfl, spells⟩
  · exact ⟨spelled, rfl, spells⟩

/-- Behind the digits of a number there is a point, or a mark, or what ends the number. -/
theorem noDigit_behind_whole {fraction places power : List Char} {exponent : Option Exponent}
    (fractional : SpellsFraction fraction places) (powered : SpellsExponent exponent power)
    (ends : Ends rest) :
    Text.NoDigit (places ++ (power ++ rest)) ∧ Text.NoDigit (power ++ rest) ∧
      (power ++ rest).head? ≠ some '.' := by
  have behind : Text.NoDigit (power ++ rest) ∧ (power ++ rest).head? ≠ some '.' := by
    cases powered with
    | none =>
      refine ⟨ends.noDigit, fun head => ?_⟩
      exact (ends '.' head).2.1 rfl
    | power marked => rcases marked with rfl | rfl <;> exact ⟨Text.noDigit_cons.mpr rfl, by simp⟩
  refine ⟨?_, behind⟩
  cases fractional with
  | none => exact behind.1
  | places => exact Text.noDigit_cons.mpr rfl

/-- A number that is spelled is read, if what follows does not carry it on. -/
theorem number?_complete {number : NumberText} {spelled : List Char}
    (spells : SpellsNumber number spelled) (ends : Ends rest) :
    number? (spelled ++ rest) = some (number, rest) := by
  obtain @⟨negative, whole, fraction, places, power, exponent, digits, leading, fractional,
      powered⟩ := spells
  obtain ⟨behindWhole, behindPlaces, point⟩ := noDigit_behind_whole fractional powered ends
  have unsigned : unsigned? negative (whole ++ (places ++ (power ++ rest))) =
      some (⟨negative, whole, fraction, exponent⟩, rest) := by
    simp only [unsigned?, whole?_eq_some_iff.mpr ⟨rfl, digits, leading, behindWhole⟩,
      fraction?_complete fractional behindPlaces point, exponent?_complete powered ends,
      Option.bind_eq_bind, Option.bind_some, Option.pure_def]
  simp only [List.append_assoc]
  cases negative with
  | true => exact unsigned
  | false =>
    -- A number without a sign starts with a digit.
    obtain ⟨c, others, rfl⟩ := List.exists_cons_of_ne_nil digits.nonempty
    have digit := digits.each c List.mem_cons_self
    refine Eq.trans ?_ unsigned
    rw [if_neg Bool.false_ne_true, List.nil_append]
    unfold number?
    split
    · next minus =>
      cases minus
      cases digit
    · rfl

end Numbers

/-! ## Strings -/

section Strings

variable {text rest : List Char}

/-- The escape that is read has been spelled, behind its backslash. -/
theorem escape?_sound {piece : Piece} (read : escape? text = some (piece, rest)) :
    ∃ escaped, text = escaped ++ rest ∧ SpellsPiece piece ('\\' :: escaped) := by
  unfold escape? at read
  split at read
  case h_9 _ =>
    obtain ⟨⟨value, behind⟩, found, same⟩ := Option.map_eq_some_iff.mp read
    cases same
    unfold fourHex? at found
    split at found
    · obtain ⟨_, hex, same⟩ := Option.map_eq_some_iff.mp found
      cases same
      exact ⟨_ :: _, rfl, .code rfl hex⟩
    · cases found
  case h_10 => cases read
  all_goals
    cases read
    exact ⟨[_], rfl, .escape (by simp [escapes])⟩

/-- The pieces that are read have been spelled, up to the quote. -/
theorem pieces?_sound {limit : Nat} {pieces : List Piece}
    (read : pieces? limit text = some (pieces, rest)) :
    ∃ spelled, text = spelled ++ '"' :: rest ∧ SpellsPieces pieces spelled := by
  induction limit generalizing text pieces with
  | zero => cases read
  | succ limit ih =>
    cases text with
    | nil => cases read
    | cons c text =>
      unfold pieces? at read
      split at read
      · next quote =>
        cases read
        exact ⟨[], by rw [quote]; rfl, .nil⟩
      · next quote =>
        split at read
        · next backslash =>
          split at read
          · next piece behind escaped =>
            obtain ⟨⟨others, after⟩, found, same⟩ := Option.map_eq_some_iff.mp read
            cases same
            obtain ⟨front, rfl, spells⟩ := escape?_sound escaped
            obtain ⟨spelled, rfl, rest⟩ := ih found
            exact ⟨'\\' :: front ++ spelled, by simp [backslash], .cons spells rest⟩
          · cases read
        · next backslash =>
          split at read
          · cases read
          · next visible =>
            obtain ⟨⟨others, after⟩, found, same⟩ := Option.map_eq_some_iff.mp read
            cases same
            obtain ⟨spelled, rfl, rest⟩ := ih found
            exact ⟨[c] ++ spelled, rfl, .cons (.plain quote backslash (by omega)) rest⟩

/-- Pieces that are spelled are read, up to the quote. -/
theorem pieces?_complete {limit : Nat} {pieces : List Piece} {spelled : List Char}
    (spells : SpellsPieces pieces spelled) (enough : spelled.length < limit) :
    pieces? limit (spelled ++ '"' :: rest) = some (pieces, rest) := by
  induction spells generalizing limit with
  | nil =>
    obtain ⟨limit, rfl⟩ := Nat.exists_eq_add_one_of_ne_zero (Nat.ne_zero_of_lt enough)
    simp [pieces?]
  | @cons piece pieces first behind head tail ih =>
    obtain ⟨limit, rfl⟩ := Nat.exists_eq_add_one_of_ne_zero (Nat.ne_zero_of_lt enough)
    rw [List.length_append] at enough
    rw [List.append_assoc]
    have later (short : behind.length < limit) :
        pieces? limit (behind ++ '"' :: rest) = some (pieces, rest) := ih short
    cases head with
    | plain quote backslash visible =>
      rw [List.length_singleton] at enough
      simp [pieces?, quote, backslash, Nat.not_lt.mpr visible, later (by omega)]
    | @escape letter c listed =>
      have escaped : escape? (letter :: (behind ++ '"' :: rest)) =
          some (.literal c, behind ++ '"' :: rest) := by
        simp only [escapes, List.mem_cons, Prod.mk.injEq, List.not_mem_nil, or_false] at listed
        rcases listed with ⟨rfl, rfl⟩ | ⟨rfl, rfl⟩ | ⟨rfl, rfl⟩ | ⟨rfl, rfl⟩ | ⟨rfl, rfl⟩ | ⟨rfl,
          rfl⟩ |
          ⟨rfl, rfl⟩ | ⟨rfl, rfl⟩ <;> rfl
      simp only [List.length_cons, List.length_nil] at enough
      refine (pieces?_backslash escaped).trans ?_
      rw [later (by omega), Option.map_some]
    | @code digits value four hex =>
      obtain ⟨a, b, c, d, rfl⟩ := List.length_eq_four.mp four
      have escaped : escape? ('u' :: a :: b :: c :: d :: (behind ++ '"' :: rest)) =
          some (.code value, behind ++ '"' :: rest) := by
        simp [escape?, fourHex?, hex]
      simp only [List.length_cons] at enough
      refine (pieces?_backslash escaped).trans ?_
      rw [later (by omega), Option.map_some]

/-- The string that is read has been spelled. -/
theorem string?_sound {content : Option String} (read : string? text = some (content, rest)) :
    ∃ spelled, text = spelled ++ rest ∧ SpellsString content ('"' :: spelled) := by
  obtain ⟨⟨pieces, behind⟩, found, same⟩ := Option.map_eq_some_iff.mp read
  cases same
  obtain ⟨spelled, rfl, spells⟩ := pieces?_sound found
  exact ⟨spelled ++ ['"'], by simp, .quoted spells⟩

/-- A string that is spelled is read, whatever follows. -/
theorem string?_complete {content : Option String} {spelled : List Char}
    (spells : SpellsString content spelled) :
    ∃ behind, spelled = '"' :: behind ∧ ∀ rest, string? (behind ++ rest) =
      some (content, rest) := by
  obtain ⟨spells⟩ := spells
  refine ⟨_, rfl, fun rest => ?_⟩
  rw [List.append_assoc, List.singleton_append, string?,
    pieces?_complete spells (by simp only [List.length_append]; omega)]
  rfl

end Strings

/-! ## Keys -/

section Keys

variable {text rest : List Char} {key : Option String}

/-- The key that is read has been spelled, with blanks around it and its colon. -/
theorem key?_sound (read : key? text = some (key, rest)) :
    ∃ before name gap, text = before ++ (name ++ (gap ++ ':' :: rest)) ∧ Blanks before ∧
      SpellsString key name ∧ Blanks gap := by
  unfold key? at read
  obtain ⟨before, leading, split⟩ := exists_skip text
  split at read
  · next behind head =>
    split at read
    · next found behind quoted =>
      obtain ⟨spelled, rfl, spells⟩ := string?_sound quoted
      obtain ⟨gap, apart, splitGap⟩ := exists_skip behind
      split at read
      · next colon =>
        cases read
        rw [colon] at splitGap
        rw [head] at split
        exact ⟨before, '"' :: spelled, gap, by rw [split, splitGap]; simp, leading, spells, apart⟩
      · cases read
    · cases read
  · cases read

/-- A key that is spelled is read. -/
theorem key?_complete {before name gap : List Char} (leading : Blanks before)
    (named : SpellsString key name) (apart : Blanks gap) :
    key? (before ++ (name ++ (gap ++ ':' :: rest))) = some (key, rest) := by
  obtain ⟨behind, rfl, reads⟩ := string?_complete named
  have colon : skip (gap ++ ':' :: rest) = ':' :: rest := skip_blanks_cons apart (by decide) rest
  have quote : skip (before ++ '"' :: (behind ++ (gap ++ ':' :: rest))) =
      '"' :: (behind ++ (gap ++ ':' :: rest)) := skip_blanks_cons leading (by decide) _
  simp only [List.cons_append, key?, quote, reads, colon]

end Keys

end Prepaid.Json
