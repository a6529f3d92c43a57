import Prepaid.Json.Value

/-!
# What is written can be read

The reader gives back the tree that a text has been written from, with whatever
stands behind it. This holds of all trees without numbers, whose strings and keys may
be any text: the writer escapes what would end a string, and the reader undoes it.
-/

namespace Prepaid.Json

open Reader

/-! ## Strings -/

/-- How a character of a string comes back: one that is written by its code is read as a code. -/
def pieceOf (c : Char) : Piece :=
  if c.toNat < 32 ∧ c ∉ ['\n', '\r', '\t', '\x08', '\x0c'] then .code c.toNat else .literal c

/-- The code of a control character is read back from its four digits. -/
theorem fourHex?_control {value : Nat} (control : value < 32) (rest : List Char) :
    fourHex? ('0' :: '0' :: Tree.hexChar (value / 16) :: Tree.hexChar (value % 16) :: rest) =
      some (value, rest) := by
  have digits : ∀ value < 32, Text.digits? 16 Text.hexDigit?
      ['0', '0', Tree.hexChar (value / 16), Tree.hexChar (value % 16)] = some value := by decide
  rw [fourHex?, digits value control]
  rfl

/-- An escape is one piece of a string. -/
theorem pieces?_backslash {limit : Nat} {escaped rest : List Char} {piece : Piece}
    (read : escape? escaped = some (piece, rest)) :
    pieces? (limit + 1) ('\\' :: escaped) =
      (pieces? limit rest).map fun (pieces, rest) => (piece :: pieces, rest) := by
  simp [pieces?, read]

/-- One written character is read as one piece. -/
theorem pieces?_escape (limit : Nat) (c : Char) (rest : List Char) :
    pieces? (limit + 1) (Tree.escape c ++ rest) =
      (pieces? limit rest).map fun (pieces, rest) => (pieceOf c :: pieces, rest) := by
  -- The characters with an escape of their own are read back as literals.
  by_cases short : c ∈ ['"', '\\', '\n', '\r', '\t', '\x08', '\x0c']
  · simp only [List.mem_cons, List.not_mem_nil, or_false] at short
    rcases short with rfl | rfl | rfl | rfl | rfl | rfl | rfl <;> exact pieces?_backslash rfl
  · simp only [List.mem_cons, List.not_mem_nil, or_false, not_or] at short
    obtain ⟨quote, backslash, newline, carriage, tab, backspace, feed⟩ := short
    by_cases control : c.toNat < 32
    · have written : Tree.escape c =
          ['\\', 'u', '0', '0', Tree.hexChar (c.toNat / 16), Tree.hexChar (c.toNat % 16)] := by
        simp [Tree.escape, *]
      have piece : pieceOf c = .code c.toNat := by simp [pieceOf, *]
      rw [written, piece]
      refine pieces?_backslash ?_
      change (fourHex? ('0' :: '0' :: _ :: _ :: rest)).map _ = _
      rw [fourHex?_control control rest]
      rfl
    · have written : Tree.escape c = [c] := by simp [Tree.escape, *]
      have piece : pieceOf c = .literal c := by simp [pieceOf, control]
      rw [written, piece]
      simp [pieces?, *]

/-- The pieces of an escaped text are those of its characters. -/
theorem pieces?_escapes (content rest : List Char) {limit : Nat} (enough : content.length < limit) :
    pieces? limit (content.flatMap Tree.escape ++ '"' :: rest) =
      some (content.map pieceOf, rest) := by
  induction content generalizing limit with
  | nil =>
    obtain ⟨limit, rfl⟩ := Nat.exists_eq_add_one_of_ne_zero (Nat.ne_zero_of_lt enough)
    simp [pieces?]
  | cons c content ih =>
    obtain ⟨limit, rfl⟩ := Nat.exists_eq_add_one_of_ne_zero (Nat.ne_zero_of_lt enough)
    rw [List.flatMap_cons, List.append_assoc, pieces?_escape, ih (by simpa using enough)]
    rfl

/-- A code that is no surrogate stands for its character, whatever follows. -/
theorem assemble?_code {value : Nat} (plain : value < 0xD800) (rest : List Piece) :
    assemble? (.code value :: rest) = (assemble? rest).map (Char.ofNat value :: ·) := by
  have high : ¬ (0xD800 ≤ value ∧ value < 0xDC00) := by omega
  have low : ¬ (0xDC00 ≤ value ∧ value < 0xE000) := by omega
  have either : ¬ (0xD800 ≤ value ∧ value < 0xE000) := by omega
  cases rest with
  | nil => simp only [assemble?, if_neg either]
  | cons piece rest =>
    cases piece with
    | literal c => simp only [assemble?, if_neg either]
    | code next => simp only [assemble?, if_neg high, if_neg low]

/-- The pieces of a text make up the text. -/
theorem assemble?_pieces (content : List Char) :
    assemble? (content.map pieceOf) = some content := by
  induction content with
  | nil => rfl
  | cons c content ih =>
    rw [List.map_cons, pieceOf]
    split
    · next control =>
      rw [assemble?_code (by omega), ih, Option.map_some, Char.ofNat_toNat]
    · rw [assemble?, ih, Option.map_some]

/-- Escaping does not shorten a text. -/
theorem length_le_escapes (content : List Char) :
    content.length ≤ (content.flatMap Tree.escape).length := by
  have nonempty (c : Char) : 1 ≤ (Tree.escape c).length := by
    unfold Tree.escape
    repeat' split
    all_goals simp
  induction content with
  | nil => exact Nat.le_refl 0
  | cons c content ih =>
    have own := nonempty c
    simp only [List.flatMap_cons, List.length_append, List.length_cons]
    omega

/-- A string comes back as it was written, with what stands behind it. -/
theorem string?_escapes (content : String) (rest : List Char) :
    string? (content.toList.flatMap Tree.escape ++ '"' :: rest) = some (some content, rest) := by
  have shorter := length_le_escapes content.toList
  rw [string?, pieces?_escapes _ _ (by simp only [List.length_append]; omega)]
  simp [assemble?_pieces]

/-! ## Trees -/

mutual

/-- No numbers are in a tree, and its strings and keys are text. -/
def Tree.Textual : Tree → Prop
  | .null | .bool _ => True
  | .number _ => False
  | .string content => content.isSome = true
  | .array elements => TextualElements elements
  | .object members => TextualMembers members

def Tree.TextualElements : List Tree → Prop
  | [] => True
  | element :: rest => element.Textual ∧ TextualElements rest

def Tree.TextualMembers : List (Option String × Tree) → Prop
  | [] => True
  | (key, value) :: rest => key.isSome = true ∧ value.Textual ∧ TextualMembers rest

end

/-- What is visible is not skipped. -/
@[simp] theorem skip_cons {c : Char} (visible : c ≠ ' ' ∧ c ≠ '\n' ∧ c ≠ '\t' ∧ c ≠ '\r')
    (rest : List Char) :
    skip (c :: rest) = c :: rest := by
  simp [skip, visible]

/-- A written tree starts with a character that tells what it is. -/
theorem Tree.exists_head {tree : Tree} (textual : tree.Textual) :
    ∃ c rest, tree.chars = c :: rest ∧ c ∈ ['n', 't', 'f', '"', '[', '\x7b'] := by
  cases tree with
  | null => exact ⟨'n', _, rfl, by simp⟩
  | bool value => cases value with
    | true => exact ⟨'t', _, rfl, by simp⟩
    | false => exact ⟨'f', _, rfl, by simp⟩
  | number numeral => exact textual.elim
  | string content => exact ⟨'"', _, by rw [chars, stringChars], by simp⟩
  | array elements => exact ⟨'[', _, by rw [chars], by simp⟩
  | object members => exact ⟨'\x7b', _, by rw [chars], by simp⟩

/-- A key and its colon come back as they were written. -/
theorem key?_stringChars (key : String) (rest : List Char) :
    key? (Tree.stringChars key ++ ':' :: rest) = some (some key, rest) := by
  rw [Tree.stringChars, List.cons_append, List.append_assoc]
  simp [key?, string?_escapes]

/-- What the reader gives back under a limit that the texts do not exceed. -/
structure ReadsBack (limit : Nat) : Prop where
  value : ∀ tree rest, Tree.Textual tree → tree.chars.length ≤ limit →
    value? limit (tree.chars ++ rest) = some (tree, rest)
  elements : ∀ element elements rest, Tree.TextualElements (element :: elements) →
    (Tree.elementChars (element :: elements)).length < limit →
      elements? limit (Tree.elementChars (element :: elements) ++ ']' :: rest) =
        some (element :: elements, rest)
  members : ∀ member members rest, Tree.TextualMembers (member :: members) →
    (Tree.memberChars (member :: members)).length < limit →
      members? limit (Tree.memberChars (member :: members) ++ '\x7d' :: rest) =
        some (member :: members, rest)

namespace ReadsBack

variable {limit : Nat}

/-- No tree fits a reader without room. -/
theorem zero : ReadsBack 0 where
  value := by
    intro tree rest textual enough
    obtain ⟨c, others, written, _⟩ := Tree.exists_head textual
    simp [written] at enough
  elements := by simp
  members := by simp

/-- The elements of an array start with neither a blank nor a bracket that closes it. -/
theorem elementChars_head {element : Tree} (textual : element.Textual) (elements : List Tree) :
    ∃ c rest, Tree.elementChars (element :: elements) = c :: rest ∧
      c ∈ ['n', 't', 'f', '"', '[', '\x7b'] := by
  obtain ⟨c, others, written, listed⟩ := Tree.exists_head textual
  cases elements with
  | nil => exact ⟨c, others, by rw [Tree.elementChars, written], listed⟩
  | cons next elements => exact ⟨c, _, by rw [Tree.elementChars, written]; rfl, listed⟩

/-- The members of an object start with a quote. -/
theorem memberChars_head (member : Option String × Tree) (members : List (Option String × Tree)) :
    ∃ rest, Tree.memberChars (member :: members) = '"' :: rest := by
  cases members with
  | nil => exact ⟨_, rfl⟩
  | cons next members => exact ⟨_, rfl⟩

/-- A value is read back if its parts are. -/
theorem value_succ (inner : ReadsBack limit) (tree : Tree) (rest : List Char)
    (textual : tree.Textual) (enough : tree.chars.length ≤ limit + 1) :
    value? (limit + 1) (tree.chars ++ rest) = some (tree, rest) := by
  match tree with
  | .null => simp [Tree.chars, value?]
  | .bool true => simp [Tree.chars, value?]
  | .bool false => simp [Tree.chars, value?]
  | .number _ => exact textual.elim
  | .string content =>
    obtain ⟨content, rfl⟩ := Option.isSome_iff_exists.mp textual
    simp [Tree.chars, Tree.stringChars, value?, string?_escapes]
  | .array [] => simp [Tree.chars, Tree.elementChars, value?]
  | .array (element :: elements) =>
    simp only [Tree.chars, List.length_cons, List.length_append] at enough
    have read := inner.elements element elements rest textual (by omega)
    obtain ⟨c, others, written, listed⟩ := elementChars_head textual.1 elements
    rw [written, List.cons_append] at read
    rw [Tree.chars, written]
    simp only [List.mem_cons, List.not_mem_nil, or_false] at listed
    rcases listed with rfl | rfl | rfl | rfl | rfl | rfl <;> simp [value?, read]
  | .object [] => simp [Tree.chars, Tree.memberChars, value?]
  | .object (member :: members) =>
    simp only [Tree.chars, List.length_cons, List.length_append] at enough
    have read := inner.members member members rest textual (by omega)
    obtain ⟨others, written⟩ := memberChars_head member members
    rw [written, List.cons_append] at read
    rw [Tree.chars, written]
    simp [value?, read]

/-- Elements are read back if their parts are. -/
theorem elements_succ (inner : ReadsBack limit) (element : Tree) (elements : List Tree)
    (rest : List Char) (textual : Tree.TextualElements (element :: elements))
    (enough : (Tree.elementChars (element :: elements)).length < limit + 1) :
    elements? (limit + 1) (Tree.elementChars (element :: elements) ++ ']' :: rest) =
      some (element :: elements, rest) := by
  obtain ⟨own, others⟩ := textual
  cases elements with
  | nil =>
    simp only [Tree.elementChars] at enough ⊢
    simp [elements?, inner.value element _ own (by omega)]
  | cons next elements =>
    simp only [Tree.elementChars, List.length_append, List.length_cons] at enough
    have first := inner.value element (',' :: (Tree.elementChars (next :: elements) ++ ']' :: rest))
      own (by omega)
    have later := inner.elements next elements rest others (by omega)
    simp [Tree.elementChars, elements?, first, later]

/-- Members are read back if their parts are. -/
theorem members_succ (inner : ReadsBack limit) (member : Option String × Tree)
    (members : List (Option String × Tree)) (rest : List Char)
    (textual : Tree.TextualMembers (member :: members))
    (enough : (Tree.memberChars (member :: members)).length < limit + 1) :
    members? (limit + 1) (Tree.memberChars (member :: members) ++ '\x7d' :: rest) =
      some (member :: members, rest) := by
  obtain ⟨key, value⟩ := member
  obtain ⟨named, own, others⟩ := textual
  obtain ⟨key, rfl⟩ := Option.isSome_iff_exists.mp named
  cases members with
  | nil =>
    simp only [Tree.memberChars, List.length_append, List.length_cons] at enough
    have first := inner.value value ('\x7d' :: rest) own (by omega)
    simp [Tree.memberChars, members?, key?_stringChars, first]
  | cons next members =>
    simp only [Tree.memberChars, List.length_append, List.length_cons] at enough
    have first := inner.value value (',' :: (Tree.memberChars (next :: members) ++ '\x7d' :: rest))
      own (by omega)
    have later := inner.members next members rest others (by omega)
    simp [Tree.memberChars, members?, key?_stringChars, first, later]

end ReadsBack

/-- What is written is read back, under every limit that it does not exceed. -/
theorem readsBack (limit : Nat) : ReadsBack limit := by
  induction limit with
  | zero => exact .zero
  | succ limit ih => exact ⟨ih.value_succ, ih.elements_succ, ih.members_succ⟩

/-- A written tree is the only thing in its text. -/
theorem Tree.ofChars?_chars {tree : Tree} (textual : tree.Textual) :
    Tree.ofChars? tree.chars = some tree := by
  have read := (readsBack (2 * tree.chars.length + 2)).value tree [] textual (by omega)
  rw [List.append_nil] at read
  rw [Tree.ofChars?, read]
  rfl

/-- Reading the text of a value comes down to making a value of its tree. -/
theorem ofText?_toText {value : Json} (textual : value.toTree.Textual) :
    ofText? value.toText = ofTree? depthLimit value.toTree := by
  rw [ofText?, Tree.ofText?, toText, String.toList_ofList, Tree.ofChars?_chars textual]
  rfl

end Prepaid.Json
