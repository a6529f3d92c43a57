import Prepaid.Json.Tree

/-!
# Reading JSON

A strict reader: one value with blanks around it and nothing else. Nesting is
not limited here; whoever makes a value of the tree decides how deep it may be.
-/

namespace Prepaid.Json.Reader

/-- A result together with the rest of the text. -/
abbrev Step (α : Type) := Option (α × List Char)

/-- Drops the blanks that JSON allows between its symbols. -/
def skip (text : List Char) : List Char :=
  text.dropWhile fun c => c = ' ' ∨ c = '\n' ∨ c = '\t' ∨ c = '\r'

/-! ## Strings -/

/-- A character of a string, or the code of an escape that may be half of a surrogate pair. -/
inductive Piece where
  | literal (c : Char)
  | code (value : Nat)

/-- Four hexadecimal digits. -/
def fourHex? : List Char → Step Nat
  | a :: b :: c :: d :: rest =>
    (Text.digits? 16 Text.hexDigit? [a, b, c, d]).map fun value => (value, rest)
  | _ => none

/-- What follows a backslash. -/
def escape? : List Char → Step Piece
  | '"' :: rest => some (.literal '"', rest)
  | '\\' :: rest => some (.literal '\\', rest)
  | '/' :: rest => some (.literal '/', rest)
  | 'b' :: rest => some (.literal '\x08', rest)
  | 'f' :: rest => some (.literal '\x0c', rest)
  | 'n' :: rest => some (.literal '\n', rest)
  | 'r' :: rest => some (.literal '\r', rest)
  | 't' :: rest => some (.literal '\t', rest)
  | 'u' :: rest => (fourHex? rest).map fun (value, rest) => (.code value, rest)
  | _ => none

/-- The pieces of a string up to its closing quote. The limit is the length of the text. -/
def pieces? : Nat → List Char → Step (List Piece)
  | 0, _ => none
  | _ + 1, [] => none
  | limit + 1, c :: rest =>
    if c = '"' then some ([], rest)
    else if c = '\\' then
      match escape? rest with
      | some (piece, rest) => (pieces? limit rest).map fun (pieces, rest) => (piece :: pieces, rest)
      | none => none
    else if c.toNat < 32 then none
    else (pieces? limit rest).map fun (pieces, rest) => (.literal c :: pieces, rest)

/-- The characters of the pieces, if every surrogate has its partner. -/
def assemble? : List Piece → Option (List Char)
  | [] => some []
  | .literal c :: rest => (assemble? rest).map (c :: ·)
  | .code high :: .code low :: rest =>
    if 0xD800 ≤ high ∧ high < 0xDC00 then
      if 0xDC00 ≤ low ∧ low < 0xE000 then
        (assemble? rest).map (Char.ofNat (0x10000 + (high - 0xD800) * 0x400 + (low - 0xDC00)) :: ·)
      else
        none
    else if 0xDC00 ≤ high ∧ high < 0xE000 then none
    else (assemble? (.code low :: rest)).map (Char.ofNat high :: ·)
  | .code value :: rest =>
    if 0xD800 ≤ value ∧ value < 0xE000 then none
    else (assemble? rest).map (Char.ofNat value :: ·)

/-- The rest of a string behind its opening quote. -/
def string? (text : List Char) : Step (Option String) :=
  (pieces? (text.length + 1) text).map fun (pieces, rest) =>
    ((assemble? pieces).map String.ofList, rest)

/-! ## Numbers -/

/-- At least one digit. -/
def digits? (text : List Char) : Step (List Char) :=
  let (digits, rest) := text.span Char.isDigit
  if digits.isEmpty then none else some (digits, rest)

/-- The digits before the point: a single zero, or digits that start with another one. -/
def whole? (text : List Char) : Step (List Char) :=
  (digits? text).filter fun (digits, _) => digits.length = 1 || digits.head? != some '0'

/-- A point with digits behind it, or nothing. -/
def fraction? : List Char → Step (List Char)
  | '.' :: rest => digits? rest
  | text => some ([], text)

/-- A mark with a sign and digits behind it, or nothing. -/
def exponent? : List Char → Step (Option Exponent)
  | mark :: rest =>
    if mark = 'e' ∨ mark = 'E' then
      match rest with
      | '-' :: rest => (digits? rest).map fun (digits, rest) => (some ⟨true, digits⟩, rest)
      | '+' :: rest => (digits? rest).map fun (digits, rest) => (some ⟨false, digits⟩, rest)
      | rest => (digits? rest).map fun (digits, rest) => (some ⟨false, digits⟩, rest)
    else
      some (none, mark :: rest)
  | [] => some (none, [])

/-- A number behind its sign. -/
def unsigned? (negative : Bool) (text : List Char) : Option (NumberText × List Char) := do
  let (whole, text) ← whole? text
  let (fraction, text) ← fraction? text
  let (exponent, text) ← exponent? text
  pure (⟨negative, whole, fraction, exponent⟩, text)

/-- A number. -/
def number? : List Char → Step NumberText
  | '-' :: rest => unsigned? true rest
  | text => unsigned? false text

/-! ## Values -/

/-- A key with the colon behind it. -/
def key? (text : List Char) : Step (Option String) :=
  match skip text with
  | '"' :: rest =>
    match string? rest with
    | some (key, rest) =>
      match skip rest with
      | ':' :: rest => some (key, rest)
      | _ => none
    | none => none
  | _ => none

mutual

/-- A value behind blanks. The limit bounds the nesting and is larger than the text is long. -/
def value? : Nat → List Char → Step Tree
  | 0, _ => none
  | limit + 1, text =>
    match skip text with
    | 'n' :: 'u' :: 'l' :: 'l' :: rest => some (.null, rest)
    | 't' :: 'r' :: 'u' :: 'e' :: rest => some (.bool true, rest)
    | 'f' :: 'a' :: 'l' :: 's' :: 'e' :: rest => some (.bool false, rest)
    | '"' :: rest => (string? rest).map fun (content, rest) => (.string content, rest)
    | '[' :: rest =>
      match skip rest with
      | ']' :: rest => some (.array [], rest)
      | _ => (elements? limit rest).map fun (elements, rest) => (.array elements, rest)
    | '\x7b' :: rest =>
      match skip rest with
      | '\x7d' :: rest => some (.object [], rest)
      | _ => (members? limit rest).map fun (members, rest) => (.object members, rest)
    | rest => (number? rest).map fun (number, rest) => (.number (.spelled number), rest)

/-- The elements of an array up to its end; there is at least one. -/
def elements? : Nat → List Char → Step (List Tree)
  | 0, _ => none
  | limit + 1, text =>
    match value? limit text with
    | none => none
    | some (element, rest) =>
      match skip rest with
      | ',' :: rest => (elements? limit rest).map fun (elements, rest) =>
        (element :: elements, rest)
      | ']' :: rest => some ([element], rest)
      | _ => none

/-- The members of an object up to its end; there is at least one. -/
def members? : Nat → List Char → Step (List (Option String × Tree))
  | 0, _ => none
  | limit + 1, text =>
    match key? text with
    | none => none
    | some (key, rest) =>
      match value? limit rest with
      | none => none
      | some (value, rest) =>
        match skip rest with
        | ',' :: rest => (members? limit rest).map fun (members, rest) =>
          ((key, value) :: members, rest)
        | '\x7d' :: rest => some ([(key, value)], rest)
        | _ => none

end

end Prepaid.Json.Reader

namespace Prepaid.Json

/-- The tree of a text that holds exactly one JSON value. -/
def Tree.ofChars? (text : List Char) : Option Tree :=
  match Reader.value? (2 * text.length + 2) text with
  | some (tree, rest) => if (Reader.skip rest).isEmpty then some tree else none
  | none => none

/-- The tree of a text that holds exactly one JSON value. -/
def Tree.ofText? (text : String) : Option Tree :=
  Tree.ofChars? text.toList

end Prepaid.Json
