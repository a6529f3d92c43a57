import Prepaid.Json.Reader

/-!
# JSON values

A value is a tree whose numbers and strings have been understood. Of several
members with one key the last counts, and members are kept in the order of their
keys. Values nest less deeply than a fixed limit.
-/

namespace Prepaid

/-- A JSON value. -/
inductive Json where
  | null
  | bool (value : Bool)
  | number (value : Json.Number)
  | string (content : String)
  | array (elements : List Json)
  | object (members : List (String × Json))
  deriving Repr, BEq

namespace Json

instance : Inhabited Json := ⟨.null⟩

/-- An integer as a value. -/
def ofInt (value : Int) : Json :=
  .number (.integer value)

/-- Arrays and objects nest less deeply than this in a text. -/
abbrev depthLimit : Nat := 128

/-- Adds a member in the order of the keys; a member that has the key already is replaced. -/
def insertMember (key : String) (value : Json) : List (String × Json) → List (String × Json)
  | [] => [(key, value)]
  | (other, held) :: rest =>
    if key < other then (key, value) :: (other, held) :: rest
    else if key = other then (key, value) :: rest
    else (other, held) :: insertMember key value rest

mutual

/-- The value of a tree that stands inside of fewer than `depthLimit - depth` arrays and objects. -/
def ofTree? (depth : Nat) : Tree → Option Json
  | .null => some .null
  | .bool value => some (.bool value)
  | .number numeral => numeral.value?.map .number
  | .string content => content.map .string
  | .array elements =>
    if 2 ≤ depth then (elementsOfTrees? (depth - 1) elements).map .array else none
  | .object members =>
    if 2 ≤ depth then (membersOfTrees? (depth - 1) members []).map .object else none

/-- The values of the elements of an array. -/
def elementsOfTrees? (depth : Nat) : List Tree → Option (List Json)
  | [] => some []
  | element :: rest =>
    match ofTree? depth element, elementsOfTrees? depth rest with
    | some element, some rest => some (element :: rest)
    | _, _ => none

/-- The members of an object, added to those in front of them. -/
def membersOfTrees? (depth : Nat) :
    List (Option String × Tree) → List (String × Json) → Option (List (String × Json))
  | [], members => some members
  | (some key, tree) :: rest, members =>
    match ofTree? depth tree with
    | some value => membersOfTrees? depth rest (insertMember key value members)
    | none => none
  | (none, _) :: _, _ => none

end

/-- The value of a text that holds exactly one JSON value. -/
def ofText? (text : String) : Option Json :=
  (Tree.ofText? text).bind (ofTree? depthLimit)

mutual

/-- The tree of the written form of a value. -/
def toTree : Json → Tree
  | .null => .null
  | .bool value => .bool value
  | .number value => .number (.known value)
  | .string content => .string (some content)
  | .array elements => .array (elementTrees elements)
  | .object members => .object (memberTrees members)

/-- The trees of the elements of an array. -/
def elementTrees : List Json → List Tree
  | [] => []
  | element :: rest => element.toTree :: elementTrees rest

/-- The trees of the members of an object. -/
def memberTrees : List (String × Json) → List (Option String × Tree)
  | [] => []
  | (key, value) :: rest => (some key, value.toTree) :: memberTrees rest

end

/-- The written form of a value, without any blanks. -/
def toText (value : Json) : String :=
  String.ofList value.toTree.chars

/-- The member of an object with a given key. -/
def get? (key : String) : Json → Option Json
  | .object members => (members.find? fun member => member.1 == key).map Prod.snd
  | _ => none

end Json

end Prepaid
