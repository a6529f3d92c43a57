import Prepaid.Ident
import Prepaid.Json.Value
import Prepaid.Money
import Prepaid.Time.Text

/-!
# Records in JSON

A record is an object with known keys, or an array of its fields in their order.
An object may lack optional fields and may hold unknown ones, but no known key
twice. An array holds all fields up to its end, of which only those with a
default may be missing.
-/

namespace Prepaid.Json

/-- What a record holds for one of its fields. -/
inductive Field where
  | given (tree : Tree)
  | absent
  | beyond
  deriving Repr

namespace Field

/-- The tree of a field that has to be there. -/
def required? : Field → Option Tree
  | .given tree => some tree
  | _ => none

/-- The value of a field that may be null, or be absent from an object. -/
def optional? {α : Type} (decode : Tree → Option α) : Field → Option (Option α)
  | .given .null => some none
  | .given tree => (decode tree).map some
  | .absent => some none
  | .beyond => none

/-- The value of a field that may be missing and then has a default. -/
def withDefault? {α : Type} (default : α) (decode : Tree → Option α) : Field → Option α
  | .given tree => decode tree
  | _ => some default

end Field

/-- The tree that an object holds for a key, among members whose known keys are distinct. -/
def fieldOf (members : List (Option String × Tree)) (key : String) : Field :=
  match members.find? fun member => member.1 = some key with
  | some (_, tree) => .given tree
  | none => .absent

/-- Whether every key is text and no known key occurs twice. -/
def keysDistinct (keys : List String) (members : List (Option String × Tree)) : Bool :=
  members.all (fun member => member.1.isSome) &&
    keys.all fun key => (members.filter fun member => member.1 = some key).length ≤ 1

/-- The fields of an array in the order of the keys. -/
def fieldsOfArray : List String → List Tree → List Field
  | [], _ => []
  | _ :: keys, [] => .beyond :: fieldsOfArray keys []
  | _ :: keys, tree :: rest => .given tree :: fieldsOfArray keys rest

namespace Tree

/-- The fields of a record with the given keys, in the order of the keys. -/
def fields? (keys : List String) : Tree → Option (List Field)
  | .object members =>
    if keysDistinct keys members then some (keys.map (fieldOf members)) else none
  | .array elements =>
    if elements.length ≤ keys.length then some (fieldsOfArray keys elements) else none
  | _ => none

def text? : Tree → Option String
  | .string content => content
  | _ => none

/-- The value of a number that is an integer. -/
def integer? : Tree → Option Int
  | .number numeral =>
    match numeral.value? with
    | some (.integer value) => some value
    | _ => none
  | _ => none

/-- A natural of 64 bits. -/
def natural? (tree : Tree) : Option UInt64 :=
  tree.integer?.bind fun value => if 0 ≤ value then some value.natAbs.toUInt64 else none

/-- An integer of 64 bits. -/
def signed? (tree : Tree) : Option Int :=
  tree.integer?.filter fun value => value ≤ Text.maxInt64

/-- A decimal: its text, or a number. A number that is no integer counts as its shortest text. -/
def decimal? : Tree → Option Decimal
  | .string content => content.bind Decimal.ofText?
  | .number numeral =>
    match numeral.value? with
    | some (.integer value) => Decimal.ofMantissa? value 0
    | some (.binary value) => Decimal.ofText? (String.ofList value.plainChars)
    | none => none
  | _ => none

def money? (tree : Tree) : Option Money :=
  tree.decimal?.map Money.ofDecimal

def amount? (tree : Tree) : Option Amount :=
  tree.decimal?.bind Amount.ofDecimal?

def instant? (tree : Tree) : Option Instant :=
  tree.text?.bind Instant.ofText?

def uuid? (tree : Tree) : Option Uuid :=
  tree.text?.bind Uuid.ofText?

/-- One of several names: its text, or an object whose only member has the name as key and null as
value. -/
def name? : Tree → Option String
  | .string content => content
  | .object [(key, .null)] => key
  | _ => none

end Tree

/-- The written form of an optional value: null where there is none. -/
def ofOption {α : Type} (encode : α → Json) : Option α → Json
  | none => .null
  | some value => encode value

def ofMoney (money : Money) : Json :=
  .string money.value.toText

def ofInstant (instant : Instant) : Json :=
  .string instant.toZuluText

def ofUuid (id : Uuid) : Json :=
  .string id.toText

def ofNatural (value : UInt64) : Json :=
  ofInt value.toNat

end Prepaid.Json
