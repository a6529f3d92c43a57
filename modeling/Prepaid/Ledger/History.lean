import Prepaid.Ledger.Basic
import Prepaid.Settings

/-!
# History

The entries of a user can be listed newest first, page by page, and looked up one
by one. Reading changes nothing, and the entries of other users count as missing.
-/

namespace Prepaid

/-- One page of a listing. Pages are counted from one. -/
structure Page (α : Type) where
  items : List α
  number : Nat
  size : Nat
  total : Nat

namespace Page

/-- So many pages of a size in items, unless that takes more than 64 bits. -/
def span? (pages size : Nat) : Option Nat :=
  if pages * size ≤ Text.maxNat64 then some (pages * size) else none

/-- Whether there are items behind a page. There are none behind more than 64 bits of them. -/
def hasNext {α : Type} (page : Page α) : Bool :=
  (span? page.number page.size).any fun passed => passed < page.total

/-- Page `number` of a list of all items. It is past the end if the items in front of it take more
than 64 bits to count. -/
def ofList {α : Type} (items : List α) (number size : Nat) : Page α :=
  let passed := (span? (number - 1) size).getD items.length
  { items := (items.drop passed).take size, number, size, total := items.length }

/-- A page has a next one only if there are items beyond it. -/
theorem lt_total_of_hasNext {α : Type} {page : Page α} (next : page.hasNext = true) :
    page.number * page.size < page.total := by
  obtain ⟨passed, span, less⟩ := Option.any_eq_true .. |>.mp next
  unfold span? at span
  split at span <;> cases span
  exact of_decide_eq_true less

end Page

/-- Which entries to list. -/
structure EntryFilter where
  order : Option OrderId := none
  kind : Option EntryKind := none
  status : Option EntryStatus := none
  deriving DecidableEq, Repr

/-- Whether an entry is to be listed. -/
def EntryFilter.matches (filter : EntryFilter) (entry : Entry) : Bool :=
  filter.order.all (fun order => entry.order = some order) &&
    filter.kind.all (fun kind => entry.kind = kind) &&
    filter.status.all fun status => entry.status = status

/-- Whether an entry stands in front of another: it is newer, or as new with the larger
identifier. -/
def Entry.newer (left right : Entry) : Bool :=
  ((right.createdAt.compare left.createdAt).then (right.id.val.compare left.id.val)).isLE

namespace Ledger

/-- The entries of a user, in the order in which the tables list them. -/
def entriesOf (user : UserId) (ledger : Ledger) : List Entry :=
  match ledger.tables.wallets.get? user with
  | some wallet => ledger.tables.walletEntries wallet.id
  | none => []

/-- The entries of a user that pass a filter, newest first. -/
def listing (user : UserId) (filter : EntryFilter) (ledger : Ledger) : List Entry :=
  ((ledger.entriesOf user).filter filter.matches).mergeSort Entry.newer

/-- A page of the listing. There is no page in front of the first, and a page has at least one
entry. -/
def history (settings : Settings) (user : UserId) (filter : EntryFilter) (number : Nat)
    (ledger : Ledger) : Page Entry :=
  .ofList (ledger.listing user filter) (max number 1) (max settings.pageSize 1)

/-- The pages of the listing from page `number` on, one after the other, up to the first that has
none behind it. -/
def pagesFrom (settings : Settings) (user : UserId) (filter : EntryFilter) (ledger : Ledger)
    (number : Nat) : List (Page Entry) :=
  let page := ledger.history settings user filter number
  if next : page.hasNext then page :: pagesFrom settings user filter ledger (number + 1) else [page]
termination_by (ledger.listing user filter).length - number * max settings.pageSize 1
decreasing_by
  have less : max number 1 * max settings.pageSize 1 < (ledger.listing user filter).length :=
    Page.lt_total_of_hasNext next
  have least : number * max settings.pageSize 1 ≤ max number 1 * max settings.pageSize 1 :=
    Nat.mul_le_mul_right _ (Nat.le_max_left number 1)
  rw [Nat.add_mul]
  omega

/-- All pages of the listing. -/
def pages (settings : Settings) (user : UserId) (filter : EntryFilter) (ledger : Ledger) :
    List (Page Entry) :=
  ledger.pagesFrom settings user filter 1

/-- One entry of a user. -/
def entryOf (user : UserId) (id : EntryId) (ledger : Ledger) : Except Rejection Entry :=
  match ledger.tables.wallets.get? user, ledger.tables.entries.get? id with
  | some wallet, some entry =>
    if entry.wallet = wallet.id then .ok entry else .error (.entryNotFound id)
  | _, _ => .error (.entryNotFound id)

end Ledger

end Prepaid
