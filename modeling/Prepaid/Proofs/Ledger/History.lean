import Mathlib.Data.List.Nodup
import Prepaid.Ledger.History
import Prepaid.Proofs.Ledger.Indexes

/-!
# Pages of the history

What lies in front of a page and what lies behind it are told by two different
products, and neither may take more than 64 bits. Over a list that can be counted at
all they agree: `items_ofList` and `hasNext_ofList` read them without the limit. So
the walk over the pages takes `pageCount` of them, and put one behind the other they
are the list. The list itself is sorted by `Entry.Precedes`, which never leaves two
entries with different identifiers in either order, so that it does not matter how
the tables list them.
-/

namespace Prepaid

namespace Page

/-- How many pages of a size a list has; there is always a first one. -/
def pageCount (total size : Nat) : Nat :=
  max 1 ((total + size - 1) / size)

section Lists

variable {α : Type} {items : List α} {number size : Nat}

/-- Pages that fit a machine word are skipped. -/
theorem span?_of_le {pages : Nat} (fits : pages * size ≤ Text.maxNat64) :
    span? pages size = some (pages * size) :=
  if_pos fits

/-- Pages that do not fit span more than any list. -/
theorem span?_of_lt {pages : Nat} (large : Text.maxNat64 < pages * size) :
    span? pages size = none :=
  if_neg (Nat.not_le.mpr large)

/-- A list that can be counted in 64 bits has nothing behind a number that takes more. -/
theorem hasNext_ofList (fits : items.length ≤ Text.maxNat64) :
    (ofList items number size).hasNext = true ↔ number * size < items.length := by
  constructor
  · exact lt_total_of_hasNext
  · intro less
    have passed : span? number size = some (number * size) := span?_of_le (by omega)
    simp only [hasNext, ofList, passed, Option.any_some]
    exact decide_eq_true less

/-- A page has the items behind those of the pages before it. -/
theorem items_ofList (fits : items.length ≤ Text.maxNat64) (number : Nat) :
    (ofList items (number + 1) size).items = (items.drop (number * size)).take size := by
  rcases Nat.lt_or_ge Text.maxNat64 (number * size) with large | small
  · have past : items.length ≤ number * size := by omega
    simp only [ofList, Nat.add_sub_cancel, span?_of_lt large, Option.getD_none, List.drop_length,
      List.drop_eq_nil_of_le past]
  · simp only [ofList, Nat.add_sub_cancel, span?_of_le small, Option.getD_some]

/-- No page has more items than its size. -/
theorem length_items_ofList_le : (ofList items number size).items.length ≤ size := by
  simp only [ofList]
  exact List.length_take_le _ _

/-- A page has a next one exactly if the pages so far do not take all items. -/
theorem lt_pageCount_iff {total : Nat} (positive : 0 < size) (first : 0 < number) :
    number < pageCount total size ↔ number * size < total := by
  have ceiling : number < (total + size - 1) / size ↔ number * size < total := by
    rw [Nat.lt_iff_add_one_le, Nat.le_div_iff_mul_le positive, Nat.add_mul, Nat.one_mul]
    omega
  rw [← ceiling, pageCount]
  omega

/-- A page behind the last one that has items is empty, and has none behind it. -/
theorem ofList_of_lt (positive : 0 < size) (fits : items.length ≤ Text.maxNat64)
    (past : pageCount items.length size < number) :
    (ofList items number size).items = [] ∧ (ofList items number size).hasNext = false := by
  obtain ⟨before, rfl⟩ : ∃ before, number = before + 1 :=
    ⟨number - 1, by have : 1 ≤ pageCount items.length size := Nat.le_max_left ..; omega⟩
  have first : 0 < before := by
    have : 1 ≤ pageCount items.length size := Nat.le_max_left ..
    omega
  have reached : ¬ before * size < items.length := fun less => by
    have := (lt_pageCount_iff positive first).mpr less
    omega
  constructor
  · rw [items_ofList fits, List.drop_eq_nil_of_le (Nat.not_lt.mp reached), List.take_nil]
  · rw [← Bool.not_eq_true, hasNext_ofList fits, Nat.add_mul]
    omega

/-- The items of the first pages are the first items. -/
theorem flatMap_items (fits : items.length ≤ Text.maxNat64) (count : Nat) :
    ((List.range' 1 count).flatMap fun number => (ofList items number size).items) =
      items.take (count * size) := by
  induction count with
  | zero => simp
  | succ count ih =>
    rw [List.range'_1_concat, List.flatMap_append, ih, List.flatMap_singleton, Nat.add_comm 1 count,
      items_ofList fits, Nat.add_mul, Nat.one_mul, List.take_add]

/-- All pages together have room for all items. -/
theorem length_le_pageCount_mul (positive : 0 < size) :
    items.length ≤ pageCount items.length size * size := by
  have first : 0 < pageCount items.length size :=
    Nat.lt_of_lt_of_le Nat.one_pos (Nat.le_max_left ..)
  have last : ¬ pageCount items.length size * size < items.length :=
    (lt_pageCount_iff positive first).not.mp (Nat.lt_irrefl _)
  omega

end Lists

end Page

namespace Entry

/-- An entry is newer than another, or as new with the larger identifier. -/
def Precedes (left right : Entry) : Prop :=
  right.createdAt < left.createdAt ∨
    right.createdAt = left.createdAt ∧ right.id.val.bits < left.id.val.bits

variable {left right : Entry}

/-- What it is to be newer, in seconds, nanoseconds and identifiers. -/
theorem precedes_iff : left.Precedes right ↔
    right.createdAt.seconds < left.createdAt.seconds ∨
      right.createdAt.seconds = left.createdAt.seconds ∧
        (right.createdAt.nanos < left.createdAt.nanos ∨
          right.createdAt.nanos = left.createdAt.nanos ∧
            right.id.val.bits.toNat < left.id.val.bits.toNat) := by
  have same : right.createdAt = left.createdAt ↔
      right.createdAt.seconds = left.createdAt.seconds ∧
      right.createdAt.nanos = left.createdAt.nanos := by
    rcases right.createdAt with ⟨⟩
    rcases left.createdAt with ⟨⟩
    simp
  have newer : right.createdAt < left.createdAt ↔
      right.createdAt.seconds < left.createdAt.seconds ∨
        right.createdAt.seconds = left.createdAt.seconds ∧
          right.createdAt.nanos < left.createdAt.nanos := Iff.rfl
  rw [Precedes, newer, same, BitVec.lt_def]
  omega

/-- What is sorted is sorted by who precedes whom. -/
theorem newer_iff : left.newer right = true ↔ ¬ right.Precedes left := by
  rw [precedes_iff]
  simp only [newer, Instant.compare, Uuid.compare, Ordering.isLE_then_iff_or, Ordering.then_eq_lt,
    Ordering.then_eq_eq, Int.compare_eq_lt, Nat.compare_eq_lt, Int.compare_eq_eq, Nat.compare_eq_eq,
    Nat.isLE_compare]
  omega

/-- No entry precedes itself. -/
theorem Precedes.irrefl (entry : Entry) : ¬ entry.Precedes entry := by
  rw [precedes_iff]
  omega

/-- Of two entries at most one precedes the other. -/
theorem Precedes.asymm (before : left.Precedes right) : ¬ right.Precedes left := by
  rw [precedes_iff] at before ⊢
  omega

/-- Of two entries with different identifiers one precedes the other. -/
theorem precedes_total (apart : left.id ≠ right.id) (behind : ¬ right.Precedes left) :
    left.Precedes right := by
  have bits : left.id.val.bits.toNat ≠ right.id.val.bits.toNat := fun same =>
    apart (congrArg (fun bits => EntryId.mk ⟨bits⟩) (BitVec.eq_of_toNat_eq same))
  rw [precedes_iff] at behind ⊢
  omega

/-- Entries with different identifiers are sorted strictly. -/
theorem pairwise_sorted {rows : List Entry} (distinct : (rows.map Entry.id).Nodup) :
    (rows.mergeSort newer).Pairwise Precedes := by
  have sorted : (rows.mergeSort newer).Pairwise fun left right => left.newer right = true := by
    refine List.pairwise_mergeSort ?_ ?_ rows
    · intro first second third before behind
      rw [newer_iff, precedes_iff] at before behind ⊢
      omega
    · intro left right
      rw [Bool.or_eq_true, newer_iff, newer_iff]
      by_cases before : left.Precedes right
      · exact .inl before.asymm
      · exact .inr before
  have apart : (rows.mergeSort newer).Pairwise fun left right => left.id ≠ right.id :=
    List.pairwise_map.mp (((List.mergeSort_perm rows newer).map Entry.id).nodup_iff.mpr distinct)
  exact sorted.imp₂ (fun _ _ before other => precedes_total other (newer_iff.mp before)) apart

/-- What is sorted does not depend on the order in which it was listed. -/
theorem sorted_eq_of_perm {rows others : List Entry} (distinct : (rows.map Entry.id).Nodup)
    (same : others.Perm rows) : others.mergeSort newer = rows.mergeSort newer := by
  have listed : (others.mergeSort newer).Perm (rows.mergeSort newer) :=
    ((List.mergeSort_perm others newer).trans same).trans (List.mergeSort_perm rows newer).symm
  refine listed.eq_of_pairwise ?_ (pairwise_sorted ((same.map Entry.id).nodup_iff.mpr distinct))
    (pairwise_sorted distinct)
  intro left right _ _ before behind
  exact (before.asymm behind).elim

end Entry

/-- An entry passes a filter if it has everything that the filter asks for. -/
theorem EntryFilter.matches_iff {filter : EntryFilter} {entry : Entry} :
    filter.matches entry = true ↔
      (∀ order, filter.order = some order → entry.order = some order) ∧
        (∀ kind, filter.kind = some kind → entry.kind = kind) ∧
          ∀ status, filter.status = some status → entry.status = status := by
  simp [EntryFilter.matches, Option.all_eq_true, and_assoc]

namespace Ledger

/-- The tables keep each entry under its identifier, and list the entries of each wallet once, in
whatever order. -/
structure Tables.Enumerates (tables : Tables) : Prop where
  named : ∀ {id entry}, tables.entries.get? id = some entry → entry.id = id
  listed : ∀ wallet, (tables.walletEntries wallet).Perm (tables.rowsOfWallet wallet)

/-- Sound tables list the entries of each wallet once. -/
theorem Tables.Sound.enumerates {tables : Tables} (sound : tables.Sound) : tables.Enumerates where
  named := sound.entry_id
  listed wallet := by rw [sound.walletEntries_eq]

/-- Whose an entry is, by the wallet that it is in. -/
def Owns (user : UserId) (entry : Entry) (ledger : Ledger) : Prop :=
  ∃ wallet, ledger.tables.wallets.get? user = some wallet ∧ entry.wallet = wallet.id

section History

variable {settings : Settings} {user : UserId} {filter : EntryFilter} {ledger : Ledger}

/-- No entry of a user is listed twice. -/
theorem nodup_entriesOf (enumerates : ledger.tables.Enumerates) :
    ((ledger.entriesOf user).map Entry.id).Nodup := by
  have distinct : (ledger.tables.entries.values.map Entry.id).Nodup :=
    Table.nodup_map_values fun _ _ found => enumerates.named found
  unfold entriesOf
  split
  · next wallet _ =>
    exact ((enumerates.listed wallet.id).map Entry.id).nodup_iff.mpr
      (distinct.sublist (List.filter_sublist.map Entry.id))
  · exact List.nodup_nil

/-- The entries of a user are those in the user's wallet. -/
theorem mem_entriesOf (enumerates : ledger.tables.Enumerates) {entry : Entry} :
    entry ∈ ledger.entriesOf user ↔
      ledger.tables.entries.get? entry.id = some entry ∧ ledger.Owns user entry := by
  have present : entry ∈ ledger.tables.entries.values ↔ ledger.tables.entries.get? entry.id =
      some entry := by
    refine ⟨fun member => ?_, Table.mem_values⟩
    obtain ⟨id, found⟩ := Table.exists_key member
    rwa [enumerates.named found]
  unfold entriesOf Owns
  cases known : ledger.tables.wallets.get? user with
  | none => simp
  | some wallet =>
    rw [(enumerates.listed wallet.id).mem_iff, Tables.rowsOfWallet, List.mem_filter, present]
    simp

/-- A listing is in strict order, newest first. -/
theorem pairwise_listing (enumerates : ledger.tables.Enumerates) :
    (ledger.listing user filter).Pairwise Entry.Precedes :=
  Entry.pairwise_sorted ((nodup_entriesOf enumerates).sublist (List.filter_sublist.map Entry.id))

/-- No entry is listed twice. -/
theorem nodup_listing (enumerates : ledger.tables.Enumerates) :
    (ledger.listing user filter).Nodup := by
  refine (pairwise_listing enumerates).imp ?_
  rintro left _ before rfl
  exact before.irrefl

/-- What is listed are the entries of the user that match the filter. -/
theorem mem_listing (enumerates : ledger.tables.Enumerates) {entry : Entry} :
    entry ∈ ledger.listing user filter ↔
      (ledger.tables.entries.get? entry.id = some entry ∧ ledger.Owns user entry) ∧
        filter.matches entry = true := by
  rw [listing, (List.mergeSort_perm _ _).mem_iff, List.mem_filter, mem_entriesOf enumerates]

/-- How the tables list the entries does not show in the listing. -/
theorem listing_eq_of_perm (enumerates : ledger.tables.Enumerates) {other : Ledger}
    (same : (other.entriesOf user).Perm (ledger.entriesOf user)) :
    other.listing user filter = ledger.listing user filter :=
  Entry.sorted_eq_of_perm ((nodup_entriesOf enumerates).sublist (List.filter_sublist.map Entry.id))
    (same.filter _)

/-- A filter adds nothing. -/
theorem length_listing_le : (ledger.listing user filter).length ≤
    (ledger.entriesOf user).length := by
  rw [listing, List.length_mergeSort]
  exact List.length_filter_le _ _

/-! ## The walk over the pages -/

/-- How many pages the listing fills. -/
def pageCount (settings : Settings) (user : UserId) (filter : EntryFilter) (ledger : Ledger) :
    Nat :=
  Page.pageCount (ledger.listing user filter).length (max settings.pageSize 1)

/-- A page past the zeroth is cut out of the listing. -/
theorem history_of_pos {number : Nat} (first : 0 < number) :
    ledger.history settings user filter number =
      .ofList (ledger.listing user filter) number (max settings.pageSize 1) := by
  rw [history, Nat.max_eq_left first]

/-- There is no page in front of the first. -/
theorem history_max (number : Nat) :
    ledger.history settings user filter (max number 1) =
      ledger.history settings user filter number := by
  rw [history, history, Nat.max_eq_left (Nat.le_max_right number 1)]

/-- A page has a next one exactly if it is not the last. -/
theorem hasNext_history (fits : (ledger.entriesOf user).length ≤ Text.maxNat64) {number : Nat}
    (first : 0 < number) : (ledger.history settings user filter number).hasNext = true ↔
      number < ledger.pageCount settings user filter := by
  rw [history_of_pos first, Page.hasNext_ofList (Nat.le_trans length_listing_le fits), pageCount,
    Page.lt_pageCount_iff (by omega) first]

/-- From one of its pages on, the walk takes all that are left. -/
theorem pagesFrom_eq (fits : (ledger.entriesOf user).length ≤ Text.maxNat64) {number : Nat}
    (first : 0 < number) (within : number ≤ ledger.pageCount settings user filter) :
    ledger.pagesFrom settings user filter number =
      (List.range' number (ledger.pageCount settings user filter + 1 - number)).map fun number =>
        ledger.history settings user filter number := by
  -- The induction is on the number of pages that are left behind this one.
  induction left : ledger.pageCount settings user filter - number generalizing number with
  | zero =>
    have last : ¬ (ledger.history settings user filter number).hasNext = true := by
      rw [hasNext_history fits first]
      omega
    have single : ledger.pageCount settings user filter + 1 - number = 1 := by omega
    rw [pagesFrom, dif_neg last, single]
    rfl
  | succ left ih =>
    have next : (ledger.history settings user filter number).hasNext = true := by
      rw [hasNext_history fits first]
      omega
    have more : ledger.pageCount settings user filter + 1 - number =
        (ledger.pageCount settings user filter + 1 - (number + 1)) + 1 := by omega
    rw [pagesFrom, dif_pos next, ih (by omega) (by omega) (by omega), more, List.range'_succ,
      List.map_cons]

/-- Following the pages visits each of them once. -/
theorem pages_eq (fits : (ledger.entriesOf user).length ≤ Text.maxNat64) :
    ledger.pages settings user filter =
      (List.range' 1 (ledger.pageCount settings user filter)).map fun number =>
        ledger.history settings user filter number := by
  have first : 1 ≤ ledger.pageCount settings user filter := Nat.le_max_left ..
  rw [pages, pagesFrom_eq fits (by omega) first, Nat.add_sub_cancel]

/-- Following the pages ends with the last one. -/
theorem length_pages (fits : (ledger.entriesOf user).length ≤ Text.maxNat64) :
    (ledger.pages settings user filter).length = ledger.pageCount settings user filter := by
  rw [pages_eq fits, List.length_map, List.length_range']

/-- There is nothing on a page past the last. -/
theorem items_history_of_lt (fits : (ledger.entriesOf user).length ≤ Text.maxNat64) {number : Nat}
    (past : ledger.pageCount settings user filter < number) :
    (ledger.history settings user filter number).items = [] := by
  rw [history_of_pos (by omega)]
  exact (Page.ofList_of_lt (by omega) (Nat.le_trans length_listing_le fits) past).1

/-- How the tables list the entries does not show in the pages. -/
theorem history_eq_of_perm (enumerates : ledger.tables.Enumerates) {other : Ledger}
    (same : (other.entriesOf user).Perm (ledger.entriesOf user)) (number : Nat) :
    other.history settings user filter number = ledger.history settings user filter number := by
  rw [history, history, listing_eq_of_perm enumerates same]

/-- The order in which entries are stored does not show on the pages. -/
theorem pages_eq_of_perm (enumerates : ledger.tables.Enumerates)
    (fits : (ledger.entriesOf user).length ≤ Text.maxNat64) {other : Ledger}
    (same : (other.entriesOf user).Perm (ledger.entriesOf user)) :
    other.pages settings user filter = ledger.pages settings user filter := by
  rw [pages_eq fits, pages_eq (same.length_eq ▸ fits), pageCount, pageCount,
    listing_eq_of_perm enumerates same]
  exact List.map_congr_left fun number _ => history_eq_of_perm enumerates same number

/-- The pages one behind the other are the listing. -/
theorem flatMap_pages (fits : (ledger.entriesOf user).length ≤ Text.maxNat64) :
    (ledger.pages settings user filter).flatMap (·.items) = ledger.listing user filter := by
  have counted : (ledger.listing user filter).length ≤ Text.maxNat64 :=
    Nat.le_trans length_listing_le fits
  calc (ledger.pages settings user filter).flatMap (·.items)
      = (List.range' 1 (ledger.pageCount settings user filter)).flatMap fun number =>
          (ledger.history settings user filter number).items := by
        rw [pages_eq fits, List.flatMap_map]
    _ = (List.range' 1 (ledger.pageCount settings user filter)).flatMap fun number =>
          (Page.ofList (ledger.listing user filter) number (max settings.pageSize 1)).items := by
        refine List.flatMap_congr fun number member => ?_
        rw [history_of_pos (List.mem_range'_1.mp member).1]
    _ = (ledger.listing user filter).take
          (ledger.pageCount settings user filter * max settings.pageSize 1) :=
      Page.flatMap_items counted _
    _ = ledger.listing user filter :=
      List.take_of_length_le (Page.length_le_pageCount_mul (by omega))

end History

end Ledger

end Prepaid
