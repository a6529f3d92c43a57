import Prepaid.CommandLine
import Prepaid.Proofs.Ledger.History
import Prepaid.Proofs.Report
import Prepaid.Proofs.Service.Books

/-!
# The history of a user

Whatever the tables list, and in whatever order, the pages of a user's history show each
entry once and the newest first. What the program prints of a user is that history, with a
line for each entry.
-/

namespace Prepaid.Service

open Ledger

/-- A service that runs lead to lists the entries of each wallet once. -/
theorem Reachable.enumerates {settings : Settings} {service : Service}
    (reachable : Reachable settings service) : service.ledger.tables.Enumerates := by
  obtain ⟨steps, run⟩ := reachable
  exact run.intact.sound.enumerates

/-- The program prints the whole listing of a user. -/
theorem report_of_history {options : CommandLine.Options} {user : UserId} {ledger : Ledger}
    (fits : (ledger.entriesOf user).length ≤ Text.maxNat64) (asked : options.history = some user) :
    CommandLine.report options ledger = ⟨0, Report.entries (ledger.listing user {})⟩ := by
  rw [CommandLine.report, asked]
  simp only [flatMap_pages fits]

/-- The walk from the first page on ends after as many pages as the matching entries of the user
fill, and after one if there are none. What the pages hold is every matching entry of the user, each
once and the newest first, however the tables list them. Each page tells how many entries match,
holds no more than its size, and has a page behind it unless it is the last; pages further on are
empty, and there is none in front of the first. So the program prints every entry of the user once:
its text has a header and one line for each entry, the newest first, from which the entry is read
back, and nothing else. -/
theorem pages_partition_entries (settings : Settings) (user : UserId) (filter : EntryFilter)
    {ledger : Ledger} (enumerates : ledger.tables.Enumerates)
    (fits : (ledger.entriesOf user).length ≤ Text.maxNat64) :
    let size := max settings.pageSize 1
    let pages := ledger.pages settings user filter
    let items := pages.flatMap (·.items)
    let page (number : Nat) := ledger.history settings user filter number
    (∀ entry, entry ∈ items ↔
      ledger.tables.entries.get? entry.id = some entry ∧ ledger.Owns user entry ∧
        (∀ order, filter.order = some order → entry.order = some order) ∧
        (∀ kind, filter.kind = some kind → entry.kind = kind) ∧
        ∀ status, filter.status = some status → entry.status = status) ∧
    items.Nodup ∧ items.Pairwise Entry.Precedes ∧
    pages.length = max 1 ((items.length + size - 1) / size) ∧
    pages = (List.range' 1 pages.length).map page ∧
    (∀ number, (page number).number = max number 1 ∧ (page number).size = size ∧
      (page number).items.length ≤ size ∧ (page number).total = items.length ∧
      ((page number).hasNext = true ↔ max number 1 < pages.length) ∧
      (pages.length < number → (page number).items = [])) ∧
    page 0 = page 1 ∧
    (∀ other : Ledger, (other.entriesOf user).Perm (ledger.entriesOf user) →
      other.pages settings user filter = pages ∧
        ∀ number, other.history settings user filter number = page number) ∧
    ∀ options : CommandLine.Options, options.history = some user →
      ∃ rows, CommandLine.report options ledger = ⟨0, Report.entries rows⟩ ∧
        Report.ShowsEntries rows (Report.entries rows) ∧ rows.Nodup ∧ rows.Pairwise Entry.Precedes ∧
        ∀ entry, entry ∈ rows ↔
          ledger.tables.entries.get? entry.id = some entry ∧ ledger.Owns user entry := by
  intro size pages items page
  have listed : items = ledger.listing user filter := flatMap_pages fits
  have count : pages.length = ledger.pageCount settings user filter := length_pages fits
  refine ⟨fun entry => ?_, ?_, ?_, ?_, ?_, fun number => ?_, rfl, ?_, ?_⟩
  · rw [listed, mem_listing enumerates, EntryFilter.matches_iff, and_assoc]
  · rw [listed]
    exact nodup_listing enumerates
  · rw [listed]
    exact pairwise_listing enumerates
  · rw [count, listed]
    rfl
  · rw [count]
    exact pages_eq fits
  · refine ⟨rfl, rfl, Page.length_items_ofList_le, (congrArg List.length listed).symm, ?_,
      fun past => ?_⟩
    · rw [count]
      change (ledger.history settings user filter number).hasNext = true ↔ _
      rw [← history_max]
      exact hasNext_history fits (by omega)
    · exact items_history_of_lt fits (count ▸ past)
  · intro other same
    exact ⟨pages_eq_of_perm enumerates fits same, history_eq_of_perm enumerates same⟩
  · intro options asked
    refine ⟨_, report_of_history fits asked, Report.showsEntries_entries _,
      nodup_listing enumerates, pairwise_listing enumerates, fun entry => ?_⟩
    rw [mem_listing enumerates, EntryFilter.matches_iff]
    simp

/-- With one entry on a page, a deposit and a hold fill two pages. They are printed in two lines
under a header. -/
theorem pages_of_held_order :
    let ledger := (performAll {} heldOrder { gateway := { secret := "" } }).ledger
    (ledger.pages { pageSize := 1 } ⟨1⟩ {}).length = 2 ∧
      (ledger.history { pageSize := 1 } ⟨1⟩ {} 2).hasNext = false ∧
      (ledger.history { pageSize := 1 } ⟨1⟩ {} Text.maxNat64).items = [] ∧
      ∃ text, CommandLine.report { history := some ⟨1⟩ } ledger = ⟨0, text⟩ ∧
        (Csv.records (Text.bytes text)).length = 3 := by
  intro ledger
  obtain ⟨member, nodup, _, count, _, page, _, _, prints⟩ :=
    pages_partition_entries { pageSize := 1 } ⟨1⟩ {} heldOrder_reachable.enumerates (by decide)
  have total : (ledger.listing ⟨1⟩ {}).length = 2 := by
    rw [listing, List.length_mergeSort]
    decide
  have two : (ledger.pages { pageSize := 1 } ⟨1⟩ {}).length = 2 := by
    rw [count, ← (page 1).2.2.2.1]
    exact congrArg (fun total => max 1 ((total + 1 - 1) / 1)) total
  refine ⟨two, ?_, (page Text.maxNat64).2.2.2.2.2 (two ▸ by decide), ?_⟩
  · rw [← Bool.not_eq_true, (page 2).2.2.2.2.1, two]
    decide
  · obtain ⟨rows, reported, shows, distinct, _, every⟩ := prints { history := some ⟨1⟩ } rfl
    have same := (List.perm_ext_iff_of_nodup distinct nodup).mpr fun entry => by
      rw [every, member]
      simp
    have length : rows.length = 2 := by
      rw [same.length_eq, ← (page 1).2.2.2.1]
      exact total
    obtain ⟨records, read, tells, _⟩ := shows.records (List.length_pos_iff.mp (by omega))
    refine ⟨_, reported, ?_⟩
    rw [read, List.length_cons, tells.length_eq, length]

end Prepaid.Service
