import Mathlib.Data.List.Induction
import Mathlib.Data.List.Nodup
import Prepaid.LockTable
import Prepaid.Proofs.Ledger.Sound

/-!
# Versions of rows

Rows of all kinds are put in versions. A batch writes its versions one after another,
the wallets first; it has each row once, at the place where the row was first put. That
makes no difference as long as rows keep their keys: to put one more version into a
batch and write the batch is to write the batch and to put the version on top.
-/

namespace Prepaid.Ledger

/-- One version of a row. -/
inductive Version where
  | order (order : Order)
  | wallet (wallet : Wallet)
  | entry (entry : Entry)
  | notice (record : NoticeRecord)

namespace Version

/-- The row that this is a version of. -/
def row : Version → Row
  | .order one => .order one.id
  | .wallet one => .wallet one.owner
  | .entry one => .entry one.id
  | .notice one => .notice one.id

/-- Versions of one row, with all the keys that the row is found by. -/
def SameKeys : Version → Version → Prop
  | .order one, .order other => one.id = other.id
  | .wallet one, .wallet other => one.owner = other.owner ∧ one.id = other.id
  | .entry one, .entry other => one.id = other.id ∧ one.wallet = other.wallet ∧
      one.order = other.order ∧ one.reference.session = other.reference.session
  | .notice one, .notice other => one.id = other.id
  | _, _ => False

/-- Versions of two rows of one kind, with none of the keys in common that a row has for itself. -/
def Beside : Version → Version → Prop
  | .order one, .order other => one.id ≠ other.id
  | .wallet one, .wallet other => one.owner ≠ other.owner ∧ one.id ≠ other.id
  | .entry one, .entry other => one.id ≠ other.id
  | .notice one, .notice other => one.id ≠ other.id
  | _, _ => False

/-- Versions of rows of two kinds. -/
def OtherKind : Version → Version → Prop
  | .order _, .order _ | .wallet _, .wallet _ | .entry _, .entry _ | .notice _, .notice _ => False
  | _, _ => True

end Version

/-! ## Batches -/

namespace Batch

/-- The version of a row in a batch. -/
def get? (row : Row) (batch : Batch) : Option Version :=
  match row with
  | .order id => (batch.orders.get? id).map .order
  | .wallet owner => (batch.wallets.get? owner).map .wallet
  | .entry id => (batch.entries.get? id).map .entry
  | .notice id => (batch.notices.get? id).map .notice

/-- Puts a version into a batch, in the place of the one before. -/
def put (version : Version) (batch : Batch) : Batch :=
  match version with
  | .order order => { batch with orders := batch.orders.put order.id order }
  | .wallet wallet => { batch with wallets := batch.wallets.put wallet.owner wallet }
  | .entry entry => { batch with entries := batch.entries.put entry.id entry }
  | .notice record => { batch with notices := batch.notices.put record.id record }

/-- All versions of a batch, in the order in which they are written. -/
def versions (batch : Batch) : List Version :=
  batch.wallets.values.map .wallet ++
    (batch.orders.values.map .order ++
      (batch.entries.values.map .entry ++ batch.notices.values.map .notice))

/-- A batch without rows has no versions. -/
theorem isEmpty_iff {batch : Batch} : batch.isEmpty = true ↔ batch.versions = [] := by
  simp [isEmpty, versions, Table.values, and_assoc]

/-- Rows stand under their keys. -/
def Named (batch : Batch) : Prop :=
  ∀ row version, batch.get? row = some version → version.row = row

/-- There is no version in an empty batch. -/
@[simp] theorem get?_empty (row : Row) : ({} : Batch).get? row = none := by
  cases row <;> rfl

/-- The version of a row is the one put last. -/
@[simp] theorem get?_put (version : Version) (row : Row) (batch : Batch) :
    (batch.put version).get? row = if version.row = row then some version else batch.get? row := by
  cases version <;> cases row <;> simp [put, get?, Version.row] <;> split <;> rfl

section Named

variable {batch : Batch} (named : batch.Named)

include named

/-- A wallet in a named batch stands under its owner. -/
theorem Named.wallet (owner : UserId) (wallet : Wallet)
    (found : batch.wallets.get? owner = some wallet) :
    wallet.owner = owner :=
  Row.wallet.inj (named (.wallet owner) (.wallet wallet) (by simp [get?, found]))

/-- An order in a named batch stands under its number. -/
theorem Named.order (id : OrderId) (order : Order) (found : batch.orders.get? id = some order) :
    order.id = id :=
  Row.order.inj (named (.order id) (.order order) (by simp [get?, found]))

/-- An entry in a named batch stands under its identifier. -/
theorem Named.entry (id : EntryId) (entry : Entry) (found : batch.entries.get? id = some entry) :
    entry.id = id :=
  Row.entry.inj (named (.entry id) (.entry entry) (by simp [get?, found]))

/-- A record in a named batch stands under its notice. -/
theorem Named.notice (id : String) (record : NoticeRecord)
    (found : batch.notices.get? id = some record) :
    record.id = id :=
  Row.notice.inj (named (.notice id) (.notice record) (by simp [get?, found]))

/-- The versions are those that are found by their rows. -/
theorem Named.mem_versions {version : Version} :
    version ∈ batch.versions ↔ batch.get? version.row = some version := by
  cases version with
  | wallet wallet => simp [versions, get?, Version.row, Table.mem_values_of_named named.wallet]
  | order order => simp [versions, get?, Version.row, Table.mem_values_of_named named.order]
  | entry entry => simp [versions, get?, Version.row, Table.mem_values_of_named named.entry]
  | notice record => simp [versions, get?, Version.row, Table.mem_values_of_named named.notice]

/-- No row is there twice. -/
theorem Named.nodup_versions : (batch.versions.map Version.row).Nodup := by
  have wallets := List.Nodup.map (fun _ _ => Row.wallet.inj) (Table.nodup_map_values named.wallet)
  have orders := List.Nodup.map (fun _ _ => Row.order.inj) (Table.nodup_map_values named.order)
  have entries := List.Nodup.map (fun _ _ => Row.entry.inj) (Table.nodup_map_values named.entry)
  have notices := List.Nodup.map (fun _ _ => Row.notice.inj) (Table.nodup_map_values named.notice)
  simp only [List.map_map] at wallets orders entries notices
  simp only [versions, List.map_append, List.map_map, List.nodup_append]
  refine ⟨wallets, ⟨orders, ⟨entries, notices, ?_⟩, ?_⟩, ?_⟩
  all_goals simp [Version.row, or_imp, forall_and]

end Named

/-- The first version of a row stands behind all others of its kind. -/
theorem versions_put_of_none {batch : Batch} {version : Version}
    (absent : batch.get? version.row = none) :
    ∃ front back, batch.versions = front ++ back ∧
      (batch.put version).versions = front ++ version :: back ∧
      ∀ other ∈ back, version.OtherKind other := by
  let wallets := batch.wallets.values.map Version.wallet
  let orders := batch.orders.values.map Version.order
  let entries := batch.entries.values.map Version.entry
  let notices := batch.notices.values.map Version.notice
  cases version with
  | wallet wallet =>
    have new : batch.wallets.get? wallet.owner = none := Option.map_eq_none_iff.mp absent
    refine ⟨wallets, orders ++ (entries ++ notices), rfl, ?_, ?_⟩
    · simp [versions, put, Table.values_put_of_none wallet new, wallets, orders, entries, notices]
    · simp [orders, entries, notices, or_imp, forall_and, Version.OtherKind]
  | order order =>
    have new : batch.orders.get? order.id = none := Option.map_eq_none_iff.mp absent
    refine ⟨wallets ++ orders, entries ++ notices, ?_, ?_, ?_⟩
    · simp [versions, wallets, orders, entries, notices]
    · simp [versions, put, Table.values_put_of_none order new, wallets, orders, entries, notices]
    · simp [entries, notices, or_imp, forall_and, Version.OtherKind]
  | entry entry =>
    have new : batch.entries.get? entry.id = none := Option.map_eq_none_iff.mp absent
    refine ⟨wallets ++ (orders ++ entries), notices, ?_, ?_, ?_⟩
    · simp [versions, wallets, orders, entries, notices]
    · simp [versions, put, Table.values_put_of_none entry new, wallets, orders, entries, notices]
    · simp [notices, Version.OtherKind]
  | notice record =>
    have new : batch.notices.get? record.id = none := Option.map_eq_none_iff.mp absent
    refine ⟨wallets ++ (orders ++ (entries ++ notices)), [], ?_, ?_, ?_⟩
    · simp [versions, wallets, orders, entries, notices]
    · simp [versions, put, Table.values_put_of_none record new, wallets, orders, entries, notices]
    · simp

/-- A later version takes the place of the one before. -/
theorem versions_put_of_some {batch : Batch} {old version : Version}
    (found : batch.get? version.row = some old) :
    ∃ front back, batch.versions = front ++ old :: back ∧
      (batch.put version).versions = front ++ version :: back := by
  let wallets := batch.wallets.values.map Version.wallet
  let orders := batch.orders.values.map Version.order
  let entries := batch.entries.values.map Version.entry
  let notices := batch.notices.values.map Version.notice
  cases version with
  | wallet wallet =>
    obtain ⟨held, known, rfl⟩ := Option.map_eq_some_iff.mp found
    obtain ⟨front, back, before, after⟩ := Table.values_put_of_some wallet known
    refine ⟨front.map .wallet, back.map .wallet ++ (orders ++ (entries ++ notices)), ?_, ?_⟩
    · simp [versions, before, orders, entries, notices]
    · simp [versions, put, after, orders, entries, notices]
  | order order =>
    obtain ⟨held, known, rfl⟩ := Option.map_eq_some_iff.mp found
    obtain ⟨front, back, before, after⟩ := Table.values_put_of_some order known
    refine ⟨wallets ++ front.map .order, back.map .order ++ (entries ++ notices), ?_, ?_⟩
    · simp [versions, before, wallets, entries, notices]
    · simp [versions, put, after, wallets, entries, notices]
  | entry entry =>
    obtain ⟨held, known, rfl⟩ := Option.map_eq_some_iff.mp found
    obtain ⟨front, back, before, after⟩ := Table.values_put_of_some entry known
    refine ⟨wallets ++ (orders ++ front.map .entry), back.map .entry ++ notices, ?_, ?_⟩
    · simp [versions, before, wallets, orders, notices]
    · simp [versions, put, after, wallets, orders, notices]
  | notice record =>
    obtain ⟨held, known, rfl⟩ := Option.map_eq_some_iff.mp found
    obtain ⟨front, back, before, after⟩ := Table.values_put_of_some record known
    refine ⟨wallets ++ (orders ++ (entries ++ front.map .notice)), back.map .notice, ?_, ?_⟩
    · simp [versions, before, wallets, orders, entries]
    · simp [versions, put, after, wallets, orders, entries]

end Batch

/-! ## Writing -/

namespace Tables

/-- Puts a version into the tables. -/
def put (version : Version) (tables : Tables) : Tables :=
  match version with
  | .order order => tables.putOrder order
  | .wallet wallet => tables.putWallet wallet
  | .entry entry => tables.putEntry entry
  | .notice record => tables.putNotice record

/-- Puts versions one after another. -/
def putAll (versions : List Version) (tables : Tables) : Tables :=
  versions.foldl (fun tables version => tables.put version) tables

/-- The rows without the indexes. -/
def rows (tables : Tables) : Batch where
  wallets := tables.wallets
  orders := tables.orders
  entries := tables.entries
  notices := tables.notices

variable {tables : Tables}

@[simp] theorem putAll_cons (version : Version) (versions : List Version) :
    tables.putAll (version :: versions) = (tables.put version).putAll versions := rfl

/-- Versions are put in two goes as in one. -/
@[simp] theorem putAll_append (front back : List Version) :
    tables.putAll (front ++ back) = (tables.putAll front).putAll back :=
  List.foldl_append

/-- The last version is put last. -/
theorem putAll_concat (versions : List Version) (version : Version) :
    tables.putAll (versions ++ [version]) = (tables.putAll versions).put version :=
  putAll_append versions [version]

/-- Putting a version changes the rows as a batch does. -/
@[simp] theorem rows_put (version : Version) :
    (tables.put version).rows = tables.rows.put version := by
  cases version <;> simp [put, rows, Batch.put, putOrder, putWallet, putNotice]

/-- Writing a batch puts its versions one after another. -/
theorem write_eq (batch : Batch) : tables.write batch = tables.putAll batch.versions := by
  simp only [write, putAll, Batch.versions, List.foldl_append, List.foldl_map]
  rfl

/-- Of all versions that are put, a lookup finds the last one. -/
theorem get?_putAll (versions : List Version) (row : Row) :
    (tables.putAll versions).rows.get? row =
      (versions.reverse.find? (·.row = row)).or (tables.rows.get? row) := by
  induction versions using List.reverseRecOn with
  | nil => rfl
  | append_singleton versions version ih =>
    rw [putAll_concat, rows_put, Batch.get?_put, ih, List.reverse_append,
      List.reverse_singleton, List.singleton_append, List.find?_cons]
    by_cases same : version.row = row <;> simp [same]

/-! A version can be put before or after another one, unless it is the first of its row and
the other one is of the same kind: then the row would get another place. -/

/-- The tables know the row of a version by its keys. -/
def HasRow (version : Version) (tables : Tables) : Prop :=
  match version with
  | .order order => ∃ old, tables.orders.get? order.id = some old
  | .wallet wallet => (∃ old, tables.wallets.get? wallet.owner = some old) ∧
      ∃ user, tables.owners.get? wallet.id = some user
  | .entry entry => ∃ old, tables.entries.get? entry.id = some old
  | .notice record => ∃ old, tables.notices.get? record.id = some old

/-- Rows of two kinds can be put in either order. -/
theorem put_comm_of_otherKind {one other : Version} (apart : one.OtherKind other) :
    (tables.put other).put one = (tables.put one).put other := by
  -- Only entries look into the tables when they are put, and there only at other entries.
  have entries (entry : Entry) {other : Version} (apart : (Version.entry entry).OtherKind other) :
      (tables.put other).putEntry entry = (tables.putEntry entry).put other := by
    have same : (tables.put other).entries = tables.entries := by
      cases other <;> first | exact apart.elim | rfl
    cases known : tables.entries.get? entry.id with
    | some old =>
      rw [putEntry_of_some known, putEntry_of_some (same ▸ known)]
      cases other <;> first | exact apart.elim | rfl
    | none =>
      rw [putEntry_of_none known, putEntry_of_none (same ▸ known)]
      cases other <;> first | exact apart.elim | rfl
  cases one with
  | entry entry => exact entries entry apart
  | order | wallet | notice =>
    cases other with
    | entry entry => exact (entries entry (by trivial)).symm
    | order | wallet | notice => first | exact apart.elim | rfl

/-- Rows of one kind can be put in either order, if one of them is there already. -/
theorem put_comm_of_hasRow {one other : Version} (beside : one.Beside other)
    (has : tables.HasRow one) :
    (tables.put other).put one = (tables.put one).put other := by
  cases one with
  | order one =>
    cases other with
    | order other =>
      obtain ⟨old, known⟩ := has
      simp only [put, putOrder, Table.put_comm beside one other known]
    | _ => exact beside.elim
  | wallet one =>
    cases other with
    | wallet other =>
      obtain ⟨⟨old, known⟩, ⟨user, owned⟩⟩ := has
      simp only [put, putWallet, Table.put_comm beside.1 one other known,
        Table.put_comm beside.2 _ _ owned]
    | _ => exact beside.elim
  | notice one =>
    cases other with
    | notice other =>
      obtain ⟨old, known⟩ := has
      simp only [put, putNotice, Table.put_comm beside one other known]
    | _ => exact beside.elim
  | entry one =>
    cases other with
    | entry other =>
      obtain ⟨old, known⟩ := has
      have behind : (tables.putEntry other).entries.get? one.id = some old := by
        rw [putEntry_entries, Table.get?_put, if_neg (Ne.symm beside), known]
      have same : (tables.putEntry one).entries.get? other.id = tables.entries.get? other.id := by
        rw [putEntry_entries, Table.get?_put, if_neg beside]
      simp only [put]
      rw [putEntry_of_some behind]
      cases taken : tables.entries.get? other.id with
      | some held =>
        rw [putEntry_of_some (same.trans taken), putEntry_of_some taken, putEntry_of_some known]
        simp only [Table.put_comm beside one other known]
      | none =>
        rw [putEntry_of_none (same.trans taken), putEntry_of_none taken, putEntry_of_some known]
        simp only [Table.put_comm beside one other known]
        rfl
    | _ => exact beside.elim

/-- Of two versions of a row that has kept its keys only the last one counts. -/
theorem put_put {old new : Version} (same : new.SameKeys old) :
    (tables.put old).put new = tables.put new := by
  cases new with
  | order new =>
    cases old with
    | order old => simp only [put, putOrder, show new.id = old.id from same, Table.put_put]
    | _ => exact same.elim
  | wallet new =>
    cases old with
    | wallet old => simp only [put, putWallet, same.1, same.2, Table.put_put]
    | _ => exact same.elim
  | notice new =>
    cases old with
    | notice old => simp only [put, putNotice, show new.id = old.id from same, Table.put_put]
    | _ => exact same.elim
  | entry new =>
    cases old with
    | entry old =>
      obtain ⟨id, wallet, order, session⟩ := same
      have behind : (tables.putEntry old).entries.get? new.id = some old := by
        rw [putEntry_entries, Table.get?_put, if_pos id.symm]
      simp only [put]
      rw [putEntry_of_some behind]
      cases taken : tables.entries.get? old.id with
      | some held =>
        rw [putEntry_of_some taken, putEntry_of_some (id ▸ taken)]
        simp only [id, Table.put_put]
      | none =>
        rw [putEntry_of_none taken, putEntry_of_none (id ▸ taken)]
        simp only [index, id, wallet, order, session, Table.put_put]
    | _ => exact same.elim

/-- A row that has been put is there for its next version. -/
theorem hasRow_put {old new : Version} (same : new.SameKeys old) : (tables.put old).HasRow new := by
  cases new with
  | order new =>
    cases old with
    | order old => exact ⟨old, by simp [put, putOrder, show new.id = old.id from same]⟩
    | _ => exact same.elim
  | wallet new =>
    cases old with
    | wallet old =>
      exact ⟨⟨old, by simp [put, putWallet, same.1]⟩, ⟨old.owner, by simp [put, putWallet, same.2]⟩⟩
    | _ => exact same.elim
  | notice new =>
    cases old with
    | notice old => exact ⟨old, by simp [put, putNotice, show new.id = old.id from same]⟩
    | _ => exact same.elim
  | entry new =>
    cases old with
    | entry old => exact ⟨old, by simp [put, same.1]⟩
    | _ => exact same.elim

/-- A row that is there stays there. -/
theorem HasRow.put {one : Version} (has : tables.HasRow one) (other : Version) :
    (tables.put other).HasRow one := by
  cases one with
  | order one =>
    cases other with
    | order other => exact Table.exists_put has _ _
    | entry other => simpa only [HasRow, Tables.put, putEntry_orders] using has
    | _ => exact has
  | wallet one =>
    cases other with
    | wallet other => exact ⟨Table.exists_put has.1 _ _, Table.exists_put has.2 _ _⟩
    | entry other => simpa only [HasRow, Tables.put, putEntry_wallets, putEntry_owners] using has
    | _ => exact has
  | notice one =>
    cases other with
    | notice other => exact Table.exists_put has _ _
    | entry other => simpa only [HasRow, Tables.put, putEntry_notices] using has
    | _ => exact has
  | entry one =>
    cases other with
    | entry other => simpa only [HasRow, Tables.put, putEntry_entries]
      using Table.exists_put has _ _
    | _ => exact has

/-- A version can be put before many others. -/
theorem put_putAll {one : Version} {others : List Version}
    (free : ∀ other ∈ others, one.OtherKind other ∨ one.Beside other ∧ tables.HasRow one) :
    (tables.putAll others).put one = (tables.put one).putAll others := by
  induction others generalizing tables with
  | nil => rfl
  | cons other others ih =>
    have first : (tables.put other).put one = (tables.put one).put other := by
      rcases free other List.mem_cons_self with apart | ⟨beside, has⟩
      · exact put_comm_of_otherKind apart
      · exact put_comm_of_hasRow beside has
    rw [putAll_cons, putAll_cons, ← first]
    refine ih fun another member => ?_
    rcases free another (List.mem_cons_of_mem other member) with apart | ⟨beside, has⟩
    · exact .inl apart
    · exact .inr ⟨beside, has.put other⟩

/-- To put a version into a batch and to write the batch is to write the batch and to put the
version on top. -/
theorem write_put {batch : Batch} (named : batch.Named) {version : Version}
    (same : ∀ old, batch.get? version.row = some old → version.SameKeys old)
    (apart : ∀ other ∈ batch.versions, other.row ≠ version.row →
      version.OtherKind other ∨ version.Beside other) :
    tables.write (batch.put version) = (tables.write batch).put version := by
  rw [write_eq, write_eq]
  cases found : batch.get? version.row with
  | none =>
    obtain ⟨front, back, before, after, others⟩ := Batch.versions_put_of_none found
    rw [before, after, putAll_append, putAll_append, putAll_cons,
      put_putAll fun other member => .inl (others other member)]
  | some old =>
    obtain ⟨front, back, before, after⟩ := Batch.versions_put_of_some found
    have rowOf : old.row = version.row := named _ _ found
    have distinct := named.nodup_versions
    rw [before, List.map_append, List.map_cons, rowOf] at distinct
    have elsewhere (other : Version) (member : other ∈ back) : other.row ≠ version.row :=
      fun equal =>
      (List.nodup_cons.mp (List.nodup_append.mp distinct).2.1).1
        (List.mem_map.mpr ⟨other, member, equal⟩)
    have free (other : Version) (member : other ∈ back) : version.OtherKind other ∨
        version.Beside other ∧ ((tables.putAll front).put old).HasRow version := by
      have there : other ∈ batch.versions := by
        rw [before]
        exact List.mem_append_right front (List.mem_cons_of_mem old member)
      refine (apart other there (elsewhere other member)).imp_right fun beside => ⟨beside, ?_⟩
      exact hasRow_put (same old found)
    rw [before, after, putAll_append, putAll_append, putAll_cons, putAll_cons, put_putAll free,
      put_put (same old found)]

end Tables

end Prepaid.Ledger
