import Prepaid.Proofs.Ledger.Agreement
import Prepaid.Proofs.Ledger.Versions

/-!
# Stores with keys

What a store has to be like, and what versions may be put into it, so that a unit of work
can look for rows in the store that it has not put itself: rows stand under their keys and
keep them, and an order has one hold at most.
-/

namespace Prepaid.Ledger

namespace Tables

/-- No order has two entries that hold money for it. -/
def OneHold (tables : Tables) : Prop :=
  ∀ one ∈ tables.entries.values, ∀ other ∈ tables.entries.values, one.isPendingHold →
    other.isPendingHold → one.order.isSome → one.order = other.order → one.id = other.id

instance (tables : Tables) : Decidable tables.OneHold :=
  inferInstanceAs (Decidable (∀ _ ∈ _, ∀ _ ∈ _, _ → _ → _ → _ → _))

/-- An entry that holds money for an order. -/
def HasHold (order : OrderId) (entry : Entry) (tables : Tables) : Prop :=
  tables.entries.get? entry.id = some entry ∧ entry.order = some order ∧ entry.isPendingHold = true

/-- Wallets and entries stand under their keys, and entries are found by their orders. -/
structure Keyed (tables : Tables) : Prop where
  wallet_owner : ∀ {user wallet}, tables.wallets.get? user = some wallet → wallet.owner = user
  entry_id : ∀ {id entry}, tables.entries.get? id = some entry → entry.id = id
  order_index : ∀ {order id}, id ∈ (tables.entriesOfOrder.get? order).getD [] ↔
    ∃ entry, tables.entries.get? id = some entry ∧ entry.order = some order

/-- A version fits if its row keeps the keys that it is found by, and if it makes no second hold of
an order. -/
def Fits (version : Version) (tables : Tables) : Prop :=
  match version with
  | .order _ | .notice _ => True
  | .wallet wallet => ∀ old ∈ tables.wallets.get? wallet.owner, old.id = wallet.id
  | .entry entry =>
    (∀ old ∈ tables.entries.get? entry.id, entry.wallet = old.wallet ∧ entry.order = old.order ∧
      entry.reference.session = old.reference.session) ∧
    (tables.putEntry entry).OneHold

instance (version : Version) (tables : Tables) : Decidable (tables.Fits version) :=
  match version with
  | .order _ | .notice _ => inferInstanceAs (Decidable True)
  | .wallet _ => inferInstanceAs (Decidable (∀ _ ∈ _, _))
  | .entry _ => inferInstanceAs (Decidable (_ ∧ _))

section Keys

variable {tables : Tables} {version : Version}

/-- Any two holds of an order are the same. -/
theorem OneHold.unique (single : tables.OneHold) {order : OrderId} {one other : Entry}
    (first : tables.HasHold order one) (second : tables.HasHold order other) : one = other := by
  obtain ⟨known, ordered, pending⟩ := first
  obtain ⟨otherKnown, otherOrdered, otherPending⟩ := second
  have same := single one (Table.mem_values known) other
    (Table.mem_values otherKnown) pending otherPending (by simp [ordered])
      (ordered.trans otherOrdered.symm)
  rw [same, otherKnown] at known
  exact (Option.some.inj known).symm

/-- The hold of an order is the one entry that is marked as such, wherever the index has it. -/
theorem Keyed.pendingHold?_eq_some_iff (keyed : tables.Keyed) (single : tables.OneHold)
    {order : OrderId} {entry : Entry} : tables.pendingHold? order = some entry ↔
    tables.HasHold order entry := by
  have listed (held : Entry) : held ∈ tables.orderEntries order ↔
      tables.entries.get? held.id = some held ∧ held.order = some order := by
    rw [orderEntries, List.mem_filterMap]
    constructor
    · rintro ⟨id, indexed, found⟩
      obtain ⟨row, known, ordered⟩ := keyed.order_index.mp indexed
      rw [found] at known
      cases known
      rw [keyed.entry_id found]
      exact ⟨found, ordered⟩
    · rintro ⟨found, ordered⟩
      exact ⟨held.id, keyed.order_index.mpr ⟨held, found, ordered⟩, found⟩
  have spec {held : Entry} (found : tables.pendingHold? order = some held) :
      tables.HasHold order held := by
    obtain ⟨known, ordered⟩ := (listed held).mp (List.mem_of_find?_eq_some found)
    exact ⟨known, ordered, List.find?_some found⟩
  refine ⟨spec, fun has => ?_⟩
  have member : entry ∈ tables.orderEntries order := (listed entry).mpr ⟨has.1, has.2.1⟩
  obtain ⟨held, found⟩ : ∃ held, tables.pendingHold? order = some held :=
    Option.isSome_iff_exists.mp (List.find?_isSome.mpr ⟨entry, member, has.2.2⟩)
  rw [found, single.unique (spec found) has]

/-! Tables that are sound and agree with their orders are of this kind. -/

/-- Sound tables are keyed. -/
theorem Sound.keyed (sound : tables.Sound) : tables.Keyed where
  wallet_owner := sound.wallet_owner
  entry_id := sound.entry_id
  order_index := by
    intro order id
    rw [sound.order_index, List.mem_map]
    constructor
    · rintro ⟨entry, member, rfl⟩
      obtain ⟨present, ordered⟩ := mem_rowsOfOrder.mp member
      exact ⟨entry, sound.entry_of_mem present, ordered⟩
    · rintro ⟨entry, found, ordered⟩
      exact ⟨entry, mem_rowsOfOrder.mpr ⟨Table.mem_values found, ordered⟩, sound.entry_id found⟩

/-- Where orders and entries agree, no order is held twice. -/
theorem Agreed.oneHold (agreed : tables.Agreed) (sound : tables.Sound) : tables.OneHold := by
  intro one member other otherMember pending _ ordered same
  obtain ⟨order, ordered⟩ := Option.isSome_iff_exists.mp ordered
  obtain ⟨known, registered⟩ := agreed.registered (sound.entry_of_mem member) ordered
  obtain rfl := sound.order_id registered
  have inside : one ∈ tables.rowsOfOrder known.id := mem_rowsOfOrder.mpr ⟨member, ordered⟩
  have otherInside : other ∈ tables.rowsOfOrder known.id :=
    mem_rowsOfOrder.mpr ⟨otherMember, same ▸ ordered⟩
  simp only [Entry.isPendingHold, Bool.and_eq_true, decide_eq_true_eq] at pending
  -- An order with a pending hold has no other entry.
  have marked :
      (EntryKind.hold, EntryStatus.pending) ∈ (tables.rowsOfOrder known.id).map Entry.mark :=
    List.mem_map.mpr ⟨one, inside, Prod.ext pending.1 pending.2⟩
  have trail := known.status.trail_of_pending .hold _ (agreed.backed registered).trail marked
  obtain ⟨only, single, _⟩ := List.map_eq_singleton_iff.mp trail
  rw [single, List.mem_singleton] at inside otherInside
  rw [inside, otherInside]

/-! Both are kept by versions that fit. -/

/-- A wallet that is put stands under its own keys. -/
theorem Keyed.putWallet (keyed : tables.Keyed) (wallet : Wallet) :
    (tables.putWallet wallet).Keyed where
  wallet_owner := by
    intro user held
    simp only [Tables.putWallet, Table.get?_put]
    split
    · next owner =>
      rintro ⟨⟩
      exact owner
    · exact keyed.wallet_owner
  entry_id := keyed.entry_id
  order_index := keyed.order_index

/-- An entry that keeps its order stays found by it. -/
theorem Keyed.putEntry (keyed : tables.Keyed) {entry : Entry}
    (same : ∀ old ∈ tables.entries.get? entry.id, entry.order = old.order) :
    (tables.putEntry entry).Keyed where
  wallet_owner := by rw [putEntry_wallets]; exact keyed.wallet_owner
  entry_id := by
    intro id held found
    rcases entry_of_putEntry found with ⟨key, rfl⟩ | old
    · exact key
    · exact keyed.entry_id old
  order_index := by
    intro order id
    cases known : tables.entries.get? entry.id with
    | some old =>
      rw [putEntry_of_some known, keyed.order_index, Table.get?_put]
      split
      · next this =>
        subst this
        simp [known, same old known]
      · rfl
    | none =>
      have listed : id ∈ ((tables.putEntry entry).entriesOfOrder.get? order).getD [] ↔
          id ∈ (tables.entriesOfOrder.get? order).getD [] ∨ entry.order = some order ∧
          id = entry.id := by
        rw [putEntry_of_none known]
        cases ordered : entry.order with
        | none => simp [index, ordered]
        | some own => by_cases this : own = order <;> simp [index, ordered, getD_push, this]
      rw [listed, keyed.order_index, putEntry_entries, Table.get?_put]
      split
      · next this =>
        subst this
        simp [known]
      · next other => simp [Ne.symm other]

/-- A version that fits keeps the keys. -/
theorem Keyed.put (keyed : tables.Keyed) (fits : tables.Fits version) :
    (tables.put version).Keyed := by
  cases version with
  | order | notice => exact ⟨keyed.wallet_owner, keyed.entry_id, keyed.order_index⟩
  | wallet wallet => exact keyed.putWallet wallet
  | entry entry => exact keyed.putEntry fun old known => (fits.1 old known).2.1

/-- A version that fits makes no second hold. -/
theorem OneHold.put (single : tables.OneHold) (fits : tables.Fits version) :
    (tables.put version).OneHold := by
  cases version with
  | order | notice | wallet => exact single
  | entry entry => exact fits.2

/-- A version that fits has the keys of the one that is there. -/
theorem Fits.sameKeys (fits : tables.Fits version) {old : Version}
    (found : tables.rows.get? version.row = some old) (row : old.row = version.row) :
    version.SameKeys old := by
  cases version with
  | order order =>
    obtain ⟨held, known, rfl⟩ := Option.map_eq_some_iff.mp found
    exact (Row.order.inj row).symm
  | wallet wallet =>
    obtain ⟨held, known, rfl⟩ := Option.map_eq_some_iff.mp found
    exact ⟨(Row.wallet.inj row).symm, (fits held known).symm⟩
  | entry entry =>
    obtain ⟨held, known, rfl⟩ := Option.map_eq_some_iff.mp found
    exact ⟨(Row.entry.inj row).symm, fits.1 held known⟩
  | notice record =>
    obtain ⟨held, known, rfl⟩ := Option.map_eq_some_iff.mp found
    exact (Row.notice.inj row).symm

end Keys

end Tables

namespace Version

/-- Two versions are not of wallets of two users with one identifier. -/
def Apart : Version → Version → Prop
  | .wallet one, .wallet other => one.id = other.id → one.owner = other.owner
  | _, _ => True

instance : DecidableRel Apart
  | .wallet one,
    .wallet other => inferInstanceAs (Decidable (one.id = other.id → one.owner = other.owner))
  | .order _, _ | .entry _, _ | .notice _, _ => inferInstanceAs (Decidable True)
  | .wallet _, .order _ | .wallet _, .entry _ | .wallet _,
    .notice _ => inferInstanceAs (Decidable True)

/-- Versions of two rows that are apart have no key in common that a row has for itself. -/
theorem Apart.otherKind_or_beside {version other : Version} (apart : version.Apart other)
    (elsewhere : other.row ≠ version.row) : version.OtherKind other ∨ version.Beside other := by
  cases version with
  | order order =>
    cases other with
    | order held => exact .inr fun same => elsewhere (congrArg Row.order same.symm)
    | _ => exact .inl trivial
  | wallet wallet =>
    cases other with
    | wallet held =>
      have owners : wallet.owner ≠ held.owner :=
        fun same => elsewhere (congrArg Row.wallet same.symm)
      exact .inr ⟨owners, fun same => owners (apart same)⟩
    | _ => exact .inl trivial
  | entry entry =>
    cases other with
    | entry held => exact .inr fun same => elsewhere (congrArg Row.entry same.symm)
    | _ => exact .inl trivial
  | notice record =>
    cases other with
    | notice held => exact .inr fun same => elsewhere (congrArg Row.notice same.symm)
    | _ => exact .inl trivial

end Version

end Prepaid.Ledger
