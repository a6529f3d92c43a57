import Mathlib.Data.List.Nodup
import Prepaid.Proofs.Ledger.Agreement

/-!
# Indexes

An index is filled when an entry is first put, and nothing is ever taken out of it. It
is right all the same: no entry changes the keys that it is indexed by, and no
identifier is used for two entries. `Tables.Indexed` says so of the index lists, entry
by entry, and `Tables.LooksUp` of what the ledger reads through them.
-/

namespace Prepaid.Ledger

namespace Tables

/-- Each index has an entry exactly where its row says, and there only once. -/
structure Indexed (tables : Tables) : Prop where
  wallet : ∀ wallet id, ((tables.entriesOfWallet.get? wallet).getD []).count id =
    if (tables.entries.get? id).any fun entry => entry.wallet = wallet then 1 else 0
  order : ∀ order id, ((tables.entriesOfOrder.get? order).getD []).count id =
    if (tables.entries.get? id).any fun entry => entry.order = some order then 1 else 0
  session_iff : ∀ session, (tables.entryOfSession.get? session).isSome ↔
    ∃ entry ∈ tables.entries.values, entry.reference.session = some session
  session : ∀ session id, tables.entryOfSession.get? session = some id →
    ∃ entry, tables.entries.get? id = some entry ∧ entry.reference.session = some session
  owner : ∀ id user, tables.owners.get? id = some user ↔
    ∃ wallet, tables.wallets.get? user = some wallet ∧ wallet.id = id

/-- What is read through the indexes is what the rows have. -/
structure LooksUp (tables : Tables) : Prop where
  walletEntries : ∀ wallet entry, (tables.walletEntries wallet).count entry =
    if tables.entries.get? entry.id = some entry ∧ entry.wallet = wallet then 1 else 0
  pendingHold : ∀ order entry, tables.pendingHold? order = some entry ↔
    tables.entries.get? entry.id = some entry ∧ entry.order = some order ∧
    entry.isPendingHold = true
  entryForSession : ∀ session, (tables.entryForSession? session).isSome ↔
    ∃ entry ∈ tables.entries.values, entry.reference.session = some session
  walletById : ∀ entry ∈ tables.entries.values, ∃ wallet,
    tables.walletById? entry.wallet = some wallet ∧ wallet.id = entry.wallet ∧
      tables.wallets.get? wallet.owner = some wallet

namespace Sound

variable {tables : Tables}

/-- An entry is in the tables exactly if it is found under its identifier. -/
theorem mem_entries_iff (sound : Sound tables) {entry : Entry} :
    entry ∈ tables.entries.values ↔ tables.entries.get? entry.id = some entry :=
  ⟨sound.entry_of_mem, Table.mem_values⟩

/-- No two entries have one identifier. -/
theorem nodup_ids (sound : Sound tables) : (tables.entries.values.map Entry.id).Nodup :=
  Table.nodup_map_values fun _ _ found => sound.entry_id found

/-- Among the identifiers of the entries that pass a test, one stands once if its row passes. -/
theorem count_ids (sound : Sound tables) (keep : Entry → Bool) (id : EntryId) :
    ((tables.entries.values.filter keep).map Entry.id).count id =
      if (tables.entries.get? id).any keep then 1 else 0 := by
  have distinct : ((tables.entries.values.filter keep).map Entry.id).Nodup :=
    sound.nodup_ids.sublist (List.filter_sublist.map Entry.id)
  have present : id ∈ (tables.entries.values.filter keep).map Entry.id ↔
      (tables.entries.get? id).any keep = true := by
    rw [List.mem_map, Option.any_eq_true]
    constructor
    · rintro ⟨entry, member, rfl⟩
      obtain ⟨row, kept⟩ := List.mem_filter.mp member
      exact ⟨entry, sound.entry_of_mem row, kept⟩
    · rintro ⟨entry, found, kept⟩
      exact ⟨entry, List.mem_filter.mpr ⟨Table.mem_values found, kept⟩, sound.entry_id found⟩
  rw [distinct.count]
  simp only [present]

/-- A session is indexed exactly if an entry carries it. -/
theorem session_isSome_iff (sound : Sound tables) (session : String) :
    (tables.entryOfSession.get? session).isSome ↔
      ∃ entry ∈ tables.entries.values, entry.reference.session = some session := by
  rw [Option.isSome_iff_exists]
  constructor
  · rintro ⟨id, named⟩
    obtain ⟨entry, found, carries⟩ := sound.session_named named
    exact ⟨entry, Table.mem_values found, carries⟩
  · rintro ⟨entry, member, carries⟩
    exact sound.session_known (sound.entry_of_mem member) carries

/-- Sound tables are indexed. -/
theorem indexed (sound : Sound tables) : tables.Indexed where
  wallet wallet id := by rw [sound.wallet_index, rowsOfWallet, sound.count_ids]
  order order id := by rw [sound.order_index, rowsOfOrder, sound.count_ids]
  session_iff := sound.session_isSome_iff
  session _ _ named := sound.session_named named
  owner _ _ := sound.owner_iff

/-- The entries of a wallet are listed once each. -/
theorem count_walletEntries (sound : Sound tables) (wallet : WalletId) (entry : Entry) :
    (tables.walletEntries wallet).count entry =
      if tables.entries.get? entry.id = some entry ∧ entry.wallet = wallet then 1 else 0 := by
  have distinct : (tables.rowsOfWallet wallet).Nodup :=
    (List.Nodup.of_map Entry.id sound.nodup_ids).filter _
  have present : entry ∈ tables.rowsOfWallet wallet ↔
      tables.entries.get? entry.id = some entry ∧ entry.wallet = wallet := by
    rw [rowsOfWallet, List.mem_filter, sound.mem_entries_iff, decide_eq_true_eq]
  rw [sound.walletEntries_eq, distinct.count]
  simp only [present]

/-- The hold that is found for an order is the only one that there is. -/
theorem pendingHold?_eq_some_iff (sound : Sound tables) (agreed : tables.Agreed) {order : OrderId}
    {entry : Entry} : tables.pendingHold? order = some entry ↔
      tables.entries.get? entry.id = some entry ∧ entry.order = some order ∧
      entry.isPendingHold = true := by
  constructor
  · intro found
    obtain ⟨_, present, ordered, hold, pending⟩ := sound.pendingHold?_spec found
    exact ⟨present, ordered, by simp [Entry.isPendingHold, hold, pending]⟩
  · rintro ⟨present, ordered, pending⟩
    obtain ⟨row, known⟩ := agreed.registered present ordered
    obtain rfl := sound.order_id known
    have member : entry ∈ tables.rowsOfOrder row.id :=
      mem_rowsOfOrder.mpr ⟨Table.mem_values present, ordered⟩
    have unsettled : entry.status = .pending := by
      simp only [Entry.isPendingHold, Bool.and_eq_true, decide_eq_true_eq] at pending
      exact pending.2
    rw [pendingHold?, sound.orderEntries_eq, (agreed.backed known).single member unsettled,
      List.find?_singleton, if_pos pending]

/-- What is read through the indexes of sound tables is what the rows have. -/
theorem looksUp (sound : Sound tables) (agreed : tables.Agreed) : tables.LooksUp where
  walletEntries := sound.count_walletEntries
  pendingHold _ _ := sound.pendingHold?_eq_some_iff agreed
  entryForSession session := by
    rw [← sound.session_isSome_iff, entryForSession?]
    cases named : tables.entryOfSession.get? session with
    | none => simp
    | some id =>
      obtain ⟨entry, found, _⟩ := sound.session_named named
      simp [found]
  walletById entry member := by
    obtain ⟨user, wallet, found, owned⟩ := sound.entry_wallet (sound.entry_of_mem member)
    refine ⟨wallet, ?_, owned, ?_⟩
    · rw [← owned]
      exact sound.walletById?_of_get? found
    · rw [sound.wallet_owner found]
      exact found

end Sound

end Tables

end Prepaid.Ledger
