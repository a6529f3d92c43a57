import Prepaid.Ledger.Tables
import Prepaid.Proofs.Table

/-!
# Sound tables

`Tables.Sound` is what every lookup of the ledger relies on: rows stand under their
own keys, every entry belongs to a wallet that exists, and the four indexes say
exactly what the rows say. Each write of a row keeps it, if a new row uses new
identifiers and a changed row keeps the keys that it is indexed by.
-/

namespace Prepaid.Ledger

namespace Tables

/-- The entries of an order as the rows have them, without the index. -/
def rowsOfOrder (order : OrderId) (tables : Tables) : List Entry :=
  tables.entries.values.filter fun entry => entry.order = some order

/-- The entries of a wallet as the rows have them, without the index. -/
def rowsOfWallet (wallet : WalletId) (tables : Tables) : List Entry :=
  tables.entries.values.filter fun entry => entry.wallet = wallet

/-- Rows stand under their keys, and the indexes lead to exactly the rows that have the key. -/
structure Sound (tables : Tables) : Prop where
  wallet_owner : ∀ {user wallet}, tables.wallets.get? user = some wallet → wallet.owner = user
  owner_iff : ∀ {id user}, tables.owners.get? id = some user ↔
    ∃ wallet, tables.wallets.get? user = some wallet ∧ wallet.id = id
  order_id : ∀ {id order}, tables.orders.get? id = some order → order.id = id
  entry_id : ∀ {id entry}, tables.entries.get? id = some entry → entry.id = id
  entry_wallet : ∀ {id entry}, tables.entries.get? id = some entry →
    ∃ user wallet, tables.wallets.get? user = some wallet ∧ wallet.id = entry.wallet
  wallet_index : ∀ wallet, (tables.entriesOfWallet.get? wallet).getD [] =
    (tables.rowsOfWallet wallet).map Entry.id
  order_index : ∀ order, (tables.entriesOfOrder.get? order).getD [] =
    (tables.rowsOfOrder order).map Entry.id
  session_named : ∀ {session id}, tables.entryOfSession.get? session = some id →
    ∃ entry, tables.entries.get? id = some entry ∧ entry.reference.session = some session
  session_known : ∀ {id entry session}, tables.entries.get? id = some entry →
    entry.reference.session = some session → ∃ known, tables.entryOfSession.get? session =
      some known
  notice_id : ∀ {id record}, tables.notices.get? id = some record → record.id = id

/-- Empty tables are sound. -/
theorem Sound.empty : Sound {} where
  wallet_owner := by simp
  owner_iff := by simp
  order_id := by simp
  entry_id := by simp
  entry_wallet := by simp
  wallet_index := by simp [rowsOfWallet]
  order_index := by simp [rowsOfOrder]
  session_named := by simp
  session_known := by simp
  notice_id := by simp

namespace Sound

variable {tables : Tables}

/-- An entry stands under its identifier. -/
theorem entry_of_mem (sound : Sound tables) {entry : Entry}
    (member : entry ∈ tables.entries.values) :
    tables.entries.get? entry.id = some entry := by
  obtain ⟨id, found⟩ := Table.exists_key member
  rwa [sound.entry_id found]

/-- An order stands under its number. -/
theorem order_of_mem (sound : Sound tables) {order : Order}
    (member : order ∈ tables.orders.values) :
    tables.orders.get? order.id = some order := by
  obtain ⟨id, found⟩ := Table.exists_key member
  rwa [sound.order_id found]

/-- A wallet's identifier leads back to it. -/
theorem walletById?_of_get? (sound : Sound tables) {user : UserId} {wallet : Wallet}
    (known : tables.wallets.get? user = some wallet) :
    tables.walletById? wallet.id = some wallet := by
  have owner := sound.owner_iff.mpr ⟨wallet, known, rfl⟩
  simp only [walletById?, owner, Option.bind_some, known]

/-- Two users never share a wallet. -/
theorem wallet_injective (sound : Sound tables) {left right : UserId} {first second : Wallet}
    (leftAt : tables.wallets.get? left = some first)
    (rightAt : tables.wallets.get? right = some second) (same : first.id = second.id) :
    left = right := by
  have leftOwner := sound.owner_iff.mpr ⟨first, leftAt, same⟩
  have rightOwner := sound.owner_iff.mpr ⟨second, rightAt, rfl⟩
  exact Option.some.inj (leftOwner.symm.trans rightOwner)

/-- Entries that are picked out are found again by their identifiers. -/
private theorem filterMap_ids (sound : Sound tables) (keep : Entry → Bool) :
    ((tables.entries.values.filter keep).map Entry.id).filterMap tables.entries.get? =
      tables.entries.values.filter keep := by
  rw [List.filterMap_map]
  have each : ∀ entry ∈ tables.entries.values.filter keep,
      (tables.entries.get? ∘ Entry.id) entry = some entry := by
    intro entry member
    exact sound.entry_of_mem (List.mem_of_mem_filter member)
  rw [List.filterMap_congr each]
  exact List.filterMap_some

/-- The index of an order finds every entry of the order once, oldest first. -/
theorem orderEntries_eq (sound : Sound tables) (order : OrderId) :
    tables.orderEntries order = tables.rowsOfOrder order := by
  rw [orderEntries, sound.order_index order]
  exact filterMap_ids sound _

/-- The index of a wallet finds every entry of the wallet once, oldest first. -/
theorem walletEntries_eq (sound : Sound tables) (wallet : WalletId) :
    tables.walletEntries wallet = tables.rowsOfWallet wallet := by
  rw [walletEntries, sound.wallet_index wallet]
  exact filterMap_ids sound _

/-- A hold that is found for an order is one of the order's entries. -/
theorem pendingHold?_spec (sound : Sound tables) {order : OrderId} {entry : Entry}
    (found : tables.pendingHold? order = some entry) :
    entry ∈ tables.rowsOfOrder order ∧ tables.entries.get? entry.id = some entry ∧
      entry.order = some order ∧ entry.kind = .hold ∧ entry.status = .pending := by
  rw [pendingHold?, sound.orderEntries_eq] at found
  have member := List.mem_of_find?_eq_some found
  have holds := List.find?_some found
  obtain ⟨present, ordered⟩ := List.mem_filter.mp member
  simp only [Entry.isPendingHold, Bool.and_eq_true, decide_eq_true_eq] at holds ordered
  exact ⟨member, sound.entry_of_mem present, ordered, holds.1, holds.2⟩

/-- The entry that a session leads to carries that session. -/
theorem entryForSession?_spec (sound : Sound tables) {session : String} {entry : Entry}
    (found : tables.entryForSession? session = some entry) :
    tables.entryOfSession.get? session = some entry.id ∧
      tables.entries.get? entry.id = some entry ∧ entry.reference.session = some session := by
  obtain ⟨id, named, present⟩ := Option.bind_eq_some_iff.mp found
  obtain ⟨held, heldAt, carries⟩ := sound.session_named named
  rw [present] at heldAt
  cases heldAt
  rw [sound.entry_id present]
  exact ⟨named, present, carries⟩

end Sound

/-! ## Writes -/

/-- Putting an entry changes the entries and their indexes, and no other table. -/
@[simp] theorem putEntry_wallets (entry : Entry) (tables : Tables) :
    (tables.putEntry entry).wallets = tables.wallets := by
  unfold putEntry
  split <;> rfl

@[simp] theorem putEntry_owners (entry : Entry) (tables : Tables) :
    (tables.putEntry entry).owners = tables.owners := by
  unfold putEntry
  split <;> rfl

@[simp] theorem putEntry_orders (entry : Entry) (tables : Tables) :
    (tables.putEntry entry).orders = tables.orders := by
  unfold putEntry
  split <;> rfl

@[simp] theorem putEntry_notices (entry : Entry) (tables : Tables) :
    (tables.putEntry entry).notices = tables.notices := by
  unfold putEntry
  split <;> rfl

@[simp] theorem putEntry_entries (entry : Entry) (tables : Tables) :
    (tables.putEntry entry).entries = tables.entries.put entry.id entry := by
  unfold putEntry
  split <;> rfl

/-- A new entry is indexed. -/
theorem putEntry_of_none {entry : Entry} {tables : Tables}
    (new : tables.entries.get? entry.id = none) :
    tables.putEntry entry =
      { tables.index entry with entries := tables.entries.put entry.id entry } := by
  simp [putEntry, Table.contains, new, index]

/-- An entry that is there already is not indexed again. -/
theorem putEntry_of_some {entry old : Entry} {tables : Tables}
    (known : tables.entries.get? entry.id = some old) :
    tables.putEntry entry = { tables with entries := tables.entries.put entry.id entry } := by
  simp [putEntry, Table.contains, known]

/-- An entry that is there after a write is the written one, or was there before. -/
theorem entry_of_putEntry {entry found : Entry} {id : EntryId} {tables : Tables}
    (foundAt : (tables.putEntry entry).entries.get? id = some found) :
    entry.id = id ∧ entry = found ∨ tables.entries.get? id = some found := by
  rw [putEntry_entries, Table.get?_put] at foundAt
  split at foundAt
  · next same => exact .inl ⟨same, Option.some.inj foundAt⟩
  · exact .inr foundAt

/-- The session of a new entry leads to it; every other one leads where it led before. -/
theorem session_putEntry_of_none {entry : Entry} {tables : Tables}
    (new : tables.entries.get? entry.id = none) (session : String) :
    (tables.putEntry entry).entryOfSession.get? session =
      if entry.reference.session = some session then some entry.id
      else tables.entryOfSession.get? session := by
  rw [putEntry_of_none new]
  cases carried : entry.reference.session <;> simp [index, carried]

/-- A wallet may be put if its identifier leads to nobody else and its owner has no other one. -/
theorem Sound.putWallet {tables : Tables} (sound : Sound tables) {wallet : Wallet}
    (unclaimed : ∀ user, tables.owners.get? wallet.id = some user → user = wallet.owner)
    (same : ∀ old, tables.wallets.get? wallet.owner = some old → old.id = wallet.id) :
    Sound (tables.putWallet wallet) where
  wallet_owner := by
    intro user held
    simp only [Tables.putWallet, Table.get?_put]
    split
    · next owner =>
      rintro ⟨⟩
      exact owner
    · exact sound.wallet_owner
  owner_iff := by
    intro id user
    simp only [Tables.putWallet, Table.get?_put]
    by_cases sameId : wallet.id = id <;> by_cases sameUser : wallet.owner = user
    · simp [sameId, sameUser]
    · subst sameId
      simp only [if_true, Option.some.injEq, sameUser, false_iff, if_false]
      rintro ⟨held, heldAt, heldId⟩
      exact sameUser (unclaimed user (sound.owner_iff.mpr ⟨held, heldAt, heldId⟩)).symm
    · subst sameUser
      simp only [sameId, if_false, if_true, Option.some.injEq, exists_eq_left', iff_false]
      intro owner
      obtain ⟨held, heldAt, heldId⟩ := sound.owner_iff.mp owner
      exact sameId ((same held heldAt).symm.trans heldId)
    · simp only [sameId, sameUser, if_false]
      exact sound.owner_iff
  order_id := sound.order_id
  entry_id := sound.entry_id
  entry_wallet := by
    intro id entry found
    obtain ⟨user, held, heldAt, heldId⟩ := sound.entry_wallet found
    simp only [Tables.putWallet, Table.get?_put]
    by_cases owner : wallet.owner = user
    · subst owner
      exact ⟨wallet.owner, wallet, by simp, (same held heldAt).symm.trans heldId⟩
    · exact ⟨user, held, by simp [owner, heldAt], heldId⟩
  wallet_index := sound.wallet_index
  order_index := sound.order_index
  session_named := sound.session_named
  session_known := sound.session_known
  notice_id := sound.notice_id

/-- An order that is put stands under its number. -/
theorem Sound.putOrder {tables : Tables} (sound : Sound tables) (order : Order) :
    Sound (tables.putOrder order) :=
  { sound with
    order_id := by
      intro id held
      simp only [Tables.putOrder, Table.get?_put]
      split
      · next key =>
        rintro ⟨⟩
        exact key
      · exact sound.order_id }

/-- A notice that is put stands under its identifier. -/
theorem Sound.putNotice {tables : Tables} (sound : Sound tables) (record : NoticeRecord) :
    Sound (tables.putNotice record) :=
  { sound with
    notice_id := by
      intro id held
      simp only [Tables.putNotice, Table.get?_put]
      split
      · next key =>
        rintro ⟨⟩
        exact key
      · exact sound.notice_id }

/-- Of two records of a notice the later one stays. -/
theorem putNotice_putNotice {old new : NoticeRecord} (id : new.id = old.id) (tables : Tables) :
    (tables.putNotice old).putNotice new = tables.putNotice new := by
  simp only [Tables.putNotice, id, Table.put_put]

/-! ## Writes of entries -/

/-- What is pushed is listed last, under its own key only. -/
theorem getD_push {κ α : Type} [DecidableEq κ] (key wanted : κ) (item : α)
    (table : Table κ (List α)) :
    ((table.push key item).get? wanted).getD [] =
      (table.get? wanted).getD [] ++ if key = wanted then [item] else [] := by
  simp only [Table.push, Table.get?_put]
  split
  · next same =>
    subst same
    rfl
  · rw [List.append_nil]

/-- A new entry stands behind the entries that it shares a key with. -/
theorem filter_putEntry_of_none {entry : Entry} {tables : Tables} (keep : Entry → Bool)
    (new : tables.entries.get? entry.id = none) :
    (tables.putEntry entry).entries.values.filter keep =
      tables.entries.values.filter keep ++ if keep entry then [entry] else [] := by
  rw [putEntry_entries, Table.values_put_of_none entry new, List.filter_append,
    List.filter_singleton]
  cases keep entry <;> rfl

/-- A changed entry stands where the old one stood. -/
theorem filter_putEntry_of_some {entry old : Entry} {tables : Tables} (keep : Entry → Bool)
    (known : tables.entries.get? entry.id = some old) (same : keep entry = keep old) :
    ∃ front back, tables.entries.values.filter keep =
        front ++ (if keep old then [old] else []) ++ back ∧
      (tables.putEntry entry).entries.values.filter keep =
        front ++ (if keep old then [entry] else []) ++ back := by
  obtain ⟨front, back, before, after⟩ := Table.values_put_of_some entry known
  refine ⟨front.filter keep, back.filter keep, ?_, ?_⟩
  · rw [before, List.filter_append, List.filter_cons]
    split <;> simp
  · rw [putEntry_entries, after, List.filter_append, List.filter_cons, same]
    split <;> simp

/-- A new entry in a wallet that is there keeps tables sound. -/
theorem Sound.putEntry_of_none {tables : Tables} (sound : Sound tables) {entry : Entry}
    (new : tables.entries.get? entry.id = none) {user : UserId} {wallet : Wallet}
    (known : tables.wallets.get? user = some wallet) (owned : wallet.id = entry.wallet) :
    Sound (tables.putEntry entry) where
  wallet_owner := by rw [putEntry_wallets]; exact sound.wallet_owner
  owner_iff := by rw [putEntry_owners, putEntry_wallets]; exact sound.owner_iff
  order_id := by rw [putEntry_orders]; exact sound.order_id
  entry_id := by
    intro id held found
    rcases entry_of_putEntry found with ⟨key, rfl⟩ | old
    · exact key
    · exact sound.entry_id old
  entry_wallet := by
    intro id held found
    rw [putEntry_wallets]
    rcases entry_of_putEntry found with ⟨_, rfl⟩ | old
    · exact ⟨user, wallet, known, owned⟩
    · exact sound.entry_wallet old
  wallet_index := by
    intro key
    rw [rowsOfWallet, filter_putEntry_of_none _ new, List.map_append, ← rowsOfWallet,
      ← sound.wallet_index key, Tables.putEntry_of_none new]
    simp only [index, getD_push, decide_eq_true_eq]
    split <;> rfl
  order_index := by
    intro key
    rw [rowsOfOrder, filter_putEntry_of_none _ new, List.map_append, ← rowsOfOrder,
      ← sound.order_index key, Tables.putEntry_of_none new]
    cases ordered : entry.order with
    | none => simp [index, ordered]
    | some order =>
      simp only [index, ordered, getD_push, Option.some.injEq, decide_eq_true_eq]
      split <;> rfl
  session_named := by
    intro session id
    rw [session_putEntry_of_none new, putEntry_entries, Table.get?_put]
    split
    · next carries =>
      rintro ⟨⟩
      exact ⟨entry, by simp, carries⟩
    · intro named
      obtain ⟨held, heldAt, carries⟩ := sound.session_named named
      have apart : entry.id ≠ id := by
        rintro rfl
        rw [new] at heldAt
        cases heldAt
      exact ⟨held, by rw [if_neg apart, heldAt], carries⟩
  session_known := by
    intro id held session found carries
    rw [session_putEntry_of_none new]
    split
    · exact ⟨entry.id, rfl⟩
    · next other =>
      rcases entry_of_putEntry found with ⟨_, rfl⟩ | before
      · exact (other carries).elim
      · exact sound.session_known before carries
  notice_id := by rw [putEntry_notices]; exact sound.notice_id

/-- An entry may change as long as its wallet, its order and its session stay. -/
theorem Sound.putEntry_of_some {tables : Tables} (sound : Sound tables) {entry old : Entry}
    (known : tables.entries.get? entry.id = some old) (wallet : entry.wallet = old.wallet)
    (order : entry.order = old.order) (session : entry.reference.session = old.reference.session) :
    Sound (tables.putEntry entry) where
  wallet_owner := by rw [putEntry_wallets]; exact sound.wallet_owner
  owner_iff := by rw [putEntry_owners, putEntry_wallets]; exact sound.owner_iff
  order_id := by rw [putEntry_orders]; exact sound.order_id
  entry_id := by
    intro id held found
    rcases entry_of_putEntry found with ⟨key, rfl⟩ | old
    · exact key
    · exact sound.entry_id old
  entry_wallet := by
    intro id held found
    rw [putEntry_wallets]
    rcases entry_of_putEntry found with ⟨_, rfl⟩ | before
    · rw [wallet]
      exact sound.entry_wallet known
    · exact sound.entry_wallet before
  wallet_index := by
    intro key
    obtain ⟨front, back, before, after⟩ := filter_putEntry_of_some
      (fun entry => entry.wallet = key) known (by simp only [wallet])
    have index := sound.wallet_index key
    rw [rowsOfWallet, before] at index
    rw [rowsOfWallet, after, Tables.putEntry_of_some known, index]
    split <;> simp [sound.entry_id known]
  order_index := by
    intro key
    obtain ⟨front, back, before, after⟩ := filter_putEntry_of_some
      (fun entry => entry.order = some key) known (by simp only [order])
    have index := sound.order_index key
    rw [rowsOfOrder, before] at index
    rw [rowsOfOrder, after, Tables.putEntry_of_some known, index]
    split <;> simp [sound.entry_id known]
  session_named := by
    intro key id named
    rw [Tables.putEntry_of_some known] at named
    obtain ⟨held, heldAt, carries⟩ := sound.session_named named
    rw [putEntry_entries, Table.get?_put]
    split
    · next same =>
      subst same
      rw [known] at heldAt
      cases heldAt
      exact ⟨entry, rfl, session.trans carries⟩
    · exact ⟨held, heldAt, carries⟩
  session_known := by
    intro id held key found carries
    rw [Tables.putEntry_of_some known]
    rcases entry_of_putEntry found with ⟨_, rfl⟩ | before
    · exact sound.session_known known (session.symm.trans carries)
    · exact sound.session_known before carries
  notice_id := by rw [putEntry_notices]; exact sound.notice_id

end Tables

end Prepaid.Ledger
