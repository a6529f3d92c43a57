import Mathlib.Data.List.Find
import Prepaid.Proofs.Ledger.Bookings

/-!
# The portion of a user

What the ledger has of one user: the wallet, the entries in it, and the orders and
sessions that go by names of the user's own. A booking that concerns the user writes
nothing else, and one that does not leaves all of it alone.
-/

namespace Prepaid.Ledger

/-- What requests call things by that were there before, or that others may want to speak of. -/
inductive Name where
  | order (id : OrderId)
  | session (id : String)
  | notice (id : String)
  deriving DecidableEq

namespace Tables

/-- The entries in the wallet of a user, oldest first. -/
def rowsOf (user : UserId) (tables : Tables) : List Entry :=
  (tables.wallets.get? user).elim [] fun wallet => tables.walletEntries wallet.id

/-- The orders of a user and the entries in the user's wallet go by names of the user's own, and all
others do not. -/
structure Parted (user : UserId) (own : Name → Prop) (tables : Tables) : Prop where
  order : ∀ {id order}, tables.orders.get? id = some order →
    (order.customer = user ↔ own (.order id))
  session : ∀ {id entry session}, tables.entries.get? id = some entry →
    entry.reference.session = some session →
      (tables.owners.get? entry.wallet = some user ↔ own (.session session))

/-- A wallet that is there, or the first one of its owner. -/
def Admits (wallet : Wallet) (tables : Tables) : Prop :=
  tables.owners.get? wallet.id = some wallet.owner ∨
    tables.wallets.get? wallet.owner = none ∧ tables.owners.get? wallet.id = none

/-- A session leads to the last entry that carries it. -/
def Latest (tables : Tables) : Prop :=
  ∀ session, tables.entryForSession? session =
    tables.entries.values.reverse.find? fun entry => entry.reference.session = some session

end Tables

/-- All rows of a booking are a user's, or none is. The entry belongs to the wallet, and takes the
place of one that does. -/
structure Booking.Within (user : UserId) (own : Name → Prop) (mine : Prop) (tables : Tables)
    (booking : Booking) : Prop where
  wallet : ∀ wallet, booking.wallet? = some wallet → (wallet.owner = user ↔ mine) ∧
    tables.Admits wallet
  order : ∀ order, booking.order? = some order →
    (order.customer = user ↔ mine) ∧ (own (.order order.id) ↔ mine)
  row : ∀ entry, booking.row? = some entry →
    (∃ wallet, booking.wallet? = some wallet ∧ wallet.id = entry.wallet) ∧
      (∀ session, entry.reference.session = some session → (own (.session session) ↔ mine)) ∧
      ∀ old, tables.entries.get? entry.id = some old → old.wallet = entry.wallet

namespace Tables

variable {tables after : Tables} {user : UserId} {own : Name → Prop} {mine : Prop}
  {booking : Booking} {entry old : Entry}

/-! ## The entries of a user -/

/-- Every entry is in somebody's wallet. -/
theorem Sound.exists_owner (sound : tables.Sound) (member : entry ∈ tables.entries.values) :
    ∃ owner, tables.owners.get? entry.wallet = some owner := by
  obtain ⟨owner, wallet, known, owned⟩ := sound.entry_wallet (sound.entry_of_mem member)
  exact ⟨owner, sound.owner_iff.mpr ⟨wallet, known, owned⟩⟩

/-- The entries of a user are found by the owners of wallets, without the indexes. -/
theorem Sound.rowsOf_eq (sound : tables.Sound) (user : UserId) : tables.rowsOf user =
    tables.entries.values.filter fun entry => tables.owners.get? entry.wallet = some user := by
  unfold rowsOf
  cases known : tables.wallets.get? user with
  | none =>
    refine (List.filter_eq_nil_iff.mpr fun entry member => ?_).symm
    simp only [decide_eq_true_eq]
    intro owned
    obtain ⟨wallet, found, _⟩ := sound.owner_iff.mp owned
    rw [known] at found
    cases found
  | some wallet =>
    rw [Option.elim_some, sound.walletEntries_eq, rowsOfWallet]
    refine List.filter_congr fun entry _ => decide_eq_decide.mpr ?_
    rw [sound.owner_iff, known]
    simp [eq_comm]

/-- The entries of a user are among all entries. -/
theorem Sound.mem_values (sound : tables.Sound) (member : entry ∈ tables.rowsOf user) :
    entry ∈ tables.entries.values := by
  rw [sound.rowsOf_eq] at member
  exact List.mem_of_mem_filter member

/-- No entry of a user is listed twice. -/
theorem Sound.nodup_rowsOf (sound : tables.Sound) (user : UserId) :
    ((tables.rowsOf user).map Entry.id).Nodup := by
  rw [sound.rowsOf_eq]
  exact (Table.nodup_map_values fun _ _ => sound.entry_id).sublist (List.filter_sublist.map _)

end Tables

/-! ## Bookings -/

namespace Booking.Within

open Tables

section Book

variable {tables : Tables} {user : UserId} {own : Name → Prop} {mine : Prop} {booking : Booking}
  {entry old : Entry} (within : booking.Within user own mine tables)

include within

/-- Wallets stay with their owners. -/
theorem owners {id : WalletId} {owner : UserId} (owned : tables.owners.get? id = some owner) :
    (tables.book booking).owners.get? id = some owner := by
  rw [book_owners]
  cases put : booking.wallet? with
  | none => exact owned
  | some wallet =>
    rw [Option.elim_some, Table.get?_put]
    split
    · next same =>
      subst same
      rcases (within.wallet wallet put).2 with known | ⟨_, unused⟩
      · exact known.symm.trans owned
      · rw [unused] at owned
        cases owned
    · exact owned

/-- The entry of a booking belongs to the user exactly if the booking does. -/
theorem owner_row (put : booking.row? = some entry) :
    (tables.book booking).owners.get? entry.wallet = some user ↔ mine := by
  obtain ⟨⟨wallet, walletAt, same⟩, _⟩ := within.row entry put
  rw [book_owners, walletAt, Option.elim_some, same, Table.get?_put, if_pos rfl, Option.some.injEq]
  exact (within.wallet wallet walletAt).1

/-- A booking within the portion of a user, or outside of it, keeps the two apart. -/
theorem parted (sound : tables.Sound) (parted : tables.Parted user own) :
    (tables.book booking).Parted user own where
  order := by
    intro id order found
    rw [book_orders] at found
    cases put : booking.order? with
    | none =>
      rw [put] at found
      exact parted.order found
    | some moved =>
      rw [put, Option.elim_some, Table.get?_put] at found
      split at found
      · next same =>
        cases found
        subst same
        obtain ⟨customer, named⟩ := within.order order put
        rw [customer, named]
      · exact parted.order found
  session := by
    intro id found session foundAt carries
    have kept (before : tables.entries.get? id = some found) :
        (tables.book booking).owners.get? found.wallet = some user ↔ own (.session session) := by
      obtain ⟨owner, owned⟩ := sound.exists_owner (Table.mem_values before)
      rw [← parted.session before carries, owned, within.owners owned]
    rw [book_entries] at foundAt
    cases put : booking.row? with
    | none =>
      rw [put] at foundAt
      exact kept foundAt
    | some entry =>
      rw [put, Option.elim_some, Table.get?_put] at foundAt
      split at foundAt
      · cases foundAt
        rw [within.owner_row put, (within.row found put).2.1 session carries]
      · exact kept foundAt

/-- Entries that were there before stay with their owners. -/
theorem filter_values (sound : tables.Sound) :
    tables.entries.values.filter
      (fun entry => (tables.book booking).owners.get? entry.wallet = some user) =
        tables.rowsOf user := by
  rw [sound.rowsOf_eq]
  refine List.filter_congr fun entry member => ?_
  obtain ⟨owner, owned⟩ := sound.exists_owner member
  rw [owned, within.owners owned]

/-- Where a booking writes no entry the user's are as they were. -/
theorem rowsOf_of_none (sound : tables.Sound) (after : (tables.book booking).Sound)
    (put : booking.row? = none) : (tables.book booking).rowsOf user = tables.rowsOf user := by
  rw [after.rowsOf_eq, ← within.filter_values sound, book_entries, put]
  rfl

/-- A new entry of the user's stands behind all others. -/
theorem rowsOf_of_new (sound : tables.Sound) (after : (tables.book booking).Sound)
    (put : booking.row? = some entry) (new : tables.entries.get? entry.id = none) (own : mine) :
    (tables.book booking).rowsOf user = tables.rowsOf user ++ [entry] := by
  have owned := (within.owner_row put).mpr own
  rw [after.rowsOf_eq, ← within.filter_values sound, book_entries, put, Option.elim_some,
    Table.values_put_of_none entry new, List.filter_append, List.filter_singleton]
  simp [owned]

/-- The old entry and the one that is put in its place have one owner. -/
theorem owner_old (sound : tables.Sound) (put : booking.row? = some entry)
    (known : tables.entries.get? entry.id = some old) : tables.owners.get? old.wallet = some user ↔
    mine := by
  obtain ⟨owner, owned⟩ := sound.exists_owner (Table.mem_values known)
  rw [owned, ← within.owners owned, (within.row entry put).2.2 old known]
  exact within.owner_row put

/-- A changed entry of the user's stands where the old one stood. -/
theorem rowsOf_of_known (sound : tables.Sound) (after : (tables.book booking).Sound)
    (put : booking.row? = some entry) (known : tables.entries.get? entry.id = some old) :
    (tables.book booking).rowsOf user =
      (tables.rowsOf user).map fun row => if row.id = entry.id then entry else row := by
  rw [after.rowsOf_eq, ← within.filter_values sound, book_entries, put, Option.elim_some,
    Table.values_put_of_named entry (fun _ _ => sound.entry_id) known, List.filter_map]
  congr 1
  refine List.filter_congr fun row member => ?_
  simp only [Function.comp_apply]
  split
  · next same =>
    have present := sound.entry_of_mem member
    rw [same] at present
    rw [(within.row entry put).2.2 row present]
  · rfl

end Book

/-! What does not concern the user leaves the user's portion alone. -/

section Foreign

variable {tables : Tables} {user : UserId} {own : Name → Prop} {booking : Booking}
  (within : booking.Within user own False tables)

include within

/-- A booking that is not the user's leaves the user's wallet. -/
theorem wallets_of_foreign : (tables.book booking).wallets.get? user =
    tables.wallets.get? user := by
  rw [book_wallets]
  cases put : booking.wallet? with
  | none => rfl
  | some wallet => rw [Option.elim_some, Table.get?_put, if_neg (within.wallet wallet put).1.mp]

/-- A booking that is not the user's leaves the orders that go by names of the user's own. -/
theorem orders_of_foreign {id : OrderId} (named : own (.order id)) :
    (tables.book booking).orders.get? id = tables.orders.get? id := by
  rw [book_orders]
  cases put : booking.order? with
  | none => rfl
  | some order =>
    rw [Option.elim_some, Table.get?_put, if_neg]
    rintro rfl
    exact (within.order order put).2.mp named

/-- A booking that is not the user's leaves the user's entries. -/
theorem rowsOf_of_foreign (sound : tables.Sound) (after : (tables.book booking).Sound) :
    (tables.book booking).rowsOf user = tables.rowsOf user := by
  cases put : booking.row? with
  | none => exact within.rowsOf_of_none sound after put
  | some entry =>
    cases known : tables.entries.get? entry.id with
    | none =>
      rw [after.rowsOf_eq, ← within.filter_values sound, book_entries, put, Option.elim_some,
        Table.values_put_of_none entry known, List.filter_append, List.filter_singleton]
      simp [within.owner_row put]
    | some old =>
      rw [within.rowsOf_of_known sound after put known]
      refine (List.map_congr_left fun row member => if_neg ?_).trans (List.map_id _)
      intro same
      rw [sound.rowsOf_eq, List.mem_filter, decide_eq_true_eq] at member
      have present := sound.entry_of_mem member.1
      rw [same, known] at present
      cases present
      exact (within.owner_old sound put known).mp member.2

end Foreign

end Booking.Within

/-! ## The last entry of a session -/

section Latest

open Tables

variable {stamp : Stamp} {tables after : Tables} {entry old : Entry}

/-- No session leads anywhere in the beginning. -/
theorem Tables.Latest.empty : Tables.Latest {} :=
  fun _ => rfl

/-- A new entry is the last one that carries its session, and the session leads to it. -/
theorem Tables.Latest.putEntry_of_none (latest : tables.Latest) (sound : tables.Sound)
    (new : tables.entries.get? entry.id = none) : (tables.putEntry entry).Latest := by
  intro session
  rw [putEntry_entries, Table.values_put_of_none entry new, List.reverse_append,
    List.reverse_singleton, List.singleton_append, List.find?_cons, ← latest session,
    entryForSession?, session_putEntry_of_none new, putEntry_entries]
  by_cases carries : entry.reference.session = some session
  · simp [carries]
  · simp only [carries, decide_false]
    cases leads : tables.entryOfSession.get? session with
    | none => simp [entryForSession?, leads]
    | some id =>
      obtain ⟨named, present, _⟩ := sound.session_named leads
      have apart : entry.id ≠ id := by
        rintro rfl
        rw [new] at present
        cases present
      simp [entryForSession?, leads, apart]

/-- An entry that keeps its session keeps its place. -/
theorem Tables.Latest.putEntry_of_some (latest : tables.Latest) (sound : tables.Sound)
    (known : tables.entries.get? entry.id = some old)
    (same : entry.reference.session = old.reference.session) : (tables.putEntry entry).Latest := by
  intro session
  let replace (row : Entry) : Entry := if row.id = entry.id then entry else row
  have values : (tables.putEntry entry).entries.values = tables.entries.values.map replace := by
    rw [putEntry_entries]
    exact Table.values_put_of_named entry (fun _ _ => sound.entry_id) known
  have lookup (id : EntryId) : (tables.putEntry entry).entries.get? id =
      (tables.entries.get? id).map replace := by
    rw [putEntry_entries, Table.get?_put]
    split
    · next key => simp [← key, known, replace, sound.entry_id known]
    · next apart =>
      cases found : tables.entries.get? id with
      | none => rfl
      | some row =>
        have other : row.id ≠ entry.id := by
          rw [sound.entry_id found]
          exact fun equal => apart equal.symm
        simp [replace, other]
  have carried : ∀ row ∈ tables.entries.values.reverse,
      ((replace row).reference.session = some session ↔ row.reference.session = some session) := by
    intro row member
    by_cases key : row.id = entry.id
    · have present := sound.entry_of_mem (List.mem_reverse.mp member)
      rw [key, known] at present
      cases present
      simp [replace, sound.entry_id known, same]
    · simp [replace, key]
  have index : (tables.putEntry entry).entryOfSession = tables.entryOfSession := by
    rw [Tables.putEntry_of_some known]
  have before : tables.entryForSession? session = tables.entries.values.reverse.find?
      fun row => (replace row).reference.session = some session := by
    rw [latest session]
    exact List.find?_congr fun row member => decide_eq_decide.mpr (carried row member).symm
  calc (tables.putEntry entry).entryForSession? session
      = (tables.entryForSession? session).map replace := by
        rw [entryForSession?, entryForSession?, index, Option.map_bind]
        exact congrArg _ (funext lookup)
    _ = _ := by
      rw [before, values, ← List.map_reverse, List.find?_map]
      rfl

/-- Upkeep writes no entries. -/
theorem Upkeep.latest (upkeep : Upkeep stamp tables after) (latest : tables.Latest) :
    after.Latest := by
  cases upkeep with
  | opened | noted => exact latest

/-- Only a top-up brings a session, and it stands behind all others then. -/
theorem Posting.latest {topUp : Option EntryId} (posting : Posting stamp tables topUp after)
    (sound : tables.Sound) (latest : tables.Latest) : after.Latest := by
  -- Wallets and orders that are put leave the entries and their sessions alone.
  have moved (wallet : Wallet) : (tables.putWallet wallet).Latest := latest
  have together (wallet : Wallet) (order : Order) :
      ((tables.putWallet wallet).putOrder order).Latest := latest
  cases posting with
  | deposited known credit fresh =>
    obtain ⟨sameId, sameOwner⟩ := Wallet.same_of_credit credit
    exact (moved _).putEntry_of_none (sound.putSameWallet known sameId sameOwner) fresh
  | toppedUp known fresh => exact latest.putEntry_of_none sound fresh
  | confirmed known owned named pending credit =>
    obtain ⟨sameId, sameOwner⟩ := Wallet.same_of_credit credit
    have present := (sound.entryForSession?_spec named).2.1
    exact (moved _).putEntry_of_some (sound.putSameWallet known sameId sameOwner) present rfl
  | held ordered pending known reserve fresh =>
    obtain ⟨sameId, sameOwner⟩ := Wallet.same_of_reserve reserve
    exact (together _ _).putEntry_of_none ((sound.putSameWallet known sameId sameOwner).putOrder _)
      fresh
  | captured ordered unpaid known holds settle =>
    obtain ⟨sameId, sameOwner⟩ := Wallet.same_of_settle settle
    have present := (sound.pendingHold?_spec holds).2.1
    exact (together _ _).putEntry_of_some ((sound.putSameWallet known sameId sameOwner).putOrder _)
      present rfl
  | released ordered unpaid known holds release =>
    obtain ⟨sameId, sameOwner⟩ := Wallet.same_of_release release
    have present := (sound.pendingHold?_spec holds).2.1
    exact (together _ _).putEntry_of_some ((sound.putSameWallet known sameId sameOwner).putOrder _)
      present rfl
  | refunded ordered paid known credit fresh =>
    obtain ⟨sameId, sameOwner⟩ := Wallet.same_of_credit credit
    exact (together _ _).putEntry_of_none ((sound.putSameWallet known sameId sameOwner).putOrder _)
      fresh
  | dropped | registered | prepared | completed => exact latest

end Latest

end Prepaid.Ledger
