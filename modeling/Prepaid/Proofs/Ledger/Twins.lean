import Prepaid.Proofs.Ledger.Anonymous
import Prepaid.Proofs.Ledger.Notices
import Prepaid.Proofs.Ledger.Portion

/-!
# Twins

Two ledgers that have the same of one user, but for identifiers and times, decide the
same of the calls that concern the user, and have the same of the user afterwards.
Identifiers do not tell which entries of the two ledgers correspond, their places
among the user's entries do.
-/

namespace Option.Rel

variable {α β : Type} {related weaker : α → β → Prop} {left : Option α} {right : Option β}

/-- Options that are related are related more weakly. -/
theorem mono (implies : ∀ a b, related a b → weaker a b) (rel : Rel related left right) :
    Rel weaker left right := by
  cases rel with
  | none => exact .none
  | some held => exact .some (implies _ _ held)

/-- An option is related to itself. -/
theorem refl {related : α → α → Prop} (holds : ∀ a, related a a) : Rel related left left := by
  cases left with
  | none => exact .none
  | some a => exact .some (holds a)

/-- Options with the same image are related by having it. -/
theorem of_map_eq {γ : Type} {change : α → γ} {other : β → γ}
    (same : left.map change = right.map other) :
    Rel (fun a b => change a = other b) left right := by
  cases left <;> cases right <;>
    simp only [Option.map_none, Option.map_some, reduceCtorEq, Option.some.injEq] at same
  · exact .none
  · exact .some same

/-- Two options that are related are both empty or both filled. -/
theorem none_or_some (rel : Rel related left right) :
    left = .none ∧ right = .none ∨ ∃ a b, left = .some a ∧ right = .some b ∧ related a b := by
  cases rel with
  | none => exact .inl ⟨rfl, rfl⟩
  | some held => exact .inr ⟨_, _, rfl, rfl, held⟩

end Option.Rel

namespace Prepaid.Ledger

/-- Two entries stand at the same place. -/
def Abreast (rows twins : List Entry) (row twin : Entry) : Prop :=
  ∃ place : Nat, rows[place]? = some row ∧ twins[place]? = some twin

namespace Abreast

variable {rows twins : List Entry} {row twin : Entry}

/-- Entries that stand at the same place are in their lists. -/
theorem mem (abreast : Abreast rows twins row twin) : row ∈ rows ∧ twin ∈ twins := by
  obtain ⟨place, rowAt, twinAt⟩ := abreast
  exact ⟨List.mem_of_getElem? rowAt, List.mem_of_getElem? twinAt⟩

/-- Entries that stand at the same place of lists that are alike are alike. -/
theorem anonymous_eq (alike : rows.map Entry.anonymous = twins.map Entry.anonymous)
    (abreast : Abreast rows twins row twin) : row.anonymous = twin.anonymous := by
  obtain ⟨place, rowAt, twinAt⟩ := abreast
  have same := congrArg (·[place]?) alike
  simpa [rowAt, twinAt] using same

/-- Places counted from the end are the same places. -/
theorem reverse (alike : rows.map Entry.anonymous = twins.map Entry.anonymous)
    (abreast : Abreast rows.reverse twins.reverse row twin) : Abreast rows twins row twin := by
  obtain ⟨place, rowAt, twinAt⟩ := abreast
  have length : rows.length = twins.length := by simpa using congrArg List.length alike
  have inside : place < rows.length := by
    have := (List.getElem?_eq_some_iff.mp rowAt).1
    rwa [List.length_reverse] at this
  rw [List.getElem?_reverse inside] at rowAt
  rw [List.getElem?_reverse (length ▸ inside), ← length] at twinAt
  exact ⟨_, rowAt, twinAt⟩

/-- What a test that is blind for identifiers and times finds first stands at the same place. -/
theorem of_find? (alike : rows.map Entry.anonymous = twins.map Entry.anonymous)
    {test : Entry → Bool} (blind : ∀ entry, test entry = test entry.anonymous) :
    Option.Rel (Abreast rows twins) (rows.find? test) (twins.find? test) := by
  -- The place of the first match is read off the rows without identifiers, which the lists have in
  -- common.
  have looked (entries : List Entry) : entries.find? test =
      entries[(entries.map Entry.anonymous).findIdx test]? := by
    have same : test ∘ Entry.anonymous = test := funext fun entry => (blind entry).symm
    rw [List.find?_eq_getElem?_findIdx, List.findIdx_map, same]
  have length : rows.length = twins.length := by simpa using congrArg List.length alike
  rw [looked, looked, alike]
  cases rowAt : rows[(twins.map Entry.anonymous).findIdx test]? with
  | none =>
    rw [List.getElem?_eq_none_iff, length, ← List.getElem?_eq_none_iff] at rowAt
    rw [rowAt]
    exact .none
  | some row =>
    have inside := (List.getElem?_eq_some_iff.mp rowAt).1
    rw [length] at inside
    rw [List.getElem?_eq_getElem inside]
    exact .some ⟨_, rowAt, List.getElem?_eq_getElem inside⟩

/-- Rows that tell different identifiers change at one place only. -/
theorem map_eq_set {entry old : Entry} {place : Nat} (distinct : (rows.map Entry.id).Nodup)
    (oldAt : rows[place]? = some old) (same : old.id = entry.id) :
    (rows.map fun row => if row.id = entry.id then entry else row) = rows.set place entry := by
  refine List.ext_getElem? fun index => ?_
  rw [List.getElem?_map, List.getElem?_set]
  split
  · next here =>
    subst here
    have inside := (List.getElem?_eq_some_iff.mp oldAt).1
    rw [oldAt, if_pos inside, Option.map_some, if_pos same]
  · next elsewhere =>
    cases rowAt : rows[index]? with
    | none => rfl
    | some row =>
      rw [Option.map_some, if_neg]
      intro shared
      have inside : place < (rows.map Entry.id).length := by
        rw [List.length_map]
        exact (List.getElem?_eq_some_iff.mp oldAt).1
      refine elsewhere ((List.getElem?_inj inside distinct).mp ?_)
      rw [List.getElem?_map, List.getElem?_map, oldAt, rowAt, Option.map_some, Option.map_some,
        same, shared]

end Abreast

/-! ## What calls find -/

namespace Tables

/-- The ledgers have the same of a user, but for identifiers and times. -/
structure Alike (user : UserId) (own : Name → Prop) (tables twins : Tables) : Prop where
  wallet : (tables.wallets.get? user).map Wallet.anonymous =
    (twins.wallets.get? user).map Wallet.anonymous
  order : ∀ id, own (.order id) →
    (tables.orders.get? id).map Order.anonymous = (twins.orders.get? id).map Order.anonymous
  rows : (tables.rowsOf user).map Entry.anonymous = (twins.rowsOf user).map Entry.anonymous
  notice : ∀ id, own (.notice id) → (tables.Closed id ↔ twins.Closed id)

/-- What can be relied on when the portion of a user is read. -/
structure Portioned (user : UserId) (own : Name → Prop) (tables : Tables) : Prop where
  sound : tables.Sound
  agreed : tables.Agreed
  latest : tables.Latest
  parted : tables.Parted user own

end Tables

/-- Entries that are the same but for identifiers and times, and at the same place if they are the
user's. -/
def Counterparts (user : UserId) (mine : Prop) (tables twins : Tables) (entry twin : Entry) :
    Prop :=
  entry.anonymous = twin.anonymous ∧
    (mine → Abreast (tables.rowsOf user) (twins.rowsOf user) entry twin)

/-- What a call finds in the ledgers is the same but for identifiers and times. A call that is the
user's looks for what is the user's own, and any other call for what is not. -/
structure Beside (user : UserId) (own : Name → Prop) (mine : Prop) (tables twins : Tables) :
    Prop where
  wallet : ∀ customer, (customer = user ↔ mine) →
    (tables.wallets.get? customer).map Wallet.anonymous =
      (twins.wallets.get? customer).map Wallet.anonymous
  order : ∀ id, (own (.order id) ↔ mine) →
    (tables.orders.get? id).map Order.anonymous = (twins.orders.get? id).map Order.anonymous
  hold : ∀ id, (own (.order id) ↔ mine) →
    Option.Rel (Counterparts user mine tables twins) (tables.pendingHold? id)
      (twins.pendingHold? id)
  session : ∀ session, (own (.session session) ↔ mine) →
    Option.Rel (Counterparts user mine tables twins) (tables.entryForSession? session)
      (twins.entryForSession? session)
  located : ∀ {session entry twin}, (own (.session session) ↔ mine) →
    tables.entryForSession? session = some entry → twins.entryForSession? session = some twin →
      (tables.walletById? entry.wallet).map Wallet.anonymous =
        (twins.walletById? twin.wallet).map Wallet.anonymous

namespace Tables

section Reading

variable {tables twins : Tables} {user : UserId} {own : Name → Prop}

/-- A search that only finds what is kept may search what is kept. -/
theorem find?_filter_of_imp {entries : List Entry} {keep test : Entry → Bool}
    (implies : ∀ entry ∈ entries, test entry = true → keep entry = true) :
    (entries.filter keep).find? test = entries.find? test := by
  rw [List.find?_filter]
  refine List.find?_congr fun entry member => ?_
  rw [Bool.eq_iff_iff, decide_eq_true_eq, and_iff_right_iff_imp]
  exact implies entry member

/-- The hold of an order of the user's own is found among the user's entries. -/
theorem Portioned.pendingHold?_eq (portioned : tables.Portioned user own) {id : OrderId}
    (named : own (.order id)) : tables.pendingHold? id =
      (tables.rowsOf user).find? fun entry => entry.order = some id && entry.isPendingHold := by
  obtain ⟨sound, agreed, _, parted⟩ := portioned
  have ordered : (tables.rowsOfOrder id).find? Entry.isPendingHold =
      tables.entries.values.find? fun entry => entry.order = some id && entry.isPendingHold := by
    rw [rowsOfOrder, List.find?_filter]
    exact List.find?_congr fun entry _ => by simp
  rw [pendingHold?, sound.orderEntries_eq, ordered, sound.rowsOf_eq, find?_filter_of_imp]
  intro entry member found
  simp only [Bool.and_eq_true, decide_eq_true_eq] at found ⊢
  obtain ⟨order, known⟩ := agreed.registered (sound.entry_of_mem member) found.1
  obtain rfl := sound.order_id known
  obtain rfl := (parted.order known).mpr named
  obtain ⟨wallet, walletAt, same⟩ :=
    (agreed.backed known).wallet entry (mem_rowsOfOrder.mpr ⟨member, found.1⟩)
  exact sound.owner_iff.mpr ⟨wallet, walletAt, same⟩

/-- The entry of a session of the user's own is found among the user's entries. -/
theorem Portioned.entryForSession?_eq (portioned : tables.Portioned user own) {session : String}
    (named : own (.session session)) : tables.entryForSession? session =
      (tables.rowsOf user).reverse.find? fun entry => entry.reference.session = some session := by
  obtain ⟨sound, _, latest, parted⟩ := portioned
  rw [latest session, sound.rowsOf_eq, ← List.filter_reverse, find?_filter_of_imp]
  intro entry member carries
  rw [decide_eq_true_eq] at carries ⊢
  exact (parted.session (sound.entry_of_mem (List.mem_reverse.mp member)) carries).mpr named

/-- The wallet of a user's entry is the user's wallet. -/
theorem Sound.walletById?_of_mem (sound : tables.Sound) {entry : Entry}
    (member : entry ∈ tables.rowsOf user) :
    tables.walletById? entry.wallet = tables.wallets.get? user := by
  rw [sound.rowsOf_eq, List.mem_filter, decide_eq_true_eq] at member
  rw [walletById?, member.2, Option.bind_some]

/-- Ledgers that have the same of a user answer the user's calls from the same rows. -/
theorem Alike.beside (alike : tables.Alike user own twins) (portioned : tables.Portioned user own)
    (other : twins.Portioned user own) : Beside user own True tables twins := by
  have counterparts {entry twin : Entry}
      (abreast : Abreast (tables.rowsOf user) (twins.rowsOf user) entry twin) :
      Counterparts user True tables twins entry twin :=
    ⟨abreast.anonymous_eq alike.rows, fun _ => abreast⟩
  have sessions (session : String) (named : own (.session session)) :
      Option.Rel (Abreast (tables.rowsOf user) (twins.rowsOf user))
        (tables.entryForSession? session) (twins.entryForSession? session) := by
    rw [portioned.entryForSession?_eq named, other.entryForSession?_eq named]
    have reversed : (tables.rowsOf user).reverse.map Entry.anonymous =
        (twins.rowsOf user).reverse.map Entry.anonymous := by
      rw [List.map_reverse, List.map_reverse, alike.rows]
    exact .mono (fun _ _ => Abreast.reverse alike.rows) (Abreast.of_find? reversed fun _ => rfl)
  refine { wallet := ?_, order := ?_, hold := ?_, session := ?_, located := ?_ }
  · rintro customer about
    obtain rfl := about.mpr trivial
    exact alike.wallet
  · exact fun id named => alike.order id (named.mpr trivial)
  · intro id named
    rw [portioned.pendingHold?_eq (named.mpr trivial), other.pendingHold?_eq (named.mpr trivial)]
    exact .mono (fun _ _ => counterparts) (Abreast.of_find? alike.rows fun _ => rfl)
  · exact fun session named =>
      .mono (fun _ _ => counterparts) (sessions session (named.mpr trivial))
  · intro session entry twin named found twinFound
    have abreast := sessions session (named.mpr trivial)
    rw [found, twinFound] at abreast
    cases abreast with
    | some abreast =>
      obtain ⟨member, twinMember⟩ := abreast.mem
      rw [portioned.sound.walletById?_of_mem member, other.sound.walletById?_of_mem twinMember]
      exact alike.wallet

end Reading

end Tables

/-- Every call finds the same in a ledger as in itself. -/
theorem Beside.refl (user : UserId) (own : Name → Prop) (tables : Tables) :
    Beside user own False tables tables where
  wallet := fun _ _ => rfl
  order := fun _ _ => rfl
  hold := fun _ _ => .refl fun _ => ⟨rfl, False.elim⟩
  session := fun _ _ => .refl fun _ => ⟨rfl, False.elim⟩
  located := by
    intro session entry twin _ found twinFound
    cases found.symm.trans twinFound
    rfl

end Prepaid.Ledger
