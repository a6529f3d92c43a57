import Prepaid.Proofs.Ledger.Accounting
import Prepaid.Proofs.Ledger.Credit
import Prepaid.Proofs.Ledger.Indexes
import Prepaid.Proofs.Ledger.Lifecycle

/-!
# What entries show

An entry shows what its owner had when it was written: a new one, and one that gets
completed, shows what its owner has right after the change, and a hold that is given
back shows what it showed before. So the entries that a change completes are the last
ones of a trail, and what they show follows from what was completed before them.
-/

namespace Prepaid

/-- No order has a hold that is completed: it would have become a payment. -/
theorem OrderStatus.not_completed_hold (status : OrderStatus) :
    ∀ trail ∈ status.trails, (EntryKind.hold, EntryStatus.completed) ∉ trail := by
  cases status <;> decide

namespace Entry

/-- The amount of an entry of a given kind, in cents. -/
def worth (kind : EntryKind) (entry : Entry) : Int :=
  if entry.kind = kind then entry.amount.cents else 0

/-- No entry is worth less than nothing. -/
theorem worth_nonneg (kind : EntryKind) (entry : Entry) : 0 ≤ entry.worth kind := by
  unfold worth
  split
  · exact Int.le_of_lt entry.amount.positive
  · exact Int.le_refl 0

/-- The signed amount adds deposits and refunds, and takes payments and holds away. -/
theorem cents_signedAmount (entry : Entry) : entry.signedAmount.cents =
    entry.worth .deposit + entry.worth .refund - entry.worth .payment - entry.worth .hold := by
  have negated : (Money.ofDecimal entry.amount.money.value.neg).cents = -entry.amount.cents := by
    rw [Money.cents_ofDecimal (by rw [Decimal.scale_neg]; exact entry.amount.money.places_le),
      Decimal.hundredths_neg]
    rfl
  have plain : entry.amount.money.cents = entry.amount.cents := rfl
  unfold signedAmount worth
  cases entry.kind <;> simp [negated, plain]

end Entry

namespace Ledger

namespace Tables

/-- An entry is in the wallet of a user and shows what the user has. -/
def Shows (user : UserId) (entry : Entry) (tables : Tables) : Prop :=
  ∃ wallet, tables.wallets.get? user = some wallet ∧ wallet.id = entry.wallet ∧
    entry.balanceAfter = wallet.current

/-- The balance that an entry shows is what its user has. -/
theorem Shows.currentOf {user : UserId} {entry : Entry} {tables : Tables}
    (shows : tables.Shows user entry) :
    entry.balanceAfter = tables.currentOf user := by
  obtain ⟨wallet, known, _, shown⟩ := shows
  rw [shown, Tables.currentOf, known]
  rfl

/-- What an entry shows after a change. -/
inductive Writes (before after : Tables) (entry : Entry) : Prop where
  /-- The entry has not changed. -/
  | kept (known : before.entries.get? entry.id = some entry)
  /-- The entry is new, or has been completed. While it is pending its owner has what there was
  before. -/
  | shown {user : UserId} (open? : entry.status ≠ .cancelled) (shows : after.Shows user entry)
      (same : entry.status = .pending → after.currentOf user = before.currentOf user)
  /-- The entry is a hold that has been given back. -/
  | cancelled {old : Entry} (known : before.entries.get? entry.id = some old)
      (pending : old.status = .pending) (cancelled : entry.status = .cancelled)
      (wallet : entry.wallet = old.wallet) (shown : entry.balanceAfter = old.balanceAfter)

section Writes

variable {stamp : Stamp} {tables before after : Tables} {entry row : Entry} {id : EntryId}
    {topUp : Option EntryId}

/-- Of one entry that is put it has to be shown what it shows. -/
theorem Writes.of_put (sound : tables.Sound)
    (entries : after.entries = tables.entries.put entry.id entry)
    (written : tables.Writes after entry) (found : after.entries.get? id = some row) :
    tables.Writes after row := by
  rw [entries, Table.get?_put] at found
  split at found
  · cases found
    exact written
  · refine .kept ?_
    rw [sound.entry_id found]
    exact found

/-- What is not written shows what it showed. -/
theorem Writes.of_same (sound : tables.Sound) (entries : after.entries = tables.entries)
    (found : after.entries.get? id = some row) : tables.Writes after row := by
  rw [entries] at found
  refine .kept ?_
  rw [sound.entry_id found]
  exact found

/-- An entry that is put together with its wallet shows what is in the wallet. -/
theorem Writes.of_wallet {user : UserId} {wallet : Wallet} (later : Wallet) (sound : tables.Sound)
    (known : tables.wallets.get? user = some wallet)
    (wallets : after.wallets = tables.wallets.put user later)
    (entries : after.entries = tables.entries.put entry.id entry) (owned : later.id = entry.wallet)
    (shown : entry.balanceAfter = later.current) (open? : entry.status ≠ .cancelled)
    (same : entry.status = .pending → later.current = wallet.current)
    (found : after.entries.get? id = some row) : tables.Writes after row := by
  have home : after.wallets.get? user = some later := by rw [wallets, Table.get?_put, if_pos rfl]
  refine .of_put sound entries (.shown open? ⟨later, home, owned, shown⟩ fun pending => ?_) found
  simp only [Tables.currentOf, home, known, Option.elim_some]
  exact same pending

end Writes

end Tables

open Tables

section Changes

variable {stamp : Stamp} {tables after : Tables} {entry : Entry} {id : EntryId}
    {topUp : Option EntryId}

/-- A posting writes entries that show the balance afterwards. -/
theorem Posting.writes (posting : Posting stamp tables topUp after) (sound : tables.Sound)
    (agreed : tables.Agreed) (found : after.entries.get? id = some entry) :
    tables.Writes after entry := by
  cases posting with
  | deposited known credit fresh =>
    obtain ⟨sameId, sameOwner⟩ := Wallet.same_of_credit credit
    refine .of_wallet _ sound known ?_ (putEntry_entries _ _) sameId rfl (by simp [Entry.deposit])
      (by simp [Entry.deposit]) found
    rw [putEntry_wallets, sound.putWallet_wallets known sameOwner]
  | toppedUp known fresh =>
    refine .of_wallet _ sound known ?_ (putEntry_entries _ _) rfl rfl
      (by simp [Entry.pendingDeposit]) (fun _ => rfl) found
    rw [putEntry_wallets, Table.put_self known]
  | confirmed known owned named pending credit =>
    obtain ⟨sameId, sameOwner⟩ := Wallet.same_of_credit credit
    refine .of_wallet _ sound known ?_ (putEntry_entries _ _) (sameId.trans owned) rfl
      (by simp [Entry.confirm]) (by simp [Entry.confirm]) found
    rw [putEntry_wallets, sound.putWallet_wallets known sameOwner]
  | held ordered pending known reserve fresh =>
    obtain ⟨sameId, sameOwner⟩ := Wallet.same_of_reserve reserve
    refine .of_wallet _ sound known ?_ (putEntry_entries _ _) sameId rfl (by simp [Entry.hold])
      (fun _ => Wallet.current_of_reserve reserve) found
    rw [putEntry_wallets]
    exact sound.putWallet_wallets known sameOwner
  | captured ordered unpaid known holds settle =>
    obtain ⟨sameId, sameOwner⟩ := Wallet.same_of_settle settle
    obtain ⟨_, _, owned, _⟩ := agreed.hold_spec sound ordered known holds
    refine .of_wallet _ sound known ?_ (putEntry_entries _ _) (sameId.trans owned) rfl
      (by simp [Entry.capture]) (by simp [Entry.capture]) found
    rw [putEntry_wallets]
    exact sound.putWallet_wallets known sameOwner
  | released ordered unpaid known holds release =>
    obtain ⟨_, present, _, _, pending⟩ := sound.pendingHold?_spec holds
    exact .of_put sound (putEntry_entries _ _) (.cancelled present pending rfl rfl rfl) found
  | refunded ordered paid known credit fresh =>
    obtain ⟨sameId, sameOwner⟩ := Wallet.same_of_credit credit
    refine .of_wallet _ sound known ?_ (putEntry_entries _ _) sameId rfl (by simp [Entry.refund])
      (by simp [Entry.refund]) found
    rw [putEntry_wallets]
    exact sound.putWallet_wallets known sameOwner
  | dropped | registered | prepared | completed => exact .of_same sound rfl found

/-- A change writes entries that show the balance afterwards. -/
theorem Change.writes (change : Change stamp tables topUp after) (sound : tables.Sound)
    (agreed : tables.Agreed) (found : after.entries.get? id = some entry) :
    tables.Writes after entry := by
  cases change with
  | idle upkeeps => exact .of_same sound upkeeps.entries found
  | posted opening posting closing =>
    rw [closing.entries] at found
    have written :=
      posting.writes (opening.keeps Upkeep.sound sound) (opening.keeps Upkeep.agreed agreed) found
    cases written with
    | kept known => exact .kept (by rw [← opening.entries]; exact known)
    | shown open? shows same =>
      obtain ⟨wallet, home, owned, shown⟩ := shows
      refine .shown open? ⟨wallet, closing.keepsWallet home, owned, shown⟩ fun pending => ?_
      rw [closing.currentOf, same pending, opening.currentOf]
    | cancelled known pending cancelled wallet shown =>
      exact .cancelled (by rw [← opening.entries]; exact known) pending cancelled wallet shown

end Changes

/-! ## Completed entries -/

namespace Tables

/-- The completed entries of a wallet. -/
def settled (wallet : WalletId) (tables : Tables) : List Entry :=
  (tables.rowsOfWallet wallet).filter fun entry => entry.status = .completed

/-- The entries that are completed now and were not before. -/
def completions (before after : Tables) : List Entry :=
  after.entries.values.filter fun entry =>
    entry.status = .completed && (before.entries.get? entry.id).all
      fun old => old.status ≠ .completed

/-- Those of them that are in a given wallet. -/
def completionsOf (wallet : WalletId) (before after : Tables) : List Entry :=
  (before.completions after).filter fun entry => entry.wallet = wallet

/-- What the completed entries of a wallet amount to, in cents. -/
def net (wallet : WalletId) (tables : Tables) : Int :=
  ((tables.settled wallet).map fun entry => entry.signedAmount.cents).sum

section Settled

variable {tables before after : Tables} {wallet : WalletId} {entry : Entry} {moves : Nat}
    {topUp : Option EntryId}

/-- The settled entries of a wallet are the completed ones in it. -/
theorem mem_settled (sound : tables.Sound) : entry ∈ tables.settled wallet ↔
    tables.entries.get? entry.id = some entry ∧ entry.wallet = wallet ∧
    entry.status = .completed := by
  simp only [settled, rowsOfWallet, List.mem_filter, decide_eq_true_eq, sound.mem_entries_iff,
    and_assoc]

/-- What a change completes is completed afterwards and was not before. -/
theorem mem_completions (sound : after.Sound) : entry ∈ before.completions after ↔
    after.entries.get? entry.id = some entry ∧ entry.status = .completed ∧
      ∀ old, before.entries.get? entry.id = some old → old.status ≠ .completed := by
  simp only [completions, List.mem_filter, Bool.and_eq_true, decide_eq_true_eq, Option.all_eq_true,
    sound.mem_entries_iff]

/-- No entry is listed twice. -/
theorem Sound.nodup_entries (sound : tables.Sound) : tables.entries.values.Nodup :=
  List.Nodup.of_map Entry.id sound.nodup_ids

/-- No settled entry is listed twice. -/
theorem Sound.nodup_settled (sound : tables.Sound) (wallet : WalletId) :
    (tables.settled wallet).Nodup :=
  (sound.nodup_entries.filter _).filter _

/-- Nothing is completed twice by one change. -/
theorem Sound.nodup_completionsOf (sound : after.Sound) (wallet : WalletId) (before : Tables) :
    (before.completionsOf wallet after).Nodup :=
  (sound.nodup_entries.filter _).filter _

/-- The completed entries of a wallet are those from before and those that a change has
completed. -/
theorem settled_perm (sound : before.Sound) (afterSound : after.Sound)
    (continues : before.Continues moves after) (wallet : WalletId) :
    (before.settled wallet ++ before.completionsOf wallet after).Perm (after.settled wallet) := by
  have distinct : (before.settled wallet ++ before.completionsOf wallet after).Nodup := by
    refine List.nodup_append.mpr
      ⟨sound.nodup_settled wallet, afterSound.nodup_completionsOf wallet before, ?_⟩
    rintro entry old _ new rfl
    obtain ⟨known, _, completed⟩ := (mem_settled sound).mp old
    obtain ⟨_, _, uncompleted⟩ := (mem_completions afterSound).mp (List.mem_of_mem_filter new)
    exact uncompleted entry known completed
  refine (List.perm_ext_iff_of_nodup distinct (afterSound.nodup_settled wallet)).mpr fun entry => ?_
  rw [List.mem_append, completionsOf, List.mem_filter, mem_completions afterSound,
    mem_settled sound, mem_settled afterSound, decide_eq_true_eq]
  constructor
  · rintro (⟨known, inside, completed⟩ | ⟨⟨found, completed, _⟩, inside⟩)
    · obtain ⟨row, rowAt, goesOn⟩ := continues.entry known
      rw [goesOn.eq_of_settled (by simp [completed])] at rowAt
      exact ⟨rowAt, inside, completed⟩
    · exact ⟨found, inside, completed⟩
  · rintro ⟨found, inside, completed⟩
    by_cases was : ∃ old, before.entries.get? entry.id = some old ∧ old.status = .completed
    · obtain ⟨old, known, settled⟩ := was
      obtain ⟨row, rowAt, goesOn⟩ := continues.entry known
      rw [found] at rowAt
      cases rowAt
      obtain rfl := goesOn.eq_of_settled (by simp [settled])
      exact .inl ⟨known, inside, completed⟩
    · exact .inr ⟨⟨found, completed, fun old known settled => was ⟨old, known, settled⟩⟩, inside⟩

/-- A change completes at most one entry. -/
theorem Moves.completions_cases (change : before.Moves after topUp) (afterSound : after.Sound)
    (wallet : WalletId) : before.completionsOf wallet after = [] ∨
      ∃ entry, before.completionsOf wallet after = [entry] := by
  have alone : ∀ entry ∈ before.completionsOf wallet after, ∀ other ∈
      before.completionsOf wallet after, other = entry := by
    have spec {entry : Entry} (member : entry ∈ before.completionsOf wallet after) :
        after.entries.get? entry.id = some entry ∧ before.entries.get? entry.id ≠ some entry := by
      obtain ⟨found, completed, uncompleted⟩ :=
        (mem_completions afterSound).mp (List.mem_of_mem_filter member)
      exact ⟨found, fun known => uncompleted entry known completed⟩
    intro entry member other otherMember
    obtain ⟨found, new⟩ := spec member
    obtain ⟨otherFound, otherNew⟩ := spec otherMember
    cases change with
    | still entries money =>
      rw [entries] at found
      exact (new found).elim
    | moved home owned entries others effect =>
      rw [entries, Table.get?_put] at found otherFound
      split at found
      · split at otherFound
        · exact Option.some.inj (otherFound.symm.trans found)
        · exact (otherNew otherFound).elim
      · exact (new found).elim
  have distinct := afterSound.nodup_completionsOf wallet before
  cases listed : before.completionsOf wallet after with
  | nil => exact .inl rfl
  | cons entry rest =>
    rw [listed] at alone distinct
    have behind : rest = [] := by
      refine List.eq_nil_iff_forall_not_mem.mpr fun other member => ?_
      obtain rfl := alone entry List.mem_cons_self other (List.mem_cons_of_mem _ member)
      exact (List.nodup_cons.mp distinct).1 member
    exact .inr ⟨entry, by rw [behind]⟩

/-! ## What completed entries amount to -/

/-- Shares of completed entries are the worths of the settled ones. -/
theorem sum_share_filter (wallet : WalletId) (kind : EntryKind) (rows : List Entry) :
    (rows.map (Entry.share wallet kind .completed)).sum =
      (((rows.filter fun entry => entry.wallet = wallet).filter fun entry => entry.status =
        .completed).map
        (Entry.worth kind)).sum := by
  induction rows with
  | nil => rfl
  | cons entry rest ih =>
    rw [List.map_cons, List.sum_cons, ih]
    by_cases inside : entry.wallet = wallet <;> by_cases completed : entry.status = .completed <;>
      simp [Entry.share, Entry.worth, inside, completed]

/-- What completed entries of one kind amount to is the worth of the settled ones. -/
theorem sumOf_completed (wallet : WalletId) (kind : EntryKind) (tables : Tables) :
    tables.sumOf wallet kind .completed = ((tables.settled wallet).map (Entry.worth kind)).sum :=
  sum_share_filter wallet kind tables.entries.values

/-- No hold is completed. -/
theorem Agreed.not_hold_of_settled (agreed : tables.Agreed) (sound : tables.Sound)
    (member : entry ∈ tables.settled wallet) : entry.kind ≠ .hold := by
  intro hold
  obtain ⟨found, _, completed⟩ := (mem_settled sound).mp member
  cases ordered : entry.order with
  | none =>
    have deposit := (agreed.deposit_iff found).mpr ordered
    rw [hold] at deposit
    cases deposit
  | some id =>
    obtain ⟨order, known⟩ := agreed.registered found ordered
    obtain rfl := sound.order_id known
    have own : entry ∈ tables.rowsOfOrder order.id :=
      mem_rowsOfOrder.mpr ⟨Table.mem_values found, ordered⟩
    have marked :
        (EntryKind.hold, EntryStatus.completed) ∈ (tables.rowsOfOrder order.id).map Entry.mark := by
      rw [← hold, ← completed]
      exact List.mem_map_of_mem own
    exact order.status.not_completed_hold _ (agreed.backed known).trail marked

/-- Signed amounts are summed kind by kind, where nothing is held. -/
theorem sum_signed (rows : List Entry) (spent : ∀ entry ∈ rows, entry.kind ≠ .hold) :
    (rows.map fun entry => entry.signedAmount.cents).sum =
      (rows.map (Entry.worth .deposit)).sum + (rows.map (Entry.worth .refund)).sum -
        (rows.map (Entry.worth .payment)).sum := by
  induction rows with
  | nil => rfl
  | cons entry rest ih =>
    have ih := ih fun row member => spent row (List.mem_cons_of_mem _ member)
    have nothing : entry.worth .hold = 0 := if_neg (spent entry List.mem_cons_self)
    simp only [List.map_cons, List.sum_cons, ih, entry.cents_signedAmount, nothing]
    omega

/-- A wallet that is accounted for shows what its completed entries amount to. -/
theorem Accounts.net {owned : Wallet} (accounts : tables.Accounts owned) (sound : tables.Sound)
    (agreed : tables.Agreed) : owned.current.cents = tables.net owned.id := by
  rw [accounts.current, Tables.net,
    sum_signed _ fun _ member => agreed.not_hold_of_settled sound member, sumOf_completed,
    sumOf_completed, sumOf_completed]

/-- What a wallet has been credited are its settled deposits and refunds. -/
theorem credited_eq (wallet : WalletId) (tables : Tables) : tables.credited wallet =
    ((tables.settled wallet).map (Entry.worth .deposit)).sum +
      ((tables.settled wallet).map (Entry.worth .refund)).sum := by
  rw [credited, sumOf_completed, sumOf_completed]

/-- Entries are never worth less than nothing together. -/
theorem sum_worth_nonneg (kind : EntryKind) (rows : List Entry) :
    0 ≤ (rows.map (Entry.worth kind)).sum := by
  apply List.sum_nonneg
  rintro _ member
  obtain ⟨entry, _, rfl⟩ := List.mem_map.mp member
  exact entry.worth_nonneg kind

/-- A sum over the completed entries of a wallet grows by the entries that a change completes. -/
theorem sum_settled (sound : before.Sound) (afterSound : after.Sound)
    (continues : before.Continues moves after) (wallet : WalletId) (quantity : Entry → Int) :
    ((after.settled wallet).map quantity).sum =
      ((before.settled wallet).map quantity).sum +
        ((before.completionsOf wallet after).map quantity).sum := by
  rw [← ((settled_perm sound afterSound continues wallet).map quantity).sum_eq, List.map_append,
    List.sum_append]

/-- What has been credited is never taken back. -/
theorem credited_le (sound : before.Sound) (afterSound : after.Sound)
    (continues : before.Continues moves after) (wallet : WalletId) :
    before.credited wallet ≤ after.credited wallet := by
  have deposits := sum_settled sound afterSound continues wallet (Entry.worth .deposit)
  have refunds := sum_settled sound afterSound continues wallet (Entry.worth .refund)
  have further := sum_worth_nonneg .deposit (before.completionsOf wallet after)
  have besides := sum_worth_nonneg .refund (before.completionsOf wallet after)
  rw [credited_eq, credited_eq]
  omega

/-- What a change completes tells what there is behind the change. -/
theorem Writes.shows_of_completion (written : Tables.Writes before after entry)
    (sound : after.Sound) (member : entry ∈ before.completions after) :
    ∃ user, after.Shows user entry := by
  obtain ⟨_, completed, uncompleted⟩ := (mem_completions sound).mp member
  cases written with
  | kept known => exact (uncompleted entry known completed).elim
  | shown open? shows same => exact ⟨_, shows⟩
  | cancelled known pending cancelled =>
    rw [completed] at cancelled
    cases cancelled

end Settled

end Tables

/-- Entries that follow each other from one balance to another: each one tells the balance before it
with its signed amount added, in cents. -/
def Audits : Int → List Entry → Int → Prop
  | balance, [], current => balance = current
  | balance, entry :: rest, current =>
    entry.balanceAfter.cents = balance + entry.signedAmount.cents ∧
      Audits entry.balanceAfter.cents rest current

/-- Audits that meet in a balance are one audit. -/
theorem Audits.append {start middle current : Int} {earlier later : List Entry}
    (before : Audits start earlier middle) (behind : Audits middle later current) :
    Audits start (earlier ++ later) current := by
  induction earlier generalizing start with
  | nil =>
    obtain rfl : start = middle := before
    exact behind
  | cons entry rest ih => exact ⟨before.1, ih before.2⟩

section Change

variable {stamp : Stamp} {tables after : Tables} {topUp : Option EntryId}

/-- What a change completes shows the balance after it. -/
theorem Change.completions_show (change : Change stamp tables topUp after) (sound : tables.Sound)
    (agreed : tables.Agreed) {entry : Entry} (member : entry ∈ tables.completions after) :
    ∃ user, after.Shows user entry := by
  have afterSound := change.sound sound
  have found := ((mem_completions afterSound).mp member).1
  exact (change.writes sound agreed found).shows_of_completion afterSound member

/-- What a change completes in a wallet leads from what the completed entries have amounted to
before to what they amount to now, as long as the wallet is exact. -/
theorem Change.audits (change : Change stamp tables topUp after) (sound : tables.Sound)
    (agreed : tables.Agreed) (afterAgreed : after.Agreed) (balanced : after.Balanced)
    (wallet : WalletId) (within : after.credited wallet ≤ Money.maxCents) :
    Audits (tables.net wallet) (tables.completionsOf wallet after) (after.net wallet) := by
  have afterSound := change.sound sound
  have grown : after.net wallet = tables.net wallet +
      ((tables.completionsOf wallet after).map fun entry => entry.signedAmount.cents).sum :=
    sum_settled sound afterSound (change.continues sound agreed) wallet _
  rcases (change.moves sound agreed).completions_cases afterSound wallet with none | ⟨entry, one⟩
  · rw [none] at grown ⊢
    rw [grown]
    exact (Int.add_zero _).symm
  · have member : entry ∈ tables.completionsOf wallet after := by simp [one]
    obtain ⟨completion, inside⟩ := List.mem_filter.mp member
    obtain ⟨user, owned, home, id, shown⟩ := change.completions_show sound agreed completion
    obtain rfl : wallet = owned.id := id ▸ (of_decide_eq_true inside).symm
    have accounts := balanced home within
    have told : entry.balanceAfter.cents = after.net owned.id := by
      rw [shown, accounts.net afterSound afterAgreed]
    rw [one] at grown ⊢
    refine ⟨?_, told⟩
    simpa [told] using grown

end Change

end Ledger

end Prepaid
