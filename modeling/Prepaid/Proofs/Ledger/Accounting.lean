import Prepaid.Proofs.Ledger.Agreement
import Prepaid.Proofs.Money.Exact

/-!
# Wallets and their entries

What a wallet shows follows from its entries: deposits and refunds less payments are
what the user owns, and pending holds are what is held. This is exact as long as all
that the user has ever been credited is at most `Money.maxCents`; credits are never
taken back, so the bound on the present credits covers all earlier ones.
-/

namespace Prepaid

/-- What an entry counts for among the entries of one kind, in one state, of a wallet. -/
def Entry.share (wallet : WalletId) (kind : EntryKind) (status : EntryStatus) (entry : Entry) :
    Int :=
  if entry.wallet = wallet ∧ entry.kind = kind ∧
    entry.status = status then entry.amount.cents else 0

/-- No entry counts for less than nothing. -/
theorem Entry.share_nonneg (wallet : WalletId) (kind : EntryKind) (status : EntryStatus)
    (entry : Entry) :
    0 ≤ entry.share wallet kind status := by
  unfold share
  split
  · exact Int.le_of_lt entry.amount.positive
  · exact Int.le_refl 0

/-- An entry counts for nothing in another wallet. -/
theorem Entry.share_of_other {wallet : WalletId} {entry : Entry} (other : entry.wallet ≠ wallet)
    (kind : EntryKind) (status : EntryStatus) : entry.share wallet kind status = 0 := by
  simp [share, other]

/-! ## Exact steps of a wallet -/

namespace Wallet

variable {wallet after : Wallet} {amount : Amount} {now : Instant}

/-- Crediting what fits adds the amount and leaves what is held. -/
theorem credit_exact (credit : wallet.credit amount now = .ok after)
    (nonneg : 0 ≤ wallet.current.cents)
    (fits : wallet.current.cents + amount.cents ≤ Money.maxCents) :
    after.current.cents = wallet.current.cents + amount.cents ∧ after.held = wallet.held := by
  obtain ⟨current, added, rfl⟩ := credit_eq_ok.mp credit
  have worth : amount.money.cents = amount.cents := rfl
  have positive : 0 < amount.cents := amount.positive
  exact ⟨Money.cents_of_add added (by omega), rfl⟩

/-- What is reserved was available, so no more is held than there is. -/
theorem reserve_exact (reserve : wallet.reserve amount now = .ok after)
    (nonneg : 0 ≤ wallet.held.cents) (within : wallet.held.cents ≤ wallet.current.cents)
    (fits : wallet.current.cents ≤ Money.maxCents) :
    after.held.cents = wallet.held.cents + amount.cents ∧ after.current = wallet.current ∧
      after.held.cents ≤ after.current.cents := by
  obtain ⟨available, held, left, enough, added, rfl⟩ := reserve_eq_ok.mp reserve
  have worth : amount.money.cents = amount.cents := rfl
  have positive : 0 < amount.cents := amount.positive
  have availableEq : available.cents = wallet.current.cents - wallet.held.cents :=
    Money.cents_of_sub left (by omega)
  have heldEq : held.cents = wallet.held.cents + amount.cents :=
    Money.cents_of_add added (by omega)
  refine ⟨heldEq, rfl, ?_⟩
  change held.cents ≤ wallet.current.cents
  omega

/-- Releasing takes the amount from what is held, which covers it, and from nothing else. -/
theorem release_exact (release : wallet.release amount now = .ok after)
    (fits : wallet.held.cents ≤ Money.maxCents) :
    after.held.cents = wallet.held.cents - amount.cents ∧ after.current = wallet.current ∧
      amount.cents ≤ wallet.held.cents := by
  obtain ⟨⟨enough, _⟩, held, freed, rfl⟩ := release_eq_ok.mp release
  have worth : amount.money.cents = amount.cents := rfl
  have positive : 0 < amount.cents := amount.positive
  exact ⟨Money.cents_of_sub freed (by omega), rfl, enough⟩

/-- Settling takes the amount both from what is held, which covers it, and from what there is. -/
theorem settle_exact (settle : wallet.settle amount now = .ok after)
    (heldFits : wallet.held.cents ≤ Money.maxCents)
    (currentFits : wallet.current.cents ≤ Money.maxCents) :
    after.held.cents = wallet.held.cents - amount.cents ∧
      after.current.cents = wallet.current.cents - amount.cents ∧
      amount.cents ≤ wallet.held.cents := by
  obtain ⟨⟨enoughHeld, enough⟩, held, current, freed, spent, rfl⟩ := settle_eq_ok.mp settle
  have worth : amount.money.cents = amount.cents := rfl
  have positive : 0 < amount.cents := amount.positive
  exact ⟨Money.cents_of_sub freed (by omega), Money.cents_of_sub spent (by omega), enoughHeld⟩

end Wallet

namespace Ledger

namespace Tables

/-- The sum of the entries of one kind, in one state, of a wallet, in cents. -/
def sumOf (wallet : WalletId) (kind : EntryKind) (status : EntryStatus) (tables : Tables) : Int :=
  tables.entries.total (Entry.share wallet kind status)

/-- All that a wallet has ever been credited: deposits, confirmed top-ups and refunds. -/
def credited (wallet : WalletId) (tables : Tables) : Int :=
  tables.sumOf wallet .deposit .completed + tables.sumOf wallet .refund .completed

section Sums

variable {tables : Tables} {entry old : Entry} {wallet : WalletId} {kind : EntryKind}
  {status : EntryStatus}

/-- Entries never amount to less than nothing. -/
theorem sumOf_nonneg (wallet : WalletId) (kind : EntryKind) (status : EntryStatus)
    (tables : Tables) :
    0 ≤ tables.sumOf wallet kind status :=
  Table.total_nonneg fun entry _ => entry.share_nonneg wallet kind status

/-- A new entry adds its share. -/
theorem sumOf_putEntry_of_none (new : tables.entries.get? entry.id = none) :
    (tables.putEntry entry).sumOf wallet kind status =
      tables.sumOf wallet kind status + entry.share wallet kind status := by
  rw [sumOf, putEntry_entries, Table.total_put_of_none entry _ new]
  rfl

/-- An entry that is put again takes its old share out and brings its new one in. -/
theorem sumOf_putEntry_of_some (known : tables.entries.get? entry.id = some old) :
    (tables.putEntry entry).sumOf wallet kind status =
      tables.sumOf wallet kind status - old.share wallet kind status +
        entry.share wallet kind status := by
  rw [sumOf, putEntry_entries, Table.total_put_of_some entry _ known]
  rfl

/-- The entries of a wallet count for no other one. -/
theorem sumOf_putEntry_other (other : entry.wallet ≠ wallet)
    (same : ∀ old, tables.entries.get? entry.id = some old → old.wallet = entry.wallet) :
    (tables.putEntry entry).sumOf wallet kind status = tables.sumOf wallet kind status := by
  cases known : tables.entries.get? entry.id with
  | none => rw [sumOf_putEntry_of_none known, Entry.share_of_other other, Int.add_zero]
  | some old =>
    have oldOther : old.wallet ≠ wallet := by rwa [same old known]
    rw [sumOf_putEntry_of_some known, Entry.share_of_other other, Entry.share_of_other oldOther]
    omega

/-- A wallet without entries amounts to nothing. -/
theorem sumOf_of_none (none : ∀ entry ∈ tables.entries.values, entry.wallet ≠ wallet) :
    tables.sumOf wallet kind status = 0 :=
  Table.total_eq_zero fun entry member => Entry.share_of_other (none entry member) kind status

end Sums

end Tables

/-- A wallet shows exactly what its entries amount to, and holds no more than there is. -/
structure Tables.Accounts (tables : Tables) (wallet : Wallet) : Prop where
  current : wallet.current.cents = tables.sumOf wallet.id .deposit .completed +
    tables.sumOf wallet.id .refund .completed - tables.sumOf wallet.id .payment .completed
  held : wallet.held.cents = tables.sumOf wallet.id .hold .pending
  held_nonneg : 0 ≤ wallet.held.cents
  held_le : wallet.held.cents ≤ wallet.current.cents

/-- Every wallet is accounted for by its entries, unless it has been credited more than money is
exact with. -/
def Tables.Balanced (tables : Tables) : Prop :=
  ∀ ⦃user wallet⦄, tables.wallets.get? user = some wallet →
    tables.credited wallet.id ≤ Money.maxCents → tables.Accounts wallet

namespace Tables

/-- There is no wallet to account for in the beginning. -/
theorem Balanced.empty : Balanced {} := by
  intro user wallet found
  cases found

variable {tables : Tables} {old new : Wallet} {amount : Amount} {now : Instant}

/-- The most that an accounted wallet can show. -/
theorem Accounts.current_le (accounts : tables.Accounts old) :
    old.current.cents ≤ tables.credited old.id := by
  have payments := tables.sumOf_nonneg old.id .payment .completed
  have current := accounts.current
  unfold credited
  omega

/-- Where the sums of a wallet stay, its account stays. -/
theorem Accounts.congr {before after : Tables} {wallet : Wallet} (accounts : before.Accounts wallet)
    (same : ∀ kind status, after.sumOf wallet.id kind status = before.sumOf wallet.id kind status) :
    after.Accounts wallet where
  current := by rw [same, same, same]; exact accounts.current
  held := by rw [same]; exact accounts.held
  held_nonneg := accounts.held_nonneg
  held_le := accounts.held_le

/-- A wallet follows a change of the sums of its entries. -/
structure Follows (old new : Wallet) (change : EntryKind → EntryStatus → Int) : Prop where
  current : new.current.cents = old.current.cents + change .deposit .completed +
    change .refund .completed - change .payment .completed
  held : new.held.cents = old.held.cents + change .hold .pending
  held_nonneg : 0 ≤ new.held.cents
  held_le : new.held.cents ≤ new.current.cents

section Follows

variable {change : EntryKind → EntryStatus → Int}

/-- A credit follows a deposit or a refund that is completed. -/
theorem Follows.credit (accounts : tables.Accounts old) (credit : old.credit amount now = .ok new)
    (within : tables.credited old.id + (change .deposit .completed + change .refund .completed) ≤
      Money.maxCents)
    (credits : change .deposit .completed + change .refund .completed = amount.cents)
    (payments : change .payment .completed = 0) (holds : change .hold .pending = 0) :
    Follows old new change := by
  have current := accounts.current_le
  have nonneg := accounts.held_nonneg
  have less := accounts.held_le
  have positive : 0 < amount.cents := amount.positive
  obtain ⟨currentEq, heldEq⟩ := Wallet.credit_exact credit (by omega) (by omega)
  exact
    { current := by omega, held := by rw [heldEq, holds, Int.add_zero]
      held_nonneg := by rwa [heldEq], held_le := by rw [heldEq, currentEq]; omega }

/-- A reservation follows a hold that becomes pending. -/
theorem Follows.reserve (accounts : tables.Accounts old)
    (reserve : old.reserve amount now = .ok new)
    (within : tables.credited old.id + (change .deposit .completed + change .refund .completed) ≤
      Money.maxCents)
    (credits : change .deposit .completed + change .refund .completed = 0)
    (payments : change .payment .completed = 0) (holds : change .hold .pending = amount.cents) :
    Follows old new change := by
  have current := accounts.current_le
  have nonneg := accounts.held_nonneg
  have positive : 0 < amount.cents := amount.positive
  obtain ⟨heldEq, currentEq, less⟩ :=
    Wallet.reserve_exact reserve nonneg accounts.held_le (by omega)
  exact
    { current := by rw [currentEq]; omega, held := by rw [heldEq, holds]
      held_nonneg := by omega, held_le := less }

/-- A settlement follows a hold that becomes a payment. -/
theorem Follows.settle (accounts : tables.Accounts old) (settle : old.settle amount now = .ok new)
    (within : tables.credited old.id + (change .deposit .completed + change .refund .completed) ≤
      Money.maxCents)
    (credits : change .deposit .completed + change .refund .completed = 0)
    (payments : change .payment .completed = amount.cents)
    (holds : change .hold .pending = -amount.cents) : Follows old new change := by
  have current := accounts.current_le
  have less := accounts.held_le
  obtain ⟨heldEq, currentEq, enough⟩ := Wallet.settle_exact settle (by omega) (by omega)
  exact
    { current := by omega, held := by omega, held_nonneg := by omega, held_le := by omega }

/-- A release follows a hold that is given up. -/
theorem Follows.release (accounts : tables.Accounts old)
    (release : old.release amount now = .ok new)
    (within : tables.credited old.id + (change .deposit .completed + change .refund .completed) ≤
      Money.maxCents)
    (credits : change .deposit .completed + change .refund .completed = 0)
    (payments : change .payment .completed = 0) (holds : change .hold .pending = -amount.cents) :
    Follows old new change := by
  have current := accounts.current_le
  have less := accounts.held_le
  have positive : 0 < amount.cents := amount.positive
  obtain ⟨heldEq, currentEq, enough⟩ := Wallet.release_exact release (by omega)
  exact
    { current := by rw [currentEq]; omega, held := by omega, held_nonneg := by omega
      held_le := by rw [currentEq]; omega }

/-- A wallet that stays as it is follows a change of nothing. -/
theorem Follows.stay (accounts : tables.Accounts old)
    (credits : change .deposit .completed + change .refund .completed = 0)
    (payments : change .payment .completed = 0) (holds : change .hold .pending = 0) :
    Follows old old change where
  current := by omega
  held := by omega
  held_nonneg := accounts.held_nonneg
  held_le := accounts.held_le

end Follows

/-- A wallet moves together with one of its entries. All other wallets keep their accounts, and its
own follows if nothing that was credited is taken back. -/
theorem Balanced.post (balanced : tables.Balanced) (sound : tables.Sound) {user : UserId}
    {entry : Entry} (change : EntryKind → EntryStatus → Int)
    (known : tables.wallets.get? user = some old) (id : new.id = old.id)
    (owner : new.owner = old.owner) (owned : entry.wallet = old.id)
    (same : ∀ prior, tables.entries.get? entry.id = some prior → prior.wallet = entry.wallet)
    (changes : ∀ kind status, ((tables.putWallet new).putEntry entry).sumOf old.id kind status =
      tables.sumOf old.id kind status + change kind status)
    (grows : 0 ≤ change .deposit .completed + change .refund .completed)
    (follows : tables.Accounts old → tables.credited old.id + (change .deposit .completed +
      change .refund .completed) ≤ Money.maxCents → Follows old new change) :
    ((tables.putWallet new).putEntry entry).Balanced := by
  intro other wallet found within
  simp only [putEntry_wallets, Tables.putWallet, Table.get?_put] at found
  split at found
  · cases found
    rw [id, credited, changes, changes] at within
    have accounts := balanced known (by unfold credited; omega)
    have moved := follows accounts (by unfold credited; omega)
    refine { current := ?_, held := ?_, held_nonneg := moved.held_nonneg, held_le := moved.held_le }
    · rw [id, changes, changes, changes, moved.current, accounts.current]
      omega
    · rw [id, changes, moved.held, accounts.held]
  · next apart =>
    have otherId : entry.wallet ≠ wallet.id := by
      intro equal
      have home := sound.wallet_injective known found (owned.symm.trans equal)
      rw [owner, sound.wallet_owner known] at apart
      exact apart home
    have untouched :
        ∀ kind status, ((tables.putWallet new).putEntry entry).sumOf wallet.id kind status =
        tables.sumOf wallet.id kind status := fun kind status => sumOf_putEntry_other otherId same
    have within' : tables.credited wallet.id ≤ Money.maxCents := by
      rwa [credited, untouched, untouched] at within
    exact (balanced found within').congr untouched

/-- A wallet moves together with a new entry. -/
theorem Balanced.postNew (balanced : tables.Balanced) (sound : tables.Sound) {user : UserId}
    {entry : Entry} (known : tables.wallets.get? user = some old) (id : new.id = old.id)
    (owner : new.owner = old.owner) (owned : entry.wallet = old.id)
    (fresh : tables.entries.get? entry.id = none)
    (follows : tables.Accounts old →
      tables.credited old.id + (entry.share old.id .deposit .completed +
      entry.share old.id .refund .completed) ≤ Money.maxCents →
      Follows old new fun kind status => entry.share old.id kind status) :
    ((tables.putWallet new).putEntry entry).Balanced := by
  refine balanced.post sound (fun kind status => entry.share old.id kind status) known id owner
    owned (Table.forall_of_none fresh) ?_ ?_ follows
  · intro kind status
    exact sumOf_putEntry_of_none fresh
  · exact Int.add_nonneg (entry.share_nonneg _ _ _) (entry.share_nonneg _ _ _)

/-- A wallet moves together with an entry that it has already; a pending one has not been
credited. -/
theorem Balanced.postKnown (balanced : tables.Balanced) (sound : tables.Sound) {user : UserId}
    {entry prior : Entry}
    (known : tables.wallets.get? user = some old) (id : new.id = old.id)
    (owner : new.owner = old.owner) (owned : entry.wallet = old.id)
    (present : tables.entries.get? entry.id = some prior) (same : prior.wallet = entry.wallet)
    (pending : prior.status = .pending)
    (follows : tables.Accounts old →
      tables.credited old.id +
          (entry.share old.id .deposit .completed - prior.share old.id .deposit .completed +
            (entry.share old.id .refund .completed - prior.share old.id .refund .completed)) ≤
        Money.maxCents →
      Follows old new fun kind status =>
        entry.share old.id kind status - prior.share old.id kind status) :
    ((tables.putWallet new).putEntry entry).Balanced := by
  have uncredited (kind : EntryKind) : prior.share old.id kind .completed = 0 := by
    simp [Entry.share, pending]
  refine balanced.post sound
    (fun kind status => entry.share old.id kind status - prior.share old.id kind status)
    known id owner owned ?_ ?_ ?_ follows
  · intro other otherAt
    cases present.symm.trans otherAt
    exact same
  · intro kind status
    have summed : ((tables.putWallet new).putEntry entry).sumOf old.id kind status =
        tables.sumOf old.id kind status - prior.share old.id kind status +
          entry.share old.id kind status :=
      sumOf_putEntry_of_some present
    omega
  · simp only [uncredited, Int.sub_zero]
    exact Int.add_nonneg (entry.share_nonneg _ _ _) (entry.share_nonneg _ _ _)

/-- What is not about wallets or entries has no part in any account. -/
theorem Balanced.congr {before after : Tables} (balanced : before.Balanced)
    (wallets : after.wallets = before.wallets) (entries : after.entries = before.entries) :
    after.Balanced := by
  have same (wallet : WalletId) (kind : EntryKind) (status : EntryStatus) :
      after.sumOf wallet kind status = before.sumOf wallet kind status := by
    rw [sumOf, entries, sumOf]
  intro user wallet found within
  rw [wallets] at found
  rw [credited, same, same] at within
  exact (balanced found within).congr (same wallet.id)

/-- An order that moves on in the same unit has no part in any account either. -/
theorem Balanced.putOrder {entry : Entry}
    (balanced : ((tables.putWallet new).putEntry entry).Balanced) (order : Order) :
    (((tables.putWallet new).putOrder order).putEntry entry).Balanced := by
  apply balanced.congr
  · rw [putEntry_wallets, putEntry_wallets]
    rfl
  · rw [putEntry_entries, putEntry_entries]
    rfl

/-- A wallet that has just been opened has no entries. -/
theorem Balanced.openWallet (balanced : tables.Balanced) (sound : tables.Sound) {stamp : Stamp}
    {user : UserId} (fresh : tables.owners.get? stamp.wallet = none) :
    (tables.putWallet (.empty stamp.wallet user stamp.now)).Balanced := by
  intro other wallet found within
  simp only [Tables.putWallet, Table.get?_put] at found
  split at found
  · cases found
    have unclaimed : ∀ entry ∈ tables.entries.values, entry.wallet ≠ stamp.wallet := by
      intro entry member claimed
      obtain ⟨owner, held, heldAt, heldId⟩ := sound.entry_wallet (sound.entry_of_mem member)
      have leads := sound.owner_iff.mpr ⟨held, heldAt, heldId.trans claimed⟩
      rw [fresh] at leads
      cases leads
    have nothing (kind : EntryKind) (status : EntryStatus) :
        (tables.putWallet (.empty stamp.wallet user stamp.now)).sumOf
          (Wallet.empty stamp.wallet user stamp.now).id kind status = 0 :=
      sumOf_of_none unclaimed
    exact
      { current := by rw [nothing, nothing, nothing]; rfl
        held := by rw [nothing]; rfl
        held_nonneg := Int.le_refl 0
        held_le := Int.le_refl 0 }
  · exact (balanced found within).congr fun _ _ => rfl

end Tables

/-- A wallet that is opened is empty, and notices move no money. -/
theorem Upkeep.balanced {stamp : Stamp} {tables after : Tables} (upkeep : Upkeep stamp tables after)
    (sound : tables.Sound) (balanced : tables.Balanced) : after.Balanced := by
  cases upkeep with
  | opened absent fresh => exact balanced.openWallet sound fresh
  | noted => exact balanced.congr rfl rfl

/-- A wallet that is put as it is changes nothing. -/
theorem Tables.Sound.putWallet_self {tables : Tables} (sound : tables.Sound) {user : UserId}
    {wallet : Wallet} (known : tables.wallets.get? user = some wallet) :
    tables.putWallet wallet = tables := by
  have home := sound.wallet_owner known
  have leads := sound.owner_iff.mpr ⟨wallet, known, rfl⟩
  rw [Tables.putWallet, home, Table.put_self known, Table.put_self leads]

/-- Every posting changes its wallet as much as its entries. -/
theorem Posting.balanced {stamp : Stamp} {tables after : Tables} {topUp : Option EntryId}
    (posting : Posting stamp tables topUp after) (sound : tables.Sound) (agreed : tables.Agreed)
    (balanced : tables.Balanced) : after.Balanced := by
  cases posting with
  | deposited known credit fresh =>
    obtain ⟨sameId, sameOwner⟩ := Wallet.same_of_credit credit
    refine balanced.postNew sound known sameId sameOwner rfl fresh ?_
    intro accounts within
    refine Tables.Follows.credit accounts credit within ?_ ?_ ?_ <;>
      simp [Entry.share, Entry.deposit]
  | toppedUp known fresh =>
    rw [← sound.putWallet_self known]
    refine balanced.postNew sound known rfl rfl rfl fresh ?_
    intro accounts within
    refine Tables.Follows.stay accounts ?_ ?_ ?_ <;> simp [Entry.share, Entry.pendingDeposit]
  | confirmed known owned named pending credit =>
    obtain ⟨sameId, sameOwner⟩ := Wallet.same_of_credit credit
    obtain ⟨_, present, carries⟩ := sound.entryForSession?_spec named
    have deposit := agreed.named present carries
    refine balanced.postKnown sound known sameId sameOwner owned.symm present rfl pending ?_
    intro accounts within
    refine Tables.Follows.credit accounts credit within ?_ ?_ ?_ <;>
      simp [Entry.share, Entry.confirm, deposit, pending, owned]
  | held ordered pending known reserve fresh =>
    obtain ⟨sameId, sameOwner⟩ := Wallet.same_of_reserve reserve
    refine Tables.Balanced.putOrder ?_ _
    refine balanced.postNew sound known sameId sameOwner rfl fresh ?_
    intro accounts within
    refine Tables.Follows.reserve accounts reserve within ?_ ?_ ?_ <;>
      simp [Entry.share, Entry.hold]
  | captured ordered unpaid known holds settle =>
    obtain ⟨sameId, sameOwner⟩ := Wallet.same_of_settle settle
    obtain ⟨_, present, _, hold, pending⟩ := sound.pendingHold?_spec holds
    obtain ⟨_, _, owned, _⟩ := agreed.hold_spec sound ordered known holds
    refine Tables.Balanced.putOrder ?_ _
    refine balanced.postKnown sound known sameId sameOwner owned.symm present rfl pending ?_
    intro accounts within
    refine Tables.Follows.settle accounts settle within ?_ ?_ ?_ <;>
      simp [Entry.share, Entry.capture, hold, pending, owned]
  | released ordered unpaid known holds release =>
    obtain ⟨sameId, sameOwner⟩ := Wallet.same_of_release release
    obtain ⟨_, present, _, hold, pending⟩ := sound.pendingHold?_spec holds
    obtain ⟨_, _, owned, _⟩ := agreed.hold_spec sound ordered known holds
    refine Tables.Balanced.putOrder ?_ _
    refine balanced.postKnown sound known sameId sameOwner owned.symm present rfl pending ?_
    intro accounts within
    refine Tables.Follows.release accounts release within ?_ ?_ ?_ <;>
      simp [Entry.share, Entry.cancel, hold, pending, owned]
  | refunded ordered paid known credit fresh =>
    obtain ⟨sameId, sameOwner⟩ := Wallet.same_of_credit credit
    refine Tables.Balanced.putOrder ?_ _
    refine balanced.postNew sound known sameId sameOwner rfl fresh ?_
    intro accounts within
    refine Tables.Follows.credit accounts credit within ?_ ?_ ?_ <;>
      simp [Entry.share, Entry.refund]
  | dropped | registered | prepared | completed => exact balanced.congr rfl rfl

end Ledger

end Prepaid
