import Prepaid.Proofs.Ledger.Agreement

/-!
# Where money comes from

A call changes what one user has, if it changes anything, and exactly one entry says
why. `Tables.Moves` names that entry and what its writing does to its owner's money;
of the entries that wait for a checkout session it follows that each is credited once
and stays completed from then on.
-/

namespace Prepaid

namespace Wallet

variable {wallet after : Wallet} {amount : Amount} {now : Instant}

/-- A credit adds its amount to what there is. -/
theorem current_of_credit (credit : wallet.credit amount now = .ok after) :
    wallet.current.add amount.money = .ok after.current := by
  obtain ⟨current, added, rfl⟩ := credit_eq_ok.mp credit
  exact added

/-- A reservation leaves what there is. -/
theorem current_of_reserve (reserve : wallet.reserve amount now = .ok after) :
    after.current = wallet.current := by
  obtain ⟨available, held, _, _, _, rfl⟩ := reserve_eq_ok.mp reserve
  rfl

/-- A release leaves what there is. -/
theorem current_of_release (release : wallet.release amount now = .ok after) :
    after.current = wallet.current := by
  obtain ⟨_, held, _, rfl⟩ := release_eq_ok.mp release
  rfl

/-- A settlement takes its amount from what there is. -/
theorem current_of_settle (settle : wallet.settle amount now = .ok after) :
    wallet.current.sub amount.money = .ok after.current := by
  obtain ⟨_, held, current, _, taken, rfl⟩ := settle_eq_ok.mp settle
  exact taken

end Wallet

namespace Ledger

namespace Tables

/-- What a user has; nothing for a user without a wallet. -/
def currentOf (user : UserId) (tables : Tables) : Money :=
  (tables.wallets.get? user).elim .zero Wallet.current

end Tables

/-- What writing an entry does to the money of its owner. `prior` is the entry as it was before. The
entry of a top-up that gets confirmed is marked. -/
inductive Effect (earlier later : Money) (prior : Option Entry) (entry : Entry) :
    Option EntryId → Prop where
  /-- A deposit or a refund is credited at once. -/
  | credit (new : prior = none) (nameless : entry.reference.session = none)
      (incoming : entry.kind ≠ .payment) (completed : entry.status = .completed)
      (added : earlier.add entry.amount.money = .ok later) : Effect earlier later prior entry none
  /-- A top-up is credited once its session is confirmed. -/
  | confirm {old : Entry} (known : prior = some old) (pending : old.status = .pending)
      (session : entry.reference.session = old.reference.session)
      (amount : entry.amount = old.amount) (waits : entry.reference.session.isSome)
      (incoming : entry.kind ≠ .payment) (completed : entry.status = .completed)
      (added : earlier.add entry.amount.money = .ok later) : Effect earlier later prior entry
        (some entry.id)
  /-- A hold becomes a payment. -/
  | spend {old : Entry} (known : prior = some old) (pending : old.status = .pending)
      (session : entry.reference.session = old.reference.session)
      (nameless : entry.reference.session = none) (payment : entry.kind = .payment)
      (completed : entry.status = .completed) (taken : earlier.sub entry.amount.money = .ok later) :
      Effect earlier later prior entry none
  /-- A top-up or a hold is recorded. -/
  | await (new : prior = none) (pending : entry.status = .pending) (same : later = earlier) :
      Effect earlier later prior entry none
  /-- A hold is given back. -/
  | free {old : Entry} (known : prior = some old)
      (session : entry.reference.session = old.reference.session)
      (nameless : entry.reference.session = none) (cancelled : entry.status = .cancelled)
      (same : later = earlier) : Effect earlier later prior entry none

/-- What a change does to the money of users: nothing, or to one of them what one entry says. -/
inductive Tables.Moves (before after : Tables) : Option EntryId → Prop where
  | still (entries : after.entries = before.entries)
      (money : ∀ user, after.currentOf user = before.currentOf user) : Moves before after none
  | moved {topUp : Option EntryId} {user : UserId} {wallet : Wallet} {entry : Entry}
      (home : after.wallets.get? user = some wallet) (owned : wallet.id = entry.wallet)
      (entries : after.entries = before.entries.put entry.id entry)
      (others : ∀ other, other ≠ user → after.currentOf other = before.currentOf other)
      (effect : Effect (before.currentOf user) (after.currentOf user)
        (before.entries.get? entry.id) entry topUp) : Moves before after topUp

/-! ## Postings move money -/

section Postings

variable {stamp : Stamp} {tables before after : Tables} {topUp : Option EntryId}

/-- A posting puts one wallet and one entry of it. -/
theorem Tables.Moves.of_put {user : UserId} {wallet : Wallet} (later : Wallet) {entry : Entry}
    (known : tables.wallets.get? user = some wallet)
    (wallets : after.wallets = tables.wallets.put user later)
    (entries : after.entries = tables.entries.put entry.id entry) (owned : later.id = entry.wallet)
    (effect : Effect wallet.current later.current (tables.entries.get? entry.id) entry topUp) :
    tables.Moves after topUp := by
  have earlier : tables.currentOf user = wallet.current := by simp [currentOf, known]
  have afterwards : after.currentOf user = later.current := by simp [currentOf, wallets]
  refine .moved (by rw [wallets, Table.get?_put, if_pos rfl]) owned entries ?_ ?_
  · intro other apart
    simp [currentOf, wallets, apart.symm]
  · rw [earlier, afterwards]
    exact effect

/-- A wallet that keeps its owner is put in its own place. -/
theorem Tables.Sound.putWallet_wallets (sound : tables.Sound) {user : UserId} {old new : Wallet}
    (known : tables.wallets.get? user = some old) (owner : new.owner = old.owner) :
    (tables.putWallet new).wallets = tables.wallets.put user new := by
  rw [Tables.putWallet, owner, sound.wallet_owner known]

/-- A posting moves at most the money of one user, as its entry says. -/
theorem Posting.moves (posting : Posting stamp tables topUp after) (sound : tables.Sound)
    (agreed : tables.Agreed) : tables.Moves after topUp := by
  cases posting with
  | @deposited user wallet credited amount known credit fresh =>
    obtain ⟨sameId, sameOwner⟩ := Wallet.same_of_credit credit
    have added := Wallet.current_of_credit credit
    refine .of_put credited known ?_ (Tables.putEntry_entries _ _) sameId
      (.credit fresh rfl (by simp [Entry.deposit]) rfl added)
    rw [Tables.putEntry_wallets, sound.putWallet_wallets known sameOwner]
  | @toppedUp user wallet amount session known fresh =>
    refine .of_put wallet known ?_ (Tables.putEntry_entries _ _) rfl (.await fresh rfl rfl)
    rw [Tables.putEntry_wallets, Table.put_self known]
  | @confirmed user wallet credited session entry payment known owned named pending credit =>
    obtain ⟨sameId, sameOwner⟩ := Wallet.same_of_credit credit
    have added := Wallet.current_of_credit credit
    obtain ⟨_, present, carries⟩ := sound.entryForSession?_spec named
    have deposit := agreed.named present carries
    have waits : entry.reference.session.isSome := by rw [carries]; rfl
    have incoming : (entry.confirm payment credited.current stamp.now).kind ≠ .payment := by
      simp [Entry.confirm, deposit]
    refine .of_put credited known ?_ (Tables.putEntry_entries _ _) (sameId.trans owned)
      (.confirm present pending rfl rfl waits incoming rfl added)
    rw [Tables.putEntry_wallets, sound.putWallet_wallets known sameOwner]
  | @held order wallet reserved ordered pending known reserve fresh =>
    obtain ⟨sameId, sameOwner⟩ := Wallet.same_of_reserve reserve
    refine .of_put reserved known ?_ (Tables.putEntry_entries _ _) sameId
      (.await fresh rfl (Wallet.current_of_reserve reserve))
    rw [Tables.putEntry_wallets]
    exact sound.putWallet_wallets known sameOwner
  | @captured order wallet settled entry ordered unpaid known holds settle =>
    obtain ⟨sameId, sameOwner⟩ := Wallet.same_of_settle settle
    obtain ⟨_, present, _, _, pending⟩ := sound.pendingHold?_spec holds
    obtain ⟨_, _, owned, nameless⟩ := agreed.hold_spec sound ordered known holds
    refine .of_put settled known ?_ (Tables.putEntry_entries _ _) (sameId.trans owned)
      (.spend present pending rfl nameless rfl rfl (Wallet.current_of_settle settle))
    rw [Tables.putEntry_wallets]
    exact sound.putWallet_wallets known sameOwner
  | @released order wallet freed entry ordered unpaid known holds release =>
    obtain ⟨sameId, sameOwner⟩ := Wallet.same_of_release release
    obtain ⟨_, present, _⟩ := sound.pendingHold?_spec holds
    obtain ⟨_, _, owned, nameless⟩ := agreed.hold_spec sound ordered known holds
    refine .of_put freed known ?_ (Tables.putEntry_entries _ _) (sameId.trans owned)
      (.free present rfl nameless rfl (Wallet.current_of_release release))
    rw [Tables.putEntry_wallets]
    exact sound.putWallet_wallets known sameOwner
  | @refunded order wallet credited ordered paid known credit fresh =>
    obtain ⟨sameId, sameOwner⟩ := Wallet.same_of_credit credit
    have added := Wallet.current_of_credit credit
    refine .of_put credited known ?_ (Tables.putEntry_entries _ _) sameId
      (.credit fresh rfl (by simp [Entry.refund]) rfl added)
    rw [Tables.putEntry_wallets]
    exact sound.putWallet_wallets known sameOwner
  | dropped | registered | prepared | completed => exact .still rfl fun _ => rfl

end Postings

/-! ## Changes move money -/

section Changes

variable {stamp : Stamp} {tables before after : Tables} {topUp : Option EntryId}

/-- Upkeep writes no entries. -/
theorem Upkeep.entries (upkeep : Upkeep stamp tables after) : after.entries = tables.entries := by
  cases upkeep <;> rfl

/-- A wallet that there is stays as it is when another one is opened. -/
theorem Upkeep.keepsWallet (upkeep : Upkeep stamp tables after) {user : UserId} {wallet : Wallet}
    (known : tables.wallets.get? user = some wallet) : after.wallets.get? user = some wallet := by
  cases upkeep with
  | @opened owner absent fresh =>
    have apart : owner ≠ user := by
      rintro rfl
      rw [absent] at known
      cases known
    simpa [Tables.putWallet, Wallet.empty, apart] using known
  | noted => exact known

/-- There is nothing in a wallet that is opened. -/
theorem Upkeep.currentOf (upkeep : Upkeep stamp tables after) (user : UserId) :
    after.currentOf user = tables.currentOf user := by
  cases upkeep with
  | @opened owner absent fresh =>
    simp only [Tables.currentOf, Tables.putWallet, Wallet.empty, Table.get?_put]
    split
    · next same =>
      subst same
      rw [absent]
      rfl
    · rfl
  | noted => rfl

/-- Any amount of upkeep writes no entries. -/
theorem Upkeeps.entries (upkeeps : Upkeeps stamp tables after) :
    after.entries = tables.entries := by
  induction upkeeps with
  | refl => rfl
  | tail _ upkeep ih => rw [upkeep.entries, ih]

/-- Upkeep moves no money. -/
theorem Upkeeps.currentOf (upkeeps : Upkeeps stamp tables after) (user : UserId) :
    after.currentOf user = tables.currentOf user := by
  induction upkeeps with
  | refl => rfl
  | tail _ upkeep ih => rw [upkeep.currentOf, ih]

/-- Upkeep leaves the wallets that are there. -/
theorem Upkeeps.keepsWallet (upkeeps : Upkeeps stamp tables after) {user : UserId} {wallet : Wallet}
    (known : tables.wallets.get? user = some wallet) : after.wallets.get? user = some wallet := by
  induction upkeeps with
  | refl => exact known
  | tail _ upkeep ih => exact upkeep.keepsWallet ih

/-- A change moves at most the money of one user, as its entry says. -/
theorem Change.moves (change : Change stamp tables topUp after) (sound : tables.Sound)
    (agreed : tables.Agreed) : tables.Moves after topUp := by
  cases change with
  | idle upkeeps => exact .still upkeeps.entries upkeeps.currentOf
  | @posted first second _ _ opening posting closing =>
    have moves : first.Moves second topUp :=
      posting.moves (opening.keeps Upkeep.sound sound) (opening.keeps Upkeep.agreed agreed)
    cases moves with
    | still entries money =>
      refine .still ?_ ?_
      · rw [closing.entries, entries, opening.entries]
      · intro user
        rw [closing.currentOf, money, opening.currentOf]
    | moved home owned entries others effect =>
      refine .moved (closing.keepsWallet home) owned ?_ ?_ ?_
      · rw [closing.entries, entries, opening.entries]
      · intro other apart
        rw [closing.currentOf, others other apart, opening.currentOf]
      · rw [closing.currentOf, ← opening.currentOf, ← opening.entries]
        exact effect

end Changes

/-! ## The way of a top-up -/

/-- How far an entry has come that waits for a checkout session. -/
def Tables.topUpStatus (id : EntryId) (tables : Tables) : Option EntryStatus :=
  (tables.entries.get? id).bind fun entry => entry.reference.session.map fun _ => entry.status

/-- A change credits a top-up: it completes the entry, and its owner has so much more. -/
structure Tables.Credits (id : EntryId) (before after : Tables) : Prop where
  pending : before.topUpStatus id = some .pending
  completed : after.topUpStatus id = some .completed
  credited : ∃ old entry user wallet, before.entries.get? id = some old ∧
    after.entries.get? id = some entry ∧ entry.amount = old.amount ∧
    after.wallets.get? user = some wallet ∧ wallet.id = entry.wallet ∧
    (before.currentOf user).add old.amount.money = .ok (after.currentOf user)

/-- What a change does to a top-up. The change is marked with the one that it confirms. -/
inductive Progress (id : EntryId) : Option EntryId → Option EntryStatus → Option EntryStatus →
    Prop where
  | kept {topUp : Option EntryId} {status : Option EntryStatus} (other : topUp ≠ some id) :
      Progress id topUp status status
  | opened {topUp : Option EntryId} (other : topUp ≠ some id) : Progress id topUp none
    (some .pending)
  | confirmed : Progress id (some id) (some .pending) (some .completed)

section Progress

variable {before after : Tables} {topUp : Option EntryId}

/-- Money that moves brings a top-up on only if it is marked. -/
theorem Tables.Moves.progress (moves : before.Moves after topUp) (id : EntryId) :
    Progress id topUp (before.topUpStatus id) (after.topUpStatus id) := by
  cases moves with
  | still entries money =>
    simp only [topUpStatus, entries]
    exact .kept (by simp)
  | @moved _ user wallet entry home owned entries others effect =>
    simp only [topUpStatus, entries, Table.get?_put]
    split
    · next same =>
      subst same
      cases effect with
      | credit new nameless => simpa [new, nameless] using Progress.kept (by simp)
      | confirm known pending session amount waits incoming completed =>
        obtain ⟨name, carries⟩ := Option.isSome_iff_exists.mp waits
        rw [carries] at session
        simpa [known, pending, ← session, carries, completed] using Progress.confirmed
      | spend known pending session nameless =>
        rw [nameless] at session
        simpa [known, ← session, nameless] using Progress.kept (by simp)
      | await new pending =>
        cases carries : entry.reference.session with
        | none => simpa [new, carries] using Progress.kept (by simp)
        | some name => simpa [new, carries, pending] using Progress.opened (by simp)
      | free known session nameless =>
        rw [nameless] at session
        simpa [known, ← session, nameless] using Progress.kept (by simp)
    · next apart =>
      refine .kept ?_
      cases effect <;> simp [apart]

/-- A change credits exactly the top-up that it is marked with. -/
theorem Tables.Moves.credits_iff (moves : before.Moves after topUp) (id : EntryId) :
    before.Credits id after ↔ topUp = some id := by
  have progress := moves.progress id
  constructor
  · intro credits
    rw [credits.pending, credits.completed] at progress
    cases progress
    rfl
  · rintro rfl
    cases moves with
    | @moved _ user wallet entry home owned entries others effect =>
    cases effect with
    | @confirm old known pending session amount waits incoming completed added =>
      have written : after.entries.get? entry.id = some entry := by
        rw [entries, Table.get?_put, if_pos rfl]
      obtain ⟨name, carries⟩ := Option.isSome_iff_exists.mp waits
      rw [amount] at added
      rw [carries] at session
      exact {
        pending := by simp [topUpStatus, known, ← session, pending]
        completed := by simp [topUpStatus, written, carries, completed]
        credited := ⟨old, entry, user, wallet, known, written, amount, home, owned, added⟩ }

/-- A top-up is completed after a change if it was before, or if the change is marked with it. -/
theorem Tables.Moves.completed_iff (moves : before.Moves after topUp) (id : EntryId) :
    after.topUpStatus id = some .completed ↔
      before.topUpStatus id = some .completed ∨ topUp = some id := by
  have progress := moves.progress id
  generalize before.topUpStatus id = earlier at progress
  generalize after.topUpStatus id = later at progress
  cases progress with
  | kept other => simp [other]
  | opened other => simp [other]
  | confirmed => simp

/-- One completed entry of a user says why the user has more than before, or less. -/
structure Tables.Explains (entry : Entry) (user : UserId) (before after : Tables) : Prop where
  written : after.entries = before.entries.put entry.id entry
  completed : entry.status = .completed
  owned : ∃ wallet, after.wallets.get? user = some wallet ∧ wallet.id = entry.wallet
  moved : (if entry.kind = .payment then (before.currentOf user).sub entry.amount.money
    else (before.currentOf user).add entry.amount.money) = .ok (after.currentOf user)

/-- No user has more or less after a change unless one entry says so, and if that is a top-up then
the change credits it. -/
theorem Tables.Moves.explained (moves : before.Moves after topUp) {user : UserId}
    (differs : after.currentOf user ≠ before.currentOf user) :
    ∃ entry, before.Explains entry user after ∧
      (entry.reference.session.isSome → topUp = some entry.id) := by
  cases moves with
  | still entries money => exact (differs (money user)).elim
  | @moved _ owner wallet entry home owned entries others effect =>
    obtain rfl : user = owner := by
      by_contra apart
      exact differs (others user apart)
    cases effect with
    | credit new nameless incoming completed added =>
      refine ⟨entry, ⟨entries, completed, ⟨wallet, home, owned⟩, by rw [if_neg incoming, added]⟩,
        ?_⟩
      simp [nameless]
    | confirm known pending session amount waits incoming completed added =>
      exact ⟨entry, ⟨entries, completed, ⟨wallet, home, owned⟩, by rw [if_neg incoming, added]⟩,
        fun _ => rfl⟩
    | spend known pending session nameless payment completed taken =>
      refine ⟨entry, ⟨entries, completed, ⟨wallet, home, owned⟩, by rw [if_pos payment, taken]⟩, ?_⟩
      simp [nameless]
    | await new pending same => exact (differs same).elim
    | free known session nameless cancelled same => exact (differs same).elim

end Progress

end Ledger

end Prepaid
