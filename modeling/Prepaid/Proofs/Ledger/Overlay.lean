import Prepaid.Proofs.Ledger.Keyed
import Prepaid.Proofs.Ledger.Ruling

/-!
# Units of work as overlays

A unit of work asks for rows and puts versions of rows, in any order. What it is answered
is what lookups would find if every version had been written when it was put, and the
batch that it commits writes just these versions, each row once. A unit does not look
up sessions and identifiers of wallets among its own rows, and finds holds by a search
of its own; that this comes to the same rests on the keys that rows keep, and on there
being one hold of an order at most. Sessions and identifiers of wallets have to lead to
the rows that they lead to in the store, since a unit looks no further.
-/

namespace Prepaid.Ledger

/-! ## Calls -/

/-- A call of a unit of work, which asks for a row or puts a version of one. -/
inductive UnitCall where
  | order (id : OrderId)
  | wallet (owner : UserId) (stamp : Stamp)
  | walletById (id : WalletId) (stamp : Stamp)
  | entry (id : EntryId)
  | sessionEntry (session : String)
  | pendingHold (order : OrderId)
  | put (version : Version)

/-- What a call hands back. -/
inductive UnitAnswer where
  | order (order : Order)
  | wallet (wallet : Wallet)
  | entry (entry : Entry)
  | hold (hold : Option Entry)
  | done

/-- Puts a version of a row. -/
def Work.put : Version → Work Unit
  | .order order => Work.putOrder order
  | .wallet wallet => Work.putWallet wallet
  | .entry entry => Work.putEntry entry
  | .notice record => Work.putNotice record

/-- A step that may fail. The unit goes on then as it was. -/
def Work.attempt {α : Type} (work : Work α) : Work (Except Failure α) := fun draft =>
  match work.run draft with
  | .ok (value, after) => .ok (.ok value, after)
  | .error failure => .ok (.error failure, draft)

namespace UnitCall

/-- Makes a call in a unit. -/
def perform : UnitCall → Work UnitAnswer
  | .order id => .order <$> Work.order id
  | .wallet owner stamp => .wallet <$> Work.wallet owner stamp
  | .walletById id stamp => .wallet <$> Work.walletById id stamp
  | .entry id => .entry <$> Work.entry id
  | .sessionEntry session => .entry <$> Work.sessionEntry session
  | .pendingHold id => .hold <$> Work.pendingHold? id
  | .put version => (fun _ => .done) <$> Work.put version

/-- Makes calls in one unit, whether they fail or not. -/
def performAll (calls : List UnitCall) : Work (List (Except Failure UnitAnswer)) :=
  calls.mapM fun call => call.perform.attempt

/-! What the calls come to if each looks into the tables itself, and puts into them at once. -/

/-- A lookup that may not find anything. -/
def found {α : Type} (rejection : Rejection) (answer : α → UnitAnswer) (row : Option α) :
    Except Failure UnitAnswer :=
  row.elim (.error (.rejected rejection)) fun row => .ok (answer row)

/-- What a call hands back if it looks into the tables itself. -/
def answer (tables : Tables) : UnitCall → Except Failure UnitAnswer
  | .order id => found (.orderNotFound id) .order (tables.orders.get? id)
  | .wallet owner stamp => .ok (.wallet (tables.walletOf stamp owner))
  | .walletById id _ => found (.storage (.missingWallet id)) .wallet (tables.walletById? id)
  | .entry id => found (.entryNotFound id) .entry (tables.entries.get? id)
  | .sessionEntry session =>
    found (.sessionNotFound session) .entry (tables.entryForSession? session)
  | .pendingHold id => .ok (.hold (tables.pendingHold? id))
  | .put _ => .ok .done

/-- What a call puts. The wallet of a user who has none is put when it is asked for. -/
def put? (tables : Tables) : UnitCall → Option Version
  | .wallet owner stamp =>
    if (tables.wallets.get? owner).isNone then some (.wallet (.empty stamp.wallet owner stamp.now))
      else none
  | .put version => some version
  | .order _ | .walletById _ _ | .entry _ | .sessionEntry _ | .pendingHold _ => none

/-- Whether a call keeps to what a store is like: what it puts fits, and it asks for no identifiers
of wallets and for no sessions but those of rows in the store. -/
def Orderly (store : Tables) (before : List Version) (call : UnitCall) : Prop :=
  (∀ version ∈ call.put? (store.putAll before), (store.putAll before).Fits version) ∧
    match call with
    | .walletById id _ => (store.walletById? id).isSome
    | .sessionEntry session => (store.entryForSession? session).isSome
    | _ => True

/-- Whether the identifier of a wallet or the session that a call asks for still leads to the row
that it leads to in the store, and no wallet that the call puts has the identifier of another one
that has been put. -/
def Steady (store : Tables) (before : List Version) (call : UnitCall) : Prop :=
  (∀ version ∈ call.put? (store.putAll before), ∀ other ∈ before, version.Apart other) ∧
    match call with
    | .walletById id _ =>
      ((store.putAll before).walletById? id).map Wallet.owner =
        (store.walletById? id).map Wallet.owner
    | .sessionEntry session =>
      ((store.putAll before).entryForSession? session).map Entry.id =
        (store.entryForSession? session).map Entry.id
    | _ => True

instance (store : Tables) (before : List Version) : DecidablePred (Orderly store before)
  | .walletById _ _ | .sessionEntry _ => inferInstanceAs (Decidable (_ ∧ _ = true))
  | .order _ | .wallet _ _ | .entry _ | .pendingHold _ | .put _ =>
    inferInstanceAs (Decidable (_ ∧ True))

instance (store : Tables) (before : List Version) : DecidablePred (Steady store before)
  | .walletById _ _ | .sessionEntry _ => inferInstanceAs (Decidable (_ ∧ _ = _))
  | .order _ | .wallet _ _ | .entry _ | .pendingHold _ | .put _ =>
    inferInstanceAs (Decidable (_ ∧ True))

/-! Calls that are made one after another. -/

/-- What calls hand back if each looks into the tables itself. -/
def answers (tables : Tables) : List UnitCall → List (Except Failure UnitAnswer)
  | [] => []
  | call :: calls => call.answer tables :: answers (tables.putAll (call.put? tables).toList) calls

/-- The versions that calls put, with those that come of asking for users who have no wallet. -/
def puts (tables : Tables) : List UnitCall → List Version
  | [] => []
  | call :: calls =>
    (call.put? tables).toList ++ puts (tables.putAll (call.put? tables).toList) calls

/-- Whether a condition holds of each call, with the versions that have been put before it. -/
def Throughout (condition : List Version → UnitCall → Prop) (store : Tables) :
    List Version → List UnitCall → Prop
  | _, [] => True
  | before, call :: calls =>
    condition before call ∧
      Throughout condition store (before ++ (call.put? (store.putAll before)).toList) calls

instance decidableThroughout (condition : List Version → UnitCall → Prop)
    [∀ before, DecidablePred (condition before)] (store : Tables) :
    (before : List Version) → (calls : List UnitCall) →
      Decidable (Throughout condition store before calls)
  | _, [] => inferInstanceAs (Decidable True)
  | before, call :: calls =>
    have := decidableThroughout condition store
      (before ++ (call.put? (store.putAll before)).toList) calls
    inferInstanceAs (Decidable (_ ∧ _))

end UnitCall

/-! ## What a unit sees -/

namespace Draft

/-- A unit puts a version. -/
def put (version : Version) (draft : Draft) : Draft :=
  match version with
  | .order order => draft.putOrder order
  | .wallet wallet => draft.putWallet wallet
  | .entry entry => draft.putEntry entry
  | .notice record => draft.putNotice record

section Reads

variable {draft : Draft}

/-- An order that is kept is read from the draft. -/
@[simp] theorem orderAt?_keepOrder (key id : OrderId) (order : Order) :
    (draft.keepOrder key order).orderAt? id =
      if key = id then some order else draft.orderAt? id := by
  simp only [orderAt?, keepOrder, Table.get?_put]
  split <;> rfl

/-- A wallet that is kept is read from the draft. -/
@[simp] theorem walletAt?_keepWallet (key owner : UserId) (wallet : Wallet) :
    (draft.keepWallet key wallet).walletAt? owner =
      if key = owner then some wallet else draft.walletAt? owner := by
  simp only [walletAt?, keepWallet, Table.get?_put]
  split <;> rfl

/-- An entry that is kept is read from the draft. -/
@[simp] theorem entryAt?_keepEntry (key id : EntryId) (entry : Entry) :
    (draft.keepEntry key entry).entryAt? id =
      if key = id then some entry else draft.entryAt? id := by
  simp only [entryAt?, keepEntry, Table.get?_put]
  split <;> rfl

/-- What is put is in the batch. -/
theorem batch_put (version : Version) : (draft.put version).batch = draft.batch.put version := by
  cases version <;> rfl

end Reads

/-- What a unit of work has come to that has put versions on top of a store: it reads each row in
its last version, and its batch has the last version of each row that it has put. -/
structure Overlays (store : Tables) (puts : List Version) (draft : Draft) : Prop where
  base : draft.base = store
  order : ∀ id, draft.orderAt? id = (store.putAll puts).orders.get? id
  wallet : ∀ owner, draft.walletAt? owner = (store.putAll puts).wallets.get? owner
  entry : ∀ id, draft.entryAt? id = (store.putAll puts).entries.get? id
  last : ∀ row, draft.batch.get? row = puts.reverse.find? (·.row = row)
  written : store.write draft.batch = store.putAll puts

namespace Overlays

variable {store : Tables} {puts : List Version} {draft : Draft}

/-- A unit begins with nothing on top of the store. -/
theorem start (store : Tables) : Overlays store [] { base := store } where
  base := rfl
  order _ := rfl
  wallet _ := rfl
  entry _ := rfl
  last row := Batch.get?_empty row
  written := rfl

/-- Reading an order puts nothing. -/
theorem keepOrder (overlays : draft.Overlays store puts) {id : OrderId} {order : Order}
    (known : (store.putAll puts).orders.get? id = some order) :
    (draft.keepOrder id order).Overlays store puts where
  base := overlays.base
  order := by
    intro wanted
    rw [orderAt?_keepOrder, overlays.order]
    split
    · next same => rw [← same, known]
    · rfl
  wallet := overlays.wallet
  entry := overlays.entry
  last := overlays.last
  written := overlays.written

/-- Reading a wallet puts nothing. -/
theorem keepWallet (overlays : draft.Overlays store puts) {owner : UserId} {wallet : Wallet}
    (known : (store.putAll puts).wallets.get? owner = some wallet) :
    (draft.keepWallet owner wallet).Overlays store puts where
  base := overlays.base
  order := overlays.order
  wallet := by
    intro wanted
    rw [walletAt?_keepWallet, overlays.wallet]
    split
    · next same => rw [← same, known]
    · rfl
  entry := overlays.entry
  last := overlays.last
  written := overlays.written

/-- Reading an entry puts nothing. -/
theorem keepEntry (overlays : draft.Overlays store puts) {id : EntryId} {entry : Entry}
    (known : (store.putAll puts).entries.get? id = some entry) :
    (draft.keepEntry id entry).Overlays store puts where
  base := overlays.base
  order := overlays.order
  wallet := overlays.wallet
  entry := by
    intro wanted
    rw [entryAt?_keepEntry, overlays.entry]
    split
    · next same => rw [← same, known]
    · rfl
  last := overlays.last
  written := overlays.written

/-- Rows of the batch stand under their keys. -/
theorem named (overlays : draft.Overlays store puts) : draft.batch.Named := by
  intro row version found
  rw [overlays.last] at found
  simpa using List.find?_some found

/-- What is in the batch is what the overlay has. -/
theorem visible (overlays : draft.Overlays store puts) {row : Row} {version : Version}
    (found : draft.batch.get? row = some version) :
    (store.putAll puts).rows.get? row = some version := by
  rw [Tables.get?_putAll, ← overlays.last, found, Option.some_or]

/-- What is in the batch has been put. -/
theorem mem_puts (overlays : draft.Overlays store puts) {version : Version}
    (member : version ∈ draft.batch.versions) :
    version ∈ puts := by
  have found := overlays.named.mem_versions.mp member
  rw [overlays.last] at found
  exact List.mem_reverse.mp (List.mem_of_find?_eq_some found)

/-- A version that fits is seen on top, and gets into the batch in the place of the one before. -/
theorem put (overlays : draft.Overlays store puts) {version : Version}
    (fits : (store.putAll puts).Fits version) (apart : ∀ other ∈ puts, version.Apart other) :
    (draft.put version).Overlays store (puts ++ [version]) where
  base := by cases version <;> exact overlays.base
  order := by
    intro id
    rw [Tables.putAll_concat]
    cases version with
    | order order =>
      simp only [Tables.put, Tables.putOrder, Table.get?_put, ← overlays.order]
      exact orderAt?_keepOrder _ _ _
    | entry entry =>
      rw [Tables.put, Tables.putEntry_orders]
      exact overlays.order id
    | wallet | notice => exact overlays.order id
  wallet := by
    intro owner
    rw [Tables.putAll_concat]
    cases version with
    | wallet wallet =>
      simp only [Tables.put, Tables.putWallet, Table.get?_put, ← overlays.wallet]
      exact walletAt?_keepWallet _ _ _
    | entry entry =>
      rw [Tables.put, Tables.putEntry_wallets]
      exact overlays.wallet owner
    | order | notice => exact overlays.wallet owner
  entry := by
    intro id
    rw [Tables.putAll_concat]
    cases version with
    | entry entry =>
      rw [Tables.put, Tables.putEntry_entries, Table.get?_put, ← overlays.entry]
      exact entryAt?_keepEntry _ _ _
    | order | wallet | notice => exact overlays.entry id
  last := by
    intro row
    rw [batch_put, Batch.get?_put, overlays.last, List.reverse_append, List.reverse_singleton,
      List.singleton_append, List.find?_cons]
    by_cases same : version.row = row <;> simp [same]
  written := by
    rw [batch_put, Tables.write_put overlays.named, overlays.written, Tables.putAll_concat]
    · intro old found
      exact fits.sameKeys (overlays.visible found) (overlays.named _ _ found)
    · intro other member elsewhere
      exact (apart other (overlays.mem_puts member)).otherKind_or_beside elsewhere

/-- The search for a hold among the rows of the unit and those of the store finds what the overlay
has. -/
theorem pendingHold?_eq (overlays : draft.Overlays store puts) (keyed : store.Keyed)
    (single : store.OneHold) (onTop : (store.putAll puts).Keyed)
    (singleOnTop : (store.putAll puts).OneHold) (order : OrderId) :
    draft.pendingHold? order = (store.putAll puts).pendingHold? order := by
  have kept {id : EntryId} {entry : Entry} (found : draft.kept.entries.get? id = some entry) :
      (store.putAll puts).entries.get? id = some entry := by
    rw [← overlays.entry, entryAt?, found, Option.some_or]
  have unkept {id : EntryId} (missing : draft.kept.entries.get? id = none) :
      (store.putAll puts).entries.get? id = store.entries.get? id := by
    rw [← overlays.entry, entryAt?, missing, Option.none_or, overlays.base]
  have spec {held : Entry}
      (found : draft.kept.entries.values.find?
        (fun entry => entry.order = some order && entry.isPendingHold) = some held) :
      (store.putAll puts).HasHold order held := by
    obtain ⟨id, known⟩ := Table.exists_key (List.mem_of_find?_eq_some found)
    have holds := List.find?_some found
    simp only [Bool.and_eq_true, decide_eq_true_eq] at holds
    refine ⟨?_, holds⟩
    rw [onTop.entry_id (kept known), kept known]
  ext entry
  rw [onTop.pendingHold?_eq_some_iff singleOnTop, Draft.pendingHold?, overlays.base]
  constructor
  · intro found
    rcases Option.or_eq_some_iff.mp found with known | ⟨_, behind⟩
    · exact spec known
    · obtain ⟨held, hidden⟩ := Option.filter_eq_some_iff.mp behind
      obtain ⟨known, holds⟩ := (keyed.pendingHold?_eq_some_iff single).mp held
      have missing : draft.kept.entries.get? entry.id = none := by
        simpa [Table.contains] using hidden
      exact ⟨(unkept missing).trans known, holds⟩
  · intro has
    cases known : draft.kept.entries.values.find?
      (fun entry => entry.order = some order && entry.isPendingHold) with
    | some held => rw [Option.some_or, singleOnTop.unique (spec known) has]
    | none =>
      -- The store has the hold, and the unit has not come across it yet.
      have missing : draft.kept.entries.get? entry.id = none := by
        refine Option.eq_none_iff_forall_ne_some.mpr fun held found => ?_
        have same := (kept found).symm.trans has.1
        cases same
        simpa [has.2.1, has.2.2] using List.find?_eq_none.mp known entry (Table.mem_values found)
      have held : store.HasHold order entry := ⟨(unkept missing).symm.trans has.1, has.2⟩
      rw [(keyed.pendingHold?_eq_some_iff single).mpr held]
      simp [Table.contains, missing]

end Overlays

end Draft

/-! ## What calls come to -/

namespace Work

variable {α : Type} {draft after : Draft}

/-- A step that succeeds goes on from where it has come to. -/
theorem attempt_of_ok {work : Work α} {value : α} (run : work.run draft = .ok (value, after)) :
    work.attempt.run draft = .ok (.ok value, after) := by
  have outcome : work draft = .ok (value, after) := run
  change attempt work draft = _
  rw [attempt, StateT.run, outcome]

/-- A step that fails goes on from where it began. -/
theorem attempt_of_error {work : Work α} {failure : Failure}
    (run : work.run draft = .error failure) :
    work.attempt.run draft = .ok (.error failure, draft) := by
  have outcome : work draft = .error failure := run
  change attempt work draft = _
  rw [attempt, StateT.run, outcome]

/-- Putting a version always succeeds. -/
theorem put_run (version : Version) : (put version).run draft = .ok ((), draft.put version) := by
  cases version <;> rfl

end Work

namespace UnitCall

variable {store tables : Tables} {before : List Version} {draft : Draft}

/-- A call in a unit comes to what it comes to in the overlay: it gets the answer from there, and
the unit sees there what it puts. -/
def Tracks (store : Tables) (before : List Version) (draft : Draft) (call : UnitCall) : Prop :=
  ∃ after, call.perform.attempt.run draft = .ok (call.answer (store.putAll before), after) ∧
    after.Overlays store (before ++ (call.put? (store.putAll before)).toList)

/-- A call that puts nothing tracks the overlay if its answer comes from there. -/
theorem Tracks.of_read {call : UnitCall} {after : Draft}
    (run : call.perform.attempt.run draft = .ok (call.answer (store.putAll before), after))
    (overlays : after.Overlays store before) (idle : call.put? (store.putAll before) = none) :
    call.Tracks store before draft := by
  refine ⟨after, run, ?_⟩
  rwa [idle, Option.toList_none, List.append_nil]

/-- A call that puts a version tracks the overlay if its version fits and leaves lookups as they
are. -/
theorem Tracks.of_put (overlays : draft.Overlays store before) {call : UnitCall} {version : Version}
    (given : call.put? (store.putAll before) = some version) (orderly : call.Orderly store before)
    (steady : call.Steady store before)
    (run : call.perform.attempt.run draft =
      .ok (call.answer (store.putAll before), draft.put version)) :
    call.Tracks store before draft := by
  refine ⟨draft.put version, run, ?_⟩
  rw [given, Option.toList_some]
  exact overlays.put (orderly.1 version given) (steady.1 version given)

/-- One call is answered as by the overlay, and puts what it would put there. -/
theorem perform_run (keyed : store.Keyed) (single : store.OneHold)
    (overlays : draft.Overlays store before) (onTop : (store.putAll before).Keyed)
    (singleOnTop : (store.putAll before).OneHold) {call : UnitCall}
    (orderly : call.Orderly store before) (steady : call.Steady store before) :
    call.Tracks store before draft := by
  cases call with
  | order id =>
    have looked := overlays.order id
    cases known : (store.putAll before).orders.get? id with
    | none =>
      have missing := Work.order_of_none (looked.trans known)
      refine .of_read ?_ overlays rfl
      rw [answer, known]
      exact Work.attempt_of_error (Work.map_of_error missing _)
    | some order =>
      have run := Work.order_eq_ok.mpr ⟨looked.trans known, rfl⟩
      refine .of_read ?_ (overlays.keepOrder known) rfl
      rw [answer, known]
      exact Work.attempt_of_ok (Work.map_of_ok run _)
  | wallet owner stamp =>
    have looked := overlays.wallet owner
    cases known : (store.putAll before).wallets.get? owner with
    | none =>
      have run : (Work.wallet owner stamp).run draft =
          .ok (.empty stamp.wallet owner stamp.now,
            draft.putWallet (.empty stamp.wallet owner stamp.now)) :=
        Work.wallet_eq_ok.mpr (.inr ⟨looked.trans known, rfl, rfl⟩)
      have opened : (wallet owner stamp).put? (store.putAll before) =
          some (.wallet (.empty stamp.wallet owner stamp.now)) := by
        rw [put?, known, if_pos Option.isNone_none]
      refine .of_put overlays opened orderly steady ?_
      rw [answer, Tables.walletOf, known]
      exact Work.attempt_of_ok (Work.map_of_ok run _)
    | some wallet =>
      have run : (Work.wallet owner stamp).run draft =
          .ok (wallet, draft.keepWallet owner wallet) :=
        Work.wallet_eq_ok.mpr (.inl ⟨looked.trans known, rfl⟩)
      refine .of_read ?_ (overlays.keepWallet known) ?_
      · rw [answer, Tables.walletOf, known]
        exact Work.attempt_of_ok (Work.map_of_ok run _)
      · rw [put?, known, if_neg (by simp)]
  | walletById id stamp =>
    obtain ⟨known, located⟩ := Option.isSome_iff_exists.mp orderly.2
    have same : ((store.putAll before).walletById? id).map Wallet.owner =
        (store.walletById? id).map Wallet.owner := steady.2
    rw [located] at same
    obtain ⟨held, found, owner⟩ := Option.map_eq_some_iff.mp same
    obtain ⟨user, _, there⟩ := Option.bind_eq_some_iff.mp found
    rw [← onTop.wallet_owner there, owner] at there
    have looked := (overlays.wallet known.owner).trans there
    have run : (Work.walletById id stamp).run draft =
        .ok (held, draft.keepWallet known.owner held) :=
      Work.walletById_eq_ok.mpr
        ⟨known, overlays.base ▸ located, Work.wallet_eq_ok.mpr (.inl ⟨looked, rfl⟩)⟩
    refine .of_read ?_ (overlays.keepWallet there) rfl
    rw [answer, found]
    exact Work.attempt_of_ok (Work.map_of_ok run _)
  | entry id =>
    have looked := overlays.entry id
    cases known : (store.putAll before).entries.get? id with
    | none =>
      have missing := Work.entry_of_none (looked.trans known)
      refine .of_read ?_ overlays rfl
      rw [answer, known]
      exact Work.attempt_of_error (Work.map_of_error missing _)
    | some entry =>
      have run := Work.entry_eq_ok.mpr ⟨looked.trans known, rfl⟩
      refine .of_read ?_ (overlays.keepEntry known) rfl
      rw [answer, known]
      exact Work.attempt_of_ok (Work.map_of_ok run _)
  | sessionEntry session =>
    obtain ⟨known, located⟩ := Option.isSome_iff_exists.mp orderly.2
    have same : ((store.putAll before).entryForSession? session).map Entry.id =
        (store.entryForSession? session).map Entry.id := steady.2
    rw [located] at same
    obtain ⟨held, found, id⟩ := Option.map_eq_some_iff.mp same
    obtain ⟨key, _, there⟩ := Option.bind_eq_some_iff.mp found
    rw [← onTop.entry_id there, id] at there
    have looked := (overlays.entry known.id).trans there
    have run := Work.sessionEntry_eq_ok.mpr ⟨known, overlays.base ▸ located, looked, rfl⟩
    refine .of_read ?_ (overlays.keepEntry there) rfl
    rw [answer, found]
    exact Work.attempt_of_ok (Work.map_of_ok run _)
  | pendingHold order =>
    have run := Work.pendingHold?_eq_ok.mpr
      ⟨overlays.pendingHold?_eq keyed single onTop singleOnTop order, rfl⟩
    refine .of_read (Work.attempt_of_ok (Work.map_of_ok run _)) ?_ rfl
    cases found : (store.putAll before).pendingHold? order with
    | none => exact overlays
    | some entry =>
      exact overlays.keepEntry ((onTop.pendingHold?_eq_some_iff singleOnTop).mp found).1
  | put version =>
    exact .of_put overlays rfl orderly steady
      (Work.attempt_of_ok (Work.map_of_ok (Work.put_run version) _))

/-- The overlay is of the kind that stores are of. -/
theorem Orderly.keyed (onTop : (store.putAll before).Keyed)
    (singleOnTop : (store.putAll before).OneHold) {call : UnitCall}
    (orderly : call.Orderly store before) :
    (store.putAll (before ++ (call.put? (store.putAll before)).toList)).Keyed ∧
      (store.putAll (before ++ (call.put? (store.putAll before)).toList)).OneHold := by
  rw [Tables.putAll_append]
  cases given : call.put? (store.putAll before) with
  | none => exact ⟨onTop, singleOnTop⟩
  | some version =>
    exact ⟨onTop.put (orderly.1 version given), singleOnTop.put (orderly.1 version given)⟩

/-- Calls are answered as by the overlay that grows with each of them. -/
theorem performAll_run (keyed : store.Keyed) (single : store.OneHold)
    (overlays : draft.Overlays store before) (onTop : (store.putAll before).Keyed)
    (singleOnTop : (store.putAll before).OneHold) {calls : List UnitCall}
    (orderly : Throughout (Orderly store) store before calls)
    (steady : Throughout (Steady store) store before calls) :
    ∃ after, (performAll calls).run draft = .ok (answers (store.putAll before) calls, after) ∧
      after.Overlays store (before ++ puts (store.putAll before) calls) ∧
      (store.putAll (before ++ puts (store.putAll before) calls)).Keyed ∧
      (store.putAll (before ++ puts (store.putAll before) calls)).OneHold := by
  induction calls generalizing before draft with
  | nil =>
    rw [puts, List.append_nil]
    exact ⟨draft, rfl, overlays, onTop, singleOnTop⟩
  | cons call calls ih =>
    obtain ⟨middle, run, seen⟩ :=
      perform_run keyed single overlays onTop singleOnTop orderly.1 steady.1
    obtain ⟨next, singleNext⟩ := orderly.1.keyed onTop singleOnTop
    have grown : store.putAll (before ++ (call.put? (store.putAll before)).toList) =
        (store.putAll before).putAll (call.put? (store.putAll before)).toList :=
      Tables.putAll_append _ _
    obtain ⟨after, onward, ends, last⟩ := ih seen next singleNext orderly.2 steady.2
    rw [grown, List.append_assoc] at ends last
    rw [grown] at onward
    refine ⟨after, ?_, ends, last⟩
    rw [performAll, List.mapM_cons, Work.bind_of_ok run, ← performAll, Work.bind_of_ok onward]
    rfl

end UnitCall

/-- A batch has the last version of each row that is put, once, and no other row. -/
structure Batch.Carries (puts : List Version) (batch : Batch) : Prop where
  once : (batch.versions.map Version.row).Nodup
  last : ∀ version, version ∈ batch.versions ↔
    puts.reverse.find? (·.row = version.row) = some version

namespace Draft.Overlays

variable {store : Tables} {puts : List Version} {draft : Draft}

/-- The batch of a unit carries what has been put on top. -/
theorem carries (overlays : draft.Overlays store puts) : draft.batch.Carries puts where
  once := overlays.named.nodup_versions
  last version := by rw [overlays.named.mem_versions, overlays.last]

/-- A batch is empty if nothing has been put. -/
theorem isEmpty_iff (overlays : draft.Overlays store puts) :
    draft.batch.isEmpty = true ↔ puts = [] := by
  rw [Batch.isEmpty_iff]
  constructor
  · intro none
    refine List.eq_nil_iff_forall_not_mem.mpr fun version member => ?_
    obtain ⟨last, found⟩ : ∃ last, puts.reverse.find? (·.row = version.row) = some last :=
      Option.isSome_iff_exists.mp
        (List.find?_isSome.mpr ⟨version, List.mem_reverse.mpr member, by simp⟩)
    have row : last.row = version.row := by simpa using List.find?_some found
    have inside : last ∈ draft.batch.versions := (overlays.carries.last last).mpr (row ▸ found)
    rw [none] at inside
    cases inside
  · rintro rfl
    exact List.eq_nil_iff_forall_not_mem.mpr fun version inside => nomatch overlays.mem_puts inside

/-- A store that accepts the batch turns into the overlay. -/
theorem commit_of_accepted (overlays : draft.Overlays store puts) {outages : List Nat}
    (accepted : 0 ∉ outages ∨ puts = []) :
    ∃ later, commit draft.batch { tables := store, outages } =
      (.ok (), { tables := store.putAll puts, outages := later }) := by
  unfold commit
  split
  · next idle =>
    obtain rfl := overlays.isEmpty_iff.mp idle
    exact ⟨outages, rfl⟩
  · next busy =>
    have without : 0 ∉ outages :=
      accepted.resolve_right fun none => busy (overlays.isEmpty_iff.mpr none)
    rw [if_neg without, overlays.written]
    exact ⟨_, rfl⟩

/-- A store that has an outage stays as it is. -/
theorem commit_of_outage (overlays : draft.Overlays store puts) {outages : List Nat}
    (outage : 0 ∈ outages) (busy : puts ≠ []) :
    commit draft.batch { tables := store, outages } =
      (.error (.storage .outage), { tables := store, outages := laterOutages outages }) := by
  unfold commit
  rw [if_neg fun idle => busy (overlays.isEmpty_iff.mp idle), if_pos outage]

end Draft.Overlays

end Prepaid.Ledger
