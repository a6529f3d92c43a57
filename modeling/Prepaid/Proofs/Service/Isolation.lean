import Prepaid.Proofs.Ledger.Isolation
import Prepaid.Proofs.Service.Books
import Prepaid.Proofs.Service.Notices

/-!
# Isolation

What a user sees of a run depends on the requests that target the user, and on nothing
else: without all other requests the user's have the same answers and leave the same of
the user behind, but for identifiers and times. The names of orders, sessions and notices
are the only thing that requests of different users could have in common.
-/

namespace Prepaid.Service

open Ledger

/-- The answer without what stamps have given to its rows. -/
def Answer.anonymous : Answer → Answer
  | .moved receipt => .moved receipt.anonymous
  | .confirmed receipt => .confirmed (receipt.map Receipt.anonymous)
  | .order after => .order after.anonymous
  | answer => answer

namespace Request

/-- The user whom a request names. -/
def user? : Request → Option UserId
  | .deposit user _ => some user
  | .recordTopUp user _ _ => some user
  | .register order => some order.customer
  | .checkout _ user _ => some user
  | _ => none

/-- The orders, sessions and notices that a request is about. A delivery is about what is in its
body, if that is signed correctly. -/
def uses (gateway : Gateway) : Request → List Name
  | .deposit _ _ | .checkout _ _ _ => []
  | .recordTopUp _ _ session | .confirmTopUp session _ | .reconcile session => [.session session]
  | .register order => [.order order.id]
  | .hold order | .capture order | .release order _ | .refund order | .place _ order | .prepare _
    order
  | .charge _ order | .complete _ order | .repay _ order | .cancel _ order _ => [.order order]
  | .deliver body signature =>
    match gateway.verify body signature with
    | .ok notice =>
      .notice notice.id :: (notice.session?.map fun session => .session session.id).toList
    | .error _ => []

/-- The requests that customers, the staff and the gateway make about one user each. Releases with a
precondition of their own could tell orders apart by their times. Sessions that are opened at the
gateway have generated names, and one that is asked about there may be unknown to the ledger. -/
def isPersonal : Request → Bool
  | .release _ _ | .checkout _ _ _ | .reconcile _ => false
  | _ => true

/-- A personal request has a decision, or delivers a notice. -/
theorem isPersonal_cases {request : Request} (settings : Settings)
    (personal : request.isPersonal = true) :
    (∃ decide, request.decision? settings = some decide) ∨
    ∃ body signature, request = .deliver body signature := by
  cases request with
  | release | checkout | reconcile => cases personal
  | deliver body signature => exact .inr ⟨body, signature, rfl⟩
  | _ => exact .inl ⟨_, rfl⟩

/-- The user and the names of a request are a user's, or none of them is. -/
structure Regards (user : UserId) (own : Name → Prop) (mine : Prop) (gateway : Gateway)
    (request : Request) :
    Prop where
  about : ∀ customer, request.user? = some customer → (customer = user ↔ mine)
  named : ∀ name ∈ request.uses gateway, (own name ↔ mine)

section Decided

variable {settings : Settings} {stamp later : Stamp} {tables twins : Tables} {gateway : Gateway}
  {request : Request} {decide : Stamp → Tables → Except Failure (Decision Answer)}

/-- Decisions that are alike can be wrapped into answers. -/
theorem answered {α β : Type} {user : UserId} {own : Name → Prop} {mine : Prop} {shown : α → β}
    {wrap : α → Answer} {outer : β → Answer} {left right : Except Failure (Decision α)}
    (parallel : Parallel (Decision.Alike user own mine tables twins shown) left right)
    (same : ∀ answer, (wrap answer).anonymous = outer (shown answer)) :
    Parallel (Decision.Alike user own mine tables twins Answer.anonymous) (left.map (.map wrap))
      (right.map (.map wrap)) :=
  parallel.map fun alike => alike.map same

/-- What is decided for a request is the same in two ledgers in which it finds the same. -/
theorem decision_alike {user : UserId} {own : Name → Prop} {mine : Prop}
    (personal : request.isPersonal = true) (decided : request.decision? settings = some decide)
    (beside : Beside user own mine tables twins) (portioned : tables.Portioned user own)
    (fresh : Fresh stamp tables) (other : Fresh later twins)
    (regards : request.Regards user own mine gateway) :
    Parallel (Decision.Alike user own mine tables twins Answer.anonymous) (decide stamp tables)
      (decide later twins) := by
  obtain ⟨about, named⟩ := regards
  -- The answers of most requests are receipts or orders.
  have moved {left right : Except Failure (Decision Receipt)} :
      Parallel (Decision.Alike user own mine tables twins Receipt.anonymous) left right →
        Parallel (Decision.Alike user own mine tables twins Answer.anonymous)
          (left.map (.map .moved)) (right.map (.map .moved)) :=
    (answered · fun _ => rfl)
  have advanced {left right : Except Failure (Decision Order)} :
      Parallel (Decision.Alike user own mine tables twins Order.anonymous) left right →
        Parallel (Decision.Alike user own mine tables twins Answer.anonymous)
          (left.map (.map .order)) (right.map (.map .order)) :=
    (answered · fun _ => rfl)
  have first {name : Name} {rest : List Name} (these : request.uses gateway = name :: rest) :
      own name ↔ mine :=
    named name (these ▸ List.mem_cons_self)
  cases request with
  | release => cases personal
  | checkout | deliver | reconcile => cases decided
  | deposit customer value =>
    cases decided
    exact moved (deposit_alike beside portioned fresh other settings value (about customer rfl))
  | recordTopUp customer amount session =>
    cases decided
    exact moved (.done
      (recordTopUp_alike beside portioned fresh other amount (about customer rfl) (first rfl)))
  | confirmTopUp session payment =>
    cases decided
    exact answered (confirmTopUp_alike beside portioned payment stamp later (first rfl))
      fun _ => rfl
  | hold order => cases decided; exact moved (hold_alike beside portioned fresh other (first rfl))
  | capture order => cases decided; exact moved (capture_alike beside portioned fresh (first rfl))
  | refund order =>
    cases decided; exact moved (refund_alike beside portioned fresh other (first rfl))
  | register order =>
    cases decided
    exact advanced (register_alike beside stamp later (about _ rfl) (first rfl))
  | place actor order =>
    cases decided; exact moved (place_alike beside portioned fresh other actor (first rfl))
  | prepare actor order =>
    cases decided
    exact advanced
      (.bind (.same _) fun _ => advance_alike beside portioned _ _ _ stamp later (first rfl))
  | charge actor order =>
    cases decided; exact moved (charge_alike beside portioned fresh actor (first rfl))
  | complete actor order =>
    cases decided
    exact advanced
      (.bind (.same _) fun _ => advance_alike beside portioned _ _ _ stamp later (first rfl))
  | repay actor order =>
    cases decided; exact moved (repay_alike beside portioned fresh other actor (first rfl))
  | cancel actor order now =>
    cases decided
    exact moved (cancel_alike beside portioned fresh settings actor now (first rfl))

end Decided

/-- A notice that is signed correctly is named by its delivery, and so is its session. -/
theorem Regards.notice {user : UserId} {own : Name → Prop} {mine : Prop} {gateway : Gateway}
    {body : List UInt8} {signature : String} {notice : Notice}
    (regards : (Request.deliver body signature).Regards user own mine gateway)
    (verified : gateway.verify body signature = .ok notice) : (own (.notice notice.id) ↔ mine) ∧
      ∀ session, notice.session? = some session → (own (.session session.id) ↔ mine) := by
  have named := regards.named
  simp only [uses, verified, List.mem_cons] at named
  refine ⟨named _ (.inl rfl), fun session about => named _ (.inr ?_)⟩
  simp [about]

end Request

/-! ## Steps -/

section Steps

variable {settings : Settings} {steps priors : List Step} {service twin : Service}
  {gateway : Gateway} {user : UserId} {own : Name → Prop} {request : Request} {stamp later : Stamp}

/-- Sessions lead to the last entries that carry them, after every run. -/
theorem Run.latest (run : Run settings steps service) : service.ledger.tables.Latest :=
  run.keeps .empty (fun _ upkeep latest => upkeep.latest latest)
    (fun sound _ posting latest => posting.latest sound latest)

/-- After every run the portion of a user can be relied on, if its names are apart. -/
theorem Run.portioned (run : Run settings steps service)
    (parted : service.ledger.tables.Parted user own) :
    service.ledger.tables.Portioned user own :=
  ⟨run.intact.sound, run.agreed, run.latest, parted⟩

/-- A step that is not the user's leaves what there is of the user alone. -/
theorem Step.foreign (run : Run settings steps service) (through : service.gateway = gateway)
    (parted : service.ledger.tables.Parted user own) (personal : request.isPersonal = true)
    (fresh : Fresh stamp service.ledger.tables) (regards : request.Regards user own False gateway) :
    (Step.of settings service request stamp).after.gateway = gateway ∧
      (Step.of settings service request stamp).after.ledger.tables.Parted user own ∧
        (Step.of settings service request stamp).after.ledger.tables.Alike user own
          service.ledger.tables := by
  have intact := run.intact
  have portioned := run.portioned parted
  have after := (run.step request fresh).intact.sound
  obtain ⟨⟨tables, outages⟩, portal⟩ := service
  obtain rfl : outages = [] := intact.outages
  obtain rfl : gateway = portal := through.symm
  have beside := Beside.refl user own tables
  rcases Request.isPersonal_cases settings personal with ⟨decide, decided⟩ | ⟨body, signature, rfl⟩
  · have parallel := Request.decision_alike personal decided beside portioned fresh fresh regards
    simp only [of, Request.perform_enacts decided intact.sound fresh] at after ⊢
    exact ⟨trivial, enact_parted portioned parallel, enact_foreign intact.sound after parallel⟩
  · cases verified : gateway.verify body signature with
    | error rejection =>
      simp only [of, Request.deliver_unverified verified]
      exact ⟨trivial, parted, .refl _ _ _⟩
    | ok notice =>
      obtain ⟨foreign, named⟩ := regards.notice verified
      simp only [of, Request.deliver_apply verified] at after ⊢
      exact ⟨trivial, process_parted portioned beside stamp named,
        process_foreign portioned foreign.mp named after⟩

/-- Two services with the same gateway have the same of a user. -/
structure Alongside (gateway : Gateway) (user : UserId) (own : Name → Prop)
    (service twin : Service) : Prop where
  through : service.gateway = gateway
  twinThrough : twin.gateway = gateway
  alike : service.ledger.tables.Alike user own twin.ledger.tables
  parted : service.ledger.tables.Parted user own
  twinParted : twin.ledger.tables.Parted user own

/-- A step that is the user's has the same answer in both services, and leaves the same of the
user. -/
theorem Step.twins (run : Run settings steps service) (twinRun : Run settings priors twin)
    (alongside : Alongside gateway user own service twin) (personal : request.isPersonal = true)
    (fresh : Fresh stamp service.ledger.tables) (twinFresh : Fresh later twin.ledger.tables)
    (regards : request.Regards user own True gateway) :
    (Step.of settings service request stamp).answer.map Answer.anonymous =
        (Step.of settings twin request later).answer.map Answer.anonymous ∧
      Alongside gateway user own (Step.of settings service request stamp).after
        (Step.of settings twin request later).after := by
  have intact := run.intact
  have twinIntact := twinRun.intact
  have portioned := run.portioned alongside.parted
  have twinPortioned := twinRun.portioned alongside.twinParted
  have after := (run.step request fresh).intact.sound
  have twinAfter := (twinRun.step request twinFresh).intact.sound
  obtain ⟨through, twinThrough, alike, parted, twinParted⟩ := alongside
  obtain ⟨⟨tables, outages⟩, portal⟩ := service
  obtain ⟨⟨twins, others⟩, other⟩ := twin
  obtain rfl : outages = [] := intact.outages
  obtain rfl : others = [] := twinIntact.outages
  obtain rfl : gateway = portal := through.symm
  obtain rfl : gateway = other := twinThrough.symm
  have beside := alike.beside portioned twinPortioned
  have turned := alike.symm.beside twinPortioned portioned
  rcases Request.isPersonal_cases settings personal with ⟨decide, decided⟩ | ⟨body, signature, rfl⟩
  · have parallel :=
      Request.decision_alike personal decided beside portioned fresh twinFresh regards
    have reverse :=
      Request.decision_alike personal decided turned twinPortioned twinFresh fresh regards
    simp only [of, Request.perform_enacts decided intact.sound fresh,
      Request.perform_enacts decided twinIntact.sound twinFresh] at after twinAfter ⊢
    obtain ⟨answers, remains⟩ :=
      enact_alike alike intact.sound twinIntact.sound parallel reverse after twinAfter
    exact ⟨answers, rfl, rfl, remains, enact_parted portioned parallel,
      enact_parted twinPortioned reverse⟩
  · cases verified : gateway.verify body signature with
    | error rejection =>
      simp only [of, Request.deliver_unverified verified]
      exact ⟨trivial, rfl, rfl, alike, parted, twinParted⟩
    | ok notice =>
      obtain ⟨mine, named⟩ := regards.notice verified
      simp only [of, Request.deliver_apply verified] at after twinAfter ⊢
      obtain ⟨answers, remains⟩ :=
        process_alike alike portioned twinPortioned (mine.mpr trivial) named after twinAfter
      exact ⟨by rw [answers], rfl, rfl, remains, process_parted portioned beside stamp named,
        process_parted twinPortioned turned later named⟩

end Steps

/-! ## Runs -/

/-- A request targets the user whom it names. One that names no user targets the one for whom a name
that it uses is introduced, which is an order that is registered or a session that is recorded. -/
def Request.Targets (gateway : Gateway) (requests : List Request) (user : UserId)
    (request : Request) : Prop :=
  request.user? = some user ∨ request.user? = none ∧
    ∃ name ∈ request.uses gateway, ∃ other ∈ requests, other.user? = some user ∧
    name ∈ other.uses gateway

instance (gateway : Gateway) (requests : List Request) (user : UserId) (request : Request) :
    Decidable (request.Targets gateway requests user) :=
  inferInstanceAs (Decidable (_ ∨ _))

/-- The names in the requests that target a user. -/
def Owned (gateway : Gateway) (requests : List Request) (user : UserId) (name : Name) : Prop :=
  ∃ request ∈ requests, request.Targets gateway requests user ∧ name ∈ request.uses gateway

/-- No name stands in a request that targets a user and in one that does not. -/
def Separate (gateway : Gateway) (requests : List Request) (user : UserId) : Prop :=
  ∀ request ∈ requests, request.Targets gateway requests user → ∀ other ∈ requests,
    ¬ other.Targets gateway requests user → ∀ name ∈ request.uses gateway, name ∉ other.uses gateway

instance (gateway : Gateway) (requests : List Request) (user : UserId) :
    Decidable (Separate gateway requests user) :=
  inferInstanceAs (Decidable (∀ request ∈ requests, _))

section Runs

variable {settings : Settings} {gateway : Gateway} {requests : List Request} {user : UserId}
    {request : Request}

/-- The names of a request that targets a user are the user's. -/
theorem regards_of_targets (member : request ∈ requests)
    (targets : request.Targets gateway requests user) :
    request.Regards user (Owned gateway requests user) True gateway where
  about := by
    intro customer named
    refine iff_true_intro ?_
    rcases targets with about | ⟨nobody, _⟩
    · exact Option.some.inj (named.symm.trans about)
    · cases named.symm.trans nobody
  named := fun name used => iff_true_intro ⟨request, member, targets, used⟩

/-- The names of a request that does not target a user are not the user's, where names are kept
apart. -/
theorem regards_of_not_targets (separate : Separate gateway requests user)
    (member : request ∈ requests) (elsewhere : ¬ request.Targets gateway requests user) :
    request.Regards user (Owned gateway requests user) False gateway where
  about := by
    intro customer named
    refine iff_false_intro ?_
    rintro rfl
    exact elsewhere (.inl named)
  named := by
    intro name used
    refine iff_false_intro ?_
    rintro ⟨other, present, targets, shared⟩
    exact separate other present targets request member elsewhere name shared used

/-- Two services stay alongside while the one performs all requests, and the other those that target
the user. -/
theorem Alongside.performAll {service twin : Service}
    (alongside : Alongside gateway user (Owned gateway requests user) service twin)
    (personal : ∀ request ∈ requests, request.isPersonal = true)
    (separate : Separate gateway requests user) (full : List (Request × Stamp))
    {own : List (Request × Stamp)} {steps priors : List Step} (run : Run settings steps service)
    (twinRun : Run settings priors twin)
    (members : ∀ request ∈ full.map Prod.fst, request ∈ requests)
    (projected : own.map Prod.fst = (full.map Prod.fst).filter
      fun request => request.Targets gateway requests user) (fresh :
      AllFresh settings full service) (ownFresh : AllFresh settings own twin) :
    ((stepsOf settings full service).filter
      fun step => step.request.Targets gateway requests user).map
          (·.answer.map Answer.anonymous) =
        (stepsOf settings own twin).map (·.answer.map Answer.anonymous) ∧
      Alongside gateway user (Owned gateway requests user) (performAll settings full service)
        (performAll settings own twin) := by
  induction full generalizing own service twin steps priors with
  | nil =>
    obtain rfl : own = [] := by simpa using projected
    exact ⟨rfl, alongside⟩
  | cons turn rest ih =>
    obtain ⟨request, stamp⟩ := turn
    have member : request ∈ requests := members request (by simp)
    have others : ∀ request ∈ rest.map Prod.fst, request ∈ requests :=
      fun request present => members request (by simp [present])
    rw [List.map_cons, List.filter_cons] at projected
    -- Where a request targets the user both services take a step, and where it does not only the
    -- first one does.
    by_cases targets : request.Targets gateway requests user
    · rw [if_pos (decide_eq_true targets)] at projected
      obtain ⟨⟨_, later⟩, turns, rfl, rfl, alone⟩ := List.map_eq_cons_iff.mp projected
      obtain ⟨answer, after⟩ := Step.twins run twinRun alongside
        (personal _ member) fresh.1 ownFresh.1 (regards_of_targets member targets)
      obtain ⟨answers, ends⟩ :=
        ih after (run.step _ fresh.1) (twinRun.step _ ownFresh.1) others alone fresh.2 ownFresh.2
      refine ⟨?_, ends⟩
      rw [stepsOf, stepsOf, List.filter_cons_of_pos, List.map_cons, List.map_cons, answer, answers]
      exact decide_eq_true targets
    · rw [if_neg fun decided => targets (of_decide_eq_true decided)] at projected
      obtain ⟨through, parted, alike⟩ := Step.foreign run alongside.through alongside.parted
        (personal _ member) fresh.1 (regards_of_not_targets separate member targets)
      have after : Alongside gateway user (Owned gateway requests user)
          (Step.of settings service request stamp).after twin :=
        ⟨through, alongside.twinThrough, alike.trans alongside.alike, parted, alongside.twinParted⟩
      obtain ⟨answers, ends⟩ :=
        ih after (run.step _ fresh.1) twinRun others projected fresh.2 ownFresh
      refine ⟨?_, ends⟩
      rw [stepsOf, List.filter_cons_of_neg, answers]
      exact fun decided => targets (of_decide_eq_true decided)

end Runs

/-- Services that are alongside have the same orders of the user. -/
theorem Alongside.orders {gateway : Gateway} {user : UserId} {own : Name → Prop}
    {service twin : Service} (alongside : Alongside gateway user own service twin) (id : OrderId) :
    ((service.ledger.tables.orders.get? id).filter (·.customer = user)).map Order.anonymous =
      ((twin.ledger.tables.orders.get? id).filter (·.customer = user)).map Order.anonymous := by
  have kept {tables : Tables} (parted : tables.Parted user own) (named : own (.order id)) :
      (tables.orders.get? id).filter (·.customer = user) = tables.orders.get? id := by
    cases known : tables.orders.get? id with
    | none => rfl
    | some order =>
      rw [Option.filter_some, if_pos (decide_eq_true ((parted.order known).mpr named))]
  have dropped {tables : Tables} (parted : tables.Parted user own) (foreign : ¬ own (.order id)) :
      (tables.orders.get? id).filter (·.customer = user) = none := by
    refine Option.filter_eq_none_iff.mpr fun order known => ?_
    exact fun own => foreign ((parted.order known).mp (of_decide_eq_true own))
  by_cases named : own (.order id)
  · rw [kept alongside.parted named, kept alongside.twinParted named]
    exact alongside.alike.order id named
  · rw [dropped alongside.parted named, dropped alongside.twinParted named]

/-- Requests that do not target a user make no difference to the user, where no order, session or
notice is named both by a request that targets the user and by one that does not. Without them the
user's requests have the same answers, and the user's wallet, orders and entries are the same in the
end, but for identifiers and times. -/
theorem users_are_isolated {settings : Settings} {gateway : Gateway} {user : UserId}
    {full own : List (Request × Stamp)}
    (personal : ∀ request ∈ full.map Prod.fst, request.isPersonal = true)
    (separate : Separate gateway (full.map Prod.fst) user)
    (projected : own.map Prod.fst =
      (full.map Prod.fst).filter fun request => request.Targets gateway (full.map Prod.fst) user)
    (fresh : AllFresh settings full { gateway }) (ownFresh : AllFresh settings own { gateway }) :
    let after := (performAll settings full { gateway }).ledger.tables
    let alone := (performAll settings own { gateway }).ledger.tables
    ((stepsOf settings full { gateway }).filter fun step =>
        step.request.Targets gateway (full.map Prod.fst) user).map
          (·.answer.map Answer.anonymous) =
        (stepsOf settings own { gateway }).map (·.answer.map Answer.anonymous) ∧
      (after.wallets.get? user).map Wallet.anonymous =
        (alone.wallets.get? user).map Wallet.anonymous ∧
      (∀ id, ((after.orders.get? id).filter (·.customer = user)).map Order.anonymous =
        ((alone.orders.get? id).filter (·.customer = user)).map Order.anonymous) ∧
      (after.rowsOf user).map Entry.anonymous = (alone.rowsOf user).map Entry.anonymous := by
  intro after alone
  let names := Owned gateway (full.map Prod.fst) user
  have parted : Tables.Parted user names {} := ⟨by rintro _ _ ⟨⟩, by rintro _ _ _ ⟨⟩⟩
  have start : Alongside gateway user names { gateway } { gateway } :=
    ⟨rfl, rfl, .refl user names {}, parted, parted⟩
  obtain ⟨answers, alongside⟩ := start.performAll personal separate full (.start gateway)
    (.start gateway) (fun _ present => present) projected fresh ownFresh
  exact ⟨answers, alongside.alike.wallet, alongside.orders, alongside.alike.rows⟩

/-- One user tops up through the gateway while another one places an order. -/
def neighbours : List (Request × Stamp) :=
  [(.deposit ⟨1⟩ (centsOf 500), stampOf 1),
    (.deposit ⟨2⟩ (centsOf 4000), stampOf 2),
    (waitingTopUp, stampOf 3),
    (.register ⟨⟨7⟩, ⟨2⟩, centsOf 1000, .epoch⟩, stampOf 4),
    (paidNotice, stampOf 5),
    (.place (.customer ⟨2⟩) ⟨7⟩, stampOf 6)]

/-- The requests of the first of the two. -/
def firstAlone : List (Request × Stamp) :=
  neighbours.filter fun turn => turn.1.Targets paidGateway (neighbours.map Prod.fst) ⟨1⟩

/-- The first user's entries are the same without the second user. -/
theorem neighbours_are_isolated :
    firstAlone.length = 3 ∧ Separate paidGateway (neighbours.map Prod.fst) ⟨1⟩ ∧
      AllFresh {} neighbours { gateway := paidGateway } ∧
      AllFresh {} firstAlone { gateway := paidGateway } ∧
      ((performAll {} neighbours { gateway := paidGateway }).ledger.tables.rowsOf ⟨1⟩).map
        Entry.anonymous =
          ((performAll {} firstAlone { gateway := paidGateway }).ledger.tables.rowsOf ⟨1⟩).map
            Entry.anonymous := by
  have personal : ∀ request ∈ neighbours.map Prod.fst, request.isPersonal = true := by
    decide +kernel
  -- All that asks for the signature of the notice is evaluated at once.
  obtain ⟨separate, fresh, ownFresh, three⟩ : Separate paidGateway (neighbours.map Prod.fst) ⟨1⟩ ∧
      AllFresh {} neighbours { gateway := paidGateway } ∧
      AllFresh {} firstAlone { gateway := paidGateway } ∧
      firstAlone.length = 3 := by
    decide +kernel
  have projected : firstAlone.map Prod.fst = (neighbours.map Prod.fst).filter fun request =>
      request.Targets paidGateway (neighbours.map Prod.fst) ⟨1⟩ := by
    rw [List.filter_map]
    rfl
  exact ⟨three, separate, fresh, ownFresh,
    (users_are_isolated personal separate projected fresh ownFresh).2.2.2⟩

end Prepaid.Service
