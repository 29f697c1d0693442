/-
# Terminal account states

A device that the account's phone has unlinked stays unlinked until it is
linked again, and an account that is being deleted, or has been, is not to come
back by itself. Any ingest of an envelope upserts the account it was received
for, and an upsert says `ready` whatever the row said; the sync of an engine's
list does the same unless a delete is unfinished.
-/
import SignalConnector.Accounts.Deletion
import SignalConnector.Accounts.Status
import SignalConnector.Lib.Run
import SignalConnector.Receive.Retry
import SignalConnector.Service.Accounts

namespace SignalConnector

open List Store

/-- The rows, what waits in memory for its row, and the numbers whose deletes have been completed. -/
structure Lifecycle where
  db : Database
  earlyControls : List EarlyControlEntry
  earlyReceipts : List EarlyReceiptEntry
  deleted : List String

/-- What happens to accounts. The envelopes are messages; control envelopes are left out. -/
inductive LifecycleEvent
  | markAccountDeviceUnlinked (signalAccount : String)
  | prepareAccountDelete (accountId operationId : String) (nowMs : ℕ)
  | markAccountDeleteUnknown (operationId : String) (nowMs : ℕ)
  | completeAccountDelete (accountId : String) (operationId : Option String) (nowMs : ℕ) (truncated : Bool)
  | ingestReceive (env : IngestEnv) (r : NormalizedReceive)
  | syncAccounts (proxyGroup : String) (listed : List ListedAccount)
  | finishLink (lane : LinkLane) (linkSessionId number proxyGroup : String) (aci : Option String) (id : String)
      (nowMs : ℕ)

namespace Lifecycle

variable (sha256 : String → String)

variable (w : Lifecycle)

def service : Service := ⟨w.db.store, w.earlyControls, w.earlyReceipts⟩

variable (accountId : String) (env : IngestEnv)

/-- The delete of an account, and the number it was known by. -/
def completeDelete (operationId : Option String) (nowMs : ℕ) (truncated : Bool) : Lifecycle :=
  match w.db.completeAccountDeleteRecorded sha256 accountId operationId nowMs truncated with
  | .error _ => w
  | .ok (_, db) =>
    { w with db, deleted := ((w.db.store.accounts.find? accountId).map AccountRow.signalAccount).toList ++ w.deleted }

/-- What the ingest of an envelope leaves; where it fails, what it had written. -/
def ingest (r : NormalizedReceive) : Lifecycle :=
  let after := ((Ingest.ingestReceive env r).run w.service).2
  { w with
    db := { w.db with store := after.store }
    earlyControls := after.earlyControls
    earlyReceipts := after.earlyReceipts }

/-- One event; one that fails or is refused leaves the rows as its code leaves them. -/
def step : LifecycleEvent → Lifecycle
  | .markAccountDeviceUnlinked signalAccount =>
    { w with db := { w.db with store := (w.db.store.markAccountDeviceUnlinked signalAccount).2 } }
  | .prepareAccountDelete accountId operationId nowMs =>
    match w.db.prepareAccountDelete accountId operationId nowMs with
    | .error _ => w
    | .ok (_, db) => { w with db }
  | .markAccountDeleteUnknown operationId nowMs =>
    match w.db.markAccountDeleteUnknown operationId nowMs with
    | .error _ => w
    | .ok db => { w with db }
  | .completeAccountDelete accountId operationId nowMs truncated =>
    w.completeDelete sha256 accountId operationId nowMs truncated
  | .ingestReceive env r => w.ingest env r
  | .syncAccounts proxyGroup listed => { w with db := Database.syncAccountsFromNumbers proxyGroup listed w.db }
  | .finishLink lane linkSessionId number proxyGroup aci id nowMs =>
    { w with db := (w.db.completeLinkSession lane linkSessionId number proxyGroup aci id nowMs).2 }

/-! ### What is to be kept -/

/-- A delete of the account is unfinished. -/
def Deleting (accountId : String) : Prop :=
  (w.db.accountDeleteOperations.rows.any (Database.isPending accountId)) = true
  deriving Decidable

def HasState (state : String) : Prop :=
  ∃ a ∈ w.db.store.accounts.rows, a.id = accountId ∧ a.state = state
  deriving Decidable

/-- The event links the account afresh or completes its delete. -/
def releases (a : AccountRow) : LifecycleEvent → Bool
  | .finishLink lane linkSessionId number proxyGroup _ id nowMs => number = a.signalAccount &&
      (lane.completeLinkSessionWithId linkSessionId proxyGroup nowMs
        (w.db.commitStore number proxyGroup id nowMs)).2.1.isSome
  | .completeAccountDelete accountId operationId nowMs truncated => accountId = a.id &&
      (w.db.completeAccountDeleteRecorded sha256 accountId operationId nowMs truncated).isOk
  | _ => false

/-- An unlinked device stays unlinked but for a fresh link and its delete. -/
def KeepsUnlinked (e : LifecycleEvent) : Prop :=
  ∀ a ∈ w.db.store.accounts.rows, a.state = "device_unlinked" →
    w.releases sha256 a e ∨ (w.step sha256 e).HasState a.id "device_unlinked"
  deriving Decidable

/-- A receive leaves the state of an account under deletion alone. -/
def KeepsDeleting (r : NormalizedReceive) : Prop :=
  ∀ a ∈ w.db.store.accounts.rows, w.Deleting a.id → (w.ingest env r).HasState a.id a.state

/-- A receive brings no deleted number back: no row of it, and nothing at all if it was received for it. -/
def KeepsDeleted (r : NormalizedReceive) : Prop :=
  ∀ n ∈ w.deleted, w.db.store.accountBySignal n = none →
    (w.ingest env r).db.store.accountBySignal n = none ∧
      (Ingest.receiveTarget env r w.db.store = some n → (w.ingest env r).db.store = w.db.store)

/-- The terminal states outlive the event. -/
def Kept : LifecycleEvent → Prop
  | .ingestReceive env r =>
    w.KeepsUnlinked sha256 (.ingestReceive env r) ∧ w.KeepsDeleting env r ∧ w.KeepsDeleted env r
  | e => w.KeepsUnlinked sha256 e

/-! ### When they are -/

/-- The row the receive would make ready is not unlinked and, if being deleted, ready as it is; and a deleted number
without a row gets none. -/
def ReceiveSpares (r : NormalizedReceive) : Prop :=
  match Ingest.receiveTarget env r w.db.store with
  | none => True
  | some n =>
    match w.db.store.accountBySignal n with
    | some a => a.state ≠ "device_unlinked" ∧ (w.Deleting a.id → a.state = "ready")
    | none => n ∈ w.deleted → (w.db.store.accounts.find? env.accountId).isSome

/-- No round of the sync meets an unlinked device whose delete is not under way. -/
def SyncSpares (proxyGroup : String) : List ListedAccount → Database → Prop
  | [], _ => True
  | listed :: rest, db =>
    ((db.unfinishedAccountDeleteState listed.number).isSome ∨
        ∀ a ∈ db.store.accountBySignal listed.number, a.state ≠ "device_unlinked") ∧
      ∀ db' ∈ (db.adoptAccount proxyGroup listed).toOption, SyncSpares proxyGroup rest db'

/-- The event does not meet a terminal state that it would overwrite. -/
def Spared : LifecycleEvent → Prop
  | .ingestReceive env r => w.ReceiveSpares env r
  | .syncAccounts proxyGroup listed => SyncSpares proxyGroup listed w.db
  | _ => True

/-! ### Rows and states -/

variable {sha256} {w w' : Lifecycle}

theorem hasState_iff {accountId state : String} :
    w.HasState accountId state ↔ ∃ x ∈ w.db.store.statuses, x.id = accountId ∧ x.state = state := by
  simp [HasState, Store.statuses, AccountRow.status]

theorem HasState.of_mem {x : AccountStatus} (h : x ∈ w.db.store.statuses) : w.HasState x.id x.state :=
  hasState_iff.mpr ⟨x, h, rfl, rfl⟩

theorem mem_statuses_of_row {a : AccountRow} (ha : a ∈ w.db.store.accounts.rows) : a.status ∈ w.db.store.statuses :=
  mem_map_of_mem ha

end Lifecycle

namespace Database

variable {db db' : Database}

variable {sha256 : String → String} {accountId operationId : String} {nowMs : ℕ}

theorem store_prepareAccountDelete {plan : AccountDeletePlan}
    (h : db.prepareAccountDelete accountId operationId nowMs = .ok (plan, db')) : db'.store = db.store := by
  have hplan : ∀ existing, db.planDelete accountId operationId nowMs existing = .ok (plan, db') →
      db'.store = db.store := by
    intro existing h
    unfold planDelete at h
    split at h
    · cases h
      rfl
    · split at h
      · cases h
        rfl
      · split at h
        · cases h
        · cases h
          rfl
  unfold prepareAccountDelete at h
  split at h
  · exact hplan _ h
  · split at h
    · cases h
    · split at h
      · cases h
        rfl
      · exact hplan _ h

theorem store_markAccountDeleteUnknown
    (h : db.markAccountDeleteUnknown operationId nowMs = .ok db') : db'.store = db.store := by
  unfold markAccountDeleteUnknown at h
  dsimp only at h
  split at h
  · cases h
    rfl
  · cases h

theorem mem_of_completeAccountDelete {operationId : Option String}
    {nowMs : ℕ} {truncated : Bool} {receipt : Option DeleteReceiptRow} {a : AccountRow}
    (h : db.completeAccountDeleteRecorded sha256 accountId operationId nowMs truncated = .ok (receipt, db'))
    (ha : a ∈ db.store.accounts.rows) (hother : a.id ≠ accountId) : a ∈ db'.store.accounts.rows := by
  by_cases hthere : ∃ b ∈ db.store.accounts.rows, b.id = accountId
  · exact ((has_complete hthere h).1 (.account a) rfl).mpr ⟨ha, hother⟩
  · obtain ⟨-, hsettle⟩ := settle_of_absent (fun b hb hid => hthere ⟨b, hb, hid⟩) h
    exact ((has_settleOperation hsettle).1 (.account a) nofun).mpr ha

theorem readies_putAccount {number proxyGroup id : String} {linkedAt : Option ℕ} {aci : Option String}
    (h : db.putAccount number linkedAt proxyGroup id aci = .ok db') : db.store.Readies db'.store number id := by
  obtain ⟨⟨account, store⟩, hupsert, h⟩ := exists_of_bind_ok h
  cases h
  have hready := readies_upsertAccount hupsert
  unfold Store.Readies at hready ⊢
  rwa [statuses_setAccountAci]

end Database

namespace Lifecycle

variable {sha256 : String → String} {w : Lifecycle}

/-! ### The sync -/

/-- Whoever is ready stays so through a sync. -/
theorem ready_sync {proxyGroup accountId : String} : ∀ (listed : List ListedAccount) (db : Database),
    (∀ x ∈ db.store.statuses, x.id = accountId → x.state = "ready") →
      ∀ x ∈ (Database.syncAccountsFromNumbers proxyGroup listed db).store.statuses, x.id = accountId → x.state = "ready"
  | [], _, hready => hready
  | entry :: rest, db, hready => by
    unfold Database.syncAccountsFromNumbers
    cases hadopt : db.adoptAccount proxyGroup entry with
    | error => exact hready
    | ok db' =>
      refine ready_sync rest db' ?_
      unfold Database.adoptAccount at hadopt
      split at hadopt
      · cases hadopt
        exact hready
      · exact (Database.readies_putAccount hadopt).ready hready

/-- The unlinked devices of the first store are those of the second, or more. -/
def UnlinkedStay (s s' : Store) : Prop :=
  ∀ x ∈ s.statuses, x.state = "device_unlinked" → ∃ y ∈ s'.statuses, y.id = x.id ∧ y.state = "device_unlinked"

theorem UnlinkedStay.of_eq {s s' : Store} (h : s'.statuses = s.statuses) : UnlinkedStay s s' :=
  fun x hx hstate => ⟨x, h ▸ hx, rfl, hstate⟩

/-- A round over an unlinked device makes it ready, and no later round unlinks it again. -/
theorem unlinkedStay_sync_iff {proxyGroup : String} : ∀ (listed : List ListedAccount) (db : Database),
    UnlinkedStay db.store (Database.syncAccountsFromNumbers proxyGroup listed db).store ↔
      SyncSpares proxyGroup listed db
  | [], db => iff_of_true (.of_eq rfl) trivial
  | entry :: rest, db => by
    unfold Database.syncAccountsFromNumbers SyncSpares
    have hrest : ∀ db, UnlinkedStay db.store (Database.syncAccountsFromNumbers proxyGroup rest db).store ↔
        SyncSpares proxyGroup rest db := unlinkedStay_sync_iff rest
    unfold Database.adoptAccount
    by_cases hpending : (db.unfinishedAccountDeleteState entry.number).isSome
    · simpa [hpending, Except.toOption] using hrest db
    rw [if_neg hpending]
    cases hput : db.putAccount entry.number none proxyGroup entry.id entry.aci with
    | error e =>
      refine iff_of_true (.of_eq rfl) ⟨.inr fun a ha => ?_, nofun⟩
      obtain ⟨hnone, -⟩ : db.store.accountBySignal entry.number = none ∧ _ := by
        unfold Database.putAccount at hput
        cases hupsert : db.store.upsertAccountFromSignalWithId entry.number none proxyGroup entry.id with
        | error => exact upsertAccount_error hupsert
        | ok =>
          rw [hupsert] at hput
          cases hput
      rw [hnone] at ha
      cases ha
    | ok db' =>
      have hready := Database.readies_putAccount hput
      simp only [hpending, false_or, Except.toOption, Option.mem_some_iff, forall_eq', Bool.false_eq_true]
      by_cases hspared : ∀ a ∈ db.store.accountBySignal entry.number, a.state ≠ "device_unlinked"
      · rw [and_iff_right hspared, ← hrest db']
        unfold UnlinkedStay
        exact forall_congr' fun x => ⟨fun h hx hstate => h ((hready.unlinked_iff hspared hstate).mp hx) hstate,
          fun h hx hstate => h ((hready.unlinked_iff hspared hstate).mpr hx) hstate⟩
      · refine iff_of_false (fun hstay => ?_) fun h => hspared h.1
        push Not at hspared
        obtain ⟨a, ha, hstate⟩ := hspared
        have hrow := (mem_of_accountBySignal ha).1
        obtain ⟨y, hy, hid, hunlinked⟩ := hstay a.status (mem_map_of_mem hrow) hstate
        have hy := ready_sync rest db' (hready.ready_existing ha) y hy hid
        rw [hunlinked] at hy
        exact absurd hy (by decide)

theorem keepsUnlinked_iff {e : LifecycleEvent} (he : ∀ a, w.releases sha256 a e = false) :
    w.KeepsUnlinked sha256 e ↔ UnlinkedStay w.db.store (w.step sha256 e).db.store := by
  unfold KeepsUnlinked UnlinkedStay
  constructor
  · intro h x hx hstate
    obtain ⟨a, ha, rfl⟩ := mem_statuses.mp hx
    exact hasState_iff.mp ((h a ha hstate).resolve_left (by simp [he a]))
  · exact fun h a ha hstate => .inr (hasState_iff.mpr (h a.status (mem_statuses_of_row ha) hstate))

/-! ### The receive -/

/-- What a receive does to the states: nothing, with the store as it was, or what the upsert does. -/
theorem store_ingest (w : Lifecycle) (env : IngestEnv) (r : NormalizedReceive) :
    ((w.ingest env r).db.store = w.db.store ∧ ∀ n, Ingest.receiveTarget env r w.db.store = some n →
      w.db.store.accountBySignal n = none ∧ (w.db.store.accounts.find? env.accountId).isSome) ∨
    ∃ n, Ingest.receiveTarget env r w.db.store = some n ∧
      w.db.store.Readies (w.ingest env r).db.store n env.accountId := by
  cases htarget : Ingest.receiveTarget env r w.db.store with
  | none =>
    refine .inl ⟨?_, nofun⟩
    change ((Ingest.ingestReceive env r).run w.service).2.store = _
    rw [Ingest.run_ingestReceive_of_none htarget]
    rfl
  | some n =>
    cases hupsert : w.db.store.upsertAccountFromSignalWithId n none env.ownerGroup env.accountId with
    | error =>
      refine .inl ⟨Ingest.store_ingestReceive_of_error (s := w.service) htarget hupsert, ?_⟩
      rintro _ ⟨⟩
      exact upsertAccount_error hupsert
    | ok p =>
      have hready := readies_upsertAccount hupsert
      refine .inr ⟨n, rfl, ?_⟩
      unfold Store.Readies at hready ⊢
      have hstatuses : (w.ingest env r).db.store.statuses = p.2.statuses :=
        Ingest.statuses_ingestReceive (s := w.service) htarget hupsert
      rwa [hstatuses]

section Receive

variable {env : IngestEnv} {r : NormalizedReceive} {n : String}

theorem kept_ingest_iff_of_some {a : AccountRow} (htarget : Ingest.receiveTarget env r w.db.store = some n)
    (hready : w.db.store.Readies (w.ingest env r).db.store n env.accountId)
    (hfind : w.db.store.accountBySignal n = some a) :
    (UnlinkedStay w.db.store (w.ingest env r).db.store ∧ w.KeepsDeleting env r ∧ w.KeepsDeleted env r) ↔
      a.state ≠ "device_unlinked" ∧ (w.Deleting a.id → a.state = "ready") := by
  have ha := (mem_of_accountBySignal hfind).1
  have hexisting := hready.ready_existing hfind
  have hrows := hready.of_some hfind
  constructor
  · rintro ⟨hstay, hdeleting, -⟩
    refine ⟨fun hstate => ?_, fun hpending => ?_⟩
    · obtain ⟨y, hy, hid, hunlinked⟩ := hstay a.status (mem_statuses_of_row ha) hstate
      exact absurd (hunlinked.symm.trans (hexisting y hy hid)) (by decide)
    · obtain ⟨y, hy, hid, hstate⟩ := hasState_iff.mp (hdeleting a ha hpending)
      rw [← hstate, hexisting y hy hid]
  · rintro ⟨hstate, hpending⟩
    have hspared : ∀ b ∈ w.db.store.accountBySignal n, b.state ≠ "device_unlinked" := by
      rw [hfind]
      rintro _ ⟨⟩
      exact hstate
    refine ⟨fun x hx hx' => ⟨x, (hready.unlinked_iff hspared hx').mpr hx, rfl, hx'⟩, fun b hb hdeleting => ?_,
      fun m _ hnone => ⟨accountBySignal_eq_none_iff.mpr fun x hx => ?_, fun hm => ?_⟩⟩
    · refine HasState.of_mem (x := b.status) ?_
      rw [hrows]
      by_cases hid : b.id = a.id
      · have hab : b = a := w.db.store.accounts.row_unique hb ha hid
        exact AccountStatus.mem_revive_of_ready (mem_statuses_of_row hb) (hab ▸ hpending (hid ▸ hdeleting))
      · exact AccountStatus.mem_revive_of_ne (mem_statuses_of_row hb) hid
    · rw [hrows] at hx
      obtain ⟨y, hy, -, hsame, -⟩ := AccountStatus.of_mem_revive hx
      rw [hsame]
      exact accountBySignal_eq_none_iff.mp hnone y hy
    · obtain rfl : n = m := Option.some.inj (htarget.symm.trans hm)
      rw [hfind] at hnone
      cases hnone

/-- A row is added. -/
theorem kept_ingest_iff_of_none (htarget : Ingest.receiveTarget env r w.db.store = some n)
    (hready : w.db.store.Readies (w.ingest env r).db.store n env.accountId)
    (hfind : w.db.store.accountBySignal n = none) :
    (UnlinkedStay w.db.store (w.ingest env r).db.store ∧ w.KeepsDeleting env r ∧ w.KeepsDeleted env r) ↔
      (n ∈ w.deleted → (w.db.store.accounts.find? env.accountId).isSome) := by
  obtain ⟨hfree, hrows⟩ := hready.of_none hfind
  have hold : ∀ x ∈ w.db.store.statuses, x ∈ (w.ingest env r).db.store.statuses := fun x hx => by
    rw [hrows]
    exact mem_append_left _ hx
  constructor
  · rintro ⟨-, -, hdeleted⟩ hn
    have hnone := accountBySignal_eq_none_iff.mp (hdeleted n hn hfind).1
    exact absurd rfl (hnone ⟨env.accountId, n, "ready"⟩ (by rw [hrows]; simp))
  · intro hspared
    rw [hfree] at hspared
    have hn : n ∉ w.deleted := fun hn => nomatch hspared hn
    refine ⟨fun x hx hstate => ⟨x, hold x hx, rfl, hstate⟩,
      fun a ha _ => .of_mem (x := a.status) (hold _ (mem_statuses_of_row ha)),
      fun m hm hnone => ⟨accountBySignal_eq_none_iff.mpr fun x hx => ?_, fun htarget' => ?_⟩⟩
    · rw [hrows, mem_append, mem_singleton] at hx
      rcases hx with hx | rfl
      · exact accountBySignal_eq_none_iff.mp hnone x hx
      · rintro rfl
        exact hn hm
    · obtain rfl : n = m := Option.some.inj (htarget.symm.trans htarget')
      exact absurd hm hn

end Receive

/-- A receive keeps the terminal states iff it meets none. -/
theorem kept_ingest_iff (w : Lifecycle) (env : IngestEnv) (r : NormalizedReceive) :
    w.Kept sha256 (.ingestReceive env r) ↔ w.ReceiveSpares env r := by
  have hunlinked : w.KeepsUnlinked sha256 (.ingestReceive env r) ↔
      UnlinkedStay w.db.store (w.ingest env r).db.store := keepsUnlinked_iff fun _ => rfl
  change w.KeepsUnlinked sha256 (.ingestReceive env r) ∧ w.KeepsDeleting env r ∧ w.KeepsDeleted env r ↔ _
  rw [hunlinked]
  unfold ReceiveSpares
  rcases store_ingest w env r with ⟨hsame, htaken⟩ | ⟨n, htarget, hready⟩
  · refine iff_of_true ⟨.of_eq (by rw [hsame]), fun a ha _ => .of_mem (x := a.status) (hsame ▸ mem_statuses_of_row ha),
      fun n _ hnone => ⟨by rw [hsame, hnone], fun _ => hsame⟩⟩ ?_
    cases htarget : Ingest.receiveTarget env r w.db.store with
    | none => trivial
    | some n =>
      obtain ⟨hnone, htaken⟩ := htaken n htarget
      simp only [hnone]
      exact fun _ => htaken
  · rw [htarget]
    dsimp only
    cases hfind : w.db.store.accountBySignal n with
    | some => exact kept_ingest_iff_of_some htarget hready hfind
    | none => exact kept_ingest_iff_of_none htarget hready hfind

/-! ### The other events -/

theorem statuses_markAccountDeviceUnlinked {s : Store} {signalAccount : String} {x : AccountStatus}
    (hx : x ∈ s.statuses) (hstate : x.state = "device_unlinked") :
    x ∈ (s.markAccountDeviceUnlinked signalAccount).2.statuses := by
  unfold Store.markAccountDeviceUnlinked
  split
  · exact hx
  next existing _ =>
  obtain ⟨a, ha, rfl⟩ := mem_statuses.mp hx
  refine mem_map.mpr ⟨_, mem_map_of_mem ha, ?_⟩
  split
  · change AccountStatus.mk a.id a.signalAccount "device_unlinked" = _
    rw [← hstate]
    rfl
  · rfl

/-- A link writes the row of its own number only. -/
theorem keepsUnlinked_finishLink (lane : LinkLane) (linkSessionId number proxyGroup : String) (aci : Option String)
    (id : String) (nowMs : ℕ) :
    w.KeepsUnlinked sha256 (.finishLink lane linkSessionId number proxyGroup aci id nowMs) := by
  intro a ha hstate
  have hmem : a.status ∈ w.db.store.statuses := mem_statuses_of_row ha
  suffices h : w.releases sha256 a (.finishLink lane linkSessionId number proxyGroup aci id nowMs) = true ∨ a.status ∈
      (w.db.completeLinkSession lane linkSessionId number proxyGroup aci id nowMs).2.store.statuses from
    h.imp_right fun h => hasState_iff.mpr ⟨_, h, rfl, hstate⟩
  unfold releases Database.completeLinkSession
  dsimp only
  split
  · exact .inr hmem
  next hcommitted =>
  by_cases hnumber : number = a.signalAccount
  · exact .inl (Bool.and_eq_true_iff.mpr ⟨decide_eq_true hnumber, by rw [hcommitted]; rfl⟩)
  refine .inr ?_
  cases hput : w.db.putAccount number (some nowMs) proxyGroup id aci with
  | error => exact hmem
  | ok db' =>
    rcases Database.readies_putAccount hput with ⟨existing, hfind, hrows⟩ | ⟨-, -, hrows⟩
    · change _ ∈ db'.store.statuses
      rw [hrows]
      refine AccountStatus.mem_revive_of_ne hmem fun hid => hnumber ?_
      obtain ⟨hrow, hsame⟩ := mem_of_accountBySignal hfind
      rw [← hsame, w.db.store.accounts.row_unique ha hrow hid]
    · change _ ∈ db'.store.statuses
      rw [hrows]
      exact mem_append_left _ hmem

/-- One event keeps the terminal states iff it meets none that it would overwrite. -/
theorem kept_iff_spared (w : Lifecycle) (e : LifecycleEvent) : w.Kept sha256 e ↔ w.Spared e := by
  have hstay : ∀ e, (∀ x ∈ w.db.store.statuses, x.state = "device_unlinked" →
      x ∈ (w.step sha256 e).db.store.statuses) → w.KeepsUnlinked sha256 e := fun e h a ha hstate =>
    .inr (hasState_iff.mpr ⟨a.status, h _ (mem_statuses_of_row ha) hstate, rfl, hstate⟩)
  cases e with
  | ingestReceive env r => exact kept_ingest_iff w env r
  | syncAccounts proxyGroup listed =>
    exact (keepsUnlinked_iff fun _ => rfl).trans (unlinkedStay_sync_iff listed w.db)
  | finishLink lane linkSessionId number proxyGroup aci id nowMs =>
    exact iff_of_true (keepsUnlinked_finishLink lane linkSessionId number proxyGroup aci id nowMs) trivial
  | markAccountDeviceUnlinked =>
    exact iff_of_true (hstay _ fun x => statuses_markAccountDeviceUnlinked) trivial
  | prepareAccountDelete =>
    refine iff_of_true (hstay _ fun x hx _ => ?_) trivial
    dsimp only [step]
    split
    · exact hx
    · next hprepared =>
      unfold Store.statuses at hx ⊢
      rwa [Database.store_prepareAccountDelete hprepared]
  | markAccountDeleteUnknown =>
    refine iff_of_true (hstay _ fun x hx _ => ?_) trivial
    dsimp only [step]
    split
    · exact hx
    · next hmarked =>
      unfold Store.statuses at hx ⊢
      rwa [Database.store_markAccountDeleteUnknown hmarked]
  | completeAccountDelete accountId =>
    refine iff_of_true (fun a ha hstate => ?_) trivial
    dsimp only [releases, step, completeDelete]
    split
    · exact .inr ⟨a, ha, rfl, hstate⟩
    next hcompleted =>
    by_cases hid : accountId = a.id
    · exact .inl (Bool.and_eq_true_iff.mpr ⟨decide_eq_true hid, by rw [hcompleted]; rfl⟩)
    · exact .inr ⟨a, Database.mem_of_completeAccountDelete hcompleted ha fun h => hid h.symm, rfl, hstate⟩

end Lifecycle

/-- **Terminal account states are kept exactly by the runs in which no receive and no sync meets one.** -/
theorem terminal_states_kept_iff (sha256 : String → String) (w : Lifecycle) (events : List LifecycleEvent) :
    Along (Lifecycle.step sha256) (Lifecycle.Kept sha256) w events ↔
      Along (Lifecycle.step sha256) Lifecycle.Spared w events :=
  Along.congr Lifecycle.kept_iff_spared events w

namespace Lifecycle

def fresh : Lifecycle := ⟨.empty, [], [], []⟩

def unlinkThenReceive : List LifecycleEvent :=
  [.ingestReceive Ingest.plainEnv Ingest.helloReceive, .markAccountDeviceUnlinked "+1",
    .ingestReceive Ingest.plainEnv Ingest.helloReceive]

def deleteThenReceive : List LifecycleEvent :=
  [.ingestReceive Ingest.plainEnv Ingest.helloReceive, .prepareAccountDelete "account" "op" 2000,
    .completeAccountDelete "account" (some "op") 3000 true, .ingestReceive Ingest.plainEnv Ingest.helloReceive]

/-- The unlinked device is ready again; and the deleted account is there again, with the message. -/
theorem queued_receive_revives :
    ((unlinkThenReceive.take 2).foldl (step id) fresh).db.store.statuses = [⟨"account", "+1", "device_unlinked"⟩] ∧
    (unlinkThenReceive.foldl (step id) fresh).db.store.statuses = [⟨"account", "+1", "ready"⟩] ∧
    ¬ Along (step id) (Kept id) fresh unlinkThenReceive ∧
    ((deleteThenReceive.take 3).foldl (step id) fresh).db.store.statuses = [] ∧
    (deleteThenReceive.foldl (step id) fresh).db.store.statuses = [⟨"account", "+1", "ready"⟩] ∧
    (deleteThenReceive.foldl (step id) fresh).db.store.messages.rows.length = 1 :=
  ⟨by decide, by decide, fun h => absurd h.2.2.1.1 (by decide), by decide, by decide, by decide⟩

end Lifecycle

end SignalConnector
