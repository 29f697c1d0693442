/-
# The states of the account rows

What the operations do to the states of the accounts, and to nothing else of
them. An upsert makes the row it finds `ready`, or inserts one that is
(`Store.readies_upsertAccount`); an ingest upserts the account it resolves
before it looks at anything, and leaves the states alone after that
(`Ingest.statuses_ingestReceive`).
-/
import SignalConnector.Receive.Frame

namespace SignalConnector

open List

/-- An account row, down to who it is and the state it is in. -/
structure AccountStatus where
  id : String
  signalAccount : String
  state : String
  deriving DecidableEq

def AccountRow.status (a : AccountRow) : AccountStatus := ⟨a.id, a.signalAccount, a.state⟩

namespace AccountStatus

variable {id : String} {l : List AccountStatus} {x : AccountStatus}

def revive (id : String) (l : List AccountStatus) : List AccountStatus :=
  l.map fun x => if x.id = id then { x with state := "ready" } else x

theorem mem_revive_of_ne (hx : x ∈ l) (hne : x.id ≠ id) : x ∈ revive id l :=
  mem_map.mpr ⟨x, hx, if_neg hne⟩

theorem mem_revive_of_ready (hx : x ∈ l) (hready : x.state = "ready") : x ∈ revive id l := by
  refine mem_map.mpr ⟨x, hx, ?_⟩
  rw [← hready, ite_self]

theorem of_mem_revive (h : x ∈ revive id l) :
    ∃ y ∈ l, x.id = y.id ∧ x.signalAccount = y.signalAccount ∧ (y.id = id ∧ x.state = "ready" ∨ y.id ≠ id ∧ x = y) := by
  obtain ⟨y, hy, rfl⟩ := mem_map.mp h
  refine ⟨y, hy, ?_⟩
  by_cases hid : y.id = id
  · rw [if_pos hid]
    exact ⟨rfl, rfl, .inl ⟨hid, rfl⟩⟩
  · rw [if_neg hid]
    exact ⟨rfl, rfl, .inr ⟨hid, rfl⟩⟩

end AccountStatus

namespace Store

variable {s s' : Store}

def statuses (s : Store) : List AccountStatus := s.accounts.rows.map AccountRow.status

theorem mem_statuses {x : AccountStatus} : x ∈ s.statuses ↔ ∃ a ∈ s.accounts.rows, a.status = x := mem_map

variable {signalAccount proxyGroup id : String} {linkedAt : Option ℕ} {a : AccountRow}

theorem accountBySignal_eq_none_iff :
    s.accountBySignal signalAccount = none ↔ ∀ x ∈ s.statuses, x.signalAccount ≠ signalAccount := by
  simp [accountBySignal, statuses, AccountRow.status]

theorem mem_of_accountBySignal
    (h : s.accountBySignal signalAccount = some a) : a ∈ s.accounts.rows ∧ a.signalAccount = signalAccount :=
  ⟨mem_of_find?_eq_some h, by simpa using find?_some h⟩

theorem status_of_id {x : AccountStatus} (ha : a ∈ s.accounts.rows) (hx : x ∈ s.statuses)
    (hid : x.id = a.id) : x = a.status := by
  obtain ⟨b, hb, rfl⟩ := mem_statuses.mp hx
  rw [s.accounts.row_unique hb ha hid]

theorem SameStanding.statuses (h : s.SameStanding s') : s'.statuses = s.statuses := by
  have hview : ∀ s : Store, s.statuses =
      (s.accounts.rows.map AccountRow.standing).map fun x => ⟨x.1.id, x.1.signalAccount, x.2.2⟩ := fun s => by
    rw [map_map]
    rfl
  rw [hview, hview, h]

/-- The row of the number has been made ready, or a ready one added under the id. -/
def Readies (s s' : Store) (signalAccount id : String) : Prop :=
  (∃ existing, s.accountBySignal signalAccount = some existing ∧
    s'.statuses = AccountStatus.revive existing.id s.statuses) ∨
  (s.accountBySignal signalAccount = none ∧ s.accounts.find? id = none ∧
    s'.statuses = s.statuses ++ [⟨id, signalAccount, "ready"⟩])

theorem readies_upsertAccount
    (h : s.upsertAccountFromSignalWithId signalAccount linkedAt proxyGroup id = .ok (a, s')) :
    s.Readies s' signalAccount id := by
  unfold upsertAccountFromSignalWithId at h
  dsimp only at h
  split at h
  · next existing hfind =>
    cases h
    refine .inl ⟨existing, hfind, ?_⟩
    change (s.accounts.rows.map _).map AccountRow.status = (s.accounts.rows.map AccountRow.status).map _
    rw [map_map, map_map]
    refine map_congr_left fun x _ => ?_
    simp only [Function.comp_apply, decide_eq_true_eq]
    by_cases hx : x.id = existing.id
    · rw [if_pos hx, if_pos (show x.status.id = existing.id from hx)]
      rfl
    · rw [if_neg hx, if_neg (show ¬x.status.id = existing.id from hx)]
  · next hnone =>
    split at h
    · cases h
    next hfree =>
    cases h
    have hfree : s.accounts.find? id = none := by simpa using hfree
    refine .inr ⟨hnone, hfree, ?_⟩
    unfold statuses
    rw [Table.rows_insertOrIgnore_of_free hfree, map_append]
    rfl

theorem Readies.of_some {existing : AccountRow} (h : s.Readies s' signalAccount id)
    (hfind : s.accountBySignal signalAccount = some existing) :
    s'.statuses = AccountStatus.revive existing.id s.statuses := by
  rcases h with ⟨a, ha, hrows⟩ | ⟨hnone, -, -⟩
  · rw [Option.some.inj (hfind.symm.trans ha), hrows]
  · rw [hfind] at hnone
    cases hnone

theorem Readies.of_none (h : s.Readies s' signalAccount id) (hnone : s.accountBySignal signalAccount = none) :
    s.accounts.find? id = none ∧ s'.statuses = s.statuses ++ [⟨id, signalAccount, "ready"⟩] := by
  rcases h with ⟨a, ha, -⟩ | ⟨-, hfree⟩
  · rw [hnone] at ha
    cases ha
  · exact hfree

/-- An upsert that meets no unlinked device leaves the unlinked ones as they were. -/
theorem Readies.unlinked_iff (h : s.Readies s' signalAccount id)
    (hspared : ∀ a ∈ s.accountBySignal signalAccount, a.state ≠ "device_unlinked") {x : AccountStatus}
    (hx : x.state = "device_unlinked") : x ∈ s'.statuses ↔ x ∈ s.statuses := by
  have hnot : x.state ≠ "ready" := by
    rw [hx]
    decide
  rcases h with ⟨existing, hfind, hrows⟩ | ⟨-, -, hrows⟩
  · rw [hrows]
    refine ⟨fun hmem => ?_, fun hmem => AccountStatus.mem_revive_of_ne hmem fun hid => ?_⟩
    · obtain ⟨y, hy, -, -, ⟨-, hready⟩ | ⟨-, rfl⟩⟩ := AccountStatus.of_mem_revive hmem
      · exact absurd hready hnot
      · exact hy
    · refine hspared existing hfind ?_
      rw [← hx, status_of_id (mem_of_accountBySignal hfind).1 hmem hid]
      rfl
  · rw [hrows, mem_append, mem_singleton]
    refine or_iff_left fun hnew => hnot ?_
    rw [hnew]

/-- Whoever is ready stays so. -/
theorem Readies.ready {signalAccount id accountId : String} (h : s.Readies s' signalAccount id)
    (hready : ∀ x ∈ s.statuses, x.id = accountId → x.state = "ready") :
    ∀ x ∈ s'.statuses, x.id = accountId → x.state = "ready" := by
  intro x hx hid
  rcases h with ⟨existing, -, hrows⟩ | ⟨-, -, hrows⟩
  · rw [hrows] at hx
    obtain ⟨y, hy, -, -, ⟨-, hstate⟩ | ⟨-, rfl⟩⟩ := AccountStatus.of_mem_revive hx
    · exact hstate
    · exact hready x hy hid
  · rw [hrows, mem_append, mem_singleton] at hx
    rcases hx with hx | rfl
    · exact hready x hx hid
    · rfl

theorem Readies.ready_existing {existing : AccountRow}
    (h : s.Readies s' signalAccount id) (hfind : s.accountBySignal signalAccount = some existing) :
    ∀ x ∈ s'.statuses, x.id = existing.id → x.state = "ready" := by
  intro x hx hid
  rw [h.of_some hfind] at hx
  obtain ⟨y, -, hsame, -, ⟨-, hstate⟩ | ⟨hne, -⟩⟩ := AccountStatus.of_mem_revive hx
  · exact hstate
  · exact absurd (hsame.symm.trans hid) hne

theorem upsertAccount_error {e : StoreError}
    (h : s.upsertAccountFromSignalWithId signalAccount linkedAt proxyGroup id = .error e) :
    s.accountBySignal signalAccount = none ∧ (s.accounts.find? id).isSome := by
  unfold upsertAccountFromSignalWithId at h
  dsimp only at h
  split at h
  · cases h
  · next hnone =>
    split at h
    · next htaken => exact ⟨hnone, htaken⟩
    · cases h

theorem statuses_setAccountAci (s : Store) (accountId : String) (aci : Option String) :
    (s.setAccountAci accountId aci).statuses = s.statuses := by
  unfold setAccountAci
  split
  · rfl
  · exact Table.view_rows_same fun _ _ _ => rfl

/-- A message that lands may raise its account's badge. -/
theorem statuses_insertMessage {message : MessageRecord} {clientRequestId preview : Option String}
    {incrementUnread landed : Bool} {storedAt : ℕ}
    (h : s.insertMessage message clientRequestId preview incrementUnread storedAt = .ok (landed, s')) :
    s'.statuses = s.statuses := by
  unfold insertMessage at h
  dsimp only at h
  split at h
  · cases h
    exact (keeps_mergeAttachmentFacesIn s _ _ _).accounts.statuses
  · split at h
    · cases h
      exact Table.view_rows_same fun _ _ _ => rfl
    · cases h

end Store

namespace Ingest

variable {env : IngestEnv} {r : NormalizedReceive}

/-- **The upsert is all an ingest does to the states of the accounts.** -/
theorem statuses_ingestReceive {signalAccount : String} {s : Service} {a : AccountRow} {t : Store}
    (h : receiveTarget env r s.store = some signalAccount)
    (hupsert : s.store.upsertAccountFromSignalWithId signalAccount none env.ownerGroup env.accountId = .ok (a, t)) :
    ((ingestReceive env r).run s).2.store.statuses = t.statuses := by
  have hframe : ∀ u v : Store, u.statuses = t.statuses → v.accounts = u.accounts → v.statuses = t.statuses := by
    intro u v hu haccounts
    unfold Store.statuses at hu ⊢
    rw [haccounts, hu]
  refine of_upsert (P := fun u => u.statuses = t.statuses) (fun u v hu haccounts _ => hframe u v hu haccounts)
    (fun u v _ _ _ _ _ _ hu hinsert => (Store.statuses_insertMessage hinsert).trans hu) (fun landed => ?_) h hupsert rfl
  exact storePreserves_settle (fun u v hu hkeeps => hkeeps.accounts.statuses.trans hu) fun message =>
    storePreserves_revealIdentity hframe

end Ingest

end SignalConnector
