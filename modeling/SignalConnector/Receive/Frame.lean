/-
# What an ingest leaves alone

An ingest resolves the number it was received for and upserts that account
before it does anything else. What it does from there on is a list of calls
each of which touches little, so a property of the store that these calls keep
holds from the upsert to the end (`Ingest.of_upsert`), whichever call fails.
-/
import SignalConnector.Receive.Landing
import SignalConnector.Receive.Settle

namespace SignalConnector

namespace Store

variable {s s' : Store}

theorem ensureConversation_frame {sha256 : String → String} {accountId peerKey title : String}
    {kind : ConversationKind} {c : ConversationRow}
    (h : s.ensureConversation sha256 accountId kind peerKey title = .ok (c, s')) :
    ∃ conversations, s' = { s with conversations } := by
  unfold ensureConversation at h
  dsimp only at h
  split at h
  · split at h
    · cases h
      unfold setConversationTitle
      dsimp only
      split
      · exact ⟨_, rfl⟩
      · exact ⟨_, rfl⟩
    · cases h
      exact ⟨_, rfl⟩
  · obtain ⟨t, hinsert, heq⟩ := exists_of_map_ok h
    cases heq
    unfold insertConversation at hinsert
    split at hinsert
    · cases hinsert
    · cases hinsert
      exact ⟨_, rfl⟩

theorem mergeAttachmentFacesIn_frame (s : Store) (accountId messageId : String)
    (incoming : List NormalizedAttachment) :
    ∃ messages, (s.mergeAttachmentFacesIn accountId messageId incoming).2 = { s with messages } := by
  unfold mergeAttachmentFacesIn
  split
  · exact ⟨_, rfl⟩
  split
  · exact ⟨_, rfl⟩
  split
  · dsimp only
    split
    · exact ⟨_, rfl⟩
    · exact ⟨_, rfl⟩
  · exact ⟨_, rfl⟩

theorem peerIdentities_insertMessage {message : MessageRecord} {clientRequestId preview : Option String}
    {incrementUnread landed : Bool} {storedAt : ℕ}
    (h : s.insertMessage message clientRequestId preview incrementUnread storedAt = .ok (landed, s')) :
    s'.peerIdentities = s.peerIdentities := by
  unfold insertMessage at h
  dsimp only at h
  split at h
  · cases h
    exact (keeps_mergeAttachmentFacesIn s _ _ _).identities
  · split at h
    · cases h
      rfl
    · cases h

theorem id_upsertAccount {signalAccount proxyGroup id : String} {linkedAt : Option ℕ} {a : AccountRow}
    (h : s.upsertAccountFromSignalWithId signalAccount linkedAt proxyGroup id = .ok (a, s')) :
    a.id = ((s.accountBySignal signalAccount).map AccountRow.id).getD id := by
  unfold upsertAccountFromSignalWithId at h
  dsimp only at h
  split at h
  · next existing hfind =>
    cases h
    rw [hfind]
    rfl
  · next hnone =>
    split at h
    · cases h
    · cases h
      rw [hnone]
      rfl

end Store

namespace Ingest

variable {env : IngestEnv} {r : NormalizedReceive}

/-! ### Landing, past the upsert -/

section Landing

variable {P : Store → Prop}

theorem storePreserves_existingRow (direction : Direction) (sentAt : ℕ) (t : Target) :
    StorePreserves P (existingRow env r direction sentAt t) := by
  unfold existingRow
  refine (storePreserves_storeRead _).bind fun existing => ?_
  split
  · split
    · exact storePreserves_storeRead _
    · exact storePreserves_return _
  · exact storePreserves_return _

variable (hP : ∀ s t, P s → t.accounts = s.accounts → t.peerIdentities = s.peerIdentities → P t)
include hP

theorem storePreserves_mirrorConversation {accountId conversationId : String} {kind : ConversationKind} :
    StorePreserves P (mirrorConversation r kind accountId conversationId) := by
  refine .bind ?_ fun _ => .bind ?_ fun _ => ?_
  · unfold mirrorTimer
    split
    · exact storePreserves_storeWrite fun s hs => hP s _ hs rfl rfl
    · exact storePreserves_return _
  · unfold mirrorTitle
    split
    · refine storePreserves_storeWrite fun s hs => ?_
      unfold Store.setConversationTitle
      dsimp only
      split
      · exact hs
      · exact hP s _ hs rfl rfl
    · exact storePreserves_return _
  · unfold mirrorToken
    split
    · exact storePreserves_storeWrite fun s hs => hP s _ hs rfl rfl
    · exact storePreserves_return _

variable (hinsert : ∀ s t message clientRequestId preview incrementUnread storedAt landed, P s →
  s.insertMessage message clientRequestId preview incrementUnread storedAt = .ok (landed, t) → P t)
include hinsert

variable (direction : Direction) (sentAt : ℕ) (signalAccount peerKey : String) (account : AccountRow)

theorem storePreserves_landIn (kind : ConversationKind) (conversation : ConversationRow) :
    StorePreserves P (landIn env r direction sentAt signalAccount account kind peerKey conversation) := by
  unfold landIn
  refine (storePreserves_existingRow _ _ _).bind fun existing => ?_
  split
  · refine (storePreserves_storeWrite fun s hs => ?_).bind fun _ => storePreserves_return _
    unfold Store.mergeLiveAttachmentFaces
    obtain ⟨messages, hframe⟩ := s.mergeAttachmentFacesIn_frame account.id _ _
    rw [hframe]
    exact hP s _ hs rfl rfl
  · refine (storePreserves_mirrorConversation hP).bind fun _ => ?_
    unfold insertLanding
    exact (storePreserves_storeCall fun s _ t hs h => hinsert s t _ _ _ _ _ _ hs h).bind fun _ =>
      storePreserves_return _

/-- The part of a landing past the upsert. -/
theorem storePreserves_landPast : StorePreserves P (do
      if ← storiesOff env r account then return none
      match r.conversationOf with
      | none => return none
      | some (kind, peerKey, title) => do
        let conversation ← storeCall fun s => s.ensureConversation env.sha256 account.id kind peerKey title
        landIn env r direction sentAt signalAccount account kind peerKey conversation) := by
  refine .bind ?_ fun off => ?_
  · unfold storiesOff
    split
    · exact storePreserves_storeRead _
    · exact storePreserves_return _
  split
  · exact storePreserves_return _
  split
  · exact storePreserves_return _
  refine (storePreserves_storeCall fun s _ u hs hensure => ?_).bind fun conversation =>
    storePreserves_landIn hP hinsert _ _ _ _ _ _ _
  obtain ⟨conversations, rfl⟩ := Store.ensureConversation_frame hensure
  exact hP s _ hs rfl rfl

theorem storePreserves_land
    (hupsert : ∀ s t signalAccount proxyGroup id a, P s →
      s.upsertAccountFromSignalWithId signalAccount none proxyGroup id = .ok (a, t) → P t) :
    StorePreserves P (land env r) := by
  have hreceiving : StorePreserves P (receivingAccount env r) := by
    unfold receivingAccount
    split
    · exact storePreserves_return _
    refine (storePreserves_storeRead _).bind fun accounts => ?_
    split
    · exact (storePreserves_storeRead _).bind fun _ => storePreserves_return _
    · exact storePreserves_return _
  unfold land
  split
  · refine hreceiving.bind fun signalAccount => ?_
    split
    · exact storePreserves_return _
    · exact (storePreserves_storeCall fun s _ t hs h => hupsert s t _ _ _ _ hs h).bind fun account =>
        storePreserves_landPast hP hinsert _ _ _ account
  · exact storePreserves_return _

end Landing

/-! ### The whole ingest -/

/-- The number whose row the ingest upserts. -/
def receiveTarget (env : IngestEnv) (r : NormalizedReceive) (s : Store) : Option String :=
  if r.direction.isSome ∧ r.timestamp.isSome then receivingAccountIn env r s else none

section Run

variable {signalAccount : String} {s : Service}

theorem run_ingestReceive_of_none (h : receiveTarget env r s.store = none) :
    (ingestReceive env r).run s = (.ok [], s) := by
  unfold ingestReceive land
  cases hdirection : r.direction with
  | none => rfl
  | some =>
    cases htimestamp : r.timestamp with
    | none => rfl
    | some =>
      simp only [receiveTarget, hdirection, htimestamp, Option.isSome_some, and_self, if_true] at h
      dsimp only
      rw [bind_assoc, run_receivingAccount, h]
      rfl

theorem exists_run_ingestReceive (h : receiveTarget env r s.store = some signalAccount) :
    ∃ direction sentAt, r.direction = some direction ∧ r.timestamp = some sentAt ∧
      (ingestReceive env r).run s = (landFor env r direction sentAt signalAccount >>= fun landed =>
        match landed with
        | none => pure []
        | some landed => settle env r landed).run s := by
  unfold receiveTarget at h
  split at h
  swap
  · cases h
  next hboth =>
  obtain ⟨direction, hdirection⟩ := Option.isSome_iff_exists.mp hboth.1
  obtain ⟨sentAt, htimestamp⟩ := Option.isSome_iff_exists.mp hboth.2
  refine ⟨direction, sentAt, hdirection, htimestamp, ?_⟩
  unfold ingestReceive land
  rw [hdirection, htimestamp]
  dsimp only
  rw [bind_assoc, run_receivingAccount]
  rcases hfor : receivingAccountIn env r s.store with _ | account
  · rw [hfor] at h
    cases h
  · rw [hfor] at h
    cases h
    rfl

/-- A failed upsert ends the ingest before it has written anything. -/
theorem store_ingestReceive_of_error {e : StoreError} (h : receiveTarget env r s.store = some signalAccount)
    (hupsert : s.store.upsertAccountFromSignalWithId signalAccount none env.ownerGroup env.accountId = .error e) :
    ((ingestReceive env r).run s).2.store = s.store := by
  obtain ⟨direction, sentAt, -, -, hrun⟩ := exists_run_ingestReceive h
  rw [hrun, landFor, bind_assoc, run_storeCall_of_error _ s hupsert]

/-- **What the calls past the upsert keep the ingest keeps from the upsert on.** -/
theorem of_upsert {P : Store → Prop} {a : AccountRow} {t : Store}
    (hP : ∀ s t, P s → t.accounts = s.accounts → t.peerIdentities = s.peerIdentities → P t)
    (hinsert : ∀ s t message clientRequestId preview incrementUnread storedAt landed, P s →
      s.insertMessage message clientRequestId preview incrementUnread storedAt = .ok (landed, t) → P t)
    (hsettle : ∀ landed, StorePreserves P (settle env r landed))
    (h : receiveTarget env r s.store = some signalAccount)
    (hupsert : s.store.upsertAccountFromSignalWithId signalAccount none env.ownerGroup env.accountId = .ok (a, t))
    (ht : P t) : P ((ingestReceive env r).run s).2.store := by
  obtain ⟨direction, sentAt, -, -, hrun⟩ := exists_run_ingestReceive h
  rw [hrun, landFor, bind_assoc, run_storeCall_of_ok _ s hupsert]
  refine Prog.Preserves.run (I := fun s : Service => P s.store) ?_ ht
  refine StorePreserves.bind (P := P) (storePreserves_landPast hP hinsert _ _ _ a) fun landed => ?_
  split
  · exact storePreserves_return _
  · exact hsettle _

end Run

end Ingest

end SignalConnector
