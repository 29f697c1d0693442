/-
# The second half of an ingest

What the early controls and receipts of a landed row can change. They keep
every account's identity, badge and state, every conversation's key and every message
(`Store.Keeps`), so the row that landed is still found under its id. The
identity an incoming row reveals may fold two conversations into one; it keeps
the accounts and their badges.
-/
import SignalConnector.Receipts.Settle
import SignalConnector.Receive.Ingest
import SignalConnector.Receive.Replay

namespace SignalConnector

open Table

/-- The columns a message is told apart by. -/
structure RowIdentity where
  id : String
  accountId : String
  conversationId : String
  direction : Direction
  sentAt : ℤ
  senderId : String
  deriving DecidableEq

def MessageRow.identity (m : MessageRow) : RowIdentity :=
  ⟨m.id, m.accountId, m.conversationId, m.direction, m.sentAt, m.senderId⟩

/-- What an account is found by, its badge and its state. -/
def AccountRow.standing (a : AccountRow) : AccountFace × ℕ × String := (a.face, a.unreadCount, a.state)

namespace Store

variable {s t u : Store}

/-- Every account has kept its identity, its badge and its state. -/
def SameStanding (s t : Store) : Prop :=
  t.accounts.rows.map AccountRow.standing = s.accounts.rows.map AccountRow.standing

/-- The messages that somebody has sent, system rows apart. -/
def spoken (s : Store) : List RowIdentity :=
  (s.messages.rows.filter fun m => m.direction ≠ .system).map MessageRow.identity

/-- Accounts and conversations show what they showed, no message is gone, none but a system row has come, and no
identity was learnt. -/
structure Keeps (s t : Store) : Prop where
  accounts : s.SameStanding t
  conversations : t.conversationKeys = s.conversationKeys
  messages : ∀ id, (s.messages.find? id).isSome → (t.messages.find? id).isSome
  identities : t.peerIdentities = s.peerIdentities
  spoken : t.spoken = s.spoken

theorem Keeps.refl (s : Store) : s.Keeps s := ⟨rfl, rfl, fun _ h => h, rfl, rfl⟩

theorem Keeps.trans (h : s.Keeps t) (h' : t.Keeps u) : s.Keeps u :=
  ⟨h'.accounts.trans h.accounts, h'.conversations.trans h.conversations,
    fun id hid => h'.messages id (h.messages id hid), h'.identities.trans h.identities,
    h'.spoken.trans h.spoken⟩

/-- Rows that are rewritten in place, under their identities. -/
theorem spoken_of_map {g : MessageRow → MessageRow} (hg : ∀ m, (g m).identity = m.identity)
    (hrows : t.messages.rows = s.messages.rows.map g) : t.spoken = s.spoken := by
  have hdirection : ∀ m, (g m).direction = m.direction := fun m => congrArg RowIdentity.direction (hg m)
  unfold spoken
  rw [hrows, List.filter_map, List.map_map]
  simp only [Function.comp_def, hdirection, hg]

theorem spoken_updateMessages (s : Store) (p : MessageRow → Bool) (f : MessageRow → MessageRow)
    (hf : ∀ m, (f m).id = m.id) (hidentity : ∀ m, (f m).identity = m.identity) :
    (s.updateMessages p f hf).spoken = s.spoken := by
  refine spoken_of_map (g := fun m => if p m then f m else m) (fun m => ?_) rfl
  split
  · exact hidentity m
  · rfl

theorem keeps_updateMessages (s : Store) (p : MessageRow → Bool) (f : MessageRow → MessageRow)
    (hf : ∀ m, (f m).id = m.id) (hidentity : ∀ m, (f m).identity = m.identity) : s.Keeps (s.updateMessages p f hf) :=
  ⟨rfl, rfl, fun id h => by rwa [find?_updateMessages, Option.isSome_map], rfl,
    s.spoken_updateMessages p f hf hidentity⟩

theorem spoken_insertOrIgnore_of_system {row : MessageRow} (hsystem : row.direction = .system) :
    { s with messages := s.messages.insertOrIgnore row }.spoken = s.spoken := by
  cases hfind : s.messages.find? row.id with
  | some => rw [insertOrIgnore_of_taken hfind]
  | none =>
    unfold spoken
    dsimp only
    rw [rows_insertOrIgnore_of_free hfind, List.filter_append]
    simp [hsystem]

/-! ### The controls -/

theorem keeps_markRemoteDeleted (s : Store) (accountId conversationId : String) (targetSentAt : ℕ)
    (authorSenderId : String) :
    s.Keeps (s.markRemoteDeleted accountId conversationId targetSentAt authorSenderId).2 := by
  have hmessages := fun id =>
    (markRemoteDeleted_spec s accountId conversationId targetSentAt authorSenderId id).1
  refine ⟨?_, ?_, fun id h => by rwa [hmessages id, Option.isSome_map], ?_, ?_⟩
  · unfold SameStanding markRemoteDeleted
    dsimp only
    split <;> split <;> rfl
  · unfold markRemoteDeleted
    dsimp only
    split
    · refine (view_rows_same (f := fun c : ConversationRow => { c with lastMessagePreview := none })
        fun _ _ _ => rfl).trans ?_
      split <;> rfl
    · split <;> rfl
  · unfold markRemoteDeleted
    dsimp only
    split <;> split <;> rfl
  · refine Eq.trans ?_ (s.spoken_updateMessages (fun m =>
      deleteTarget accountId conversationId targetSentAt authorSenderId m && m.isLive) erasedRow (fun _ => rfl)
      fun _ => rfl)
    unfold markRemoteDeleted
    dsimp only
    split <;> split <;> rfl

variable {sha256 : String → String} {accountId conversationId newText : String} {prior : Option MessageRow}

theorem snapshotOf_frame {now : ℕ}
    (h : s.snapshotOf accountId prior now = .ok t) : ∃ edits, t = { s with messageEdits := edits } := by
  unfold snapshotOf at h
  split at h
  · cases h
    exact ⟨_, rfl⟩
  · unfold snapshotPriorBody at h
    split at h
    · cases h
      exact ⟨_, rfl⟩
    · split at h
      · cases h
        exact ⟨_, rfl⟩
      · cases h

theorem keeps_snapshotOf {now : ℕ} (h : s.snapshotOf accountId prior now = .ok t) : s.Keeps t := by
  obtain ⟨edits, rfl⟩ := snapshotOf_frame h
  exact ⟨rfl, rfl, fun _ h => h, rfl, rfl⟩

theorem keeps_applyInboundEdit {senderId legacySenderId newText : String}
    {targetSentAt newTextBytes now : ℕ} {record : Option MessageRecord}
    (h : s.applyInboundEdit accountId conversationId targetSentAt senderId legacySenderId newText newTextBytes now =
      .ok (record, t)) : s.Keeps t := by
  unfold applyInboundEdit at h
  dsimp only at h
  split at h
  · obtain ⟨u, hu, h⟩ := exists_of_bind_ok h
    cases h
    exact (keeps_updateMessages s _ (.edited newText newTextBytes now) _ fun _ => rfl).trans (keeps_snapshotOf hu)
  · cases h
    exact .refl _

theorem keeps_applyOutgoingEditBySignal {targetSentAt newTextBytes now : ℕ} {record : Option MessageRecord}
    (h : s.applyOutgoingEditBySignal accountId conversationId targetSentAt newText newTextBytes now =
      .ok (record, t)) : s.Keeps t := by
  unfold applyOutgoingEditBySignal at h
  dsimp only at h
  obtain ⟨u, hu, h⟩ := exists_of_bind_ok h
  cases h
  exact (keeps_updateMessages s _ (.edited newText newTextBytes now) _ fun _ => rfl).trans (keeps_snapshotOf hu)

theorem keeps_foldPollRow (s : Store) (accountId conversationId : String) (targetSentAt : ℕ)
    (senderId legacySenderId : String) (mutate : NormalizedPoll → Option NormalizedPoll) :
    s.Keeps (s.foldPollRow accountId conversationId targetSentAt senderId legacySenderId mutate).2 := by
  unfold foldPollRow
  dsimp only
  split
  · split
    · exact .refl s
    · split
      · exact .refl s
      · exact keeps_updateMessages s _ _ _ fun _ => rfl
  · exact .refl s

theorem keeps_mergeAttachmentFacesIn (s : Store) (accountId messageId : String)
    (incoming : List NormalizedAttachment) : s.Keeps (s.mergeAttachmentFacesIn accountId messageId incoming).2 := by
  unfold mergeAttachmentFacesIn
  split
  · exact .refl s
  split
  · exact .refl s
  split
  · dsimp only
    split
    · exact keeps_updateMessages s _ _ _ fun _ => rfl
    · exact .refl s
  · exact .refl s

/-- A system row that lands read raises no badge. -/
theorem keeps_insertMessage {message : MessageRecord} {clientRequestId preview : Option String} {landed : Bool}
    {storedAt : ℕ} (hsystem : message.direction = .system)
    (h : s.insertMessage message clientRequestId preview false storedAt = .ok (landed, t)) : s.Keeps t := by
  unfold insertMessage at h
  dsimp only at h
  split at h
  · cases h
    exact keeps_mergeAttachmentFacesIn s _ _ _
  · split at h
    · cases h
      exact ⟨view_rows_same fun _ _ _ => rfl, view_rows_same fun _ _ _ => rfl,
        fun id h => Option.isSome_of_eq_some (find?_insertOrIgnore_of_some (Option.some_get h).symm _), rfl,
        spoken_insertOrIgnore_of_system hsystem⟩
    · cases h

/-! ### The receipts -/

theorem keeps_applyPeerReceipt {r : PeerReceipt} {outcome : PeerReceiptOutcome}
    (h : s.applyPeerReceipt r = .ok (outcome, t)) : s.Keeps t := by
  rcases applyPeerReceipt_spec h with ⟨-, rfl⟩ | ⟨-, hframe, g, hg, hrows, -⟩
  · exact .refl _
  · unfold ReceiptFrame at hframe
    refine ⟨?_, by rw [hframe], fun id hid => ?_, by rw [hframe], spoken_of_map (fun m => ?_) hrows⟩
    · unfold SameStanding
      rw [hframe]
    · obtain ⟨m, hm⟩ := Option.isSome_iff_exists.mp hid
      obtain ⟨hmem, rfl⟩ := Table.find?_eq_some.mp hm
      have hfind : t.messages.find? m.id = some (g m) := Table.find?_eq_some.mpr
        ⟨by rw [hrows]; exact List.mem_map_of_mem hmem, (hg m).id⟩
      rw [hfind]
      rfl
    · have hface : (g m).face.identity = m.face.identity := congrArg MessageRow.identity (hg m)
      exact hface

/-! ### The identity of the sender -/

/-- A fold of two conversations leaves the accounts and the identities alone. -/
theorem mergePeerIdentity_frame {aci numberPeerKey : String} {now : ℕ} {outcome : Option PeerIdentityMergeOutcome}
    (h : s.mergePeerIdentity sha256 accountId aci numberPeerKey now = .ok (outcome, t)) :
    t.accounts = s.accounts ∧ t.peerIdentities = s.peerIdentities := by
  unfold mergePeerIdentity at h
  split at h
  · cases h
    exact ⟨rfl, rfl⟩
  split at h
  · cases h
  split at h
  · cases h
    exact ⟨rfl, rfl⟩
  · next shell canonical _ =>
    have hfold : ∀ notice, (s.foldPeer shell canonical notice).accounts = s.accounts ∧
        (s.foldPeer shell canonical notice).peerIdentities = s.peerIdentities := by
      intro notice
      cases notice <;> exact ⟨rfl, rfl⟩
    dsimp only at h
    split at h
    · cases h
      exact hfold _
    · cases h

end Store

/-! ### Programs -/

namespace Ingest

section Programs

variable {α β : Type} {P : Store → Prop} {env : IngestEnv} {r : NormalizedReceive} {landed : Landed}

theorem store_bufferUnseen (env : IngestEnv) (receipt : PeerReceipt) (outcome : PeerReceiptOutcome) (s : Service) :
    (bufferUnseen env receipt outcome s).store = s.store := by
  unfold bufferUnseen
  dsimp only
  generalize (receipt.targetSentAt.filter _).take 256 = unseen
  induction unseen generalizing s with
  | nil => rfl
  | cons timestamp unseen ih => rw [List.foldl_cons, ih, Service.bufferEarlyReceipt]

/-- The property of the store is kept by every action and every call of the program. -/
def StorePreserves (P : Store → Prop) (p : Prog Service StoreError α) : Prop := p.Preserves fun s => P s.store

theorem storePreserves_return (a : α) : StorePreserves P (pure a : Prog Service StoreError α) := trivial

theorem StorePreserves.bind {p : Prog Service StoreError α} {k : α → Prog Service StoreError β}
    (hp : StorePreserves P p) (hk : ∀ a, StorePreserves P (k a)) : StorePreserves P (p >>= k) :=
  Prog.Preserves.bind hp hk

theorem storePreserves_storeCall {f : Store → Except StoreError (α × Store)}
    (hf : ∀ s a t, P s → f s = .ok (a, t) → P t) : StorePreserves P (storeCall f) := by
  refine ⟨fun s a s' hs hcall => ?_, fun _ => trivial⟩
  obtain ⟨⟨b, t⟩, hf', heq⟩ := exists_of_map_ok hcall
  cases heq
  exact hf s.store b t hs hf'

theorem storePreserves_storeWrite {f : Store → α × Store} (hf : ∀ s, P s → P (f s).2) :
    StorePreserves P (storeWrite f) :=
  storePreserves_storeCall fun s _ _ hs h => by
    have ht := hf s hs
    rwa [Except.ok.inj h] at ht

theorem storePreserves_storeRead (f : Store → α) : StorePreserves P (storeRead f) :=
  storePreserves_storeWrite fun _ hs => hs

theorem storePreserves_act {f : Service → α × Service} (hf : ∀ s, (f s).2.store = s.store) :
    StorePreserves P (.act f .done) :=
  ⟨fun s hs => show P (f s).2.store by rwa [hf s], fun _ => trivial⟩

theorem storePreserves_attachTo (f : Store → List MessageRecord → List MessageRecord) (record : MessageRecord) :
    StorePreserves P (attachTo f record) :=
  storePreserves_storeRead _

theorem storePreserves_ledgerEvents (accountId : String) : ∀ ids, StorePreserves P (ledgerEvents accountId ids)
  | [] => storePreserves_return _
  | _ :: ids => (storePreserves_storeRead _).bind fun _ =>
    (storePreserves_ledgerEvents accountId ids).bind fun _ => storePreserves_return _

variable (hP : ∀ s t, P s → s.Keeps t → P t)
include hP

theorem storePreserves_landPollTerminateNotice (t : Target) (legacySender : String) (poll : MessageRecord) (notice : PollTerminateNotice) :
    StorePreserves P (landPollTerminateNotice env t legacySender poll notice) := by
  unfold landPollTerminateNotice
  split
  · refine (storePreserves_storeRead _).bind fun existing => ?_
    split
    · exact storePreserves_return _
    refine (storePreserves_storeCall fun s _ t hs h => hP s t hs (Store.keeps_insertMessage rfl h)).bind fun inserted => ?_
    split
    · exact storePreserves_return _
    · exact (storePreserves_storeRead _).bind fun _ => storePreserves_return _
  · exact storePreserves_return _

theorem storePreserves_applyEarlyControl (t : Target) (payload : EarlyControlPayload) :
    StorePreserves P (applyEarlyControl env t payload) := by
  have hreport : ∀ record, StorePreserves P (reportPoll t record) := fun record =>
    (storePreserves_attachTo _ _).bind fun _ => storePreserves_attachTo _ _
  cases payload with
  | remoteDelete =>
    refine (storePreserves_storeWrite fun s hs => hP s _ hs (s.keeps_markRemoteDeleted _ _ _ _)).bind fun changed => ?_
    split <;> exact storePreserves_return _
  | edit =>
    refine (storePreserves_storeCall fun s _ t hs h => ?_).bind fun applied => ?_
    · split at h
      · exact hP s t hs (Store.keeps_applyInboundEdit h)
      · exact hP s t hs (Store.keeps_applyOutgoingEditBySignal h)
    · unfold reportEdit
      split
      · exact storePreserves_return _
      · exact (storePreserves_attachTo _ _).bind fun _ => (storePreserves_attachTo _ _).bind fun _ =>
          (storePreserves_attachTo _ _).bind fun _ => storePreserves_return _
  | pollVote =>
    refine (storePreserves_storeWrite fun s hs => hP s _ hs (s.keeps_foldPollRow _ _ _ _ _ _)).bind fun folded => ?_
    split
    · exact storePreserves_return _
    · exact (hreport _).bind fun _ => storePreserves_return _
  | pollTerminate notice =>
    refine (storePreserves_storeWrite fun s hs => hP s _ hs (s.keeps_foldPollRow _ _ _ _ _ _)).bind fun folded => ?_
    split
    · exact storePreserves_return _
    · exact (hreport _).bind fun record =>
        (storePreserves_landPollTerminateNotice hP t _ record notice).bind fun _ => storePreserves_return _

theorem storePreserves_drainControls (t : Target) : ∀ table, StorePreserves P (drainControls env t table)
  | [] => storePreserves_return _
  | entry :: table => by
    have ih := storePreserves_drainControls t table
    unfold drainControls
    split
    · exact (storePreserves_applyEarlyControl hP t entry.payload).bind fun _ =>
        ih.bind fun _ => storePreserves_return _
    · exact ih.bind fun _ => storePreserves_return _

theorem storePreserves_drainEarlyControls (t : Target) : StorePreserves P (drainEarlyControls env t) := by
  unfold drainEarlyControls
  refine (storePreserves_act fun _ => rfl).bind fun table => ?_
  split
  · exact storePreserves_return _
  · exact (storePreserves_drainControls hP t table).bind fun _ =>
      (storePreserves_act fun _ => rfl).bind fun _ => storePreserves_return _

theorem storePreserves_applyReceiptBatch (receipt : PeerReceipt) :
    StorePreserves P (applyReceiptBatch env receipt) := by
  unfold applyReceiptBatch
  refine (storePreserves_storeCall fun s _ t hs h => hP s t hs (Store.keeps_applyPeerReceipt h)).bind fun outcome => ?_
  refine (storePreserves_ledgerEvents _ _).bind fun _ => (storePreserves_act fun s => ?_).bind fun _ =>
    storePreserves_return _
  exact store_bufferUnseen env receipt outcome s

theorem storePreserves_drainReceipts (accountId : String) (sentAt : ℕ) :
    ∀ table, StorePreserves P (drainReceipts env accountId sentAt table)
  | [] => storePreserves_return _
  | entry :: table => by
    have ih := storePreserves_drainReceipts accountId sentAt table
    unfold drainReceipts
    split
    · exact (storePreserves_applyReceiptBatch hP _).bind fun _ => ih.bind fun _ => storePreserves_return _
    · exact ih.bind fun _ => storePreserves_return _

theorem storePreserves_settleReceipts (landed : Landed) : StorePreserves P (settleReceipts env landed) := by
  unfold settleReceipts
  split
  · unfold drainEarlyReceipts
    refine (storePreserves_act fun _ => rfl).bind fun table => ?_
    split
    · exact storePreserves_return _
    · exact (storePreserves_drainReceipts hP _ _ table).bind fun _ =>
        (storePreserves_act fun _ => rfl).bind fun _ => storePreserves_return _
  · exact storePreserves_return _

/-- What keeps the store through the sender's identity keeps it through the whole half. -/
theorem storePreserves_settle (hreveal : ∀ message, StorePreserves P (revealIdentity env r landed message)) :
    StorePreserves P (settle env r landed) := by
  have hquote : StorePreserves P (settleQuote env landed) := by
    unfold settleQuote
    split
    · exact storePreserves_attachTo _ _
    · exact storePreserves_return _
  unfold settle
  exact (storePreserves_drainEarlyControls hP _).bind fun _ =>
    (storePreserves_settleReceipts hP landed).bind fun _ => hquote.bind fun message =>
    (hreveal message).bind fun _ => (storePreserves_storeRead _).bind fun _ =>
    (storePreserves_storeRead _).bind fun _ => storePreserves_return _

omit hP in
theorem storePreserves_revealIdentity {message : MessageRecord}
    (haccounts : ∀ s t, P s → t.accounts = s.accounts → P t) :
    StorePreserves P (revealIdentity env r landed message) := by
  unfold revealIdentity
  split
  · exact storePreserves_return _
  split
  · refine (storePreserves_storeWrite fun s hs => haccounts s _ hs rfl).bind fun _ =>
      (storePreserves_storeCall fun s _ t hs h => haccounts s t hs (Store.mergePeerIdentity_frame h).1).bind
        fun outcome => ?_
    split <;> exact storePreserves_return _
  · exact storePreserves_return _

end Programs

/-- A row that is not incoming reveals nobody, and its settling keeps everything. -/
theorem settle_keeps (env : IngestEnv) (r : NormalizedReceive) {landed : Landed}
    (hdirection : landed.message.direction ≠ .incoming) (s : Store) :
    StorePreserves s.Keeps (settle env r landed) := by
  refine storePreserves_settle (fun _ _ hs ht => hs.trans ht) fun message => ?_
  unfold revealIdentity
  split
  · exact storePreserves_return _
  · rw [if_neg fun h => hdirection h.1]
    exact storePreserves_return _

/-- Settling a row never touches an account's identity, badge or state. -/
theorem settle_sameStanding (env : IngestEnv) (r : NormalizedReceive) (landed : Landed) (s : Store) :
    StorePreserves s.SameStanding (settle env r landed) := by
  refine storePreserves_settle (fun _ _ hs ht => ht.accounts.trans hs) fun message => ?_
  refine storePreserves_revealIdentity fun t u ht haccounts => ?_
  unfold Store.SameStanding at ht ⊢
  rwa [haccounts]

end Ingest

end SignalConnector
