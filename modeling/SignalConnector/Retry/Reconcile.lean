/-
# Reconciling unknown outcomes

A send whose answer was lost is `unknown`. When an engine lands, the connector
asks it about every such row: did it dispatch, in this thread, something
stamped within a minute of the row's `sent_at`? The answer settles the row
`sent`, or `failed` and open for a retry. A row keeps the `sent_at` of its
first preparation through all its retries, while the engine stamps each
dispatch with the time it is made, which may be after the connector stopped
waiting for it.
-/
import SignalConnector.Lib.Run
import SignalConnector.Service.Send

namespace SignalConnector

open List Store Table

/-! ### The engine's ledger -/

/-- An outgoing row of the engine's own store, and the connector row it was dispatched for. -/
structure Dispatch where
  messageId : String
  account : String
  target : UpstreamTarget
  stamp : ℕ
  deriving DecidableEq

def unknownReconcileToleranceMs : ℕ := 60000

/-- Two stamps within the tolerance of each other. -/
def near (stamp sentTimestamp : ℕ) : Bool :=
  stamp ≤ sentTimestamp + unknownReconcileToleranceMs &&
    sentTimestamp ≤ stamp + unknownReconcileToleranceMs

/-- `lookupOutgoingDispatch`: the engine has an outgoing row of this thread near the timestamp. -/
def lookupOutgoingDispatch (ledger : List Dispatch) (account : String) (target : UpstreamTarget)
    (sentTimestamp : ℕ) : Bool :=
  ledger.any fun d => d.account = account && d.target = target && near d.stamp sentTimestamp

/-- The address the reconciliation probes a backlog row at. -/
def UnknownSendRow.target (row : UnknownSendRow) : UpstreamTarget :=
  match row.conversationKind with
  | .group => .groupId row.peerKey
  | .direct => .recipient row.peerKey

namespace Store

/-- Where a dispatch of this row goes. -/
def route (s : Store) (x : MessageRow) : Option (String × UpstreamTarget) :=
  (s.accounts.find? x.accountId).bind fun a =>
    (s.conversationById x.accountId x.conversationId).map fun c => (a.signalAccount, setUpstreamTarget c)

end Store

/-! ### The world of a send -/

/-- The store, the awaited attempts, the engine's ledger, the backlog rows read and the answers not settled yet. -/
structure SendWorld where
  store : Store
  awaited : List String
  ledger : List Dispatch
  backlog : List UnknownSendRow
  probes : List (String × Bool)

inductive SendMove
  | addAccount (row : AccountRow)
  | addConversation (row : ConversationRow)
  | receive (message : MessageRecord) (preview : Option String) (incrementUnread : Bool) (storedAt : ℕ)
  | send (message : MessageRecord) (clientRequestId : String) (preview : Option String) (storedAt : ℕ)
  | retryText (accountId conversationId clientRequestId : String)
  | claimDueRetries (now limit : ℕ)
  | dispatch (messageId : String) (stamp : ℕ)
  | answer (messageId : String) (answer : Except EngineError SendReply) (params : UpstreamTextSend) (now : ℕ)
  | readBacklog (proxyGroup : String) (limit : ℕ)
  | probe (row : UnknownSendRow)
  | settle (messageId : String) (dispatched : Bool)
  | restart

/-- The send has no good outcome yet. -/
def MessageRow.unsettled (m : MessageRow) : Bool :=
  m.status = .pending || m.status = .failed || m.status = .unknown

namespace SendWorld

/-- An attempt is awaited from its preparation to its one answer, `UnknownOutcome` included. What it was handed the
engine may dispatch at any time. A restart ends waits and reconciliations, not the ledger. -/
def step (w : SendWorld) : SendMove → SendWorld
  | .addAccount row => { w with store := { w.store with accounts := w.store.accounts.insertOrIgnore row } }
  | .addConversation row =>
    { w with store := { w.store with conversations := w.store.conversations.insertOrIgnore row } }
  | .receive message preview incrementUnread storedAt =>
    if (MessageRow.ofRecord message none storedAt).unsettled then w else
    match w.store.insertMessage message none preview incrementUnread storedAt with
    | .ok (_, store) => { w with store }
    | .error _ => w
  | .send message clientRequestId preview storedAt =>
    match w.store.insertMessage { message with status := .pending } (some clientRequestId) preview false
        storedAt with
    | .ok (landed, store) =>
      { w with store, awaited := if landed then message.id :: w.awaited else w.awaited }
    | .error _ => w
  | .retryText accountId conversationId clientRequestId =>
    match w.store.prepareRetryText accountId conversationId clientRequestId with
    | (.ok (.dispatch pendingId _ _ _ _), store) => { w with store, awaited := pendingId :: w.awaited }
    | (_, store) => { w with store }
  | .claimDueRetries now limit =>
    let (claims, store) := w.store.claimDueRetries now limit
    { w with store, awaited := claims.map RetryClaim.messageId ++ w.awaited }
  | .dispatch messageId stamp =>
    match ((w.store.messages.find? messageId).filter (·.clientRequestId.isSome)).bind w.store.route with
    | some (account, target) => { w with ledger := ⟨messageId, account, target, stamp⟩ :: w.ledger }
    | none => w
  | .answer messageId answer params now =>
    match w.store.messages.find? messageId with
    | some x =>
      if messageId ∈ w.awaited then
        let prepared := .dispatch messageId x.accountId x.conversationId params (asU64 x.sentAt)
        { w with
          store := (w.store.dispatchPrepared prepared answer now).2
          awaited := w.awaited.erase messageId }
      else w
    | none => w
  | .readBacklog proxyGroup limit =>
    { w with backlog := w.store.unsettledUnknownOutgoingSends proxyGroup limit ++ w.backlog }
  | .probe row =>
    if row ∈ w.backlog then
      let dispatched := lookupOutgoingDispatch w.ledger row.signalAccount row.target row.sentAt
      { w with probes := (row.id, dispatched) :: w.probes }
    else w
  | .settle messageId dispatched =>
    if (messageId, dispatched) ∈ w.probes then
      { w with
        store := (w.store.settleUnknownSend messageId dispatched).2
        probes := w.probes.erase (messageId, dispatched) }
    else w
  | .restart => { w with store := w.store.startupSweep, awaited := [], backlog := [], probes := [] }

end SendWorld

/-! ### What the steps keep of a row -/

/-- The row is addressed as before, and if it is unsettled it was, under the same `sent_at`. -/
structure Kept (x y : MessageRow) : Prop where
  accountId : y.accountId = x.accountId
  conversationId : y.conversationId = x.conversationId
  clientRequestId : y.clientRequestId = x.clientRequestId
  sentAt : y.unsettled → x.unsettled ∧ y.sentAt = x.sentAt

theorem Kept.refl (x : MessageRow) : Kept x x := ⟨rfl, rfl, rfl, fun h => ⟨h, rfl⟩⟩

theorem Kept.trans {x y z : MessageRow} (h : Kept x y) (h' : Kept y z) : Kept x z where
  accountId := h'.accountId.trans h.accountId
  conversationId := h'.conversationId.trans h.conversationId
  clientRequestId := h'.clientRequestId.trans h.clientRequestId
  sentAt hz := ⟨(h.sentAt (h'.sentAt hz).1).1, (h'.sentAt hz).2.trans (h.sentAt (h'.sentAt hz).1).2⟩

/-- Every unsettled row is a send of this connector. -/
def Store.Owned (s : Store) : Prop := ∀ x ∈ s.messages.rows, x.unsettled → x.clientRequestId.isSome

/-- This connector's rows live on, the pending stay so but for the answered, no address changes, and no unsettled row
of another appears. -/
structure Carries (answered : String → Prop) (s s' : Store) : Prop where
  row : ∀ id x, s.messages.find? id = some x → x.clientRequestId.isSome →
    ∃ y, s'.messages.find? id = some y ∧ Kept x y ∧
      (¬answered id → x.status = .pending → y.status = .pending)
  own : s.Owned → s'.Owned
  account : ∀ id a, s.accounts.find? id = some a →
    ∃ a', s'.accounts.find? id = some a' ∧ a'.signalAccount = a.signalAccount
  conversation : ∀ id c, s.conversations.find? id = some c →
    ∃ c', s'.conversations.find? id = some c' ∧ c'.accountId = c.accountId ∧ c'.kind = c.kind ∧
      c'.peerKey = c.peerKey

namespace Carries

variable {answered : String → Prop} {s s' s'' : Store}

theorem refl (answered : String → Prop) (s : Store) : Carries answered s s where
  row _ x hx _ := ⟨x, hx, .refl x, fun _ h => h⟩
  own h := h
  account _ a ha := ⟨a, ha, rfl⟩
  conversation _ c hc := ⟨c, hc, rfl, rfl, rfl⟩

theorem trans (h : Carries answered s s') (h' : Carries answered s' s'') : Carries answered s s'' where
  row id x hx hc := by
    obtain ⟨y, hy, hxy, hpy⟩ := h.row id x hx hc
    obtain ⟨z, hz, hyz, hpz⟩ := h'.row id y hy (hxy.clientRequestId ▸ hc)
    exact ⟨z, hz, hxy.trans hyz, fun ha hp => hpz ha (hpy ha hp)⟩
  own hs := h'.own (h.own hs)
  account id a ha := by
    obtain ⟨b, hb, hab⟩ := h.account id a ha
    obtain ⟨c, hc, hbc⟩ := h'.account id b hb
    exact ⟨c, hc, hbc.trans hab⟩
  conversation id c hc := by
    obtain ⟨d, hd, h₁, h₂, h₃⟩ := h.conversation id c hc
    obtain ⟨e, he, h₄, h₅, h₆⟩ := h'.conversation id d hd
    exact ⟨e, he, h₄.trans h₁, h₅.trans h₂, h₆.trans h₃⟩

theorem updateMessages {p : MessageRow → Bool} {f : MessageRow → MessageRow} {hf : ∀ m, (f m).id = m.id}
    (hkept : ∀ x ∈ s.messages.rows, p x → Kept x (f x))
    (hpending : ∀ x ∈ s.messages.rows, p x → ¬answered x.id → x.status = .pending →
      (f x).status = .pending) : Carries answered s (s.updateMessages p f hf) where
  row id x hx hc := by
    obtain ⟨hmem, hid⟩ := Table.find?_eq_some.mp hx
    rw [find?_updateMessages, hx, Option.map_some]
    by_cases hp : p x
    · rw [if_pos hp]
      exact ⟨f x, rfl, hkept x hmem hp, fun ha => hpending x hmem hp (hid ▸ ha)⟩
    · rw [if_neg hp]
      exact ⟨x, rfl, .refl x, fun _ h => h⟩
  own hown y hy hopen := by
    rw [rows_updateMessages] at hy
    obtain ⟨x, hx, rfl⟩ := mem_map.mp hy
    by_cases hp : p x
    · rw [if_pos hp] at hopen ⊢
      rw [(hkept x hx hp).clientRequestId]
      exact hown x hx ((hkept x hx hp).sentAt hopen).1
    · rw [if_neg hp] at hopen ⊢
      exact hown x hx hopen
  account _ a ha := ⟨a, ha, rfl⟩
  conversation _ c hc := ⟨c, hc, rfl, rfl, rfl⟩

/-- The summaries may move, the addresses stay. -/
theorem updateSummaries {pa : AccountRow → Bool} {fa : AccountRow → AccountRow}
    {hfa : ∀ a, (fa a).id = a.id} {pc : ConversationRow → Bool} {fc : ConversationRow → ConversationRow}
    {hfc : ∀ c, (fc c).id = c.id} (ha : ∀ a, (fa a).signalAccount = a.signalAccount)
    (hc : ∀ c, (fc c).accountId = c.accountId ∧ (fc c).kind = c.kind ∧ (fc c).peerKey = c.peerKey) :
    Carries answered s { s with
      conversations := s.conversations.update pc fc hfc
      accounts := s.accounts.update pa fa hfa } where
  row _ x hx _ := ⟨x, hx, .refl x, fun _ h => h⟩
  own h := h
  account id a hfind := by
    refine ⟨if pa a then fa a else a, ?_, by split <;> simp [ha]⟩
    change (s.accounts.update pa fa hfa).find? id = _
    rw [find?_update, hfind, Option.map_some]
  conversation id c hfind := by
    refine ⟨if pc c then fc c else c, ?_, by split <;> simp [hc]⟩
    change (s.conversations.update pc fc hfc).find? id = _
    rw [find?_update, hfind, Option.map_some]

theorem bumpEndings (s : Store) (accountId conversationId : String) (stamp : ℤ) :
    Carries answered s (s.bumpEndings accountId conversationId stamp) :=
  .updateSummaries (fun _ => rfl) fun _ => ⟨rfl, rfl, rfl⟩

theorem insertOwn {row : MessageRow} (hown : row.unsettled → row.clientRequestId.isSome) :
    Carries answered s { s with messages := s.messages.insertOrIgnore row } where
  row _ x hx _ :=
    ⟨x, find?_insertOrIgnore_of_some hx row, .refl x, fun _ h => h⟩
  own hs y hy := by
    rcases mem_of_mem_insertOrIgnore hy with hy | rfl
    · exact hs y hy
    · exact hown
  account _ a ha := ⟨a, ha, rfl⟩
  conversation _ c hc := ⟨c, hc, rfl, rfl, rfl⟩

theorem insertMessage {message : MessageRecord} {clientRequestId preview : Option String}
    {incrementUnread : Bool} {storedAt : ℕ} {landed : Bool}
    (hown : (MessageRow.ofRecord message clientRequestId storedAt).unsettled → clientRequestId.isSome)
    (h : s.insertMessage message clientRequestId preview incrementUnread storedAt = .ok (landed, s')) :
    Carries answered s s' := by
  unfold Store.insertMessage at h
  dsimp only at h
  split at h
  · cases h
    unfold mergeAttachmentFacesIn
    split
    · exact .refl answered s
    split
    · exact .refl answered s
    split
    · dsimp only
      split
      · exact .updateMessages (fun x _ _ => ⟨rfl, rfl, rfl, fun h => ⟨h, rfl⟩⟩) fun x _ _ _ h => h
      · exact .refl answered s
    · exact .refl answered s
  split at h
  · cases h
    have hinsert : Carries answered s { s with
        messages := s.messages.insertOrIgnore (.ofRecord message clientRequestId storedAt) } :=
      .insertOwn hown
    exact hinsert.trans (.updateSummaries (fun _ => rfl) fun _ => ⟨rfl, rfl, rfl⟩)
  · cases h

theorem claimDueRetries (s : Store) (now limit : ℕ) : Carries answered s (s.claimDueRetries now limit).2 := by
  rw [claimDueRetries_eq]
  have hfailed : ∀ x ∈ s.messages.rows, ((s.dueRetries now limit).any fun row => row.id = x.id) →
      x.status = .failed := by
    intro x hx hany
    obtain ⟨row, hrow, hid⟩ := any_eq_true.mp hany
    obtain ⟨hmem, hdue, -⟩ := mem_dueRetries.mp hrow
    rw [← s.messages.row_unique hmem hx (of_decide_eq_true hid)]
    exact status_of_due hdue
  refine .updateMessages (fun x hx hp => ?_) fun x hx hp _ hpending => ?_
  · have hx' : x.unsettled := by simp [MessageRow.unsettled, hfailed x hx hp]
    unfold MessageRow.claimedFace
    split <;> exact ⟨rfl, rfl, rfl, fun _ => ⟨hx', rfl⟩⟩
  · rw [hfailed x hx hp] at hpending
    cases hpending

theorem rearmFailedMessage (s : Store) (messageId : String) :
    Carries answered s (s.rearmFailedMessage messageId).2 := by
  refine .updateMessages (fun x _ hp => ⟨rfl, rfl, rfl, fun _ => ⟨?_, rfl⟩⟩) fun x _ _ _ _ => rfl
  simp [MessageRow.unsettled, (of_decide_eq_true hp).2]

theorem settleSendFailed (s : Store) (messageId : String) (now : ℕ) (schedule : SendRetrySchedule)
    (outcomes : Option MessageSendOutcomes) (hanswered : answered messageId) :
    Carries answered s (s.settleSendFailed messageId now schedule outcomes).2 := by
  rw [settleSendFailed_eq]
  refine .updateMessages (fun x _ hp => ?_) fun x _ hp hnot _ => ?_
  · have hx : x.unsettled := by simp [MessageRow.unsettled, (of_decide_eq_true hp).2]
    unfold settledRow failedRow
    split
    · split <;> exact ⟨rfl, rfl, rfl, fun _ => ⟨hx, rfl⟩⟩
    · split <;> exact ⟨rfl, rfl, rfl, fun _ => ⟨hx, rfl⟩⟩
  · exact absurd ((of_decide_eq_true hp).1 ▸ hanswered) hnot

theorem seedSendReceipts (s : Store) (messageId : String) (seeds : List SendReceiptSeed) (when : ℕ) :
    Carries answered s (s.seedSendReceipts messageId seeds when).2 := by
  obtain ⟨ledger, h⟩ := s.seedSendReceipts_frame messageId seeds when
  rw [h]
  obtain ⟨hrow, hown, haccount, hconversation⟩ := refl answered s
  exact ⟨hrow, hown, haccount, hconversation⟩

theorem dropMirror (s : Store) (messageId accountId conversationId : String) (sentAt : ℕ) :
    Carries answered s (s.dropMirror (s.duplicateIds messageId accountId conversationId sentAt)) where
  row id x hx hc := by
    obtain ⟨hmem, hid⟩ := Table.find?_eq_some.mp hx
    exact ⟨x, Table.find?_eq_some.mpr ⟨mem_dropMirror_of_own hmem hc, hid⟩, .refl x, fun _ h => h⟩
  own hs y hy := hs y (mem_of_mem_dropMirror hy)
  account id a ha := by
    unfold Store.dropMirror
    split <;> exact ⟨a, ha, rfl⟩
  conversation id c hc := by
    unfold Store.dropMirror
    split <;> exact ⟨c, hc, rfl, rfl, rfl⟩

theorem completeOutgoingSend (s : Store) (messageId accountId conversationId : String) (sentAt : ℕ)
    (outcomes : Option MessageSendOutcomes) (hanswered : answered messageId) : Carries answered s
      (s.completeOutgoingSend messageId accountId conversationId sentAt outcomes).2 := by
  unfold Store.completeOutgoingSend
  dsimp only
  split
  · exact .refl answered s
  · have hsent : ∀ single : Store, Carries answered single (single.updateMessages
        (fun m => m.id = messageId ∧ m.accountId = accountId ∧ m.conversationId = conversationId)
        (sentRow sentAt outcomes) fun _ => rfl) := by
      intro single
      refine .updateMessages (fun x _ _ => ⟨rfl, rfl, rfl, fun h => ?_⟩) fun x _ hp hnot _ => ?_
      · simp [MessageRow.unsettled, sentRow] at h
      · exact absurd ((of_decide_eq_true hp).1 ▸ hanswered) hnot
    exact ((dropMirror s messageId accountId conversationId sentAt).trans (hsent _)).trans
      (bumpEndings _ _ _ _)

theorem completeSendUnknown {messageId : String} {x : MessageRow}
    (hx : s.messages.find? messageId = some x) (hpending : x.status = .pending)
    (hanswered : answered messageId) : Carries answered s (s.completeSendUnknown messageId) := by
  have hpend : ∀ y ∈ s.messages.rows, y.id = messageId → y.status = .pending := by
    intro y hy hid
    obtain ⟨hmem, hxid⟩ := Table.find?_eq_some.mp hx
    rw [s.messages.row_unique hy hmem (hid.trans hxid.symm)]
    exact hpending
  have hretire : Carries answered s (s.retireRetrySchedule messageId) :=
    .updateMessages (fun y _ _ => ⟨rfl, rfl, rfl, fun h => ⟨h, rfl⟩⟩) fun y _ _ _ h => h
  refine hretire.trans (.updateMessages (fun y hy hp => ⟨rfl, rfl, rfl, fun _ => ⟨?_, rfl⟩⟩) fun y _ hp hnot _ => ?_)
  · obtain ⟨z, hz, rfl⟩ := mem_map.mp hy
    have hid := (of_decide_eq_true hp).1
    split at hid <;> split
    all_goals simp_all [MessageRow.unsettled, MessageRow.retired]
  · exact absurd ((of_decide_eq_true hp).1 ▸ hanswered) hnot

theorem dispatchPrepared {messageId accountId conversationId : String} {params : UpstreamTextSend}
    {pendingSentAt : ℕ} {x : MessageRow} (hx : s.messages.find? messageId = some x)
    (hpending : x.status = .pending) (answer : Except EngineError SendReply) (now : ℕ)
    (hanswered : answered messageId) : Carries answered s (s.dispatchPrepared
      (.dispatch messageId accountId conversationId params pendingSentAt) answer now).2 := by
  unfold Store.dispatchPrepared
  dsimp only
  split
  · split
    · exact (settleSendFailed s _ _ _ _ hanswered).trans (seedSendReceipts _ _ _ _)
    · next reply _ _ =>
      unfold completeSendSuccessSeeded
      have hcomplete := completeOutgoingSend s messageId accountId conversationId
        (reply.timestamp.getD pendingSentAt) (sendOutcomesFromReply reply) hanswered
      split
      · next h => simpa [h] using hcomplete
      · next h =>
        rw [h] at hcomplete
        exact hcomplete.trans (seedSendReceipts _ _ _ _)
  · exact completeSendUnknown hx hpending hanswered
  · exact settleSendFailed s _ _ _ _ hanswered

theorem settleUnknownSend (s : Store) (messageId : String) (dispatched : Bool) :
    Carries answered s (s.settleUnknownSend messageId dispatched).2 := by
  unfold Store.settleUnknownSend
  dsimp only
  split
  · exact .refl answered s
  next row hfind =>
    have hsettle : Carries answered s (s.updateMessages
        (fun m => m.id = messageId ∧ m.status = .unknown)
        (fun m => { m.retired with status := if dispatched then .sent else .failed }) fun _ => rfl) := by
      refine .updateMessages (fun x _ hp => ⟨rfl, rfl, rfl, fun _ => ⟨?_, rfl⟩⟩) fun x _ hp _ hpend => ?_
      · simp [MessageRow.unsettled, (of_decide_eq_true hp).2]
      · rw [(of_decide_eq_true hp).2] at hpend
        cases hpend
    cases dispatched with
    | false => exact hsettle
    | true => exact hsettle.trans (bumpEndings _ _ _ _)

theorem startupSweep (s : Store) : Carries (fun _ => True) s s.startupSweep := by
  refine .updateMessages (fun x _ hp => ⟨rfl, rfl, rfl, fun _ => ⟨?_, rfl⟩⟩) fun x _ _ hnot => absurd trivial hnot
  simp [MessageRow.unsettled, of_decide_eq_true hp]

theorem prepareRetryText {accountId conversationId clientRequestId : String}
    {result : Except ServiceError PreparedSend}
    (h : s.prepareRetryText accountId conversationId clientRequestId = (result, s')) : Carries answered s s' := by
  rcases prepareRetryText_cases h with ⟨rfl, -⟩ | ⟨row, -, -, rfl, -⟩
  · exact .refl answered s'
  · exact rearmFailedMessage s row.id

theorem addAccount (s : Store) (row : AccountRow) :
    Carries answered s { s with accounts := s.accounts.insertOrIgnore row } where
  row _ x hx _ := ⟨x, hx, .refl x, fun _ h => h⟩
  own h := h
  account _ a ha := ⟨a, find?_insertOrIgnore_of_some ha row, rfl⟩
  conversation _ c hc := ⟨c, hc, rfl, rfl, rfl⟩

theorem addConversation (s : Store) (row : ConversationRow) :
    Carries answered s { s with conversations := s.conversations.insertOrIgnore row } where
  row _ x hx _ := ⟨x, hx, .refl x, fun _ h => h⟩
  own h := h
  account _ a ha := ⟨a, ha, rfl⟩
  conversation _ c hc := ⟨c, find?_insertOrIgnore_of_some hc row, rfl, rfl, rfl⟩

end Carries

/-! ### The invariant of a run -/

/-- The entry was dispatched for a row of the store and, while that is unsettled, lies in its thread, near its time. -/
def Dispatch.Placed (s : Store) (d : Dispatch) : Prop :=
  ∃ x, s.messages.find? d.messageId = some x ∧ x.clientRequestId.isSome ∧
    (x.unsettled → s.route x = some (d.account, d.target) ∧ near d.stamp x.sentAt.toNat)

/-- The backlog row still has its message's address, and its `sent_at` while that is unsettled. -/
def UnknownSendRow.Current (s : Store) (r : UnknownSendRow) : Prop :=
  ∃ x a c, s.messages.find? r.id = some x ∧ x.clientRequestId.isSome ∧ s.accounts.find? x.accountId = some a ∧
    s.conversations.find? x.conversationId = some c ∧ r.signalAccount = a.signalAccount ∧
    r.target = setUpstreamTarget c ∧ (x.unsettled → r.sentAt = x.sentAt.toNat)

/-- The row is settled for good, or the engine has no dispatch of it. -/
def Undispatched (s : Store) (ledger : List Dispatch) (messageId : String) : Prop :=
  ∃ x, s.messages.find? messageId = some x ∧ x.clientRequestId.isSome ∧
    (x.unsettled → ∀ d ∈ ledger, d.messageId ≠ messageId)

structure Sound (w : SendWorld) : Prop where
  own : w.store.Owned
  flying : ∀ id ∈ w.awaited, ∃ x, w.store.messages.find? id = some x ∧ x.status = .pending
  once : w.awaited.Nodup
  placed : ∀ d ∈ w.ledger, d.Placed w.store
  current : ∀ r ∈ w.backlog, r.Current w.store
  refuted : ∀ id, (id, false) ∈ w.probes → Undispatched w.store w.ledger id

section Carry

variable {answered : String → Prop} {s s' : Store}

theorem Carries.route (h : Carries answered s s') {x y : MessageRow} (hxy : Kept x y)
    {address : String × UpstreamTarget} (hroute : s.route x = some address) : s'.route y = some address := by
  obtain ⟨a, ha, hroute⟩ := Option.bind_eq_some_iff.mp hroute
  obtain ⟨c, hc, rfl⟩ := Option.map_eq_some_iff.mp hroute
  obtain ⟨hcfind, hcacc⟩ := Option.filter_eq_some_iff.mp hc
  obtain ⟨a', ha', hsignal⟩ := h.account _ a ha
  obtain ⟨c', hc', hacc, hkind, hpeer⟩ := h.conversation _ c hcfind
  have hc'' : s'.conversationById y.accountId y.conversationId = some c' := by
    rw [conversationById, hxy.accountId, hxy.conversationId, hc']
    exact Option.filter_eq_some_iff.mpr ⟨rfl, by simpa [hacc] using hcacc⟩
  unfold Store.route
  rw [hc'', hxy.accountId, ha']
  simp [hsignal, setUpstreamTarget, hkind, hpeer]

theorem Carries.placed (h : Carries answered s s') {d : Dispatch} (hd : d.Placed s) : d.Placed s' := by
  obtain ⟨x, hx, hown, hplaced⟩ := hd
  obtain ⟨y, hy, hxy, -⟩ := h.row _ x hx hown
  refine ⟨y, hy, hxy.clientRequestId ▸ hown, fun hopen => ?_⟩
  obtain ⟨hxopen, hsent⟩ := hxy.sentAt hopen
  obtain ⟨hroute, hnear⟩ := hplaced hxopen
  exact ⟨h.route hxy hroute, hsent ▸ hnear⟩

theorem Carries.current (h : Carries answered s s') {r : UnknownSendRow} (hr : r.Current s) : r.Current s' := by
  obtain ⟨x, a, c, hx, hown, ha, hc, hsignal, htarget, hsent⟩ := hr
  obtain ⟨y, hy, hxy, -⟩ := h.row _ x hx hown
  obtain ⟨a', ha', hsignal'⟩ := h.account _ a ha
  obtain ⟨c', hc', -, hkind, hpeer⟩ := h.conversation _ c hc
  refine ⟨y, a', c', hy, hxy.clientRequestId ▸ hown, hxy.accountId ▸ ha', hxy.conversationId ▸ hc',
    hsignal.trans hsignal'.symm, ?_, ?_⟩
  · rw [htarget, setUpstreamTarget, setUpstreamTarget, hkind, hpeer]
  · intro hopen
    obtain ⟨hxopen, hsame⟩ := hxy.sentAt hopen
    rw [hsame]
    exact hsent hxopen

theorem Carries.undispatched (h : Carries answered s s') {ledger : List Dispatch} {id : String}
    (hid : Undispatched s ledger id) : Undispatched s' ledger id := by
  obtain ⟨x, hx, hown, hnone⟩ := hid
  obtain ⟨y, hy, hxy, -⟩ := h.row id x hx hown
  exact ⟨y, hy, hxy.clientRequestId ▸ hown, fun hopen => hnone (hxy.sentAt hopen).1⟩

/-- A step of the store keeps the invariant if it keeps the awaited attempts. -/
theorem Sound.carry {w : SendWorld} (hw : Sound w) (h : Carries answered w.store s')
    {awaited : List String} {probes : List (String × Bool)} (hprobes : probes ⊆ w.probes)
    (hflying : ∀ id ∈ awaited, ∃ x, s'.messages.find? id = some x ∧ x.status = .pending)
    (honce : awaited.Nodup) : Sound { w with store := s', awaited, probes } where
  own := h.own hw.own
  flying := hflying
  once := honce
  placed d hd := h.placed (hw.placed d hd)
  current r hr := h.current (hw.current r hr)
  refuted id hid := h.undispatched (hw.refuted id (hprobes hid))

theorem Sound.own_of_flying {w : SendWorld} (hw : Sound w) {id : String} (hid : id ∈ w.awaited) :
    ∃ x, w.store.messages.find? id = some x ∧ x.status = .pending ∧ x.clientRequestId.isSome := by
  obtain ⟨x, hx, hpending⟩ := hw.flying id hid
  have hopen : x.unsettled := by simp [MessageRow.unsettled, hpending]
  exact ⟨x, hx, hpending, hw.own x (Table.find?_eq_some.mp hx).1 hopen⟩

theorem Sound.flying_carry {w : SendWorld} (hw : Sound w) (h : Carries answered w.store s')
    {id : String} (hid : id ∈ w.awaited) (hnot : ¬answered id) :
    ∃ x, s'.messages.find? id = some x ∧ x.status = .pending := by
  obtain ⟨x, hx, hpending, hown⟩ := hw.own_of_flying hid
  obtain ⟨y, hy, -, hkeep⟩ := h.row id x hx hown
  exact ⟨y, hy, hkeep hnot hpending⟩

theorem Sound.store_step {w : SendWorld} (hw : Sound w) (h : Carries (fun _ => False) w.store s') :
    Sound { w with store := s' } :=
  hw.carry h (fun _ hp => hp) (fun _ hid => hw.flying_carry h hid fun hf => hf) hw.once

end Carry

/-! ### Timely dispatches -/

/-- A dispatch is stamped within the tolerance of the row's `sent_at`, and not while a negative answer waits. -/
def Timely (w : SendWorld) : SendMove → Prop
  | .dispatch messageId stamp => (messageId, false) ∉ w.probes ∧
      ∀ x ∈ w.store.messages.rows, x.id = messageId → near stamp x.sentAt.toNat
  | _ => True

instance (w : SendWorld) (m : SendMove) : Decidable (Timely w m) := by
  cases m <;> unfold Timely <;> infer_instance

/-- A reconciliation that turns a row `failed` turns one the engine never dispatched. -/
def ReopensUndispatched (w : SendWorld) : SendMove → Prop
  | .settle messageId dispatched =>
    (∃ x, w.store.messages.find? messageId = some x ∧ x.status ≠ .failed) →
    (∃ y, (w.step (.settle messageId dispatched)).store.messages.find? messageId = some y ∧
      y.status = .failed) →
    ∀ d ∈ w.ledger, d.messageId ≠ messageId
  | _ => True

variable {w : SendWorld}

theorem Sound.send (hw : Sound w) {message : MessageRecord} {clientRequestId : String}
    {preview : Option String} {storedAt : ℕ} {landed : Bool} {store : Store}
    (h : w.store.insertMessage { message with status := .pending } (some clientRequestId) preview false
      storedAt = .ok (landed, store)) :
    Sound { w with store, awaited := if landed then message.id :: w.awaited else w.awaited } := by
  have hcarry : Carries (fun _ => False) w.store store := .insertMessage (fun _ => rfl) h
  have hold : ∀ id ∈ w.awaited, ∃ x, store.messages.find? id = some x ∧ x.status = .pending :=
    fun id hid => hw.flying_carry hcarry hid fun hf => hf
  cases landed with
  | false => exact hw.carry hcarry (fun _ hp => hp) hold hw.once
  | true =>
    obtain ⟨hfree, hnew⟩ := find?_insertMessage h
    have hfresh : message.id ∉ w.awaited := by
      intro hid
      obtain ⟨x, hx, -⟩ := hw.flying _ hid
      rw [show w.store.messages.find? message.id = none from hfree] at hx
      cases hx
    refine hw.carry hcarry (fun _ hp => hp) (fun id hid => ?_) (nodup_cons.mpr ⟨hfresh, hw.once⟩)
    rcases mem_cons.mp hid with rfl | hid
    · exact ⟨_, hnew, rfl⟩
    · exact hold id hid

theorem Sound.retryText (hw : Sound w) {accountId conversationId clientRequestId : String}
    {result : Except ServiceError PreparedSend} {store : Store}
    (h : w.store.prepareRetryText accountId conversationId clientRequestId = (result, store))
    {pendingId a c : String} {params : UpstreamTextSend} {sentAt : ℕ}
    (hresult : result = .ok (.dispatch pendingId a c params sentAt)) :
    Sound { w with store, awaited := pendingId :: w.awaited } := by
  have hcarry : Carries (fun _ => False) w.store store := .prepareRetryText h
  rcases prepareRetryText_cases h with ⟨-, hnot⟩ | ⟨row, hrow, hfailed, hstore, hid⟩
  · exact absurd hresult (hnot _ _ _ _ _)
  rw [hid _ _ _ _ _ hresult]
  have hmem : row ∈ w.store.messages.rows := mem_of_find?_eq_some hrow
  have hfind : w.store.messages.find? row.id = some row := Table.find?_eq_some.mpr ⟨hmem, rfl⟩
  have hfresh : row.id ∉ w.awaited := by
    intro hin
    obtain ⟨x, hx, hpending⟩ := hw.flying _ hin
    rw [hfind] at hx
    rw [← Option.some.inj hx, hfailed] at hpending
    cases hpending
  refine hw.carry hcarry (fun _ hp => hp) (fun id hid => ?_) (nodup_cons.mpr ⟨hfresh, hw.once⟩)
  rcases mem_cons.mp hid with rfl | hid
  · refine ⟨{ row.retired with status := .pending }, ?_, rfl⟩
    rw [hstore]
    refine (find?_updateMessages w.store _ _ _ row.id).trans ?_
    simp [hfind, hfailed]
  · exact hw.flying_carry hcarry hid fun hf => hf

theorem Sound.claim {w : SendWorld} (hw : Sound w) (now limit : ℕ) :
    Sound { w with
      store := (w.store.claimDueRetries now limit).2
      awaited := (w.store.claimDueRetries now limit).1.map RetryClaim.messageId ++ w.awaited } := by
  have hcarry : Carries (fun _ => False) w.store (w.store.claimDueRetries now limit).2 :=
    .claimDueRetries w.store now limit
  refine hw.carry hcarry (fun _ hp => hp) (fun id hid => ?_) ?_
  · rcases mem_append.mp hid with hid | hid
    · obtain ⟨claim, hclaim, rfl⟩ := mem_map.mp hid
      obtain ⟨x, -, -, -, -, -, hfind⟩ := mem_claims hclaim
      exact ⟨_, hfind, rfl⟩
    · exact hw.flying_carry hcarry hid fun hf => hf
  · refine nodup_append'.mpr ⟨nodup_claims _ _ _, hw.once, fun id hid hin => ?_⟩
    obtain ⟨claim, hclaim, rfl⟩ := mem_map.mp hid
    obtain ⟨x, hx, -, hxid, -, -, -⟩ := mem_claims hclaim
    obtain ⟨hmem, hdue, -⟩ := mem_dueRetries.mp hx
    obtain ⟨y, hy, hpending⟩ := hw.flying _ hin
    rw [Table.find?_eq_some.mpr ⟨hmem, hxid⟩] at hy
    rw [← Option.some.inj hy, status_of_due hdue] at hpending
    cases hpending

theorem Sound.dispatch {w : SendWorld} (hw : Sound w) {messageId account : String}
    {target : UpstreamTarget} {stamp : ℕ} (htimely : Timely w (.dispatch messageId stamp))
    (hroute : ((w.store.messages.find? messageId).filter (·.clientRequestId.isSome)).bind w.store.route =
      some (account, target)) : Sound { w with ledger := ⟨messageId, account, target, stamp⟩ :: w.ledger } := by
  obtain ⟨x, hx, hroute⟩ := Option.bind_eq_some_iff.mp hroute
  obtain ⟨hx, hown⟩ := Option.filter_eq_some_iff.mp hx
  obtain ⟨hmem, hid⟩ := Table.find?_eq_some.mp hx
  refine ⟨hw.own, hw.flying, hw.once, fun d hd => ?_, hw.current, fun id hid' => ?_⟩
  · rcases mem_cons.mp hd with rfl | hd
    · exact ⟨x, hx, hown, fun _ => ⟨hroute, htimely.2 x hmem hid⟩⟩
    · exact hw.placed d hd
  · obtain ⟨y, hy, hyown, hnone⟩ := hw.refuted id hid'
    refine ⟨y, hy, hyown, fun hopen d hd => ?_⟩
    rcases mem_cons.mp hd with rfl | hd
    · rintro rfl
      exact htimely.1 hid'
    · exact hnone hopen d hd

theorem Sound.answer {w : SendWorld} (hw : Sound w) {messageId : String} (hin : messageId ∈ w.awaited)
    {accountId conversationId : String} {params : UpstreamTextSend} {sentAt : ℕ}
    (answer : Except EngineError SendReply) (now : ℕ) :
    Sound { w with
      store := (w.store.dispatchPrepared (.dispatch messageId accountId conversationId params sentAt)
        answer now).2
      awaited := w.awaited.erase messageId } := by
  obtain ⟨x, hx, hpending⟩ := hw.flying messageId hin
  have hcarry : Carries (fun id => id = messageId) w.store (w.store.dispatchPrepared
      (.dispatch messageId accountId conversationId params sentAt) answer now).2 :=
    .dispatchPrepared hx hpending answer now rfl
  refine hw.carry hcarry (fun _ hp => hp) (fun id hid => ?_) (hw.once.erase messageId)
  have hne := ((hw.once.mem_erase_iff).mp hid).1
  exact hw.flying_carry hcarry (mem_of_mem_erase hid) hne

/-- A negative answer means that no attempt was dispatched. -/
theorem Sound.probe (hw : Sound w) {row : UnknownSendRow} (hrow : row ∈ w.backlog) : Sound { w with probes :=
      (row.id, lookupOutgoingDispatch w.ledger row.signalAccount row.target row.sentAt) :: w.probes } := by
  refine ⟨hw.own, hw.flying, hw.once, hw.placed, hw.current, fun id hid => ?_⟩
  rcases mem_cons.mp hid with heq | hid
  swap
  · exact hw.refuted id hid
  obtain ⟨rfl, hfalse⟩ := Prod.mk.inj heq
  obtain ⟨x, a, c, hx, hown, ha, hc, hsignal, htarget, hsent⟩ := hw.current row hrow
  refine ⟨x, hx, hown, fun hopen d hd hdid => ?_⟩
  obtain ⟨y, hy, -, hplaced⟩ := hw.placed d hd
  rw [hdid, hx] at hy
  cases hy
  obtain ⟨hroute, hnear⟩ := hplaced hopen
  obtain ⟨a', ha', hroute⟩ := Option.bind_eq_some_iff.mp hroute
  obtain ⟨c', hc', hpair⟩ := Option.map_eq_some_iff.mp hroute
  obtain ⟨hc', -⟩ := Option.filter_eq_some_iff.mp hc'
  cases ha.symm.trans ha'
  cases hc.symm.trans hc'
  obtain ⟨haccount, htarget'⟩ := Prod.mk.inj hpair
  have hhit : lookupOutgoingDispatch w.ledger row.signalAccount row.target row.sentAt = true := by
    refine any_eq_true.mpr ⟨d, hd, ?_⟩
    rw [hsignal, htarget, haccount, htarget', hsent hopen, hnear]
    simp
  rw [hhit] at hfalse
  cases hfalse

/-- **Timely dispatches keep the invariant.** -/
theorem Sound.step {w : SendWorld} {m : SendMove} (hw : Sound w) (hm : Timely w m) : Sound (w.step m) := by
  cases m with
  | addAccount row => exact hw.store_step (.addAccount _ row)
  | addConversation row => exact hw.store_step (.addConversation _ row)
  | receive =>
    simp only [SendWorld.step]
    split
    · exact hw
    next hsettled =>
    split
    · next h => exact hw.store_step (.insertMessage (fun hopen => absurd hopen hsettled) h)
    · exact hw
  | send =>
    simp only [SendWorld.step]
    split
    · next h => exact hw.send h
    · exact hw
  | retryText =>
    simp only [SendWorld.step]
    split
    · next h => exact hw.retryText h rfl
    · next h => exact hw.store_step (.prepareRetryText h)
  | claimDueRetries now limit => exact hw.claim now limit
  | dispatch =>
    simp only [SendWorld.step]
    split
    · next h => exact hw.dispatch hm h
    · exact hw
  | answer messageId answer params now =>
    simp only [SendWorld.step]
    split
    · split
      · next hin => exact hw.answer hin answer now
      · exact hw
    · exact hw
  | readBacklog =>
    refine ⟨hw.own, hw.flying, hw.once, hw.placed, fun r hr => ?_, hw.refuted⟩
    rcases mem_append.mp hr with hr | hr
    · obtain ⟨m, a, c, hm, hunknown, ha, hc, rfl⟩ := mem_unsettledUnknown hr
      have hown := hw.own m hm (by simp [MessageRow.unsettled, hunknown])
      exact ⟨m, a, c, Table.find?_eq_some.mpr ⟨hm, rfl⟩, hown, ha, hc, rfl, rfl, fun _ => rfl⟩
    · exact hw.current r hr
  | probe =>
    simp only [SendWorld.step]
    split
    · next hrow => exact hw.probe hrow
    · exact hw
  | settle messageId dispatched =>
    simp only [SendWorld.step]
    split
    · have hcarry : Carries (fun _ => False) w.store (w.store.settleUnknownSend messageId dispatched).2 :=
        .settleUnknownSend _ messageId dispatched
      exact hw.carry hcarry erase_subset (fun _ hid => hw.flying_carry hcarry hid fun hf => hf) hw.once
    · exact hw
  | restart =>
    have hcarry := Carries.startupSweep w.store
    exact {
      own := hcarry.own hw.own
      flying _ h := absurd h not_mem_nil
      once := nodup_nil
      placed d hd := hcarry.placed (hw.placed d hd)
      current _ h := absurd h not_mem_nil
      refuted _ h := absurd h not_mem_nil }

/-! ### Reopened rows -/

theorem Sound.reopens (hw : Sound w) (m : SendMove) : ReopensUndispatched w m := by
  cases m with
  | settle messageId dispatched =>
    rintro ⟨x, hx, hopen⟩ ⟨y, hy, hfailed⟩
    simp only [SendWorld.step] at hy
    split at hy
    swap
    · rw [hx] at hy
      exact absurd (Option.some.inj hy ▸ hfailed) hopen
    next hprobe =>
    have hunknown : x.status = .unknown := by
      by_contra hnot
      rw [settleUnknownSend_messages] at hy
      have hkeep := (find?_updateMessages w.store _ _ _ messageId).symm.trans hy
      rw [hx, Option.map_some, if_neg (by simp [hnot])] at hkeep
      exact hopen (Option.some.inj hkeep ▸ hfailed)
    rw [find?_settleUnknownSend hx hunknown] at hy
    cases dispatched with
    | true =>
      rw [← Option.some.inj hy] at hfailed
      cases hfailed
    | false =>
      obtain ⟨z, hz, -, hnone⟩ := hw.refuted messageId hprobe
      cases hx.symm.trans hz
      exact hnone (by simp [MessageRow.unsettled, hunknown])
  | _ => trivial

/-- The reconciliation of one row that is read, probed and settled in one go. -/
def SendWorld.reconcile (w : SendWorld) (proxyGroup : String) (limit : ℕ) (row : UnknownSendRow) :
    SendWorld :=
  [.readBacklog proxyGroup limit, .probe row,
    .settle row.id (lookupOutgoingDispatch w.ledger row.signalAccount row.target row.sentAt)].foldl
    SendWorld.step w

/-- It leaves the row with the engine's answer. -/
theorem SendWorld.find?_reconcile {proxyGroup : String} {limit : ℕ} {row : UnknownSendRow}
    (hrow : row ∈ w.store.unsettledUnknownOutgoingSends proxyGroup limit) :
    ∃ y, (w.reconcile proxyGroup limit row).store.messages.find? row.id = some y ∧ (y.status = .failed ↔
        lookupOutgoingDispatch w.ledger row.signalAccount row.target row.sentAt = false) := by
  obtain ⟨m, a, c, hm, hunknown, -, -, hr⟩ := mem_unsettledUnknown hrow
  have hfind : w.store.messages.find? row.id = some m := Table.find?_eq_some.mpr ⟨hm, by rw [hr]; rfl⟩
  have hstore : (w.reconcile proxyGroup limit row).store = (w.store.settleUnknownSend row.id
      (lookupOutgoingDispatch w.ledger row.signalAccount row.target row.sentAt)).2 := by
    simp [SendWorld.reconcile, SendWorld.step, hrow]
  rw [hstore]
  refine ⟨_, find?_settleUnknownSend hfind hunknown _, ?_⟩
  cases lookupOutgoingDispatch w.ledger row.signalAccount row.target row.sentAt <;> simp

/-- **A reconciliation reopens only what was never dispatched.** So for a row read, probed and settled in one go
unless the ledger has a near entry, and in every run whose dispatches are timely. -/
theorem reconcile_reopens_undispatched_iff (w : SendWorld) :
    (∀ proxyGroup limit, ∀ row ∈ w.store.unsettledUnknownOutgoingSends proxyGroup limit,
      ((∃ y, (w.reconcile proxyGroup limit row).store.messages.find? row.id = some y ∧
          y.status = .failed) → ∀ d ∈ w.ledger, d.messageId ≠ row.id) ↔ ((∃ d ∈ w.ledger, d.messageId = row.id) →
          ∃ d ∈ w.ledger, d.account = row.signalAccount ∧ d.target = row.target ∧ near d.stamp row.sentAt)) ∧
    (w.store.Owned → w.awaited = [] → w.ledger = [] → w.backlog = [] → w.probes = [] →
      ∀ moves, Along SendWorld.step Timely w moves → Along SendWorld.step ReopensUndispatched w moves) := by
  constructor
  · intro proxyGroup limit row hrow
    obtain ⟨y, hy, hanswer⟩ := SendWorld.find?_reconcile hrow
    have hhit : lookupOutgoingDispatch w.ledger row.signalAccount row.target row.sentAt ↔
        ∃ d ∈ w.ledger, d.account = row.signalAccount ∧ d.target = row.target ∧ near d.stamp row.sentAt := by
      simp [lookupOutgoingDispatch, and_assoc]
    rw [← hhit]
    constructor
    · rintro hsafe ⟨d, hd, hid⟩
      by_contra hmiss
      exact hsafe ⟨y, hy, hanswer.mpr (Bool.eq_false_iff.mpr hmiss)⟩ d hd hid
    · rintro hplaced ⟨z, hz, hfailed⟩ d hd hid
      cases hy.symm.trans hz
      rw [hplaced ⟨d, hd, hid⟩] at hanswer
      cases hanswer.mp hfailed
  · intro hown hfly hledger hbacklog hprobes moves halong
    have hstart : Sound w :=
      ⟨hown, by simp [hfly], by simp [hfly], by simp [hledger], by simp [hbacklog], by simp [hprobes]⟩
    exact halong.imp Sound (fun w m hm hw => hw.step hm) (fun w m _ hw => hw.reopens m) moves w hstart

/-- An account and a conversation, nothing sent yet. -/
def quietWorld : SendWorld where
  store := { Store.empty with
    accounts := .single (.ofAddress "a" "+15550100" "+1555***00" "default")
    conversations := .single (.ofPeer "c" "a" .direct "+15550101" "peer") }
  awaited := []
  ledger := []
  backlog := []
  probes := []

/-- A first attempt that is turned away, and an automatic retry 99 s later whose answer is lost. -/
def lateRetry : List SendMove :=
  let params : UpstreamTextSend := ⟨"+15550100", "hi", none, .recipient "+15550101", none⟩
  [.send (messageRecordFromRow (.ofText "m" "a" "c" .outgoing "a" 1000 "hi" .pending)) "request-1" none 1000,
    .answer "m" (.error .serverUnavailable) params 1500,
    .claimDueRetries 100000 8,
    .dispatch "m" 100000,
    .answer "m" (.error .unknownOutcome) params 100500,
    .readBacklog "default" 64,
    .probe ⟨"m", "a", "c", "+15550100", .direct, "+15550101", 1000⟩]

/-- An answer lost before the dispatch, a retry within the minute, and its answer lost after the dispatch. -/
def promptRetry : List SendMove :=
  let lost := .answer "m" (.error .unknownOutcome) ⟨"+15550100", "hi", none, .recipient "+15550101", none⟩ 1500
  let reconcile := lateRetry.drop 5
  lateRetry.take 1 ++ lost :: reconcile ++
    [.settle "m" false, .retryText "a" "c" "request-1", .dispatch "m" 60000, lost] ++ reconcile ++ [.settle "m" true]

/-- The first reconciliation reopens the row, the second finds it sent. -/
theorem promptRetry_reconciled :
    (((promptRetry.take 5).foldl SendWorld.step quietWorld).store.messages.find? "m").map MessageRow.status =
        some .failed ∧
      ((promptRetry.foldl SendWorld.step quietWorld).store.messages.find? "m").map MessageRow.status = some .sent ∧
      Along SendWorld.step ReopensUndispatched quietWorld promptRetry := by
  refine ⟨?_, ?_, (reconcile_reopens_undispatched_iff quietWorld).2 (fun _ h => absurd h not_mem_nil) rfl rfl rfl rfl
    promptRetry ?_⟩
  · decide +kernel
  · decide +kernel
  · decide +kernel

/-- The retry's dispatch is too far from the row's first `sent_at` to be found: the row goes out once more. -/
theorem late_retry_is_reopened : (lateRetry.foldl SendWorld.step quietWorld).ledger =
        [⟨"m", "+15550100", .recipient "+15550101", 100000⟩] ∧
      ¬ReopensUndispatched (lateRetry.foldl SendWorld.step quietWorld) (.settle "m" false) ∧
      (((lateRetry.foldl SendWorld.step quietWorld).step (.settle "m" false)).step
        (.retryText "a" "c" "request-1")).awaited = ["m"] := by
  have hledger : (lateRetry.foldl SendWorld.step quietWorld).ledger =
      [⟨"m", "+15550100", .recipient "+15550101", 100000⟩] := by decide
  refine ⟨hledger, fun h => ?_, by decide⟩
  have hbefore : ((lateRetry.foldl SendWorld.step quietWorld).store.messages.find? "m").map
      MessageRow.status = some .unknown := by decide
  have hafter : (((lateRetry.foldl SendWorld.step quietWorld).step (.settle "m" false)).store.messages.find?
      "m").map MessageRow.status = some .failed := by decide
  obtain ⟨x, hx, hxstatus⟩ := Option.map_eq_some_iff.mp hbefore
  obtain ⟨y, hy, hystatus⟩ := Option.map_eq_some_iff.mp hafter
  exact h ⟨x, hx, by simp [hxstatus]⟩ ⟨y, hy, hystatus⟩ _ (hledger ▸ mem_singleton_self _) rfl

/-! ### Awaited attempts -/

/-- The world but for what the engine and the reconciliations know. -/
def SendWorld.bare (w : SendWorld) : SendWorld := { w with ledger := [], backlog := [], probes := [] }

/-- Timely or not, a dispatch leaves the awaited attempts as they are. -/
theorem Sound.bare_step (hw : Sound w.bare) (m : SendMove) : Sound (w.step m).bare := by
  have hstep : Timely w.bare m → (w.bare.step m).store = (w.step m).store →
      (w.bare.step m).awaited = (w.step m).awaited → Sound (w.step m).bare := by
    intro hm hstore hflight
    obtain ⟨hown, hflying, honce, -⟩ := hw.step hm
    rw [hstore] at hown hflying
    rw [hflight] at hflying honce
    exact ⟨hown, hflying, honce, by simp [SendWorld.bare], by simp [SendWorld.bare], by simp [SendWorld.bare]⟩
  cases m with
  | dispatch =>
    simp only [SendWorld.step]
    split <;> exact hw
  | settle messageId dispatched =>
    simp only [SendWorld.step]
    split
    · exact hw.store_step (.settleUnknownSend _ messageId dispatched)
    · exact hw
  | probe =>
    simp only [SendWorld.step]
    split <;> exact hw
  | _ =>
    refine hstep trivial ?_ ?_
    all_goals
      simp only [SendWorld.step, SendWorld.bare]
      repeat' split
      all_goals simp_all

/-- **One attempt at a time.** No message has two awaited attempts, and the row of one with an awaited attempt is
pending. -/
theorem attempts_awaited_alone (moves : List SendMove) :
    let w := moves.foldl SendWorld.step ⟨.empty, [], [], [], []⟩
    w.awaited.Nodup ∧ ∀ id ∈ w.awaited, ∃ x, w.store.messages.find? id = some x ∧ x.status = .pending := by
  have hstart : Sound (SendWorld.mk .empty [] [] [] []) :=
    ⟨by simp [Store.Owned, Store.empty], by simp, by simp, by simp, by simp, by simp⟩
  have h := foldl_invariant (fun w => Sound w.bare) (fun _ m hw => hw.bare_step m) moves
    (SendWorld.mk .empty [] [] [] []) hstart
  exact ⟨h.once, h.flying⟩

end SignalConnector
