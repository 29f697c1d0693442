/-
# Dispatching and settling a send

A prepared send leaves through `dispatch_prepared`: the engine is called once
and its answer settles the pending row (`sent` under the upstream timestamp,
`failed` with or without a scheduled retry, or `unknown`). A claimed retry is
prepared by `prepare_outbox_retry_text`, which rebuilds the send from the
persisted row and drops the claim when the row no longer matches it.
-/
import SignalConnector.Store.Conversations
import SignalConnector.Store.Receipts
import SignalConnector.Store.RetryQueue

namespace SignalConnector

/-- How the engine fails a call. -/
inductive EngineError
  | startFailed | notRunning | backpressure | timeout | unknownOutcome | exited | protocol
  | upstream (cause : Option String) (code : Option ℤ)
  | unauthorized
  | rateLimited (retryAfterSecs : Option ℕ)
  | proofRequired | serverUnavailable | identityUnverified
  | upstreamCode (code : String)
  deriving DecidableEq

/-- An error with a code. -/
structure ApiError where
  code : String
  message : String
  retryable : Bool
  deriving DecidableEq

/-- How a request fails. -/
inductive ServiceError
  | store (error : StoreError)
  | engine (error : EngineError)
  | api (error : ApiError)
  | io
  deriving DecidableEq

/-! ### The engine's reply -/

/-- One entry of the reply's `results` array: the recipient, and which outcome keys it carries. -/
structure SendResult where
  recipientNumber : Option String
  success : Bool
  failure : Bool
  error : Bool
  deriving DecidableEq

/-- The engine's answer to `send`. -/
structure SendReply where
  timestamp : Option ℕ
  results : Option (List SendResult)
  deriving DecidableEq

/-- Counted, if any entry says. -/
def sendOutcomesFromReply (reply : SendReply) : Option MessageSendOutcomes :=
  reply.results.bind fun entries =>
    let succeeded := entries.countP SendResult.success
    let failed := entries.countP fun entry => !entry.success && entry.failure
    if 0 < succeeded ∨ 0 < failed then some ⟨succeeded, failed⟩ else none

def SendResult.seed (entry : SendResult) : Option SendReceiptSeed :=
  (entry.recipientNumber.filter (· ≠ "")).bind fun recipient =>
    if entry.success then some ⟨recipient, true⟩
    else if entry.failure || entry.error then some ⟨recipient, false⟩
    else none

/-- `send_receipt_seeds_from_reply`, with no recognizable array as no seeds. -/
def sendReceiptSeedsFromReply (reply : SendReply) : List SendReceiptSeed :=
  ((reply.results.getD []).take 256).filterMap SendResult.seed

/-- Which failures are tried again. -/
def autoRetrySchedule : EngineError → SendRetrySchedule
  | .rateLimited _ => .rateLimit
  | .serverUnavailable => .backoff
  | .upstream _ _ => .backoff
  | _ => .none

/-! ### Prepared sends -/

/-- A link card to be sent. -/
structure UpstreamSendPreview where
  url : String
  title : String
  description : Option String
  date : Option ℕ
  deriving DecidableEq

/-- `set_upstream_target`: the one address key of a send. -/
inductive UpstreamTarget
  | groupId (peerKey : String)
  | recipient (peerKey : String)
  deriving DecidableEq

/-- The upstream parameters of a rebuilt text send. -/
structure UpstreamTextSend where
  account : String
  message : String
  preview : Option UpstreamSendPreview
  target : UpstreamTarget
  quote : Option (ℕ × String)
  deriving DecidableEq

/-- A send found done, or to be made. -/
inductive PreparedSend
  | existing (message : MessageRecord)
  | dispatch (pendingId accountId conversationId : String) (params : UpstreamTextSend)
      (pendingSentAt : ℕ)
  deriving DecidableEq

/-- The group, or the peer. -/
def setUpstreamTarget (conversation : ConversationRow) : UpstreamTarget :=
  match conversation.kind with
  | .group => .groupId conversation.peerKey
  | .direct => .recipient conversation.peerKey

namespace Store

variable (s : Store)

/-- `message_by_client_request`, up to the record face. -/
def messageByClientRequest (accountId clientRequestId : String) : Option MessageRow :=
  s.messages.rows.find? fun m => m.accountId = accountId ∧ m.clientRequestId = some clientRequestId

variable (row : MessageRecord) (account : AccountRow) (claim : RetryClaim) (pendingId : String)

/-- The quoted row's time and author. -/
def resolveQuote (conversation : ConversationRow) (quoteMessageId : String) : Except ServiceError (ℕ × String) :=
  match s.messageById account.id conversation.id quoteMessageId with
  | none => .error (.store .messageNotFound)
  | some quoted =>
    match quotedAuthor account conversation quoted with
    | some author => .ok (asU64 quoted.sentAt, author)
    | none => .error (.api ⟨"INVALID_REQUEST", "quoted message author is not resolvable", false⟩)

/-- The send, from its stored row. -/
def rebuildRetryDispatch (conversation : ConversationRow) : Except ServiceError PreparedSend := do
  let quote ← match row.quoteMessageId with
    | none => pure none
    | some quoteId => do
      let quote ← s.resolveQuote account conversation quoteId
      pure (some quote)
  let preview := (row.rich.bind fun rich => rich.previews.head?).map fun card =>
    { url := card.url, title := card.title.getD "", description := card.description, date := card.date }
  return .dispatch row.id account.id conversation.id
    { account := account.signalAccount, message := row.text.getD "", preview := preview,
      target := setUpstreamTarget conversation, quote := quote } row.sentAt

/-- The claim still names the row it was made on. -/
def claimMatches (row : MessageRecord) : Bool :=
  row.id = claim.messageId && row.conversationId = claim.conversationId &&
    row.direction = .outgoing && row.status = .pending && row.sentAt = claim.sentAt

/-- `prepare_outbox_retry_text`: only the attachment arm settles the row it drops. -/
def prepareOutboxRetryText (now : ℕ) : Except ServiceError PreparedSend × Store :=
  match s.accounts.find? claim.accountId with
  | none => (.error (.store .accountNotFound), s)
  | some account =>
    match s.conversationById claim.accountId claim.conversationId with
    | none => (.error (.store .conversationNotFound), s)
    | some conversation =>
      match s.messageByClientRequest claim.accountId claim.clientRequestId with
      | none => (.error (.store .messageNotFound), s)
      | some row =>
        let row := messageRecordFromRow row
        if !claimMatches claim row then (.error (.store .messageNotFound), s)
        else if row.attachments ≠ [] then
          (.error (.store .messageNotFound), (s.settleSendFailed row.id now .none none).2)
        else if row.text.getD "" = "" then (.error (.store .messageNotFound), s)
        else (s.rebuildRetryDispatch row account conversation, s)

/-- `prepare_retry_text`: the manual retry. A settled send is replayed, only a `failed` text row is rearmed. -/
def prepareRetryText (accountId conversationId clientRequestId : String) :
    Except ServiceError PreparedSend × Store :=
  match s.accounts.find? accountId with
  | none => (.error (.store .accountNotFound), s)
  | some account =>
    match s.conversationById accountId conversationId with
    | none => (.error (.store .conversationNotFound), s)
    | some conversation =>
      match s.messageByClientRequest accountId clientRequestId with
      | none => (.error (.store .messageNotFound), s)
      | some found =>
        let row := messageRecordFromRow found
        if row.conversationId ≠ conversation.id then
          (.error (.api ⟨"INVALID_REQUEST", "clientRequestId does not belong to this conversation", false⟩), s)
        else if row.direction ≠ .outgoing then
          (.error (.api ⟨"INVALID_REQUEST", "only outgoing messages can be retried", false⟩), s)
        else if outgoingStatusIsAddressable row.status then (.ok (.existing row), s)
        else if row.status = .unknown then
          (.error (.api ⟨"RETRY_OUTCOME_UNKNOWN",
            "the original send outcome is still unknown; resend is refused to avoid double delivery", false⟩), s)
        else if row.text.getD "" = "" then
          (.error (.api ⟨"INVALID_REQUEST", "retry supports text messages only", false⟩), s)
        else if row.attachments ≠ [] then
          (.error (.api ⟨"RETRY_NOT_ALLOWED",
            "attachment sends cannot be retried; resend the attachment", false⟩), s)
        else if row.status = .pending then
          (.error (.api ⟨"RETRY_IN_FLIGHT", "retry already in flight", false⟩), s)
        else if row.status ≠ .failed then
          (.error (.api ⟨"RETRY_NOT_ALLOWED", "only a definitively failed send can be retried", false⟩), s)
        else
          match s.rearmFailedMessage row.id with
          | (none, s) => (.error (.store .messageNotFound), s)
          | (some (_, false), s) => (.error (.api ⟨"RETRY_IN_FLIGHT", "retry already in flight", false⟩), s)
          | (some (_, true), s) => (s.rebuildRetryDispatch row account conversation, s)

/-! ### Settling the engine's answer -/

/-- `complete_send_success_seeded`, up to the events it emits. -/
def completeSendSuccessSeeded (accountId conversationId : String) (sentAt : ℕ)
    (outcomes : Option MessageSendOutcomes) (seeds : List SendReceiptSeed) (when : ℕ) :
    Option ServiceError × Store :=
  match s.completeOutgoingSend pendingId accountId conversationId sentAt outcomes with
  | (none, s) => (some (.api ⟨"SEND_OUTCOME_UNKNOWN",
      "send completed upstream but the local pending record is gone", false⟩), s)
  | (some _, s) => (none, (s.seedSendReceipts pendingId seeds when).2)

/-- The answer was lost. -/
def completeSendUnknown (pendingId : String) : Store :=
  ((s.retireRetrySchedule pendingId).updateMessageStatus pendingId .unknown none).2

/-- No member was reached. -/
def completeSendFailedGroupOutcomes (outcomes : MessageSendOutcomes)
    (seeds : List SendReceiptSeed) (now : ℕ) : Store :=
  ((s.settleSendFailed pendingId now .none (some outcomes)).2.seedSendReceipts pendingId seeds now).2

/-- The engine said no. -/
def completeSendFailedForEngine (error : EngineError) (now : ℕ) : Store :=
  (s.settleSendFailed pendingId now (autoRetrySchedule error) none).2

/-- `dispatch_prepared` under the engine's answer: the error it reports, if any, and the store. -/
def dispatchPrepared (prepared : PreparedSend) (answer : Except EngineError SendReply)
    (now : ℕ) : Option ServiceError × Store :=
  match prepared with
  | .existing _ => (none, s)
  | .dispatch pendingId accountId conversationId _ pendingSentAt =>
    match answer with
    | .ok reply =>
      let seeds := sendReceiptSeedsFromReply reply
      match (sendOutcomesFromReply reply).filter (·.succeeded = 0) with
      | some outcomes =>
        (some (.api ⟨"GROUP_SEND_FAILED", "send failed for every recipient", true⟩),
          s.completeSendFailedGroupOutcomes pendingId outcomes seeds now)
      | none =>
        s.completeSendSuccessSeeded pendingId accountId conversationId
          (reply.timestamp.getD pendingSentAt) (sendOutcomesFromReply reply) seeds now
    | .error .unknownOutcome =>
      (some (.api ⟨"SEND_OUTCOME_UNKNOWN", "mutating request has an unknown outcome", false⟩),
        s.completeSendUnknown pendingId)
    | .error error => (some (.engine error), s.completeSendFailedForEngine pendingId error now)

/-! ### Which claims can be rebuilt -/

/-- The quote of the row still resolves. -/
def quoteResolves (conversation : ConversationRow) : Option String → Bool
  | none => true
  | some quoteId => (s.messageById account.id conversation.id quoteId).any fun quoted =>
      (quotedAuthor account conversation quoted).isSome

/-- The claim's account, conversation and row are there, and the row is the one claimed. -/
def claimedRow (claim : RetryClaim) : Option (AccountRow × ConversationRow × MessageRow) :=
  (s.accounts.find? claim.accountId).bind fun account =>
    (s.conversationById claim.accountId claim.conversationId).bind fun conversation =>
      ((s.messageByClientRequest claim.accountId claim.clientRequestId).filter fun row =>
        claimMatches claim (messageRecordFromRow row)).map fun row => (account, conversation, row)

/-- A text row without attachments whose quote, if it has one, resolves. -/
def rebuildable (claim : RetryClaim) : Bool :=
  (s.claimedRow claim).any fun (account, conversation, row) =>
    (messageRecordFromRow row).attachments = [] && row.body.getD "" ≠ "" &&
      s.quoteResolves account conversation row.quoteMessageId

/-- The attachment arm of `prepare_outbox_retry_text` is taken. -/
def carriesAttachments (claim : RetryClaim) : Bool :=
  (s.claimedRow claim).any fun (_, _, row) => (messageRecordFromRow row).attachments ≠ []

variable {s : Store} {claim : RetryClaim} {row : MessageRow} {account : AccountRow} {conversation : ConversationRow}

theorem rebuildRetryDispatch_ok (h : s.quoteResolves account conversation row.quoteMessageId) :
    ∃ params, s.rebuildRetryDispatch (messageRecordFromRow row) account conversation =
      .ok (.dispatch row.id account.id conversation.id params (asU64 row.sentAt)) := by
  unfold rebuildRetryDispatch
  rw [show (messageRecordFromRow row).quoteMessageId = row.quoteMessageId from rfl]
  cases hq : row.quoteMessageId with
  | none => exact ⟨_, rfl⟩
  | some quoteId =>
    rw [hq, quoteResolves] at h
    cases hm : s.messageById account.id conversation.id quoteId with
    | none => simp [hm] at h
    | some quoted =>
      obtain ⟨author, ha⟩ := Option.isSome_iff_exists.mp (by simpa [hm] using h)
      have hresolve : s.resolveQuote account conversation quoteId = .ok (asU64 quoted.sentAt, author) := by
        simp [resolveQuote, hm, ha]
      exact ⟨_, by simp only [hresolve]; rfl⟩

theorem rebuildRetryDispatch_error (h : s.quoteResolves account conversation row.quoteMessageId = false) :
    ∃ error, s.rebuildRetryDispatch (messageRecordFromRow row) account conversation = .error error := by
  unfold rebuildRetryDispatch
  rw [show (messageRecordFromRow row).quoteMessageId = row.quoteMessageId from rfl]
  cases hq : row.quoteMessageId with
  | none => simp [hq, quoteResolves] at h
  | some quoteId =>
    rw [hq, quoteResolves] at h
    cases hm : s.messageById account.id conversation.id quoteId with
    | none =>
      have hresolve : s.resolveQuote account conversation quoteId = .error (.store .messageNotFound) := by
        simp [resolveQuote, hm]
      exact ⟨_, by simp only [hresolve]; rfl⟩
    | some quoted =>
      have ha : quotedAuthor account conversation quoted = none := by simpa [hm] using h
      have hresolve : s.resolveQuote account conversation quoteId =
          .error (.api ⟨"INVALID_REQUEST", "quoted message author is not resolvable", false⟩) := by
        simp [resolveQuote, hm, ha]
      exact ⟨_, by simp only [hresolve]; rfl⟩

theorem rebuildRetryDispatch_pendingId {pendingId a c : String} {params : UpstreamTextSend} {sentAt : ℕ}
    (h : s.rebuildRetryDispatch (messageRecordFromRow row) account conversation =
      .ok (.dispatch pendingId a c params sentAt)) : pendingId = row.id := by
  cases hquote : s.quoteResolves account conversation row.quoteMessageId with
  | true =>
    obtain ⟨params', hok⟩ := rebuildRetryDispatch_ok hquote
    rw [hok] at h
    cases h
    rfl
  | false =>
    obtain ⟨error, herror⟩ := rebuildRetryDispatch_error hquote
    rw [herror] at h
    cases h

theorem prepareRetryText_cases {s' : Store} {accountId conversationId clientRequestId : String}
    {result : Except ServiceError PreparedSend}
    (h : s.prepareRetryText accountId conversationId clientRequestId = (result, s')) :
    (s' = s ∧ ∀ pendingId a c params sentAt, result ≠ .ok (.dispatch pendingId a c params sentAt)) ∨
    ∃ row, s.messageByClientRequest accountId clientRequestId = some row ∧ row.status = .failed ∧
      s' = (s.rearmFailedMessage row.id).2 ∧
      ∀ pendingId a c params sentAt, result = .ok (.dispatch pendingId a c params sentAt) → pendingId = row.id := by
  unfold prepareRetryText at h
  split at h
  · cases h
    exact .inl ⟨rfl, by simp⟩
  split at h
  · cases h
    exact .inl ⟨rfl, by simp⟩
  split at h
  · cases h
    exact .inl ⟨rfl, by simp⟩
  next account _ conversation _ found hfound =>
  dsimp only at h
  iterate 8
    split at h
    · cases h
      exact .inl ⟨rfl, by simp⟩
  next hstatus =>
  have hfailed : found.status = .failed := by simpa [messageRecordFromRow] using hstatus
  have hid : (messageRecordFromRow found).id = found.id := rfl
  rw [hid] at h
  refine .inr ⟨found, hfound, hfailed, ?_⟩
  split at h
  · next hrearm =>
    cases h
    exact ⟨by rw [hrearm], by simp⟩
  · next hrearm =>
    cases h
    exact ⟨by rw [hrearm], by simp⟩
  · next hrearm =>
    cases h
    exact ⟨by rw [hrearm], fun pendingId a c params sentAt hok => rebuildRetryDispatch_pendingId hok⟩

theorem claimedRow_spec (h : s.claimedRow claim = some (account, conversation, row)) :
    s.accounts.find? claim.accountId = some account ∧
      s.conversationById claim.accountId claim.conversationId = some conversation ∧
      s.messageByClientRequest claim.accountId claim.clientRequestId = some row ∧
      claimMatches claim (messageRecordFromRow row) := by
  obtain ⟨account', ha, h⟩ := Option.bind_eq_some_iff.mp h
  obtain ⟨conversation', hc, h⟩ := Option.bind_eq_some_iff.mp h
  obtain ⟨row', hr, h⟩ := Option.map_eq_some_iff.mp h
  cases h
  obtain ⟨hm, hmatch⟩ := Option.filter_eq_some_iff.mp hr
  exact ⟨ha, hc, hm, hmatch⟩

theorem prepareOutboxRetryText_of_none (now : ℕ)
    (h : s.claimedRow claim = none) : ∃ error, s.prepareOutboxRetryText claim now = (.error error, s) := by
  unfold prepareOutboxRetryText
  split
  · exact ⟨_, rfl⟩
  next account ha =>
    split
    · exact ⟨_, rfl⟩
    next conversation hc =>
      split
      · exact ⟨_, rfl⟩
      next row hm =>
        have hmatch : claimMatches claim (messageRecordFromRow row) = false := by
          simpa [claimedRow, ha, hc, hm] using h
        refine ⟨.store .messageNotFound, ?_⟩
        simp [hmatch]

/-- **The three ends of `prepare_outbox_retry_text`**: a rebuildable claim is prepared under its row; one on an
attachment row is dropped and its row settled; any other is dropped. -/
theorem prepareOutboxRetryText_cases (s : Store) (claim : RetryClaim) (now : ℕ) :
    (s.rebuildable claim ∧ ∃ params, s.prepareOutboxRetryText claim now =
      (.ok (.dispatch claim.messageId claim.accountId claim.conversationId params claim.sentAt), s)) ∨
    (s.rebuildable claim = false ∧ s.carriesAttachments claim ∧
      s.prepareOutboxRetryText claim now = (.error (.store .messageNotFound),
        (s.settleSendFailed claim.messageId now .none none).2)) ∨
    (s.rebuildable claim = false ∧ s.carriesAttachments claim = false ∧
      ∃ error, s.prepareOutboxRetryText claim now = (.error error, s)) := by
  cases hclaimed : s.claimedRow claim with
  | none =>
    exact .inr (.inr ⟨by simp [rebuildable, hclaimed], by simp [carriesAttachments, hclaimed],
      prepareOutboxRetryText_of_none now hclaimed⟩)
  | some found =>
    obtain ⟨account, conversation, row⟩ := found
    obtain ⟨ha, hc, hm, hmatch⟩ := claimedRow_spec hclaimed
    have haccount : account.id = claim.accountId := Table.key_of_find? ha
    have hconversation : conversation.id = claim.conversationId :=
      Table.key_of_find? (Option.filter_eq_some_iff.mp hc).1
    obtain ⟨hid, hsent⟩ : row.id = claim.messageId ∧ asU64 row.sentAt = claim.sentAt := by
      simp only [claimMatches, Bool.and_eq_true, decide_eq_true_eq] at hmatch
      exact ⟨hmatch.1.1.1.1, hmatch.2⟩
    have hprepare : s.prepareOutboxRetryText claim now =
        if (messageRecordFromRow row).attachments ≠ [] then
          (.error (.store .messageNotFound), (s.settleSendFailed claim.messageId now .none none).2)
        else if row.body.getD "" = "" then (.error (.store .messageNotFound), s)
        else (s.rebuildRetryDispatch (messageRecordFromRow row) account conversation, s) := by
      unfold prepareOutboxRetryText
      simp only [ha, hc, hm, hmatch, Bool.not_true, Bool.false_eq_true, if_false, ← hid]
      rfl
    have hrebuildable : s.rebuildable claim = ((messageRecordFromRow row).attachments = [] &&
        row.body.getD "" ≠ "" && s.quoteResolves account conversation row.quoteMessageId) := by
      simp [rebuildable, hclaimed]
    have hcarries : s.carriesAttachments claim = decide ((messageRecordFromRow row).attachments ≠ []) := by
      simp [carriesAttachments, hclaimed]
    rw [hprepare, hrebuildable, hcarries]
    by_cases hatt : (messageRecordFromRow row).attachments = []
    swap
    · exact .inr (.inl (by simp [hatt]))
    by_cases hbody : row.body.getD "" = ""
    · exact .inr (.inr (by simp [hatt, hbody]))
    cases hquote : s.quoteResolves account conversation row.quoteMessageId with
    | true =>
      obtain ⟨params, hok⟩ := rebuildRetryDispatch_ok hquote
      rw [hid, haccount, hconversation, hsent] at hok
      exact .inl ⟨by simp [hatt, hbody], params, by simp [hatt, hbody, hok]⟩
    | false =>
      obtain ⟨error, herror⟩ := rebuildRetryDispatch_error hquote
      exact .inr (.inr ⟨by simp, by simp [hatt], error, by simp [hatt, hbody, herror]⟩)

/-! ### What settling one row leaves alone -/

/-- From `s` to `s'` only rows with these ids changed; a row without a client request id may be gone. -/
structure Touches (ids : List String) (s s' : Store) : Prop where
  old : ∀ id y, id ∉ ids → s'.messages.find? id = some y → s.messages.find? id = some y
  kept : ∀ id x, id ∉ ids → s.messages.find? id = some x → x.clientRequestId.isSome →
    s'.messages.find? id = some x

namespace Touches

variable {ids ids' : List String} {messageId : String} {s s' s'' : Store}

theorem refl (ids : List String) (s : Store) : Touches ids s s :=
  ⟨fun _ _ _ h => h, fun _ _ _ h _ => h⟩

theorem trans (h : Touches ids s s') (h' : Touches ids s' s'') : Touches ids s s'' where
  old id y hne hy := h.old id y hne (h'.old id y hne hy)
  kept id x hne hx hc := h'.kept id x hne (h.kept id x hne hx hc) hc

theorem mono (h : Touches ids s s') (hsub : ids ⊆ ids') : Touches ids' s s' where
  old id y hne := h.old id y fun hid => hne (hsub hid)
  kept id x hne := h.kept id x fun hid => hne (hsub hid)

theorem of_messages (h : s'.messages = s.messages) : Touches ids s s' :=
  ⟨fun _ _ _ hy => h ▸ hy, fun _ _ _ hx _ => h ▸ hx⟩

theorem updateMessages {p : MessageRow → Bool} {f : MessageRow → MessageRow} {hf : ∀ m, (f m).id = m.id}
    (hp : ∀ m, p m → m.id = messageId) : Touches [messageId] s (s.updateMessages p f hf) := by
  have hother : ∀ id, id ∉ [messageId] →
      (s.updateMessages p f hf).messages.find? id = s.messages.find? id := by
    intro id hne
    rw [find?_updateMessages]
    cases hx : s.messages.find? id with
    | none => rfl
    | some x =>
      have hpx : p x = false := Bool.eq_false_iff.mpr fun h =>
        hne (List.mem_singleton.mpr ((Table.key_of_find? hx).symm.trans (hp x h)))
      simp [hpx]
  exact ⟨fun id y hne hy => hother id hne ▸ hy, fun id x hne hx _ => (hother id hne).trans hx⟩

end Touches

theorem settleSendFailed_touches (s : Store) (messageId : String) (now : ℕ)
    (schedule : SendRetrySchedule) (outcomes : Option MessageSendOutcomes) :
    Touches [messageId] s (s.settleSendFailed messageId now schedule outcomes).2 := by
  rw [settleSendFailed_eq]
  exact .updateMessages fun m hm => (of_decide_eq_true hm).1

theorem seedSendReceipts_messages (s : Store) (messageId : String) (seeds : List SendReceiptSeed)
    (when : ℕ) : (s.seedSendReceipts messageId seeds when).2.messages = s.messages := by
  obtain ⟨ledger, h⟩ := s.seedSendReceipts_frame messageId seeds when
  rw [h]

theorem dropMirror_touches (s : Store) (messageId accountId conversationId : String) (sentAt : ℕ) :
    Touches [messageId] s (s.dropMirror (s.duplicateIds messageId accountId conversationId sentAt)) := by
  refine ⟨fun id y _ hy => ?_, fun id x _ hx hc => ?_⟩
  · obtain ⟨hmem, hid⟩ := Table.find?_eq_some.mp hy
    exact Table.find?_eq_some.mpr ⟨mem_of_mem_dropMirror hmem, hid⟩
  · obtain ⟨hmem, hid⟩ := Table.find?_eq_some.mp hx
    exact Table.find?_eq_some.mpr ⟨mem_dropMirror_of_own hmem hc, hid⟩

theorem completeOutgoingSend_touches (s : Store) (messageId accountId conversationId : String)
    (sentAt : ℕ) (outcomes : Option MessageSendOutcomes) :
    Touches [messageId] s (s.completeOutgoingSend messageId accountId conversationId sentAt outcomes).2 := by
  unfold completeOutgoingSend
  dsimp only
  split
  · exact .refl _ s
  · refine (s.dropMirror_touches messageId accountId conversationId sentAt).trans ?_
    have hsent : ∀ single : Store, Touches [messageId] single (single.updateMessages
        (fun m => m.id = messageId ∧ m.accountId = accountId ∧ m.conversationId = conversationId)
        (sentRow sentAt outcomes) fun _ => rfl) :=
      fun single => .updateMessages fun m hm => (of_decide_eq_true hm).1
    exact (hsent _).trans (.of_messages rfl)

/-- **Settling a send is local.** -/
theorem dispatchPrepared_touches (s : Store) (pendingId accountId conversationId : String)
    (params : UpstreamTextSend) (pendingSentAt : ℕ) (answer : Except EngineError SendReply) (now : ℕ) :
    Touches [pendingId] s
      (s.dispatchPrepared (.dispatch pendingId accountId conversationId params pendingSentAt) answer now).2 := by
  unfold dispatchPrepared
  dsimp only
  split
  · split
    · unfold completeSendFailedGroupOutcomes
      exact (s.settleSendFailed_touches _ _ _ _).trans (.of_messages (seedSendReceipts_messages _ _ _ _))
    · next reply _ _ =>
      unfold completeSendSuccessSeeded
      have htouch := s.completeOutgoingSend_touches pendingId accountId conversationId
        (reply.timestamp.getD pendingSentAt) (sendOutcomesFromReply reply)
      split
      · next h => simpa [h] using htouch
      · next h =>
        rw [h] at htouch
        exact htouch.trans (.of_messages (seedSendReceipts_messages _ _ _ _))
  · have hretire : Touches [pendingId] s (s.retireRetrySchedule pendingId) :=
      .updateMessages fun m hm => of_decide_eq_true hm
    exact hretire.trans (.updateMessages fun m hm => (of_decide_eq_true hm).1)
  · exact s.settleSendFailed_touches _ _ _ _

end Store

end SignalConnector
