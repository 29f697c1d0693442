/-
# The automatic-retry queue

A send that failed definitively may be scheduled for an automatic retry. The
queue has no table of its own: it is the outgoing `failed` rows whose
`next_attempt_at` is set. `settle_send_failed` is the only way in;
`claim_due_retries` takes due rows out by flipping them back to `pending`, and
a manual retry, a settled outcome or a restart retire a row's schedule.
-/
import SignalConnector.Lib.Select
import SignalConnector.Store.Messages

namespace SignalConnector

open List

/-- `SendRetrySchedule`: what follows a settled failure. -/
inductive SendRetrySchedule
  | none | backoff | rateLimit
  deriving DecidableEq

def maxRetryAttempts : ℕ := 128
def maxRetryQueuedPerAccount : ℕ := 256
def retryBackoffBaseMs : ℕ := 190
def retryBackoffMaxMs : ℕ := 900000
def retryWindowMs : ℕ := 24 * 60 * 60 * 1000
def rateLimitRetryAfterMs : ℕ := 60000

/-- The loop of `retry_backoff_delay_ms`: `rounds` more beats in saturating `u64` arithmetic, left at the cap. -/
def retryBackoffLoop : ℕ → ℕ → ℕ
  | 0, delay => min delay retryBackoffMaxMs
  | rounds + 1, delay =>
    let delay := min (delay * 19) (2 ^ 64 - 1) / 10
    if retryBackoffMaxMs ≤ delay then retryBackoffMaxMs else retryBackoffLoop rounds delay

/-- The beat before a retry. -/
def retryBackoffDelayMs (retryNumber : ℕ) : ℕ := retryBackoffLoop (retryNumber - 1) retryBackoffBaseMs

/-- The pause before the next attempt: the server's for the rate limits, else the curve's. -/
def SendRetrySchedule.delayMs (schedule : SendRetrySchedule) (attemptCount : ℕ) : ℕ :=
  match schedule with
  | .rateLimit => rateLimitRetryAfterMs
  | _ => retryBackoffDelayMs (attemptCount + 1)

/-- `u64::saturating_add`. -/
def satAddU64 (a b : ℕ) : ℕ := min (a + b) (2 ^ 64 - 1)

namespace MessageRow

/-- The scheduling face, retired. -/
def retired (m : MessageRow) : MessageRow :=
  { m with firstSendAttemptedAt := none, retryAttemptCount := 0, nextAttemptAt := none }

/-- In the retry queue: outgoing, `failed`, with a scheduled attempt. -/
def claimable (m : MessageRow) : Bool :=
  m.direction = .outgoing && m.status = .failed && m.nextAttemptAt.isSome

/-- The gate of the schedule arm: an outbound text row with a request id, no attachments, and attempts left. -/
def eligible (m : MessageRow) : Bool :=
  m.direction = .outgoing && (m.body.any fun body => body ≠ "") && m.clientRequestId.isSome &&
    !hasAttachmentDescriptors m.attachments && m.retryAttemptCount < maxRetryAttempts

end MessageRow

/-- `UnknownSendRow`: one row of the unknown-outcome backlog and its address. -/
structure UnknownSendRow where
  id : String
  accountId : String
  conversationId : String
  signalAccount : String
  conversationKind : ConversationKind
  peerKey : String
  sentAt : ℕ
  deriving DecidableEq

namespace UnknownSendRow

/-- The backlog row of a message, its account and its conversation. -/
def ofRows (m : MessageRow) (a : AccountRow) (c : ConversationRow) : UnknownSendRow where
  id := m.id
  accountId := m.accountId
  conversationId := m.conversationId
  signalAccount := a.signalAccount
  conversationKind := c.kind
  peerKey := c.peerKey
  sentAt := m.sentAt.toNat

end UnknownSendRow

namespace Store

/-! ### Settling a failure -/

/-- A failed row leaves the queue. -/
def retireRetryScheduleIn (s : Store) (messageId : String) : Store :=
  s.updateMessages (fun m => m.id = messageId ∧ m.status = .failed)
    (fun m => { m with nextAttemptAt := none }) fun _ => rfl

/-- The row leaves the queue. -/
def retireRetrySchedule (s : Store) (messageId : String) : Store :=
  s.updateMessages (fun m => m.id = messageId) MessageRow.retired fun _ => rfl

/-- The rows of the account that are in the queue, without `messageId`. -/
def queuedOthers (s : Store) (accountId messageId : String) : ℕ :=
  s.messages.rows.countP fun m => m.accountId = accountId ∧ m.claimable ∧ m.id ≠ messageId

/-- The schedule's write: the beat, one more attempt, and the window's anchor if it has none. -/
def scheduledRow (now delay : ℕ) (m : MessageRow) : MessageRow :=
  { m with
    nextAttemptAt := some (asI64 (satAddU64 now delay))
    retryAttemptCount := m.retryAttemptCount + 1
    firstSendAttemptedAt := m.firstSendAttemptedAt.or (some (asI64 now)) }

/-- `settle_send_failed_schedule`: every refusal clears the schedule. -/
def settleSendFailedSchedule (s : Store) (messageId : String) (now : ℕ) (schedule : SendRetrySchedule) :
    Store :=
  match schedule with
  | .none => s
  | _ =>
    match s.messages.rows.find? fun m => m.id = messageId ∧ m.status = .failed with
    | none => s
    | some row =>
      if !row.eligible then s.retireRetryScheduleIn messageId
      else if maxRetryQueuedPerAccount ≤ s.queuedOthers row.accountId messageId then
        s.retireRetryScheduleIn messageId
      else
        s.updateMessages (fun m => m.id = messageId ∧ m.status = .failed)
          (scheduledRow now (schedule.delayMs row.retryAttemptCount)) fun _ => rfl

/-- The status write of `settle_send_failed`: alone when a schedule follows, else with the queue face retired. -/
def failedRow (schedule : SendRetrySchedule) (outcomes : Option MessageSendOutcomes) (m : MessageRow) :
    MessageRow :=
  match schedule with
  | .none => { m.retired with status := .failed, sendOutcomes := (outcomes.map .parsed).or m.sendOutcomes }
  | _ => { m with status := .failed }

variable (s : Store) (accountId messageId : String) (now : ℕ) (schedule : SendRetrySchedule)

variable (outcomes : Option MessageSendOutcomes)

theorem failedRow_id (m : MessageRow) : (failedRow schedule outcomes m).id = m.id := by
  cases schedule <;> rfl

/-- A pending send has failed. -/
def settleSendFailed : Option (MessageRecord × Bool) × Store :=
  let due : MessageRow → Bool := fun m => m.id = messageId ∧ m.status = .pending
  if s.messages.rows.any due then
    let failed := s.updateMessages due (failedRow schedule outcomes) (failedRow_id schedule outcomes)
    let s := failed.settleSendFailedSchedule messageId now schedule
    (s.readBack messageId true, s)
  else (none, s)

/-- What a settled failure leaves of its pending row, in the store `s` it is settled in. -/
def settledRow (m : MessageRow) : MessageRow :=
  if schedule = .none then failedRow schedule outcomes m
  else if m.eligible && s.queuedOthers m.accountId m.id < maxRetryQueuedPerAccount then
    scheduledRow now (schedule.delayMs m.retryAttemptCount) { m with status := .failed }
  else { m with status := .failed, nextAttemptAt := none }

theorem settledRow_id (m : MessageRow) : (s.settledRow now schedule outcomes m).id = m.id := by
  unfold settledRow
  split
  · exact failedRow_id schedule outcomes m
  · split <;> rfl

/-- The ceiling's count looks past the row itself. -/
theorem queuedOthers_updateMessages
    {p : MessageRow → Bool} {f : MessageRow → MessageRow} {hf : ∀ m, (f m).id = m.id}
    (hp : ∀ m, p m → m.id = messageId) :
    (s.updateMessages p f hf).queuedOthers accountId messageId = s.queuedOthers accountId messageId := by
  unfold queuedOthers
  rw [rows_updateMessages, countP_map]
  refine countP_congr fun m _ => ?_
  by_cases h : p m
  · simp [h, hf, hp m h]
  · simp [h]

theorem settleSendFailedSchedule_eq {s : Store} {row : MessageRow} (hrow : row ∈ s.messages.rows)
    (hpending : row.status = .pending) (now : ℕ) {schedule : SendRetrySchedule}
    (hschedule : schedule ≠ .none) (outcomes : Option MessageSendOutcomes) :
    (s.updateMessages (fun m => m.id = row.id ∧ m.status = .pending) (failedRow schedule outcomes)
        (failedRow_id schedule outcomes)).settleSendFailedSchedule row.id now schedule =
      s.updateMessages (fun m => m.id = row.id ∧ m.status = .pending)
        (s.settledRow now schedule outcomes) (s.settledRow_id now schedule outcomes) := by
  set failed := s.updateMessages (fun m => m.id = row.id ∧ m.status = .pending)
    (failedRow schedule outcomes) (failedRow_id schedule outcomes) with hfailed
  have hface : failedRow schedule outcomes row = { row with status := .failed } := by
    cases schedule
    · exact absurd rfl hschedule
    · rfl
    · rfl
  have hmem : { row with status := .failed } ∈ failed.messages.rows := by
    rw [hfailed, rows_updateMessages]
    exact mem_map.mpr ⟨row, hrow, by simp [hpending, hface]⟩
  have hfind : failed.messages.rows.find? (fun m => m.id = row.id ∧ m.status = .failed) =
      some { row with status := .failed } := by
    cases h : failed.messages.rows.find? (fun m => m.id = row.id ∧ m.status = .failed) with
    | none => simpa using List.find?_eq_none.mp h _ hmem
    | some =>
      have hm := find?_some h
      rw [decide_eq_true_eq] at hm
      rw [failed.messages.row_unique (mem_of_find?_eq_some h) hmem hm.1]
  have hqueued : failed.queuedOthers row.accountId row.id = s.queuedOthers row.accountId row.id :=
    s.queuedOthers_updateMessages _ _ fun m hm => (of_decide_eq_true hm).1
  have hwrite : ∀ g hg, g { row with status := .failed } = s.settledRow now schedule outcomes row →
      failed.updateMessages (fun m => m.id = row.id ∧ m.status = .failed) g hg =
        s.updateMessages (fun m => m.id = row.id ∧ m.status = .pending)
          (s.settledRow now schedule outcomes) (s.settledRow_id now schedule outcomes) := by
    intro g hg hgrow
    refine updateMessages_trans fun m hm => ?_
    by_cases h : m.id = row.id
    · rw [s.messages.row_unique hm hrow h]
      simp [hpending, hface, hgrow]
    · simp [h]
  have heligible : ({ row with status := .failed } : MessageRow).eligible = row.eligible := rfl
  unfold settleSendFailedSchedule
  split
  · exact absurd rfl hschedule
  rw [hfind]
  dsimp only
  rw [heligible, hqueued]
  by_cases he : row.eligible
  · by_cases hq : maxRetryQueuedPerAccount ≤ s.queuedOthers row.accountId row.id
    · rw [if_neg (by simp [he]), if_pos hq]
      exact hwrite _ _ (by simp [settledRow, hschedule, Nat.not_lt.mpr hq])
    · rw [if_neg (by simp [he]), if_neg hq]
      exact hwrite _ _ (by simp [settledRow, hschedule, he, Nat.not_le.mp hq])
  · rw [if_pos (by simp [he])]
    exact hwrite _ _ (by simp [settledRow, hschedule, he])

/-- **A settled failure in closed form.** The pending row turns `failed`, and is scheduled if eligible and the queue
has room. -/
theorem settleSendFailed_eq : (s.settleSendFailed messageId now schedule outcomes).2 =
      s.updateMessages (fun m => m.id = messageId ∧ m.status = .pending)
        (s.settledRow now schedule outcomes) (s.settledRow_id now schedule outcomes) := by
  unfold settleSendFailed
  dsimp only
  by_cases hany : s.messages.rows.any fun m => m.id = messageId ∧ m.status = .pending
  · rw [if_pos hany]
    obtain ⟨row, hrow, hdue⟩ := any_eq_true.mp hany
    obtain ⟨rfl, hpending⟩ := of_decide_eq_true hdue
    by_cases hschedule : schedule = .none
    · subst hschedule
      exact updateMessages_congr fun m _ => rfl
    · exact settleSendFailedSchedule_eq hrow hpending now hschedule outcomes
  · rw [if_neg hany, updateMessages_of_none]
    exact fun m hm => Bool.eq_false_iff.mpr fun hp => hany (any_eq_true.mpr ⟨m, hm, hp⟩)

/-- A failed row is to be sent again. -/
def rearmFailedMessage : Option (MessageRecord × Bool) × Store :=
  let due : MessageRow → Bool := fun m => m.id = messageId ∧ m.status = .failed
  let changed := s.messages.rows.any due
  let s := s.updateMessages due (fun m => { m.retired with status := .pending }) fun _ => rfl
  (s.readBack messageId changed, s)

/-- `settle_unknown_send`: the engine's answer settles a row that is still `unknown`. -/
def settleUnknownSend (dispatched : Bool) : Option (MessageRecord × Bool) × Store :=
  let due : MessageRow → Bool := fun m => m.id = messageId ∧ m.status = .unknown
  match s.messages.rows.find? due with
  | none => (none, s)
  | some row =>
    let status := if dispatched then MessageStatus.sent else .failed
    let s := s.updateMessages due (fun m => { m.retired with status := status }) fun _ => rfl
    let s := if dispatched then s.bumpEndings row.accountId row.conversationId row.sentAt else s
    (s.readBack messageId true, s)

/-- Only a row that is still `unknown` takes the engine's answer. -/
theorem settleUnknownSend_messages (dispatched : Bool) :
    (s.settleUnknownSend messageId dispatched).2.messages = (s.updateMessages
      (fun m => m.id = messageId ∧ m.status = .unknown)
      (fun m => { m.retired with status := if dispatched then .sent else .failed }) fun _ => rfl).messages := by
  unfold settleUnknownSend
  dsimp only
  split
  · next hnone =>
    have hkeep := fun m hm => Bool.eq_false_iff.mpr (List.find?_eq_none.mp hnone m hm)
    exact congrArg Store.messages (updateMessages_of_none hkeep).symm
  · cases dispatched <;> rfl

/-- The answer to a row that is `unknown`. -/
theorem find?_settleUnknownSend {s : Store} {messageId : String} {x : MessageRow}
    (hx : s.messages.find? messageId = some x) (hunknown : x.status = .unknown) (dispatched : Bool) :
    (s.settleUnknownSend messageId dispatched).2.messages.find? messageId =
      some { x.retired with status := if dispatched then .sent else .failed } := by
  have hid : x.id = messageId := Table.key_of_find? hx
  rw [settleUnknownSend_messages]
  refine (find?_updateMessages s _ _ _ messageId).trans ?_
  simp [hx, hid, hunknown]

/-- `unsettled_unknown_outgoing_sends`: the backlog of one proxy group, oldest first. -/
def unsettledUnknownOutgoingSends (proxyGroup : String) (limit : ℕ) : List UnknownSendRow :=
  let rows := s.messages.rows.filter fun m => m.status = .unknown ∧ m.direction = .outgoing
  let joined := (rows.insertionSort (lexLe MessageRow.sentAt MessageRow.id)).filterMap fun m =>
    (s.accounts.find? m.accountId).bind fun a =>
      (s.conversations.find? m.conversationId).bind fun c =>
        if a.proxyGroup = proxyGroup then some (.ofRows m a c) else none
  joined.take limit

/-- The startup sweep of `Store::open`: a pending row that outlived its process is manual-retry-only. -/
def startupSweep : Store :=
  s.updateMessages (fun m => m.status = .pending) (fun m => { m.retired with status := .failed })
    fun _ => rfl

theorem mem_unsettledUnknown {s : Store} {proxyGroup : String} {limit : ℕ} {r : UnknownSendRow}
    (h : r ∈ s.unsettledUnknownOutgoingSends proxyGroup limit) :
    ∃ m a c, m ∈ s.messages.rows ∧ m.status = .unknown ∧ s.accounts.find? m.accountId = some a ∧
      s.conversations.find? m.conversationId = some c ∧ r = .ofRows m a c := by
  obtain ⟨m, hm, hjoin⟩ := mem_filterMap.mp (mem_of_mem_take h)
  rw [mem_insertionSort, mem_filter, decide_eq_true_eq] at hm
  obtain ⟨a, ha, hjoin⟩ := Option.bind_eq_some_iff.mp hjoin
  obtain ⟨c, hc, hjoin⟩ := Option.bind_eq_some_iff.mp hjoin
  split at hjoin
  · exact ⟨m, a, c, hm.1, hm.2.1, ha, hc, (Option.some.inj hjoin).symm⟩
  · cases hjoin

/-! ### Claiming -/

end Store

/-- `RetryClaim`: one row handed to the outbox worker. -/
structure RetryClaim where
  messageId : String
  accountId : String
  conversationId : String
  clientRequestId : String
  sentAt : ℕ
  deriving DecidableEq

namespace MessageRow

variable (now : ℕ)

/-- In the queue, and its beat has come. -/
def due (m : MessageRow) : Bool := m.claimable && m.nextAttemptAt.any (· ≤ asI64 now)

/-- `ORDER BY next_attempt_at ASC, id ASC`. -/
def queuedBefore : MessageRow → MessageRow → Prop := lexLe (fun m => m.nextAttemptAt.getD 0) MessageRow.id

instance : DecidableRel queuedBefore := inferInstanceAs (DecidableRel (lexLe _ _))
instance : Std.Total queuedBefore := inferInstanceAs (Std.Total (lexLe _ _))
instance : IsTrans MessageRow queuedBefore := inferInstanceAs (IsTrans MessageRow (lexLe _ _))

def claim (m : MessageRow) (clientRequestId : String) : RetryClaim where
  messageId := m.id
  accountId := m.accountId
  conversationId := m.conversationId
  clientRequestId := clientRequestId
  sentAt := asU64 m.sentAt

/-- The row's 24-hour window, counted from its first automatic attempt, is over. -/
def windowSpent (m : MessageRow) : Bool :=
  let windowStart := min ((m.firstSendAttemptedAt.map asU64).getD (asU64 m.sentAt)) now
  retryWindowMs ≤ now - windowStart

/-- The claim's two refusals: an attachment row, and a row past its window. -/
def claimRefused (m : MessageRow) : Bool :=
  hasAttachmentDescriptors m.attachments || m.windowSpent now

/-- What a pass leaves of a due row. -/
def claimedFace (m : MessageRow) : MessageRow :=
  if m.claimRefused now then { m with nextAttemptAt := none } else { m with status := .pending }

theorem claimedFace_id (m : MessageRow) : (m.claimedFace now).id = m.id := by
  unfold claimedFace
  split <;> rfl

/-- The claim a due row is handed out under; a flipped row without a client request id has none. -/
def claimOf (m : MessageRow) : Option RetryClaim :=
  if m.claimRefused now then none
  else m.clientRequestId.map m.claim

theorem messageId_claimOf {now : ℕ} {m : MessageRow} {claim : RetryClaim}
    (h : m.claimOf now = some claim) : claim.messageId = m.id := by
  unfold claimOf at h
  split at h
  · cases h
  · obtain ⟨clientRequestId, -, rfl⟩ := Option.map_eq_some_iff.mp h
    rfl

end MessageRow

namespace Store

/-- The scan of `claim_due_retries`: due rows, oldest beat first. -/
def dueRetries (s : Store) (now limit : ℕ) : List MessageRow :=
  ((s.messages.rows.filter (MessageRow.due now)).insertionSort MessageRow.queuedBefore).take limit

/-- One round of `claim_due_retries` on a scanned row. -/
def claimRound (now : ℕ) (acc : List RetryClaim × Store) (row : MessageRow) : List RetryClaim × Store :=
  let (claims, s) := acc
  if hasAttachmentDescriptors row.attachments then (claims, s.retireRetryScheduleIn row.id)
  else if row.windowSpent now then (claims, s.retireRetryScheduleIn row.id)
  else
    let due : MessageRow → Bool := fun m => m.id = row.id ∧ m.status = .failed
    let claimed := s.messages.rows.countP due
    let s := s.updateMessages due (fun m => { m with status := .pending }) fun _ => rfl
    match row.clientRequestId with
    | some clientRequestId =>
      if claimed = 1 then (claims ++ [row.claim clientRequestId], s) else (claims, s)
    | none => (claims, s)

/-- The due rows, flipped to pending. -/
def claimDueRetries (s : Store) (now limit : ℕ) : List RetryClaim × Store :=
  (s.dueRetries now limit).foldl (claimRound now) ([], s)

variable {s : Store} {row : MessageRow} {now limit : ℕ} {m : MessageRow}

/-- A due row is scanned if fewer than `limit` due rows come before it in the queue. -/
theorem mem_dueRetries : m ∈ s.dueRetries now limit ↔ m ∈ s.messages.rows ∧ m.due now ∧
      s.messages.rows.countP (fun a => a.due now ∧ a.queuedBefore m ∧ a ≠ m) < limit := by
  have hnd : (s.messages.rows.filter (MessageRow.due now)).Nodup :=
    filter_sublist.nodup (List.Nodup.of_map _ s.messages.nodup)
  have hcount : (s.messages.rows.filter (MessageRow.due now)).countP (fun a => a.queuedBefore m ∧ a ≠ m) =
      s.messages.rows.countP (fun a => a.due now ∧ a.queuedBefore m ∧ a ≠ m) := by
    rw [countP_filter]
    refine countP_congr fun a _ => ?_
    simp only [Bool.and_eq_true, decide_eq_true_eq]
    tauto
  by_cases hm : m ∈ s.messages.rows.filter (MessageRow.due now)
  · have hanti : ∀ b ∈ s.messages.rows.filter (MessageRow.due now), m.queuedBefore b →
        b.queuedBefore m → m = b := fun b hb hmb hbm =>
      s.messages.row_unique (mem_filter.mp hm).1 (mem_filter.mp hb).1 (lexLe_antisymm hmb hbm)
    rw [dueRetries, mem_take_insertionSort hnd hanti, hcount, mem_filter, and_assoc]
  · have hout : m ∉ s.dueRetries now limit := fun h =>
      hm ((mem_insertionSort _).mp (mem_of_mem_take h))
    rw [mem_filter] at hm
    tauto

theorem nodup_dueRetries (s : Store) (now limit : ℕ) : ((s.dueRetries now limit).map MessageRow.id).Nodup := by
  have hrows : ((s.messages.rows.filter (MessageRow.due now)).map MessageRow.id).Nodup :=
    (filter_sublist.map MessageRow.id).nodup s.messages.nodup
  refine ((take_sublist _ _).map MessageRow.id).nodup ?_
  exact ((perm_insertionSort _ _).map MessageRow.id).nodup_iff.mpr hrows

theorem status_of_due (h : m.due now) : m.status = .failed := by
  simp only [MessageRow.due, MessageRow.claimable, Bool.and_eq_true, decide_eq_true_eq] at h
  exact h.1.1.2

theorem countP_due (hrow : row ∈ s.messages.rows) (hfailed : row.status = .failed) :
    s.messages.rows.countP (fun m => m.id = row.id ∧ m.status = .failed) = 1 := by
  have hfilter : s.messages.rows.countP (fun m => m.id = row.id ∧ m.status = .failed) =
      (s.messages.rows.map MessageRow.id).count row.id := by
    rw [List.count, countP_map]
    refine countP_congr fun m hm => ?_
    simp only [decide_eq_true_eq, Function.comp_apply, beq_iff_eq]
    refine ⟨fun h => h.1, fun h => ⟨h, ?_⟩⟩
    rw [s.messages.row_unique hm hrow h]
    exact hfailed
  rw [hfilter]
  exact count_eq_one_of_mem s.messages.nodup (mem_map_of_mem hrow)

/-- An update guarded by a row's id and its `failed` status is the one keyed by its id. -/
theorem updateMessages_due (hrow : row ∈ s.messages.rows)
    (hfailed : row.status = .failed) (f g : MessageRow → MessageRow) (hf : ∀ m, (f m).id = m.id)
    (hg : ∀ m, (g m).id = m.id) (hfg : f row = g row) :
    s.updateMessages (fun m => m.id = row.id ∧ m.status = .failed) f hf =
      s.updateMessages (fun m => m.id = row.id) g hg := by
  refine updateMessages_congr fun m hm => ?_
  by_cases h : m.id = row.id
  · rw [s.messages.row_unique hm hrow h]
    simp [hfailed, hfg]
  · simp [h]

theorem claimRound_eq {claims : List RetryClaim} {s : Store} {row : MessageRow}
    (hrow : row ∈ s.messages.rows) (hfailed : row.status = .failed) : claimRound now (claims, s) row =
      (claims ++ (row.claimOf now).toList, s.updateMessages (fun m => m.id = row.id) (MessageRow.claimedFace now)
          (MessageRow.claimedFace_id now)) := by
  have hretire (hr : row.claimRefused now) : s.retireRetryScheduleIn row.id =
      s.updateMessages (fun m => m.id = row.id) (MessageRow.claimedFace now)
        (MessageRow.claimedFace_id now) :=
    updateMessages_due hrow hfailed _ _ _ _ (by simp [MessageRow.claimedFace, hr])
  by_cases hatt : hasAttachmentDescriptors row.attachments
  · have hr : row.claimRefused now := by simp [MessageRow.claimRefused, hatt]
    simp [claimRound, hatt, hretire hr, MessageRow.claimOf, hr]
  by_cases hwin : row.windowSpent now
  · have hr : row.claimRefused now := by simp [MessageRow.claimRefused, hwin]
    simp [claimRound, hatt, hwin, hretire hr, MessageRow.claimOf, hr]
  · have hr : row.claimRefused now = false := by simp [MessageRow.claimRefused, hatt, hwin]
    have hflip : s.updateMessages (fun m => m.id = row.id ∧ m.status = .failed)
        (fun m => { m with status := .pending }) (fun _ => rfl) =
        s.updateMessages (fun m => m.id = row.id) (MessageRow.claimedFace now)
          (MessageRow.claimedFace_id now) :=
      updateMessages_due hrow hfailed _ _ _ _ (by simp [MessageRow.claimedFace, hr])
    unfold claimRound
    dsimp only
    rw [if_neg hatt, if_neg hwin, hflip, countP_due hrow hfailed]
    cases hc : row.clientRequestId <;> simp [MessageRow.claimOf, hr, hc]

theorem foldl_claimRound (now : ℕ) :
    ∀ (l : List MessageRow) (claims : List RetryClaim) (s : Store), (l.map MessageRow.id).Nodup →
      (∀ row ∈ l, row ∈ s.messages.rows ∧ row.status = .failed) → l.foldl (claimRound now) (claims, s) =
        (claims ++ l.filterMap (MessageRow.claimOf now),
          s.updateMessages (fun m => l.any fun row => row.id = m.id) (MessageRow.claimedFace now)
            (MessageRow.claimedFace_id now))
  | [], claims, s, _, _ => by
    exact Prod.ext (by simp) (updateMessages_of_none fun _ _ => rfl).symm
  | row :: l, claims, s, hnd, hl => by
    obtain ⟨hfresh, hnd⟩ := nodup_cons.mp hnd
    obtain ⟨hrow, hfailed⟩ := hl row mem_cons_self
    -- the rows still to come have other ids, so this round leaves them where they were
    have hrest : ∀ r ∈ l, r ∈ (s.updateMessages (fun m => m.id = row.id) (MessageRow.claimedFace now)
        (MessageRow.claimedFace_id now)).messages.rows ∧ r.status = .failed := by
      intro r hr
      obtain ⟨hmem, hst⟩ := hl r (mem_cons_of_mem _ hr)
      have hne : r.id ≠ row.id := fun h => hfresh (h ▸ mem_map_of_mem hr)
      refine ⟨?_, hst⟩
      rw [rows_updateMessages]
      exact mem_map.mpr ⟨r, hmem, by simp [hne]⟩
    rw [foldl_cons, claimRound_eq hrow hfailed, foldl_claimRound now l _ _ hnd hrest]
    congr 1
    · cases h : row.claimOf now <;> simp [h]
    · unfold updateMessages
      congr 1
      rw [Table.update_update]
      · congr 1
        funext m
        simp [eq_comm]
      · intro m hm
        rw [decide_eq_true_eq] at hm
        rw [MessageRow.claimedFace_id, hm, any_eq_false]
        intro r hr
        rw [decide_eq_true_eq]
        exact fun h => hfresh (h ▸ mem_map_of_mem hr)

/-- **A pass in closed form.** It hands out the due rows' claims in scan order and leaves each in its claimed face. -/
theorem claimDueRetries_eq (s : Store) (now limit : ℕ) : s.claimDueRetries now limit =
      ((s.dueRetries now limit).filterMap (MessageRow.claimOf now),
        s.updateMessages (fun m => (s.dueRetries now limit).any fun row => row.id = m.id)
          (MessageRow.claimedFace now) (MessageRow.claimedFace_id now)) := by
  have hdue : ∀ row ∈ s.dueRetries now limit, row ∈ s.messages.rows ∧ row.status = .failed := by
    intro row hrow
    obtain ⟨hmem, hdue, -⟩ := mem_dueRetries.mp hrow
    exact ⟨hmem, status_of_due hdue⟩
  rw [claimDueRetries, foldl_claimRound now _ _ _ (s.nodup_dueRetries now limit) hdue]
  simp

/-- A claim was made on a due row, which the pass leaves `pending`. -/
theorem mem_claims {claim : RetryClaim} (h : claim ∈ (s.claimDueRetries now limit).1) :
    ∃ x ∈ s.dueRetries now limit, x.claimRefused now = false ∧ x.id = claim.messageId ∧
      x.accountId = claim.accountId ∧ x.clientRequestId.isSome ∧
      (s.claimDueRetries now limit).2.messages.find? claim.messageId = some { x with status := .pending } := by
  rw [claimDueRetries_eq] at h ⊢
  obtain ⟨x, hx, hclaim⟩ := mem_filterMap.mp h
  unfold MessageRow.claimOf at hclaim
  split at hclaim
  · cases hclaim
  next hopen =>
  obtain ⟨clientRequestId, hcrid, rfl⟩ := Option.map_eq_some_iff.mp hclaim
  refine ⟨x, hx, by simpa using hopen, rfl, rfl, by simp [hcrid], ?_⟩
  have hfind : s.messages.find? x.id = some x :=
    Table.find?_eq_some.mpr ⟨(mem_dueRetries.mp hx).1, rfl⟩
  have hany : ((s.dueRetries now limit).any fun row => row.id = x.id) = true :=
    any_eq_true.mpr ⟨x, hx, by simp⟩
  have hface : x.claimedFace now = { x with status := .pending } := by
    rw [MessageRow.claimedFace, if_neg hopen]
  rw [find?_updateMessages]
  change (s.messages.find? x.id).map _ = _
  rw [hfind, Option.map_some, if_pos hany, hface]

theorem nodup_claims (s : Store) (now limit : ℕ) :
    ((s.claimDueRetries now limit).1.map RetryClaim.messageId).Nodup := by
  have hdue : (s.dueRetries now limit).Pairwise fun a b => a.id ≠ b.id :=
    pairwise_map.mp (s.nodup_dueRetries now limit)
  rw [claimDueRetries_eq]
  refine pairwise_map.mpr (hdue.filterMap _ fun a b hab c hc d hd => ?_)
  rw [MessageRow.messageId_claimOf hc, MessageRow.messageId_claimOf hd]
  exact hab

end Store

end SignalConnector
