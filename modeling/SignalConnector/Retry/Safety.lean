/-
# The retry queue over whole runs

Nine operations write a row's status and its scheduling columns, each in a
transaction of its own and in any order. What one of them can do to one row is
said once (`RowStep`, `run_row`): it leaves the row's queue face alone, takes
its schedule away, moves it out of `failed`, or schedules it, and only a
settled failure of an eligible row does the last.
-/
import SignalConnector.Lib.Run
import SignalConnector.Store.RetryQueue

namespace SignalConnector

open List Store

/-- One transaction of the send path; `retireRetrySchedule` and `markUnknown` are the halves of
`complete_send_unknown`. -/
inductive RetryOp
  | addAccount (row : AccountRow)
  | addConversation (row : ConversationRow)
  | insertPending (message : MessageRecord) (clientRequestId preview : Option String)
      (incrementUnread : Bool) (storedAt : ℕ)
  | settleSendFailed (messageId : String) (now : ℕ) (schedule : SendRetrySchedule)
      (outcomes : Option MessageSendOutcomes)
  | claimDueRetries (now limit : ℕ)
  | rearmFailedMessage (messageId : String)
  | completeOutgoingSend (messageId accountId conversationId : String) (sentAt : ℕ)
      (outcomes : Option MessageSendOutcomes)
  | retireRetrySchedule (messageId : String)
  | markUnknown (messageId : String)
  | settleUnknownSend (messageId : String) (dispatched : Bool)
  | markRemoteDeleted (accountId conversationId : String) (targetSentAt : ℕ) (authorSenderId : String)
  | restart

namespace RetryOp

/-- The store an operation leaves; one that fails rolls back. -/
def run (s : Store) : RetryOp → Store
  | addAccount row => { s with accounts := s.accounts.insertOrIgnore row }
  | addConversation row => { s with conversations := s.conversations.insertOrIgnore row }
  | insertPending message clientRequestId preview incrementUnread storedAt =>
    match s.insertMessage { message with status := .pending } clientRequestId preview incrementUnread
        storedAt with
    | .ok (_, s') => s'
    | .error _ => s
  | settleSendFailed messageId now schedule outcomes =>
    (s.settleSendFailed messageId now schedule outcomes).2
  | claimDueRetries now limit => (s.claimDueRetries now limit).2
  | rearmFailedMessage messageId => (s.rearmFailedMessage messageId).2
  | completeOutgoingSend messageId accountId conversationId sentAt outcomes =>
    (s.completeOutgoingSend messageId accountId conversationId sentAt outcomes).2
  | retireRetrySchedule messageId => s.retireRetrySchedule messageId
  | markUnknown messageId => (s.updateMessageStatus messageId .unknown none).2
  | settleUnknownSend messageId dispatched => (s.settleUnknownSend messageId dispatched).2
  | markRemoteDeleted accountId conversationId targetSentAt authorSenderId =>
    (s.markRemoteDeleted accountId conversationId targetSentAt authorSenderId).2
  | restart => s.startupSweep

/-- The store a run from the empty store ends in. -/
def reached (ops : List RetryOp) : Store := ops.foldl run Store.empty

theorem reached_append (before after : List RetryOp) :
    reached (before ++ after) = after.foldl run (reached before) :=
  foldl_append

end RetryOp

open RetryOp

/-! ### What a step does to a row -/

/-- The step schedules the pending row `x` for an automatic retry. -/
inductive Schedules (s : Store) (x : MessageRow) : RetryOp → Prop
  | intro {now : ℕ} {schedule : SendRetrySchedule} {outcomes : Option MessageSendOutcomes}
      (pending : x.status = .pending) (scheduled : schedule ≠ .none)
      (clientRequestId : x.clientRequestId.isSome) (body : x.body.any fun body => body ≠ "")
      (attachments : hasAttachmentDescriptors x.attachments = false)
      (attempts : x.retryAttemptCount < maxRetryAttempts)
      (room : s.queuedOthers x.accountId x.id < maxRetryQueuedPerAccount) :
      Schedules s x (.settleSendFailed x.id now schedule outcomes)

/-- The step settles a row that awaits its outcome as `failed`. -/
inductive SettlesFailed (x : MessageRow) : RetryOp → Prop
  | answered {now : ℕ} {schedule : SendRetrySchedule} {outcomes : Option MessageSendOutcomes}
      (pending : x.status = .pending) : SettlesFailed x (.settleSendFailed x.id now schedule outcomes)
  | reconciled (unknown : x.status = .unknown) : SettlesFailed x (.settleUnknownSend x.id false)
  | swept (pending : x.status = .pending) : SettlesFailed x .restart

theorem Schedules.settlesFailed {s : Store} {x : MessageRow} {op : RetryOp} (h : Schedules s x op) :
    SettlesFailed x op := by
  cases h with
  | intro pending => exact .answered pending

/-- What one step may do to the queue face of a row. -/
inductive RowStep (s : Store) (op : RetryOp) (x y : MessageRow) : Prop
  | same (status : y.status = x.status) (direction : y.direction = x.direction)
      (next : y.nextAttemptAt = x.nextAttemptAt) (count : y.retryAttemptCount = x.retryAttemptCount)
  | unscheduled (next : y.nextAttemptAt = none) (count : y.retryAttemptCount ≤ x.retryAttemptCount)
      (failed : y.status = .failed → x.status = .failed ∨ SettlesFailed x op)
  | away (status : y.status ≠ .failed) (count : y.retryAttemptCount ≤ x.retryAttemptCount)
  | scheduled (schedules : Schedules s x op) (count : y.retryAttemptCount = x.retryAttemptCount + 1)

theorem RowStep.refl (s : Store) (op : RetryOp) (x : MessageRow) : RowStep s op x x :=
  .same rfl rfl rfl rfl

section Steps

variable {s : Store} {op : RetryOp} {messageId : String} {y : MessageRow}

/-- A row after the step came from the row with its id, in the same account, or it is new. -/
def FromRow (s : Store) (op : RetryOp) (y : MessageRow) : Prop :=
  (∃ x ∈ s.messages.rows, x.id = y.id ∧ x.accountId = y.accountId ∧ RowStep s op x y) ∨
    (s.messages.find? y.id = none ∧ y.status = .pending ∧ y.retryAttemptCount = 0)

theorem fromRow_self (hy : y ∈ s.messages.rows) : FromRow s op y :=
  .inl ⟨y, hy, rfl, rfl, .refl s op y⟩

theorem fromRow_update {p : MessageRow → Bool} {f : MessageRow → MessageRow} {hf : ∀ m, (f m).id = m.id}
    (hy : y ∈ (s.updateMessages p f hf).messages.rows)
    (haccount : ∀ x, (f x).accountId = x.accountId)
    (hstep : ∀ x ∈ s.messages.rows, p x → RowStep s op x (f x)) : FromRow s op y := by
  rw [rows_updateMessages] at hy
  obtain ⟨x, hx, rfl⟩ := mem_map.mp hy
  by_cases hp : p x
  · rw [if_pos hp]
    exact .inl ⟨x, hx, (hf x).symm, (haccount x).symm, hstep x hx hp⟩
  · rw [if_neg hp]
    exact fromRow_self hx

theorem mergeAttachmentFacesIn_rows (s : Store) (accountId messageId : String)
    (incoming : List NormalizedAttachment)
    (hy : y ∈ (s.mergeAttachmentFacesIn accountId messageId incoming).2.messages.rows) : FromRow s op y := by
  unfold mergeAttachmentFacesIn at hy
  split at hy
  · exact fromRow_self hy
  split at hy
  · exact fromRow_self hy
  split at hy
  · dsimp only at hy
    split at hy
    · exact fromRow_update hy (fun _ => rfl) fun _ _ _ => .same rfl rfl rfl rfl
    · exact fromRow_self hy
  · exact fromRow_self hy

theorem fromRow_insert {message : MessageRecord} {clientRequestId preview : Option String}
    {incrementUnread : Bool} {storedAt : ℕ} {landed : Bool} {s' : Store}
    (h : s.insertMessage { message with status := .pending } clientRequestId preview incrementUnread
      storedAt = .ok (landed, s')) (hy : y ∈ s'.messages.rows) : FromRow s op y := by
  unfold Store.insertMessage at h
  dsimp only at h
  split at h
  · cases h
    exact mergeAttachmentFacesIn_rows s _ _ _ hy
  split at h
  · next hfree _ =>
    cases h
    have hnone : s.messages.find? message.id = none := by
      simpa [insertIgnored, MessageRow.ofRecord] using (Bool.or_eq_false_iff.mp
        (Bool.eq_false_iff.mpr hfree)).1
    have hrows : y ∈ (s.messages.insertOrIgnore (.ofRecord { message with status := .pending }
      clientRequestId storedAt)).rows := hy
    rw [Table.rows_insertOrIgnore_of_free hnone] at hrows
    rcases mem_append.mp hrows with hold | hnew
    · exact fromRow_self hold
    · rw [mem_singleton.mp hnew]
      exact .inr ⟨hnone, rfl, rfl⟩
  · cases h

theorem fromRow_settle {now : ℕ} {schedule : SendRetrySchedule} {outcomes : Option MessageSendOutcomes}
    (hy : y ∈ (s.settleSendFailed messageId now schedule outcomes).2.messages.rows) :
    FromRow s (.settleSendFailed messageId now schedule outcomes) y := by
  rw [settleSendFailed_eq] at hy
  have haccount : ∀ x, (s.settledRow now schedule outcomes x).accountId = x.accountId := by
    intro x
    unfold settledRow failedRow
    split
    · split <;> rfl
    · split <;> rfl
  refine fromRow_update hy haccount fun x hx hp => ?_
  obtain ⟨rfl, hpending⟩ := of_decide_eq_true hp
  unfold settledRow
  split
  · next hnone =>
    subst hnone
    exact .unscheduled rfl (Nat.zero_le _) fun _ => .inr (.answered hpending)
  split
  · next hschedule hroom =>
    rw [Bool.and_eq_true, decide_eq_true_eq] at hroom
    obtain ⟨heligible, hroom⟩ := hroom
    simp only [MessageRow.eligible, Bool.and_eq_true, Bool.not_eq_true', decide_eq_true_eq] at heligible
    obtain ⟨⟨⟨⟨-, hbody⟩, hcrid⟩, hatt⟩, hcount⟩ := heligible
    exact .scheduled (.intro hpending hschedule hcrid hbody hatt hcount hroom) rfl
  · exact .unscheduled rfl (Nat.le_refl _) fun _ => .inr (.answered hpending)

theorem fromRow_claim {now limit : ℕ}
    (hy : y ∈ (s.claimDueRetries now limit).2.messages.rows) : FromRow s op y := by
  rw [claimDueRetries_eq] at hy
  have haccount : ∀ x, (MessageRow.claimedFace now x).accountId = x.accountId := by
    intro x
    unfold MessageRow.claimedFace
    split <;> rfl
  refine fromRow_update hy haccount fun x hx hp => ?_
  obtain ⟨row, hrow, hid⟩ := any_eq_true.mp hp
  obtain ⟨hmem, hdue, -⟩ := mem_dueRetries.mp hrow
  have hxrow : x = row := s.messages.row_unique hx hmem (of_decide_eq_true hid).symm
  subst hxrow
  unfold MessageRow.claimedFace
  split
  · exact .unscheduled rfl (Nat.le_refl _) fun _ => .inl (status_of_due hdue)
  · exact .away (by simp) (Nat.le_refl _)

theorem fromRow_complete {accountId conversationId : String} {sentAt : ℕ}
    {outcomes : Option MessageSendOutcomes}
    (hy : y ∈ (s.completeOutgoingSend messageId accountId conversationId sentAt outcomes).2.messages.rows) :
    FromRow s op y := by
  unfold Store.completeOutgoingSend at hy
  dsimp only at hy
  split at hy
  · exact fromRow_self hy
  · obtain ⟨x, hx, rfl⟩ := mem_map.mp hy
    have hx := mem_of_mem_dropMirror hx
    split
    · exact .inl ⟨x, hx, rfl, rfl, .away (by simp [sentRow]) (Nat.zero_le _)⟩
    · exact fromRow_self hx

theorem fromRow_settleUnknown {dispatched : Bool}
    (hy : y ∈ (s.settleUnknownSend messageId dispatched).2.messages.rows) :
    FromRow s (.settleUnknownSend messageId dispatched) y := by
  unfold Store.settleUnknownSend at hy
  dsimp only at hy
  split at hy
  · exact fromRow_self hy
  · have hrows : y ∈ (s.updateMessages (fun m => m.id = messageId ∧ m.status = .unknown)
        (fun m => { m.retired with status := if dispatched then .sent else .failed })
        fun _ => rfl).messages.rows := by
      cases dispatched <;> exact hy
    refine fromRow_update hrows (fun _ => rfl) fun x hx hp => ?_
    obtain ⟨rfl, hunknown⟩ := of_decide_eq_true hp
    refine .unscheduled rfl (Nat.zero_le _) fun hfailed => .inr ?_
    cases dispatched with
    | false => exact .reconciled hunknown
    | true => cases hfailed

/-- **What a step can do.** Every row after a step is a row from before it, moved by a `RowStep`, or a
freshly inserted pending row. -/
theorem run_row (hy : y ∈ (op.run s).messages.rows) : FromRow s op y := by
  cases op with
  | addAccount | addConversation => exact fromRow_self hy
  | insertPending =>
    simp only [run] at hy
    split at hy
    · next h => exact fromRow_insert h hy
    · exact fromRow_self hy
  | settleSendFailed => exact fromRow_settle hy
  | claimDueRetries => exact fromRow_claim hy
  | rearmFailedMessage =>
    refine fromRow_update hy (fun _ => rfl) fun x _ _ => ?_
    exact .away (by simp) (Nat.zero_le _)
  | completeOutgoingSend => exact fromRow_complete hy
  | retireRetrySchedule =>
    refine fromRow_update hy (fun _ => rfl) fun x _ _ => ?_
    exact .unscheduled rfl (Nat.zero_le _) .inl
  | markUnknown =>
    refine fromRow_update hy (fun _ => rfl) fun x _ _ => ?_
    exact .away (by simp) (Nat.le_refl _)
  | settleUnknownSend => exact fromRow_settleUnknown hy
  | markRemoteDeleted accountId conversationId targetSentAt authorSenderId =>
    have hrows : (s.markRemoteDeleted accountId conversationId targetSentAt authorSenderId).2.messages =
        (s.updateMessages (fun m => (m.accountId = accountId ∧ m.conversationId = conversationId ∧
          m.sentAt = asI64 targetSentAt ∧ m.senderId = authorSenderId : Bool) &&
            (m.status ≠ .remoteDeleted && m.status ≠ .system)) erasedRow fun _ => rfl).messages := by
      unfold Store.markRemoteDeleted
      dsimp only
      split <;> split <;> rfl
    simp only [run] at hy
    rw [hrows] at hy
    refine fromRow_update hy (fun _ => rfl) fun x _ _ => ?_
    exact .away (by simp [erasedRow]) (Nat.le_refl _)
  | restart =>
    refine fromRow_update hy (fun _ => rfl) fun x _ hp => ?_
    exact .unscheduled rfl (Nat.zero_le _) fun _ => .inr (.swept (of_decide_eq_true hp))

end Steps

/-! ### Over a run -/

def Queued (messageId : String) (s : Store) : Prop :=
  ∃ m ∈ s.messages.rows, m.id = messageId ∧ m.claimable

/-- The row with this id is `failed`. -/
def Failed (messageId : String) (s : Store) : Prop :=
  ∃ m ∈ s.messages.rows, m.id = messageId ∧ m.status = .failed

variable {s : Store} {op : RetryOp} {accountId messageId : String}

/-- Only a scheduled failure puts a row into the queue. -/
theorem claimable_step {y : MessageRow} (hy : y ∈ (op.run s).messages.rows) (hc : y.claimable) :
    ∃ x ∈ s.messages.rows, x.id = y.id ∧ x.accountId = y.accountId ∧ (x.claimable ∨ Schedules s x op) := by
  simp only [MessageRow.claimable, Bool.and_eq_true, decide_eq_true_eq] at hc
  obtain ⟨⟨hdir, hfailed⟩, hnext⟩ := hc
  rcases run_row hy with ⟨x, hx, hid, hacc, hstep⟩ | ⟨-, hpending, -⟩
  · refine ⟨x, hx, hid, hacc, ?_⟩
    cases hstep with
    | same status direction next =>
      left
      simp [MessageRow.claimable, ← status, ← direction, ← next, hdir, hfailed, hnext]
    | unscheduled next => simp [next] at hnext
    | away status => exact absurd hfailed status
    | scheduled schedules => exact .inr schedules
  · rw [hpending] at hfailed
    cases hfailed

/-- Only a settlement turns a row `failed`. -/
theorem failed_step (hbefore : ¬Failed messageId s) (hafter : Failed messageId (op.run s)) :
    ∃ x ∈ s.messages.rows, x.id = messageId ∧ SettlesFailed x op := by
  obtain ⟨y, hy, rfl, hfailed⟩ := hafter
  rcases run_row hy with ⟨x, hx, hid, -, hstep⟩ | ⟨-, hpending, -⟩
  · have hx' : x.status ≠ .failed := fun h => hbefore ⟨x, hx, hid, h⟩
    refine ⟨x, hx, hid, ?_⟩
    cases hstep with
    | same status => exact absurd (status ▸ hfailed) hx'
    | unscheduled _ _ failed => exact (failed hfailed).resolve_left hx'
    | away status => exact absurd hfailed status
    | scheduled schedules => exact schedules.settlesFailed
  · rw [hpending] at hfailed
    cases hfailed

theorem attempts_step (hs : ∀ x ∈ s.messages.rows, x.retryAttemptCount ≤ maxRetryAttempts) :
    ∀ y ∈ (op.run s).messages.rows, y.retryAttemptCount ≤ maxRetryAttempts := by
  intro y hy
  rcases run_row hy with ⟨x, hx, -, -, hstep⟩ | ⟨-, -, hzero⟩
  · have hle := hs x hx
    cases hstep with
    | same | unscheduled | away => omega
    | scheduled schedules =>
      cases schedules with
      | intro => omega
  · omega

def queuedIds (s : Store) (accountId : String) : List String :=
  (s.messages.rows.filter fun m => m.accountId = accountId && m.claimable).map MessageRow.id

theorem nodup_queuedIds (s : Store) (accountId : String) : (queuedIds s accountId).Nodup :=
  (filter_sublist.map MessageRow.id).nodup s.messages.nodup

theorem mem_queuedIds : messageId ∈ queuedIds s accountId ↔
      ∃ m ∈ s.messages.rows, m.id = messageId ∧ m.accountId = accountId ∧ m.claimable := by
  simp only [queuedIds, mem_map, mem_filter, Bool.and_eq_true, decide_eq_true_eq]
  constructor
  · rintro ⟨m, ⟨hm, ha, hc⟩, hid⟩
    exact ⟨m, hm, hid, ha, hc⟩
  · rintro ⟨m, hm, hid, ha, hc⟩
    exact ⟨m, ⟨hm, ha, hc⟩, hid⟩

theorem length_erase_queuedIds (s : Store) (accountId messageId : String) :
    ((queuedIds s accountId).filter fun id => id ≠ messageId).length = s.queuedOthers accountId messageId := by
  rw [queuedIds, filter_map, length_map, filter_filter, ← countP_eq_length_filter]
  refine countP_congr fun m _ => ?_
  simp only [Function.comp_apply, Bool.and_eq_true, decide_eq_true_eq]
  tauto

/-- The ceiling survives a step: a row enters only while its account has room for it. -/
theorem ceiling_step (hs : (queuedIds s accountId).length ≤ maxRetryQueuedPerAccount) :
    (queuedIds (op.run s) accountId).length ≤ maxRetryQueuedPerAccount := by
  by_cases henter : ∃ x ∈ s.messages.rows, x.accountId = accountId ∧ Schedules s x op
  · obtain ⟨x, hx, rfl, hsched⟩ := henter
    have hroom : s.queuedOthers x.accountId x.id < maxRetryQueuedPerAccount := by
      cases hsched with
      | intro _ _ _ _ _ _ room => exact room
    have hsub : queuedIds (op.run s) x.accountId ⊆
        x.id :: (queuedIds s x.accountId).filter fun id => id ≠ x.id := by
      intro id hid
      obtain ⟨y, hy, rfl, hacc, hc⟩ := mem_queuedIds.mp hid
      by_cases hyx : y.id = x.id
      · exact hyx ▸ mem_cons_self
      obtain ⟨z, hz, hzid, hzacc, hz' | hz'⟩ := claimable_step hy hc
      · refine mem_cons_of_mem _ (mem_filter.mpr ⟨?_, by simpa using hyx⟩)
        exact mem_queuedIds.mpr ⟨z, hz, hzid, hzacc.trans hacc, hz'⟩
      · -- the step names one row only
        have hzx : z.id = x.id := by
          cases hsched
          generalize hid : x.id = k at hz'
          cases hz'
          rfl
        exact absurd (hzid ▸ hzx) hyx
    have hle := (subperm_of_subset (nodup_queuedIds _ _) hsub).length_le
    rw [length_cons, length_erase_queuedIds] at hle
    omega
  · have hsub : queuedIds (op.run s) accountId ⊆ queuedIds s accountId := by
      intro id hid
      obtain ⟨y, hy, rfl, hacc, hc⟩ := mem_queuedIds.mp hid
      obtain ⟨x, hx, hxid, hxacc, hx' | hx'⟩ := claimable_step hy hc
      · exact mem_queuedIds.mpr ⟨x, hx, hxid, hxacc.trans hacc, hx'⟩
      · exact absurd ⟨x, hx, hxacc.trans hacc, hx'⟩ henter
    exact le_trans (subperm_of_subset (nodup_queuedIds _ _) hsub).length_le hs

/-- A row queued at the end of a run and not at its start was scheduled on the way. -/
theorem scheduled_within {before after : List RetryOp}
    (hstart : ¬Queued messageId (reached before)) (hend : Queued messageId (reached (before ++ after))) :
    ∃ mid op rest, after = mid ++ op :: rest ∧ (∃ x ∈ (reached (before ++ mid)).messages.rows,
        x.id = messageId ∧ Schedules (reached (before ++ mid)) x op) ∧
      ∀ upto, upto <+: rest → Queued messageId (reached (before ++ (mid ++ op :: upto))) := by
  rw [reached_append] at hend
  obtain ⟨mid, op, rest, rfl, hoff, hon⟩ := exists_last_switch (Queued messageId) hstart after hend
  refine ⟨mid, op, rest, rfl, ?_, fun upto hupto => ?_⟩
  · have hnow := hon [] nil_prefix
    rw [foldl_append, foldl_cons, foldl_nil, ← reached_append] at hnow
    rw [← reached_append] at hoff
    obtain ⟨y, hy, rfl, hc⟩ := hnow
    obtain ⟨x, hx, hid, -, hx' | hx'⟩ := claimable_step hy hc
    · exact absurd ⟨x, hx, hid, hx'⟩ hoff
    · exact ⟨x, hx, hid, hx'⟩
  · rw [reached_append]
    exact hon upto hupto

/-- A row `failed` at the end of a run and not at its start was settled on the way. -/
theorem settled_within {before after : List RetryOp}
    (hstart : ¬Failed messageId (reached before)) (hend : Failed messageId (reached (before ++ after))) :
    ∃ mid op rest, after = mid ++ op :: rest ∧
      ∃ x ∈ (reached (before ++ mid)).messages.rows, x.id = messageId ∧ SettlesFailed x op := by
  rw [reached_append] at hend
  obtain ⟨mid, op, rest, rfl, hoff, hon⟩ := exists_last_switch (Failed messageId) hstart after hend
  have hnow := hon [] nil_prefix
  rw [foldl_append, foldl_cons, foldl_nil, ← reached_append] at hnow
  rw [← reached_append] at hoff
  exact ⟨mid, op, rest, rfl, failed_step hoff hnow⟩

/-! ### Handing a row out -/

/-- The step hands the row out for dispatch: a claim of the automatic queue, or a manual rearm that
moved the row. -/
inductive HandsOut (s : Store) (messageId : String) : RetryOp → Prop
  | claim {now limit : ℕ} {claim : RetryClaim} (mem : claim ∈ (s.claimDueRetries now limit).1)
      (id : claim.messageId = messageId) : HandsOut s messageId (.claimDueRetries now limit)
  | rearm {record : MessageRecord}
      (changed : (s.rearmFailedMessage messageId).1 = some (record, true)) :
      HandsOut s messageId (.rearmFailedMessage messageId)

/-- A handed-out row was `failed` and is not any more. -/
theorem HandsOut.spec {op : RetryOp} (h : HandsOut s messageId op) :
    Failed messageId s ∧ ¬Failed messageId (op.run s) := by
  cases h with
  | @claim now limit claim mem id =>
    subst id
    obtain ⟨row, hrow, -, hid, -, -, hafter⟩ := mem_claims mem
    obtain ⟨hmem, hdue, -⟩ := mem_dueRetries.mp hrow
    refine ⟨⟨row, hmem, hid, status_of_due hdue⟩, ?_⟩
    rintro ⟨y, hy, hyid, hfailed⟩
    rw [show (RetryOp.claimDueRetries now limit).run s = (s.claimDueRetries now limit).2 from rfl] at hy
    rw [Table.find?_eq_some.mpr ⟨hy, hyid⟩] at hafter
    rw [Option.some.inj hafter] at hfailed
    cases hfailed
  | rearm changed =>
    obtain ⟨m, -, hpair⟩ := Option.map_eq_some_iff.mp changed
    obtain ⟨row, hrow, hdue⟩ := any_eq_true.mp (Prod.mk.inj hpair).2
    obtain ⟨rfl, hfailed⟩ := of_decide_eq_true hdue
    refine ⟨⟨row, hrow, rfl, hfailed⟩, ?_⟩
    rintro ⟨y, hy, hyid, hy'⟩
    obtain ⟨x, hx, rfl⟩ := mem_map.mp hy
    by_cases hp : x.id = row.id ∧ x.status = .failed
    · simp [hp] at hy'
    · simp only [hp, decide_false, Bool.false_eq_true, if_false] at hyid hy'
      exact hp ⟨hyid, hy'⟩

/-! ### Safety -/

/-- **The retry queue is safe over every run**: a claimable row has attempts left and was scheduled as a retriable
text, a queue is bounded, an unsettled row is claimable only after a settled failure, and none is handed out twice
between. -/
theorem retry_queue_safe (ops : List RetryOp) : (∀ y ∈ (reached ops).messages.rows, y.claimable →
      y.retryAttemptCount ≤ maxRetryAttempts ∧ ∃ before op after, ops = before ++ op :: after ∧
        (∃ x ∈ (reached before).messages.rows, x.id = y.id ∧ Schedules (reached before) x op) ∧
        ∀ upto, upto <+: after → Queued y.id (reached (before ++ op :: upto))) ∧
    (∀ accountId, ((reached ops).messages.rows.countP fun m => m.accountId = accountId && m.claimable) ≤
      maxRetryQueuedPerAccount) ∧ (∀ before after, ops = before ++ after → ∀ x ∈ (reached before).messages.rows,
      (x.status = .unknown ∨ (x.status = .pending ∧ after.head? = some .restart)) → Queued x.id (reached ops) →
      ∃ mid op rest, after = mid ++ op :: rest ∧ ∃ z ∈ (reached (before ++ mid)).messages.rows,
          z.id = x.id ∧ Schedules (reached (before ++ mid)) z op) ∧
    (∀ messageId before op₁ mid op₂ after, ops = before ++ op₁ :: (mid ++ op₂ :: after) →
      HandsOut (reached before) messageId op₁ → HandsOut (reached (before ++ op₁ :: mid)) messageId op₂ →
      ∃ pre op post, mid = pre ++ op :: post ∧
        ∃ x ∈ (reached (before ++ op₁ :: pre)).messages.rows, x.id = messageId ∧ SettlesFailed x op) ∧
    ∀ now limit, (((reached ops).claimDueRetries now limit).1.map RetryClaim.messageId).Nodup := by
  refine ⟨fun y hy hc => ⟨?_, ?_⟩, fun accountId => ?_, ?_, ?_, fun now limit => nodup_claims _ now limit⟩
  · exact foldl_invariant (fun s => ∀ x ∈ s.messages.rows, x.retryAttemptCount ≤ maxRetryAttempts)
      (fun s op => attempts_step) ops Store.empty (fun x hx => absurd hx (by simp [Store.empty])) y hy
  · have hstart : ¬Queued y.id (reached []) := by
      rintro ⟨m, hm, -⟩
      simp [reached, Store.empty] at hm
    have hend : Queued y.id (reached ([] ++ ops)) := ⟨y, hy, rfl, hc⟩
    exact scheduled_within hstart hend
  · rw [countP_eq_length_filter, ← length_map (f := MessageRow.id)]
    exact foldl_invariant (fun s => (queuedIds s accountId).length ≤ maxRetryQueuedPerAccount)
      (fun s op => ceiling_step) ops Store.empty (Nat.zero_le _)
  · rintro before after rfl x hx hx' hq
    have hstart : ¬Queued x.id (reached before) := by
      rintro ⟨m, hm, hid, hc⟩
      rw [(reached before).messages.row_unique hm hx hid] at hc
      simp only [MessageRow.claimable, Bool.and_eq_true, decide_eq_true_eq] at hc
      rcases hx' with hx' | ⟨hx', -⟩ <;> rw [hx'] at hc <;> cases hc.1.2
    obtain ⟨mid, op, rest, hafter, hsched, -⟩ := scheduled_within hstart hq
    exact ⟨mid, op, rest, hafter, hsched⟩
  · rintro messageId before op₁ mid op₂ after - h₁ h₂
    have hstart : ¬Failed messageId (reached (before ++ [op₁])) := by
      rw [reached_append]
      exact h₁.spec.2
    have hend : Failed messageId (reached (before ++ [op₁] ++ mid)) := by
      rw [append_assoc]
      exact h₂.spec.1
    obtain ⟨pre, op, post, rfl, x, hx, hid, hsettles⟩ := settled_within hstart hend
    refine ⟨pre, op, post, rfl, x, ?_, hid, hsettles⟩
    rwa [append_assoc] at hx

/-- A text whose first attempt failed waits in the queue. -/
example :
    (reached [.addAccount (.ofAddress "a" "+15550100" "+1555***00" "default"),
      .addConversation (.ofPeer "c" "a" .direct "+15550101" "peer"),
      .insertPending (messageRecordFromRow (.ofText "m" "a" "c" .outgoing "a" 1000 "hi" .pending))
        (some "request-1") none false 1000,
      .settleSendFailed "m" 2000 .backoff none]).messages.rows.countP MessageRow.claimable = 1 := by
  decide

end SignalConnector
