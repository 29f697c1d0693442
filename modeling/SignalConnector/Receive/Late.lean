/-
# Live controls

A remote delete, an edit, a poll vote or a poll's end is applied to the row it
addresses by its live arm; one that finds no row is admitted to a bounded
buffer, once for every author it may mean. This module has the admission and
the arms, and says what an arm leaves in the store.
-/
import SignalConnector.Receive.Settle

namespace SignalConnector

open List

/-! ### Admission -/

section Admission

variable {E : Type} {bufferedAt : E → ℕ}

theorem exists_oldestIdx {entries : List E} (h : entries ≠ []) :
    ∃ oldest, oldestIdx bufferedAt entries = some oldest ∧ oldest < entries.length := by
  obtain ⟨least, hleast⟩ : ∃ least, (entries.map bufferedAt).min? = some least :=
    Option.isSome_iff_exists.mp (isSome_min?_of_ne_nil (by simpa using h))
  obtain ⟨entry, hentry, hat⟩ := mem_map.mp (min?_mem hleast)
  have hfound : (entries.findIdx? fun entry => bufferedAt entry = least).isSome := by
    rw [findIdx?_isSome]
    exact any_eq_true.mpr ⟨entry, hentry, by simpa using hat⟩
  obtain ⟨oldest, holdest⟩ := Option.isSome_iff_exists.mp hfound
  refine ⟨oldest, by rw [oldestIdx, hleast]; exact holdest, ?_⟩
  exact (findIdx?_eq_some_iff_findIdx_eq.mp holdest).1

theorem length_takeIn_le {now : ℕ} {table : List E} (entry : E) (h : table.length ≤ earlyControlBufferCapacity) :
    (takeIn bufferedAt now table entry).length ≤ earlyControlBufferCapacity := by
  have hfresh := (length_filter_le (fun entry => isFresh now (bufferedAt entry)) table).trans h
  unfold takeIn
  dsimp only
  rw [length_append, length_singleton]
  split
  · next hfull =>
    have hne : table.filter (fun entry => isFresh now (bufferedAt entry)) ≠ [] := by
      refine ne_nil_of_length_pos (lt_of_lt_of_le ?_ hfull)
      decide
    obtain ⟨oldest, holdest, hlt⟩ := exists_oldestIdx hne
    rw [holdest]
    dsimp only
    rw [length_eraseIdx_of_lt hlt]
    omega
  · omega

theorem takeIn_of_room {now : ℕ} {table : List E} {entry : E}
    (hfresh : ∀ waiting ∈ table, isFresh now (bufferedAt waiting) = true)
    (hroom : table.length < earlyControlBufferCapacity) : takeIn bufferedAt now table entry = table ++ [entry] := by
  unfold takeIn
  dsimp only
  rw [filter_eq_self.mpr hfresh, if_neg (Nat.not_le.mpr hroom)]

end Admission

namespace Ingest

variable (env : IngestEnv)

/-! ### The live arms -/

/-- The author a poll control names: the account's number, the author as written, and their other names. -/
structure PollAnchor where
  signalAccount : String
  targetAuthor : String
  otherNames : List String
  deriving DecidableEq

/-- The candidates of `apply_poll_fold`: the account's own mirror, then the author under each name. -/
def PollAnchor.candidates (anchor : PollAnchor) (t : Target) : List (String × String) :=
  let own := if anchor.targetAuthor = anchor.signalAccount then [(t.accountId, "self")] else []
  (own ++ (anchor.targetAuthor :: anchor.otherNames).map fun name =>
    (stableHashId env.sha256 [t.accountId, t.kind.asStr, name], t.legacySenderId env)).eraseDups

/-- The names a poll is looked for under, by the live arm or by the flush. -/
def PollAnchor.names (anchor : PollAnchor) (t : Target) : List String :=
  t.senderId :: t.legacySenderId env :: (anchor.candidates env t).flatMap fun pair => [pair.1, pair.2]

def remoteDeleteMaxAgeMs : ℕ := 24 * 60 * 60 * 1000

/-- A control as its envelope carries it. -/
inductive LiveControl
  | remoteDelete (envelopeAt : Option ℕ)
  | edit (incoming : Bool) (newText : String) (newBytes : ℕ)
  | pollVote (anchor : PollAnchor) (voterId : String) (optionIndexes : List ℕ)
  | pollTerminate (anchor : PollAnchor) (notice : PollTerminateNotice)
  deriving DecidableEq

namespace LiveControl

/-- What of it waits in the buffer; the stamp of a delete's own envelope does not. -/
def payload : LiveControl → EarlyControlPayload
  | remoteDelete _ => .remoteDelete
  | edit incoming newText newBytes => .edit incoming newText newBytes
  | pollVote _ voterId optionIndexes => .pollVote voterId optionIndexes
  | pollTerminate _ notice => .pollTerminate notice

/-- The authors it may mean: a delete or an edit means its own. -/
def authors (t : Target) : LiveControl → List String
  | remoteDelete _ | edit .. => [t.senderId]
  | pollVote anchor .. | pollTerminate anchor _ => (anchor.candidates env t).map Prod.fst

/-- A delete written more than a day after the message it names. -/
def Aged (t : Target) : LiveControl → Prop
  | remoteDelete (some envelopeAt) => remoteDeleteMaxAgeMs < envelopeAt - t.sentAt
  | _ => False

instance (t : Target) (control : LiveControl) : Decidable (control.Aged t) := by
  unfold Aged
  split <;> infer_instance

end LiveControl

/-- The loop of `apply_poll_fold`: the first candidate whose row takes the fold. -/
def foldCandidates (fold : String → String → Store → Option MessageRecord × Store) :
    List (String × String) → Prog Service StoreError (Option (MessageRecord × String))
  | [] => return none
  | (senderId, legacySender) :: candidates => do
    match ← storeWrite (fold senderId legacySender) with
    | some record => return some (record, legacySender)
    | none => foldCandidates fold candidates

variable (t : Target)

/-- A control that found nothing waits, once for every author it may mean. One whose conversation has not landed
is put here at once (`early_control_entry`), a delete whatever its age. -/
def bufferControl (control : LiveControl) (s : Service) : Service :=
  (control.authors env t).foldl (fun s author => s.bufferEarlyControl env.now
    ⟨t.accountId, t.kind, t.peerKey, t.sentAt, author, env.now, control.payload⟩) s

/-- A live arm that found nothing. -/
def waitFor (control : LiveControl) : Prog Service StoreError (List HostSideEvent) := do
  .act (fun s => ((), bufferControl env t control s)) .done
  return []

/-- What a live control does when its conversation is known: the arms of the control interception. -/
def liveControl : LiveControl → Prog Service StoreError (List HostSideEvent)
  | .remoteDelete envelopeAt =>
    if LiveControl.Aged t (.remoteDelete envelopeAt) then return []
    else do
      match ← storeWrite fun s => s.markRemoteDeleted t.accountId t.conversationId t.sentAt t.senderId with
      | some (record, true) =>
        return [.messageStatusChanged record.accountId record.id record.status none none none]
      | _ => waitFor env t (.remoteDelete envelopeAt)
  | .edit true newText newBytes => do
    match ← storeCall fun s => s.applyInboundEdit t.accountId t.conversationId t.sentAt t.senderId
        (t.legacySenderId env) newText newBytes env.now with
    | some record => return [.messageUpserted (← reportPoll t record)]
    | none => waitFor env t (.edit true newText newBytes)
  | .edit false newText newBytes => do
    match ← storeCall fun s => s.applyOutgoingEditBySignal t.accountId t.conversationId t.sentAt newText newBytes
        env.now with
    | some record => reportEdit t (some record)
    | none => waitFor env t (.edit false newText newBytes)
  | .pollVote anchor voterId optionIndexes => do
    match ← foldCandidates (fun senderId legacySender s => s.foldPollVote t.accountId t.conversationId t.sentAt
        senderId legacySender voterId optionIndexes) (anchor.candidates env t) with
    | some (record, _) => return [.messageUpserted (← reportPoll t record)]
    | none => waitFor env t (.pollVote anchor voterId optionIndexes)
  | .pollTerminate anchor notice => do
    match ← foldCandidates (fun senderId legacySender s => s.foldPollTerminate t.accountId t.conversationId
        t.sentAt senderId legacySender) (anchor.candidates env t) with
    | some (record, legacySender) => do
      let record ← reportPoll t record
      return .messageUpserted record :: (← landPollTerminateNotice env t legacySender record notice)
    | none => waitFor env t (.pollTerminate anchor notice)

/-- The service after the controls have come one after the other. -/
def liveRun (controls : List LiveControl) (s : Service) : Service :=
  controls.foldl (fun s control => ((liveControl env t control).run s).2) s

/-! ### What an arm leaves in the store -/

def noticeStore (legacySender : String) (poll : MessageRecord) (notice : PollTerminateNotice) (s : Store) : Store :=
  match notice.envelopeSentAt.filter (0 < ·), poll.rich.bind NormalizedRich.poll with
  | some sentAt, some _ =>
    if (s.messageBySignalIdentity t.accountId t.conversationId .system sentAt poll.senderId legacySender).isSome then
      s
    else s.after (s.insertMessage (pollTerminateRecord env t sentAt poll.senderId notice) none none false env.now)
  | _, _ => s

/-- The record a poll is reported as. -/
def pollFace (s : Store) (record : MessageRecord) : MessageRecord :=
  let record := (s.attachReactions t.accountId [record]).headD record
  (s.attachEdits t.accountId [record]).headD record

/-- The store after a termination whose fold has answered. -/
def terminated (legacySender : String) (notice : PollTerminateNotice)
    (folded : Option MessageRecord × Store) : Store :=
  match folded.1 with
  | none => folded.2
  | some record => noticeStore env t legacySender (pollFace t folded.2 record) notice folded.2

/-- The store after an early control. -/
def controlStore (s : Store) : EarlyControlPayload → Store
  | .remoteDelete => (s.markRemoteDeleted t.accountId t.conversationId t.sentAt t.senderId).2
  | .edit true newText newBytes =>
    s.after (s.applyInboundEdit t.accountId t.conversationId t.sentAt t.senderId (t.legacySenderId env) newText
      newBytes env.now)
  | .edit false newText newBytes =>
    s.after (s.applyOutgoingEditBySignal t.accountId t.conversationId t.sentAt newText newBytes env.now)
  | .pollVote voterId optionIndexes =>
    (s.foldPollVote t.accountId t.conversationId t.sentAt t.senderId (t.legacySenderId env) voterId optionIndexes).2
  | .pollTerminate notice => terminated env t (t.legacySenderId env) notice
      (s.foldPollTerminate t.accountId t.conversationId t.sentAt t.senderId (t.legacySenderId env))

section Runs

variable {env} {α β : Type} {s : Service}

/-- A call, and a rest that leaves the store alone whatever the answer. -/
theorem store_run_storeCall {f : Store → Except StoreError (α × Store)} {k : α → Prog Service StoreError β}
    (hk : ∀ a (u : Service), ((k a).run u).2.store = u.store) (s : Service) :
    ((storeCall f >>= k).run s).2.store = s.store.after (f s.store) := by
  rcases hf : f s.store with e | ⟨a, t⟩
  · rw [run_storeCall_of_error k s hf]
    rfl
  · rw [run_storeCall_of_ok k s hf, hk]
    rfl

variable (legacySender : String)

theorem store_landPollTerminateNotice (poll : MessageRecord) (notice : PollTerminateNotice) (s : Service) :
    ((landPollTerminateNotice env t legacySender poll notice).run s).2.store =
      noticeStore env t legacySender poll notice s.store := by
  unfold landPollTerminateNotice noticeStore
  generalize notice.envelopeSentAt.filter (0 < ·) = sent, poll.rich.bind NormalizedRich.poll = face
  rcases sent with - | sentAt
  · rfl
  rcases face with - | -
  · rfl
  · dsimp only
    rw [run_storeRead]
    split
    · rfl
    · refine store_run_storeCall (fun inserted u => ?_) s
      cases inserted <;> rfl

theorem run_bind_pure (p : Prog Service StoreError α) (f : α → β) (s : Service) :
    ((p >>= fun a => pure (f a)).run s).2 = (p.run s).2 := by
  rw [Prog.bind_eq, Prog.run_bind]
  rcases p.run s with ⟨e | a, u⟩ <;> rfl

theorem store_terminated (notice : PollTerminateNotice) (record : MessageRecord) (s : Service) : ((do
      let record ← reportPoll t record
      return HostSideEvent.messageUpserted record :: (← landPollTerminateNotice env t legacySender record notice)).run
        s).2.store = terminated env t legacySender notice (some record, s.store) :=
  (congrArg Service.store (run_bind_pure (landPollTerminateNotice env t legacySender (pollFace t s.store record) notice)
    (HostSideEvent.messageUpserted (pollFace t s.store record) :: ·) s)).trans (store_landPollTerminateNotice _ _ _ _ s)

theorem store_applyEarlyControl (payload : EarlyControlPayload) (s : Service) :
    ((applyEarlyControl env t payload).run s).2.store = controlStore env t s.store payload := by
  match payload with
  | .remoteDelete =>
    refine store_run_storeCall (fun changed u => ?_) s
    rcases changed with _ | ⟨record, _ | _⟩ <;> rfl
  | .edit true newText newBytes | .edit false newText newBytes =>
    refine store_run_storeCall (fun applied u => ?_) s
    rcases applied with _ | record <;> rfl
  | .pollVote voterId optionIndexes =>
    refine store_run_storeCall (fun folded u => ?_) s
    rcases folded with _ | record <;> rfl
  | .pollTerminate notice =>
    unfold applyEarlyControl controlStore
    rw [run_storeWrite]
    rcases hfolded : s.store.foldPollTerminate t.accountId t.conversationId t.sentAt t.senderId
      (t.legacySenderId env) with ⟨_ | record, u⟩
    · rfl
    · exact store_terminated t (t.legacySenderId env) notice record { s with store := u }

end Runs

end Ingest

end SignalConnector
