/-
# Edits and poll votes

The writers that change the content of a stored row: the inbound edit, the
host's own edit, the mirror of an edit made on another device, and the fold of
a vote or a termination onto a poll. An edit replaces the body and keeps the
body it replaced in `message_edits`, the newest twenty per message.

Two of the three edits and the poll fold pass over rows that are
`remote-deleted`; the host's own edit does not look at the status.
-/
import SignalConnector.Lib.Fold
import SignalConnector.Store.Messages

namespace SignalConnector

def maxEditHistoryEntries : ℕ := 20

def maxEditBodyBytes : ℕ := 4 * 1024

/-- The longest start of a text that fits into `n` bytes of UTF-8. -/
def takeUtf8Bytes : ℕ → List Char → List Char
  | _, [] => []
  | n, c :: cs => if c.utf8Size ≤ n then c :: takeUtf8Bytes (n - c.utf8Size) cs else []

/-- `truncate_utf8_bytes`: cut at the last character boundary within the limit. -/
def truncateUtf8Bytes (text : String) (maxBytes : ℕ) : String :=
  if text.utf8ByteSize ≤ maxBytes then text else String.ofList (takeUtf8Bytes maxBytes text.toList)

namespace MessageRow

/-- The `UPDATE` of an edit. -/
def edited (newText : String) (newTextBytes now : ℕ) (m : MessageRow) : MessageRow :=
  { m with
    body := some newText
    bodyBytes := some newTextBytes
    bodyTruncated := false
    editedAt := some (asI64 now) }

theorem id_edited (newText : String) (newTextBytes now : ℕ) (m : MessageRow) :
    (m.edited newText newTextBytes now).id = m.id := rfl

end MessageRow

namespace Store

variable (s : Store)

/-- The first row by id that meets `p` (`ORDER BY id ASC LIMIT 1`). -/
def firstRow (p : MessageRow → Bool) : Option MessageRow :=
  ((s.messages.rows.filter p).insertionSort fun a b => a.id ≤ b.id).head?

theorem firstRow_eq_some {s : Store} {p : MessageRow → Bool} {m : MessageRow} (h : s.firstRow p = some m) :
    m ∈ s.messages.rows ∧ p m = true := by
  have hmem := List.mem_of_head? h
  rw [List.mem_insertionSort] at hmem
  exact List.mem_filter.mp hmem

/-! ### Prior bodies -/

/-- The number the next prior body is filed under: above every one in the table. -/
def nextEditSeq : ℕ := (s.messageEdits.rows.map MessageEditRow.seq).foldr max 0 + 1

/-- The newest twenty prior bodies of a message. -/
def keptEdits (edits : Table MessageEditRow.seq) (messageId : String) : List ℕ :=
  let seqs := (edits.rows.filter fun e => e.messageId = messageId).map MessageEditRow.seq
  (seqs.insertionSort fun a b => b ≤ a).take maxEditHistoryEntries

variable (messageId accountId conversationId : String) (targetSentAt : ℕ)

/-- `snapshot_prior_body`: an empty body leaves no trace, and a message keeps its newest entries. -/
def snapshotPriorBody (messageId priorBody : String) (now : ℕ) : Except StoreError Store :=
  if priorBody = "" then .ok s
  else if (s.accounts.find? accountId).isSome ∧ (s.messages.find? messageId).isSome then
    let body := truncateUtf8Bytes priorBody maxEditBodyBytes
    let row : MessageEditRow :=
      ⟨s.nextEditSeq, accountId, messageId, body, (min body.utf8ByteSize u32Max : ℕ), asI64 now⟩
    let edits := s.messageEdits.insertOrIgnore row
    let kept := keptEdits edits messageId
    let edits := edits.delete fun e => e.messageId = messageId ∧ e.seq ∉ kept
    .ok { s with messageEdits := edits }
  else .error .unavailable

/-- A snapshot files prior bodies of its own message only, and writes nothing else. -/
theorem snapshotPriorBody_spec {s s' : Store} {accountId messageId priorBody : String} {now : ℕ}
    (h : s.snapshotPriorBody accountId messageId priorBody now = .ok s') : s'.messages = s.messages ∧
      ∀ e ∈ s'.messageEdits.rows, e ∈ s.messageEdits.rows ∨ e.messageId = messageId := by
  unfold snapshotPriorBody at h
  split at h
  · cases h
    exact ⟨rfl, fun e he => .inl he⟩
  split at h
  · cases h
    refine ⟨rfl, fun e he => ?_⟩
    rcases Table.mem_of_mem_insertOrIgnore (Table.mem_delete.mp he).1 with he | rfl
    · exact .inl he
    · exact .inr rfl
  · cases h

/-- The snapshot of the row an edit is about to replace. -/
def snapshotOf (prior : Option MessageRow) (now : ℕ) : Except StoreError Store :=
  match prior with
  | none => .ok s
  | some row => s.snapshotPriorBody accountId row.id (row.body.getD "") now

/-! ### Edits -/

/-- `apply_inbound_edit`: the author's rows at the timestamp; the prior body is read before the write. -/
def applyInboundEdit (senderId legacySenderId newText : String) (newTextBytes now : ℕ) :
    Except StoreError (Option MessageRecord × Store) :=
  let addressed : MessageRow → Bool := fun m =>
    m.accountId = accountId ∧ m.conversationId = conversationId ∧ m.sentAt = asI64 targetSentAt ∧
      (m.senderId = senderId ∨ m.senderId = legacySenderId)
  let due : MessageRow → Bool := fun m => addressed m && m.direction = .incoming && m.isLive
  let prior := s.firstRow due
  if s.messages.rows.any due then do
    let s := s.updateMessages due (MessageRow.edited newText newTextBytes now)
      (MessageRow.id_edited newText newTextBytes now)
    let s ← s.snapshotOf accountId prior now
    .ok ((s.firstRow addressed).map messageRecordFromRow, s)
  else .ok (none, s)

/-- `apply_outgoing_edit`: the row of the id, whatever its status. -/
def applyOutgoingEdit (newText : String)
    (newTextBytes now : ℕ) : Except StoreError (Option MessageRecord × Store) := do
  let due : MessageRow → Bool := fun m =>
    m.id = messageId ∧ m.accountId = accountId ∧ m.direction = .outgoing
  let prior := s.messages.rows.find? due
  let s := s.updateMessages due (MessageRow.edited newText newTextBytes now)
    (MessageRow.id_edited newText newTextBytes now)
  let s ← s.snapshotOf accountId prior now
  .ok ((s.messages.find? messageId).map messageRecordFromRow, s)

/-- `apply_outgoing_edit_by_signal`: the outgoing rows at the timestamp. -/
def applyOutgoingEditBySignal
    (newText : String) (newTextBytes now : ℕ) : Except StoreError (Option MessageRecord × Store) := do
  let addressed : MessageRow → Bool := fun m =>
    m.accountId = accountId ∧ m.conversationId = conversationId ∧ m.sentAt = asI64 targetSentAt ∧
      m.direction = .outgoing
  let due : MessageRow → Bool := fun m => addressed m && m.isLive
  let prior := s.firstRow due
  let s := s.updateMessages due (MessageRow.edited newText newTextBytes now)
    (MessageRow.id_edited newText newTextBytes now)
  let s ← s.snapshotOf accountId prior now
  .ok ((s.firstRow addressed).map messageRecordFromRow, s)

end Store

/-! ### Polls -/

/-- The voter's first entry takes the new selection. -/
def revote (voterId : String) (indexes : List ℕ) : List NormalizedPollVote → List NormalizedPollVote
  | [] => []
  | vote :: votes =>
    if vote.voterId = voterId then { vote with optionIndexes := indexes } :: votes
    else vote :: revote voterId indexes votes

namespace NormalizedPoll

/-- The vote's mutation: a selection replaces the voter's prior one, an empty one clears it, a new voter needs one of
the 64 places. -/
def vote (voterId : String) (optionIndexes : List ℕ) (poll : NormalizedPoll) : Option NormalizedPoll :=
  let indexes := optionIndexes.filter (· < poll.options.length)
  if poll.votes.any fun vote => vote.voterId = voterId then
    if indexes.isEmpty then
      some { poll with votes := poll.votes.filter fun vote => vote.voterId ≠ voterId }
    else some { poll with votes := revote voterId indexes poll.votes }
  else if indexes.isEmpty ∨ 64 ≤ poll.votes.length then none
  else some { poll with votes := poll.votes ++ [⟨voterId, indexes⟩] }

def terminate (poll : NormalizedPoll) : Option NormalizedPoll :=
  if poll.terminated then none else some { poll with terminated := true }

end NormalizedPoll

namespace Store

variable (s : Store) (accountId conversationId : String) (targetSentAt : ℕ)

/-- `fold_poll_row`: the one live row the address names, if it carries a poll that the mutation changes. -/
def foldPollRow (senderId legacySenderId : String) (mutate : NormalizedPoll → Option NormalizedPoll) :
    Option MessageRecord × Store :=
  let candidates := s.messages.rows.filter fun m =>
    (m.accountId = accountId ∧ m.conversationId = conversationId ∧ m.sentAt = asI64 targetSentAt ∧
      (m.senderId = senderId ∨ m.senderId = legacySenderId)) && m.isLive
  match candidates with
  | [row] =>
    match row.rich.bind JsonCell.ok with
    | none => (none, s)
    | some rich =>
      match rich.poll.bind mutate with
      | none => (none, s)
      | some poll =>
        let s := s.updateMessages (fun m => m.id = row.id)
          (fun m => { m with rich := some (.parsed { rich with poll := some poll }) }) fun _ => rfl
        ((s.messages.find? row.id).map messageRecordFromRow, s)
  | _ => (none, s)

/-- A vote on the poll of a row. -/
def foldPollVote
    (senderId legacySenderId voterId : String) (optionIndexes : List ℕ) : Option MessageRecord × Store :=
  s.foldPollRow accountId conversationId targetSentAt senderId legacySenderId
    (NormalizedPoll.vote voterId optionIndexes)

/-- The end of the poll of a row. -/
def foldPollTerminate (senderId legacySenderId : String) : Option MessageRecord × Store :=
  s.foldPollRow accountId conversationId targetSentAt senderId legacySenderId NormalizedPoll.terminate

end Store

end SignalConnector
