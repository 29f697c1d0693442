/-
# Importing history

`insert_history_batch` writes the rows of a backup archive in one
transaction. A row the store already holds, under its id or under its Signal
identity, is not written again: at most its empty attachment cell is filled.
A new row moves the summaries forwards and leaves every unread badge alone.
-/
import SignalConnector.Lib.Fold
import SignalConnector.Store.Conversations
import SignalConnector.Store.Messages

namespace SignalConnector

/-- A row of the archive. -/
structure HistoryImportInsert where
  record : MessageRecord
  preview : Option String
  altSenderIds : List String
  locators : List AttachmentLocator
  deriving DecidableEq

/-- What a batch did. -/
structure HistoryBatchOutcome where
  inserted : ℕ
  duplicates : ℕ
  deriving DecidableEq

namespace MessageRow

/-- The row the batch writer inserts, with the archive's locators in place of live ones. -/
def ofHistory (row : HistoryImportInsert) (storedAt : ℕ) : MessageRow :=
  { MessageRow.ofRecord row.record none storedAt with
    receivedAt := some (asI64 storedAt)
    attachmentLocators := toListCell row.locators
    liveAttachmentLocators := none
    serverGuid := none
    serverTimestamp := none
    editedAt := none
    adminDeleted := row.record.adminDeleted }

end MessageRow

namespace Store

/-- The stored row of this Signal message, under any of the sender's spellings. -/
def historyTwin (s : Store) (row : HistoryImportInsert) : Option MessageRow :=
  let senders := row.record.senderId :: row.altSenderIds.take 2
  let rows := s.messages.rows.filter fun m =>
    m.accountId = row.record.accountId ∧ m.conversationId = row.record.conversationId ∧
      m.direction = row.record.direction ∧ m.sentAt = asI64 row.record.sentAt ∧ m.senderId ∈ senders
  (rows.insertionSort fun a b => a.senderId ≤ b.senderId).head?

/-- The repair of a stored row without descriptors. -/
def refillAttachments (s : Store) (existing : MessageRow) (row : HistoryImportInsert) : Store :=
  if !row.record.attachments.isEmpty && attachmentsJsonIsEmpty existing.attachments then
    s.updateMessages (fun m => m.id = existing.id)
      (fun m => { m with
        attachments := some (.parsed (row.record.attachments.map NormalizedAttachment.info))
        attachmentLocators := toListCell row.locators }) fun _ => rfl
  else s

/-- A landed row's summary, if it is newer than what the conversation shows. -/
def advanceEnding (s : Store) (row : HistoryImportInsert) : Store :=
  let stamp := asI64 row.record.sentAt
  s.updateConversations (fun c => c.id = row.record.conversationId && isNewer stamp c.lastMessageAt)
    (fun c => { c with lastMessagePreview := row.preview, lastMessageAt := some stamp }) fun _ => rfl

def importRow (storedAt : ℕ) (acc : HistoryBatchOutcome × Store) (row : HistoryImportInsert) :
    Except StoreError (HistoryBatchOutcome × Store) :=
  let (outcome, s) := acc
  match s.historyTwin row with
  | some existing =>
    .ok ({ outcome with duplicates := outcome.duplicates + 1 }, s.refillAttachments existing row)
  | none =>
    let fresh := MessageRow.ofHistory row storedAt
    if s.insertIgnored fresh then .ok ({ outcome with duplicates := outcome.duplicates + 1 }, s)
    else if (s.accounts.find? fresh.accountId).isSome ∧ (s.conversations.find? fresh.conversationId).isSome then
      let landed := { s with messages := s.messages.insertOrIgnore fresh }
      .ok ({ outcome with inserted := outcome.inserted + 1 }, landed.advanceEnding row)
    else .error .unavailable

/-- The account's ending, from its conversations. -/
def refreshEnding (s : Store) (accountId : String) : Store :=
  { s with
    accounts := s.accounts.update (fun a => a.id = accountId)
      (fun a => { a with
        lastMessageAt := ((s.conversations.rows.filter fun c => c.accountId = accountId).filterMap
          ConversationRow.lastMessageAt).max? })
      fun _ => rfl }

/-- A batch lands whole or not at all. -/
def insertHistoryBatch (s : Store) (rows : List HistoryImportInsert) (storedAt : ℕ) :
    Except StoreError (HistoryBatchOutcome × Store) :=
  match rows with
  | [] => .ok (⟨0, 0⟩, s)
  | first :: _ => do
    let (outcome, s) ← rows.foldlM (importRow storedAt) (⟨0, 0⟩, s)
    .ok (outcome, s.refreshEnding first.record.accountId)

/-! ### A batch is its rows one at a time -/

/-- The stores differ in columns of their accounts alone. -/
def SameButAccounts (s t : Store) : Prop :=
  t = { s with accounts := t.accounts } ∧ ∀ id, (t.accounts.find? id).isSome = (s.accounts.find? id).isSome

variable {s t : Store} (storedAt : ℕ)

theorem sameButAccounts_refreshEnding (h : s.SameButAccounts t) (accountId : String) :
    s.SameButAccounts (t.refreshEnding accountId) := by
  refine ⟨?_, fun id => ?_⟩
  · unfold refreshEnding
    rw [h.1]
  · rw [← h.2 id]
    simp only [refreshEnding, Table.find?_update, Option.isSome_map]

theorem importRow_congr (h : s.SameButAccounts t) (row : HistoryImportInsert) (outcome outcome' : HistoryBatchOutcome) :
    (∃ o s' o' t', importRow storedAt (outcome, s) row = .ok (o, s') ∧
        importRow storedAt (outcome', t) row = .ok (o', t') ∧ s'.SameButAccounts t') ∨
      importRow storedAt (outcome, s) row = .error .unavailable ∧
        importRow storedAt (outcome', t) row = .error .unavailable := by
  obtain ⟨hrest, haccounts⟩ := h
  have htwin : t.historyTwin row = s.historyTwin row := by
    rw [hrest]
    rfl
  have hignored : ∀ fresh, t.insertIgnored fresh = s.insertIgnored fresh := fun fresh => by
    rw [hrest]
    rfl
  have hconversations : t.conversations = s.conversations := by rw [hrest]
  unfold importRow
  dsimp only
  rw [htwin, hignored, haccounts, hconversations]
  cases s.historyTwin row with
  | some =>
    refine .inl ⟨_, _, _, _, rfl, rfl, ?_, ?_⟩
    · unfold refillAttachments
      split
      · rw [hrest]
        rfl
      · exact hrest
    · unfold refillAttachments
      split <;> exact haccounts
  | none =>
    dsimp only
    split
    · exact .inl ⟨_, _, _, _, rfl, rfl, hrest, haccounts⟩
    · split
      · refine .inl ⟨_, _, _, _, rfl, rfl, ?_, haccounts⟩
        rw [hrest]
        rfl
      · exact .inr ⟨rfl, rfl⟩

/-- A batch of one row. -/
def insertHistoryRow (s : Store) (row : HistoryImportInsert) : Except StoreError Store :=
  (s.insertHistoryBatch [row] storedAt).map Prod.snd

theorem insertHistoryRow_eq (row : HistoryImportInsert) : s.insertHistoryRow storedAt row =
      (importRow storedAt (⟨0, 0⟩, s) row).map fun p => p.2.refreshEnding row.record.accountId := by
  unfold insertHistoryRow insertHistoryBatch
  rw [List.foldlM_cons]
  cases importRow storedAt (⟨0, 0⟩, s) row <;> rfl

/-- Row after row the two ways of importing stay together. -/
theorem foldlM_insertHistoryRow : ∀ (rows : List HistoryImportInsert) {s t : Store} (outcome : HistoryBatchOutcome),
    s.SameButAccounts t → (∃ o s' t', rows.foldlM (importRow storedAt) (outcome, s) = .ok (o, s') ∧
        rows.foldlM (insertHistoryRow storedAt) t = .ok t' ∧ s'.SameButAccounts t') ∨
      rows.foldlM (importRow storedAt) (outcome, s) = .error .unavailable ∧
        rows.foldlM (insertHistoryRow storedAt) t = .error .unavailable
  | [], s, t, outcome, h => .inl ⟨outcome, s, t, rfl, rfl, h⟩
  | row :: rows, s, t, outcome, h => by
    simp only [List.foldlM_cons, insertHistoryRow_eq]
    rcases importRow_congr storedAt h row outcome ⟨0, 0⟩ with
      ⟨o, s', o', t', hs, ht, h'⟩ | ⟨hs, ht⟩
    · rw [hs, ht]
      exact foldlM_insertHistoryRow rows o (sameButAccounts_refreshEnding h' row.record.accountId)
    · rw [hs, ht]
      exact .inr ⟨rfl, rfl⟩

/-- **A batch stores what its rows store one at a time.** -/
theorem messages_insertHistoryBatch (rows : List HistoryImportInsert) :
    (s.insertHistoryBatch rows storedAt).map (fun p => p.2.messages) =
      (rows.foldlM (insertHistoryRow storedAt) s).map Store.messages := by
  cases rows with
  | nil => rfl
  | cons first rest =>
    unfold insertHistoryBatch
    dsimp only
    rcases foldlM_insertHistoryRow storedAt (first :: rest) (s := s) ⟨0, 0⟩ ⟨rfl, fun _ => rfl⟩ with
      ⟨o, s', t', hs, ht, h'⟩ | ⟨hs, ht⟩
    · have hmessages : t'.messages = s'.messages := by rw [h'.1]
      rw [hs, ht]
      exact congrArg Except.ok hmessages.symm
    · rw [hs, ht]
      rfl

end Store

end SignalConnector
