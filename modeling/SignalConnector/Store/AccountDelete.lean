/-
# Deleting an account

`complete_account_delete_recorded` removes an account's rows in one
transaction. It counts them first and files the counts in a receipt. The rows
go by five deletes, one `meta` key and the foreign keys that cascade; a row
that still refers to a deleted conversation or account without cascading fails
the statement and rolls everything back. Both ledgers of deletions are cut to
their newest 256 entries.

Before that `prepare_account_delete` files the operation, at most one
unfinished one for an account, and `unfinished_account_delete_state` asks for
it by number.
-/
import SignalConnector.Lib.Select
import SignalConnector.Store.Database
import SignalConnector.Store.Messages

namespace SignalConnector

def accountDeleteTables : List AccountTable :=
  [.messages, .conversations, .contacts, .messageEvents, .messageEdits, .conversationPins, .conversationDrafts,
    .memoMigrations, .peerIdentities, .conversationIdentityMerges, .historyImports,
    .historyImportStageRecipients, .historyImportStageChats]

def maxCompletedAccountDeleteOperations : ℕ := 256

def maxAccountDeleteReceipts : ℕ := 256

/-- `contacts_synced_at:<id>`. -/
def contactsSyncedAtKey (accountId : String) : String := "contacts_synced_at:" ++ accountId

/-- `stories_disabled:<id>`. -/
def storiesDisabledKey (accountId : String) : String := "stories_disabled:" ++ accountId

/-- What is left to do. -/
inductive AccountDeletePlan
  | completed
  | dispatch (signalAccount : String) (reconcileFirst : Bool)
  deriving DecidableEq

namespace Database

/-! ### Counting -/

variable (db : Database)

variable (sha256 : String → String) (accountId operationId : String) (nowMs : ℕ)

/-- The account's messages have this id among them. -/
def ownsMessage (messageId : String) : Bool :=
  db.store.messages.rows.any fun m => m.id = messageId ∧ m.accountId = accountId

/-- `SELECT COUNT(*) FROM table WHERE account_id=?1`; receipts are counted through their messages. -/
def countOf (accountId : String) : AccountTable → ℕ
  | .accounts => db.store.accounts.rows.countP fun r => r.id = accountId
  | .conversations => db.store.conversations.rows.countP fun r => r.accountId = accountId
  | .messages => db.store.messages.rows.countP fun r => r.accountId = accountId
  | .messageReceipts => db.store.messageReceipts.rows.countP fun r => db.ownsMessage accountId r.messageId
  | .messageEdits => db.store.messageEdits.rows.countP fun r => r.accountId = accountId
  | .messageEvents => db.store.messageEvents.rows.countP fun r => r.accountId = accountId
  | .contacts => db.store.contacts.rows.countP fun r => r.accountId = accountId
  | .peerIdentities => db.store.peerIdentities.rows.countP fun r => r.accountId = accountId
  | .conversationPins => db.conversationPins.rows.countP fun r => r.accountId = accountId
  | .conversationDrafts => db.conversationDrafts.rows.countP fun r => r.accountId = accountId
  | .memoMigrations => db.memoMigrations.rows.countP fun r => r.accountId = accountId
  | .conversationIdentityMerges => db.conversationIdentityMerges.rows.countP fun r => r.accountId = accountId
  | .historyImports => db.historyImports.rows.countP fun r => r.accountId = accountId
  | .historyImportStageRecipients => db.historyImportStageRecipients.rows.countP fun r => r.accountId = accountId
  | .historyImportStageChats => db.historyImportStageChats.rows.countP fun r => r.accountId = accountId
  | .conversationAvatars => db.conversationAvatars.rows.countP fun r => r.accountId = accountId

/-- The map of counts, without zeros and in the order of its keys. -/
def tableCounts (accountId : String) : List (String × ℕ) :=
  let counted := (accountDeleteTables ++ [AccountTable.messageReceipts]).filterMap fun table =>
    if 0 < db.countOf accountId table then some (table.asStr, db.countOf accountId table) else none
  (counted ++ [("accounts", 1)]).insertionSort fun a b => a.1 ≤ b.1

/-- The receipt's digest. -/
def accountDeleteDigest (completedAt rowsDeleted : ℕ) (tableCounts : List (String × ℕ)) : String :=
  "sha256:" ++ sha256 (tableCounts.foldl (fun text (entry : String × ℕ) =>
    text ++ "\x00" ++ entry.1 ++ "=" ++ toString entry.2)
      ("kt-signal-connector/account-delete-receipt/v1\x00" ++ accountId ++ "\x00" ++ toString completedAt ++
        "\x00" ++ toString rowsDeleted))

/-- The rows a delete will take, counted. -/
def accountDeleteReceipt (db : Database) (accountId : String) (nowMs : ℕ) : DeleteReceiptRow :=
  let counts := db.tableCounts accountId
  let rowsDeleted := (counts.map Prod.snd).sum
  { accountId
    completedAt := asI64 nowMs
    rowsDeleted
    tableCounts := counts
    digest := accountDeleteDigest sha256 accountId nowMs rowsDeleted counts
    plaintextBackup := "pending"
    walCheckpoint := "deferred" }

/-! ### The ledgers -/

/-- `INSERT INTO account_delete_receipts … ON CONFLICT(account_id) DO UPDATE`. -/
def fileReceipt (receipt : DeleteReceiptRow) : Database :=
  let receipts := db.accountDeleteReceipts.delete fun r => r.accountId = receipt.accountId
  { db with accountDeleteReceipts := receipts.insertOrIgnore receipt }

def keptReceipts (receipts : Table DeleteReceiptRow.accountId) : List String :=
  ((receipts.rows.insertionSort fun a b =>
    lexLe DeleteReceiptRow.completedAt DeleteReceiptRow.accountId b a).take maxAccountDeleteReceipts).map
      DeleteReceiptRow.accountId

/-- The newest receipts stay. -/
def pruneAccountDeleteReceipts : Database :=
  { db with
    accountDeleteReceipts := db.accountDeleteReceipts.delete fun r =>
      r.accountId ∉ keptReceipts db.accountDeleteReceipts }

/-- The completed operations that stay, newest first. -/
def keptOperations (operations : Table DeleteOperationRow.operationId) : List String :=
  (((operations.rows.filter fun r => r.state = .completed).insertionSort fun a b =>
    lexLe DeleteOperationRow.updatedAt DeleteOperationRow.operationId b a).take
      maxCompletedAccountDeleteOperations).map DeleteOperationRow.operationId

/-- The newest completed ones stay. -/
def pruneCompletedAccountDeletes : Database :=
  { db with
    accountDeleteOperations := db.accountDeleteOperations.delete fun r =>
      r.state = .completed ∧ r.operationId ∉ keptOperations db.accountDeleteOperations }

/-- The operation as completed. -/
def completedOperation (r : DeleteOperationRow) : DeleteOperationRow :=
  { r with state := .completed, updatedAt := asI64 nowMs }

theorem operationId_completedOperation (r : DeleteOperationRow) :
    (completedOperation nowMs r).operationId = r.operationId := rfl

/-- The operation ledger after the delete; an operation not on file under this account is a conflict. -/
def settleOperation (operationId : Option String) (nowMs : ℕ) : Except StoreError Database :=
  match operationId with
  | none => .ok db
  | some operationId =>
    let due : DeleteOperationRow → Bool := fun r => r.operationId = operationId ∧ r.accountId = accountId
    if db.accountDeleteOperations.rows.any due then
      let operations := db.accountDeleteOperations.update due (completedOperation nowMs)
        (operationId_completedOperation nowMs)
      .ok { db with accountDeleteOperations := operations }.pruneCompletedAccountDeletes
    else .error .operationConflict

/-! ### Before the delete -/

/-- The unfinished delete operations of an account; the schema admits one. -/
def isPending (r : DeleteOperationRow) : Bool :=
  r.accountId = accountId ∧ r.state ≠ .completed

/-- The operation on an account that is not there: on file as completed. -/
def fileCompleted (nowMs : ℕ) : Database :=
  let row : DeleteOperationRow := ⟨operationId, accountId, .completed, asI64 nowMs, asI64 nowMs⟩
  let operations := (db.accountDeleteOperations.update (fun r => r.operationId = operationId)
    (completedOperation nowMs) (operationId_completedOperation nowMs)).insertOrIgnore row
  { db with accountDeleteOperations := operations }.pruneCompletedAccountDeletes

/-- `prepare_account_delete`, past its look at the operation: `existing` is on file and unfinished. -/
def planDelete (existing : Bool) : Except StoreError (AccountDeletePlan × Database) :=
  match db.store.accounts.find? accountId with
  | none => .ok (.completed, db.fileCompleted accountId operationId nowMs)
  | some account =>
    if existing then .ok (.dispatch account.signalAccount true, db)
    else if db.accountDeleteOperations.rows.any (isPending accountId) then .error .operationConflict
    else
      let row : DeleteOperationRow := ⟨operationId, accountId, .started, asI64 nowMs, asI64 nowMs⟩
      .ok (.dispatch account.signalAccount false,
        { db with accountDeleteOperations := db.accountDeleteOperations.insertOrIgnore row })

/-- An operation may be taken up again. -/
def prepareAccountDelete (nowMs : ℕ) : Except StoreError (AccountDeletePlan × Database) :=
  match db.accountDeleteOperations.find? operationId with
  | none => db.planDelete accountId operationId nowMs false
  | some operation =>
    if operation.accountId ≠ accountId then .error .operationConflict
    else if operation.state = .completed then .ok (.completed, db)
    else db.planDelete accountId operationId nowMs true

/-- `unfinished_account_delete_state`: of the accounts with the number, by a join. -/
def unfinishedAccountDeleteState (signalAccount : String) : Option DeleteState :=
  (db.accountDeleteOperations.rows.find? fun r => r.state ≠ .completed &&
    db.store.accounts.rows.any fun a => a.id = r.accountId ∧ a.signalAccount = signalAccount).map
      DeleteOperationRow.state

/-- A completed one is not marked. -/
def markAccountDeleteUnknown (nowMs : ℕ) : Except StoreError Database :=
  let due : DeleteOperationRow → Bool := fun r => r.operationId = operationId ∧ r.state ≠ .completed
  if db.accountDeleteOperations.rows.any due then
    let operations := db.accountDeleteOperations.update due
      (fun r => { r with state := .unknown, updatedAt := asI64 nowMs }) fun _ => rfl
    .ok { db with accountDeleteOperations := operations }
  else .error .operationConflict

/-! ### The rows -/

/-- `DELETE FROM message_events`, then `DELETE FROM messages` with its cascades. -/
def deleteAccountMessages (accountId : String) : Database :=
  let events := db.store.messageEvents.delete fun r => r.accountId = accountId
  { db with store := { db.store with messageEvents := events }.deleteMessages fun m => m.accountId = accountId }

/-- The account's conversations have this id among them. -/
def ownsConversation (conversationId : String) : Bool :=
  db.store.conversations.rows.any fun c => c.id = conversationId ∧ c.accountId = accountId

/-- `DELETE FROM conversations`: pins and drafts cascade, messages and reactions may not be left. -/
def deleteAccountConversations (accountId : String) : Except StoreError Database :=
  if db.store.messages.rows.any (fun m => db.ownsConversation accountId m.conversationId) ||
      db.store.messageEvents.rows.any fun e => db.ownsConversation accountId e.conversationId then
    .error .unavailable
  else
    .ok { db with
      store := { db.store with
        conversations := db.store.conversations.delete fun c => c.accountId = accountId }
      conversationPins := db.conversationPins.delete fun r => db.ownsConversation accountId r.conversationId
      conversationDrafts := db.conversationDrafts.delete fun r => db.ownsConversation accountId r.conversationId }

/-- `DELETE FROM contacts`, `DELETE FROM conversation_avatars`, and the one key of `meta`. -/
def deleteAccountCaches (accountId : String) : Database :=
  { db with
    store := { db.store with contacts := db.store.contacts.delete fun r => r.accountId = accountId }
    conversationAvatars := db.conversationAvatars.delete fun r => r.accountId = accountId
    metaKeys := db.metaKeys.delete fun r => r.key = contactsSyncedAtKey accountId }

/-- `DELETE FROM accounts`: most tables cascade; prior bodies may not be left. -/
def deleteAccountRow (accountId : String) : Except StoreError Database :=
  if db.store.conversations.rows.any (fun r => r.accountId = accountId) ||
      db.store.messages.rows.any (fun r => r.accountId = accountId) ||
      db.store.messageEdits.rows.any (fun r => r.accountId = accountId) ||
      db.store.messageEvents.rows.any (fun r => r.accountId = accountId) ||
      db.store.contacts.rows.any (fun r => r.accountId = accountId) ||
      db.conversationAvatars.rows.any (fun r => r.accountId = accountId) then
    .error .unavailable
  else
    .ok { db with
      store := { db.store with
        accounts := db.store.accounts.delete fun r => r.id = accountId
        peerIdentities := db.store.peerIdentities.delete fun r => r.accountId = accountId }
      conversationPins := db.conversationPins.delete fun r => r.accountId = accountId
      conversationDrafts := db.conversationDrafts.delete fun r => r.accountId = accountId
      memoMigrations := db.memoMigrations.delete fun r => r.accountId = accountId
      conversationIdentityMerges := db.conversationIdentityMerges.delete fun r => r.accountId = accountId
      historyImports := db.historyImports.delete fun r => r.accountId = accountId
      historyImportStageRecipients := db.historyImportStageRecipients.delete fun r => r.accountId = accountId
      historyImportStageChats := db.historyImportStageChats.delete fun r => r.accountId = accountId }

/-- The deletes of the transaction, in their order. -/
def deleteAccountRows (accountId : String) : Except StoreError Database := do
  let db ← (db.deleteAccountMessages accountId).deleteAccountConversations accountId
  (db.deleteAccountCaches accountId).deleteAccountRow accountId

/-- The receipt with what became of the checkpoint. -/
def checkpointedReceipt (walCheckpoint : String) (r : DeleteReceiptRow) : DeleteReceiptRow :=
  { r with walCheckpoint }

theorem accountId_checkpointedReceipt (walCheckpoint : String) (r : DeleteReceiptRow) :
    (checkpointedReceipt walCheckpoint r).accountId = r.accountId := rfl

/-- `complete_account_delete_recorded`; `truncated`: the checkpoint behind the commit found the log free. -/
def completeAccountDeleteRecorded (db : Database) (accountId : String)
    (operationId : Option String) (nowMs : ℕ) (truncated : Bool) :
    Except StoreError (Option DeleteReceiptRow × Database) :=
  if db.store.accounts.rows.any fun r => r.id = accountId then do
    let receipt := accountDeleteReceipt sha256 db accountId nowMs
    let deleted ← ((db.fileReceipt receipt).pruneAccountDeleteReceipts).deleteAccountRows accountId
    let settled ← deleted.settleOperation accountId operationId nowMs
    let walCheckpoint := if truncated then "truncated" else "deferred"
    let receipts := settled.accountDeleteReceipts.update (fun r => r.accountId = accountId)
      (checkpointedReceipt walCheckpoint) (accountId_checkpointedReceipt walCheckpoint)
    .ok (some (checkpointedReceipt walCheckpoint receipt), { settled with accountDeleteReceipts := receipts })
  else do
    let settled ← db.settleOperation accountId operationId nowMs
    .ok (none, settled)

end Database

end SignalConnector
