/-
# The whole database

`Store` has the tables that messages, receipts and badges live in. An account
owns rows in eleven more: its pins and drafts, the ledgers of its identity
folds, the scratch tables of a history import, cached avatars, the keys of
`meta` that carry its id, and the two ledgers its deletion leaves behind. The
database is all of them, and a `DbRow` is a row of any.
-/
import SignalConnector.Store.Schema

namespace SignalConnector

/-! ### The other tables -/

structure ConversationPinRow where
  accountId : String
  conversationId : String
  targetAuthor : String
  targetSentAt : ℤ
  pinnedAt : ℤ
  expiresAt : Option ℤ
  deriving DecidableEq

def ConversationPinRow.key (r : ConversationPinRow) : String × String × ℤ :=
  (r.accountId, r.conversationId, r.targetSentAt)

structure ConversationDraftRow where
  accountId : String
  conversationId : String
  draftTimestamp : ℤ
  draftBody : Option String
  draftAttachments : Option String
  draftBodyRanges : Option String
  draftIsViewOnce : Bool
  draftEditMessage : Option String
  deriving DecidableEq

def ConversationDraftRow.key (r : ConversationDraftRow) : String × String := (r.accountId, r.conversationId)

structure MemoMigrationRow where
  accountId : String
  canonicalAci : String
  sourcePeerKey : String
  rollback : String
  migratedAt : ℤ
  deriving DecidableEq

structure IdentityMergeRow where
  accountId : String
  obsoletePeerKey : String
  canonicalAci : String
  rollback : String
  mergedAt : ℤ
  deriving DecidableEq

def IdentityMergeRow.key (r : IdentityMergeRow) : String × String := (r.accountId, r.obsoletePeerKey)

inductive HistoryImportState
  | running | completed | failed
  deriving DecidableEq

/-- How an import stands. -/
structure HistoryImportRow where
  accountId : String
  state : HistoryImportState
  attempts : ℕ
  importedMessages : ℕ
  skippedLines : ℕ
  skippedChats : ℕ
  skippedMessages : ℕ
  errorClass : Option String
  startedAt : ℤ
  updatedAt : ℤ
  deriving DecidableEq

/-- A staged recipient. -/
structure StageRecipientRow where
  accountId : String
  id : ℤ
  kind : String
  name : String
  aci : Option String
  e164 : Option String
  masterKey : Option String
  deriving DecidableEq

def StageRecipientRow.key (r : StageRecipientRow) : String × ℤ := (r.accountId, r.id)

/-- A staged chat. -/
structure StageChatRow where
  accountId : String
  id : ℤ
  recipientId : ℤ
  expireTimerMs : Option ℤ
  deriving DecidableEq

def StageChatRow.key (r : StageChatRow) : String × ℤ := (r.accountId, r.id)

structure AvatarRow where
  conversationId : String
  accountId : String
  dataUri : String
  byteSize : ℤ
  syncedAt : ℤ
  deriving DecidableEq

structure MetaRow where
  key : String
  value : String
  deriving DecidableEq

inductive DeleteState
  | started | unknown | completed
  deriving DecidableEq

structure DeleteOperationRow where
  operationId : String
  accountId : String
  state : DeleteState
  createdAt : ℤ
  updatedAt : ℤ
  deriving DecidableEq

/-- A row of `account_delete_receipts`; the counts are the JSON of a map, in the order of its keys. -/
structure DeleteReceiptRow where
  accountId : String
  completedAt : ℤ
  rowsDeleted : ℕ
  tableCounts : List (String × ℕ)
  digest : String
  plaintextBackup : String
  walCheckpoint : String
  deriving DecidableEq

/-! ### The database -/

structure Database where
  store : Store
  conversationPins : Table ConversationPinRow.key
  conversationDrafts : Table ConversationDraftRow.key
  memoMigrations : Table MemoMigrationRow.accountId
  conversationIdentityMerges : Table IdentityMergeRow.key
  historyImports : Table HistoryImportRow.accountId
  historyImportStageRecipients : Table StageRecipientRow.key
  historyImportStageChats : Table StageChatRow.key
  conversationAvatars : Table AvatarRow.conversationId
  metaKeys : Table MetaRow.key
  accountDeleteOperations : Table DeleteOperationRow.operationId
  accountDeleteReceipts : Table DeleteReceiptRow.accountId
  deriving DecidableEq

inductive DbRow
  | account (row : AccountRow)
  | conversation (row : ConversationRow)
  | message (row : MessageRow)
  | messageReceipt (row : MessageReceiptRow)
  | messageEdit (row : MessageEditRow)
  | messageEvent (row : MessageEventRow)
  | contact (row : ContactRow)
  | peerIdentity (row : PeerIdentityRow)
  | conversationPin (row : ConversationPinRow)
  | conversationDraft (row : ConversationDraftRow)
  | memoMigration (row : MemoMigrationRow)
  | identityMerge (row : IdentityMergeRow)
  | historyImport (row : HistoryImportRow)
  | stageRecipient (row : StageRecipientRow)
  | stageChat (row : StageChatRow)
  | avatar (row : AvatarRow)
  | metaKey (row : MetaRow)
  | deleteOperation (row : DeleteOperationRow)
  | deleteReceipt (row : DeleteReceiptRow)

/-- The tables whose rows belong to accounts. -/
inductive AccountTable
  | accounts | conversations | messages | messageReceipts | messageEdits | messageEvents | contacts
  | peerIdentities | conversationPins | conversationDrafts | memoMigrations | conversationIdentityMerges
  | historyImports | historyImportStageRecipients | historyImportStageChats | conversationAvatars
  deriving DecidableEq

def AccountTable.asStr : AccountTable → String
  | accounts => "accounts"
  | conversations => "conversations"
  | messages => "messages"
  | messageReceipts => "message_receipts"
  | messageEdits => "message_edits"
  | messageEvents => "message_events"
  | contacts => "contacts"
  | peerIdentities => "peer_identities"
  | conversationPins => "conversation_pins"
  | conversationDrafts => "conversation_drafts"
  | memoMigrations => "memo_migrations"
  | conversationIdentityMerges => "conversation_identity_merges"
  | historyImports => "history_imports"
  | historyImportStageRecipients => "history_import_stage_recipients"
  | historyImportStageChats => "history_import_stage_chats"
  | conversationAvatars => "conversation_avatars"

theorem AccountTable.asStr_injective {a b : AccountTable} (h : a.asStr = b.asStr) : a = b := by
  cases a <;> cases b <;> first | rfl | exact absurd h (by decide)

namespace Database

/-- The database of a first `open`. -/
def empty : Database where
  store := .empty
  conversationPins := .empty
  conversationDrafts := .empty
  memoMigrations := .empty
  conversationIdentityMerges := .empty
  historyImports := .empty
  historyImportStageRecipients := .empty
  historyImportStageChats := .empty
  conversationAvatars := .empty
  metaKeys := .empty
  accountDeleteOperations := .empty
  accountDeleteReceipts := .empty

def Has (db : Database) : DbRow → Prop
  | .account row => row ∈ db.store.accounts.rows
  | .conversation row => row ∈ db.store.conversations.rows
  | .message row => row ∈ db.store.messages.rows
  | .messageReceipt row => row ∈ db.store.messageReceipts.rows
  | .messageEdit row => row ∈ db.store.messageEdits.rows
  | .messageEvent row => row ∈ db.store.messageEvents.rows
  | .contact row => row ∈ db.store.contacts.rows
  | .peerIdentity row => row ∈ db.store.peerIdentities.rows
  | .conversationPin row => row ∈ db.conversationPins.rows
  | .conversationDraft row => row ∈ db.conversationDrafts.rows
  | .memoMigration row => row ∈ db.memoMigrations.rows
  | .identityMerge row => row ∈ db.conversationIdentityMerges.rows
  | .historyImport row => row ∈ db.historyImports.rows
  | .stageRecipient row => row ∈ db.historyImportStageRecipients.rows
  | .stageChat row => row ∈ db.historyImportStageChats.rows
  | .avatar row => row ∈ db.conversationAvatars.rows
  | .metaKey row => row ∈ db.metaKeys.rows
  | .deleteOperation row => row ∈ db.accountDeleteOperations.rows
  | .deleteReceipt row => row ∈ db.accountDeleteReceipts.rows

def count (db : Database) : AccountTable → ℕ
  | .accounts => db.store.accounts.rows.length
  | .conversations => db.store.conversations.rows.length
  | .messages => db.store.messages.rows.length
  | .messageReceipts => db.store.messageReceipts.rows.length
  | .messageEdits => db.store.messageEdits.rows.length
  | .messageEvents => db.store.messageEvents.rows.length
  | .contacts => db.store.contacts.rows.length
  | .peerIdentities => db.store.peerIdentities.rows.length
  | .conversationPins => db.conversationPins.rows.length
  | .conversationDrafts => db.conversationDrafts.rows.length
  | .memoMigrations => db.memoMigrations.rows.length
  | .conversationIdentityMerges => db.conversationIdentityMerges.rows.length
  | .historyImports => db.historyImports.rows.length
  | .historyImportStageRecipients => db.historyImportStageRecipients.rows.length
  | .historyImportStageChats => db.historyImportStageChats.rows.length
  | .conversationAvatars => db.conversationAvatars.rows.length

end Database

end SignalConnector
