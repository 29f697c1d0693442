/-
# Message records

`MessageRecord` is the face a message row takes outside the store: what the
receive path hands to `insert_message`, and what the read paths return. A
stored row becomes a record by `messageRecordFromRow`, which hides no column
of the row; the reactions, the prior bodies and the outbound quote are empty
there and attached by the read paths.
-/
import SignalConnector.Store.Schema

namespace SignalConnector

/-- Somebody in a pill. -/
structure MessageReactionActor where
  isSelf : Bool
  name : Option String
  reactedAt : ℕ
  deriving DecidableEq

/-- A pill. -/
structure MessageReactionSummary where
  emoji : String
  count : ℕ
  mine : Bool
  actors : List MessageReactionActor
  deriving DecidableEq

/-- One prior body of an edited message. -/
structure MessageEditEntry where
  body : String
  bodyBytes : ℕ
  editedAt : ℕ
  deriving DecidableEq

/-- `MessageRecord`, without the event-only story legs, which no stored row has. -/
structure MessageRecord where
  id : String
  isErased : Bool
  deleteFailed : Bool
  accountId : String
  conversationId : String
  direction : Direction
  senderId : String
  senderName : Option String
  mentionsSelf : Bool
  sentAt : ℕ
  receivedAt : Option ℕ
  text : Option String
  textBytes : Option ℕ
  textTruncated : Bool
  textRetrievable : Bool
  status : MessageStatus
  clientRequestId : Option String
  quoteMessageId : Option String
  quoteSnapshot : Option NormalizedQuote
  quote : Option NormalizedQuote
  attachments : List NormalizedAttachment
  rich : Option NormalizedRich
  editedAt : Option ℕ
  reactions : List MessageReactionSummary
  edits : List MessageEditEntry
  deliveredAt : Option ℕ
  readAt : Option ℕ
  viewedAt : Option ℕ
  sendOutcomes : Option MessageSendOutcomes
  adminDeleted : Bool
  sticker : Option NormalizedSticker
  expireSeconds : Option ℕ
  expireStartAt : Option ℕ
  serverGuid : Option String
  serverTimestamp : Option ℕ
  authorAci : Option String
  deriving DecidableEq

/-- `u32::MAX`. -/
def u32Max : ℕ := 2 ^ 32 - 1

/-- The columns as the host reads them. -/
def messageRecordFromRow (row : MessageRow) : MessageRecord where
  id := row.id
  isErased := row.isErased
  deleteFailed := row.deleteFailed
  accountId := row.accountId
  conversationId := row.conversationId
  direction := row.direction
  senderId := row.senderId
  senderName := row.senderName
  mentionsSelf := row.mentionsSelf
  sentAt := asU64 row.sentAt
  receivedAt := row.receivedAt.map asU64
  text := row.body
  textBytes :=
    (row.bodyBytes.map fun value => min value.toNat u32Max).or
      (row.body.map fun value => min value.utf8ByteSize u32Max)
  textTruncated := row.bodyTruncated
  textRetrievable := row.body.isSome && !row.bodyTruncated
  status := row.status
  clientRequestId := row.clientRequestId
  quoteMessageId := row.quoteMessageId
  quoteSnapshot := row.quoteSnapshot.bind JsonCell.ok
  quote := none
  attachments := ((row.attachments.bind JsonCell.ok).getD []).map fun info => ⟨info, none⟩
  rich := row.rich.bind JsonCell.ok
  editedAt := row.editedAt.map asU64
  reactions := []
  edits := []
  deliveredAt := row.deliveredAt.map asU64
  readAt := row.readAt.map asU64
  viewedAt := row.viewedAt.map asU64
  sendOutcomes := row.sendOutcomes.bind JsonCell.ok
  adminDeleted := row.adminDeleted
  sticker := row.sticker.bind JsonCell.ok
  expireSeconds := row.expireSeconds.map Int.toNat
  expireStartAt := row.expireStartAt.map Int.toNat
  serverGuid := row.serverGuid
  serverTimestamp := row.serverTimestamp.map Int.toNat
  authorAci := row.authorAci

end SignalConnector
