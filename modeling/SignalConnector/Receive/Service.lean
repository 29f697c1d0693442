/-
# The service's receive state

What `ConnectorService` keeps beside the store for the receive path: two
bounded buffers of controls and receipts that arrived before the row they
address. This module has the received envelope, the buffers with their
admission, the events of the receive path, and the row a received message
lands as.
-/
import SignalConnector.Store.Edits
import SignalConnector.Store.IdentityFold
import SignalConnector.Store.Read
import SignalConnector.Store.Receipts

namespace SignalConnector

/-! ### The envelope -/

/-- The kinds of envelope content that someone asks about. -/
inductive ContentKind
  | dataMessage | other
  deriving DecidableEq

/-- `NormalizedReceive` of a message; of the rich payload stand beside it a story reply, a timer notice, and the
title a group update states. -/
structure NormalizedReceive where
  timestamp : Option ℕ
  contentKind : ContentKind
  direction : Option Direction
  account : Option String
  source : Option String
  sourceUuid : Option String
  peerName : Option String
  groupId : Option String
  text : Option String
  textBytes : Option ℕ
  textTruncated : Bool
  quote : Option NormalizedQuote
  attachments : List NormalizedAttachment
  rich : Option NormalizedRich
  storyReply : Bool
  isExpirationUpdate : Bool
  groupName : Option String
  sticker : Option NormalizedSticker
  expireSeconds : Option ℕ
  expireStartAt : Option ℕ
  serverGuid : Option String
  serverTimestamp : Option ℕ
  reportingToken : Option String
  deriving DecidableEq

/-! ### Early arrivals -/

/-- `PollTerminateNoticeMaterial`. -/
structure PollTerminateNotice where
  envelopeSentAt : Option ℕ
  expireSeconds : Option ℕ
  expireStartAt : Option ℕ
  deriving DecidableEq

/-- A control that may come too early. -/
inductive EarlyControlPayload
  | remoteDelete
  | edit (incoming : Bool) (newText : String) (newBytes : ℕ)
  | pollVote (voterId : String) (optionIndexes : List ℕ)
  | pollTerminate (notice : PollTerminateNotice)
  deriving DecidableEq

/-- A control waiting for its target. -/
structure EarlyControlEntry where
  accountId : String
  kind : ConversationKind
  peerKey : String
  targetSentAt : ℕ
  authorSenderId : String
  bufferedAt : ℕ
  payload : EarlyControlPayload
  deriving DecidableEq

/-- A receipt waiting for its target. -/
structure EarlyReceiptEntry where
  accountId : String
  targetSentAt : ℕ
  recipient : String
  kind : ReceiptKind
  when : ℕ
  bufferedAt : ℕ
  deriving DecidableEq

def earlyControlBufferCapacity : ℕ := 512

def earlyControlBufferTtlMs : ℕ := 5 * 60 * 1000

/-- An entry buffered at this time is still good. -/
def isFresh (now bufferedAt : ℕ) : Bool := now - bufferedAt < earlyControlBufferTtlMs

/-- `ConnectorService`, with what the receive path uses. -/
structure Service where
  store : Store
  earlyControls : List EarlyControlEntry
  earlyReceipts : List EarlyReceiptEntry
  deriving DecidableEq

/-- The index of the oldest entry, the first of several. -/
def oldestIdx {E : Type} (bufferedAt : E → ℕ) (entries : List E) : Option ℕ :=
  (entries.map bufferedAt).min?.bind fun oldest => entries.findIdx? fun entry => bufferedAt entry = oldest

/-- The admission of both buffers: stale entries leave, and a full table gives up its oldest entry. -/
def takeIn {E : Type} (bufferedAt : E → ℕ) (now : ℕ) (table : List E) (entry : E) : List E :=
  let fresh := table.filter fun entry => isFresh now (bufferedAt entry)
  let room :=
    if earlyControlBufferCapacity ≤ fresh.length then
      match oldestIdx bufferedAt fresh with
      | some oldest => fresh.eraseIdx oldest
      | none => fresh
    else fresh
  room ++ [entry]

/-- `buffer_early_control`. -/
def Service.bufferEarlyControl (now : ℕ) (s : Service) (entry : EarlyControlEntry) : Service :=
  { s with earlyControls := takeIn EarlyControlEntry.bufferedAt now s.earlyControls entry }

/-- `buffer_early_receipt`. -/
def Service.bufferEarlyReceipt (now : ℕ) (s : Service) (entry : EarlyReceiptEntry) : Service :=
  { s with earlyReceipts := takeIn EarlyReceiptEntry.bufferedAt now s.earlyReceipts entry }

/-! ### Events -/

/-- The events of the receive path. A summary is the row it is read off. -/
inductive HostSideEvent
  | messageUpserted (record : MessageRecord)
  | messageStatusChanged (accountId messageId : String) (status : MessageStatus)
      (deliveredAt readAt viewedAt : Option ℕ)
  | messageReceiptsChanged (accountId messageId : String) (receipts : List RecipientReceiptRow)
  | conversationMerged (accountId fromConversationId : String) (toConversation : ConversationRow)
  | conversationChanged (summary : ConversationRow)
  | accountChanged (summary : AccountRow)
  deriving DecidableEq

/-- A receipt to be sent. -/
structure DeliveryReceiptJob where
  account : String
  recipient : String
  timestamp : ℕ
  deriving DecidableEq

/-- The event says that an incoming row landed. -/
def HostSideEvent.isIncoming : HostSideEvent → Bool
  | .messageUpserted record => record.direction = .incoming
  | _ => false

/-- The receipt owed for a landed message. -/
def deliveryReceiptJob (receive : NormalizedReceive) (events : List HostSideEvent) : Option DeliveryReceiptJob :=
  if receive.direction = some .incoming ∧ receive.contentKind = .dataMessage ∧ events.any HostSideEvent.isIncoming
  then do return ⟨← receive.account, ← receive.source, ← receive.timestamp⟩
  else none

/-! ### The row of a received message -/

def maxInboundTextBytes : ℕ := 128 * 1024

def maxHostTextPreviewBytes : ℕ := 4 * 1024

/-- A long text is cut for the host. -/
def projectMessageForHost (message : MessageRecord) : MessageRecord :=
  match message.text with
  | none => message
  | some text =>
    if text.utf8ByteSize ≤ maxHostTextPreviewBytes then message
    else { message with text := some (truncateUtf8Bytes text maxHostTextPreviewBytes), textTruncated := true }

/-- Ids for attachments without one. -/
def fillMissingAttachmentIds (sha256 : String → String) (messageId : String)
    (attachments : List NormalizedAttachment) : List NormalizedAttachment :=
  attachments.zipIdx.map fun (attachment, index) =>
    if attachment.info.id = "" then
      { attachment with
        info := { attachment.info with
          id := stableHashId sha256 ["live-attachment", messageId, toString index] } }
    else attachment

/-- A direction as it goes into an id. -/
def Direction.asStr : Direction → String
  | .incoming => "incoming"
  | .outgoing => "outgoing"
  | .system => "system"

def signalMessageId (sha256 : String → String) (accountId conversationId : String) (direction : Direction)
    (sentAt : ℕ) (senderId : String) : String :=
  stableHashId sha256 ["signal-message-v2", accountId, conversationId, direction.asStr, toString sentAt, senderId]

/-- A mention is one of the account itself: by number, by ACI in either field. -/
def NormalizedMention.flagsSelf (signalAccount : String) (aci : Option String) (mention : NormalizedMention) :
    Bool :=
  mention.author = signalAccount ||
    aci.any fun aci => mention.author = aci || (mention.authorAci.bind canonicalAci).any (· = aci)

namespace NormalizedReceive

/-- The conversation the envelope belongs to: its kind, its peer key and the title it suggests. -/
def conversationOf (r : NormalizedReceive) : Option (ConversationKind × String × String) :=
  match r.groupId, r.source.filter (· ≠ "") with
  | some groupId, _ => some (.group, groupId, "group")
  | none, some peer =>
    some (.direct, peer, ((r.peerName.map trim).filter (· ≠ "")).getD (maskAddress peer))
  | none, none => none

/-- The author a row of this envelope is stored under. -/
def senderId (sha256 : String → String) (r : NormalizedReceive) (direction : Direction) (accountId : String)
    (kind : ConversationKind) (peerKey : String) : String :=
  if direction = .outgoing then accountId
  else stableHashId sha256 [accountId, kind.asStr, r.source.getD peerKey]

def landingStatus : Direction → MessageStatus
  | .outgoing => .sent
  | .system => .system
  | .incoming => .delivered

/-- The record `ingest_receive` inserts. -/
def record (sha256 : String → String) (now : ℕ) (r : NormalizedReceive) (direction : Direction) (sentAt : ℕ)
    (signalAccount : String) (account : AccountRow) (kind : ConversationKind) (peerKey conversationId : String) :
    MessageRecord :=
  let senderId := r.senderId sha256 direction account.id kind peerKey
  let id := signalMessageId sha256 account.id conversationId direction sentAt senderId
  let textBytes := r.textBytes.or (r.text.map fun text => min text.utf8ByteSize u32Max)
  let textComplete := !r.textTruncated && textBytes.all (· ≤ maxInboundTextBytes)
  { id
    isErased := false
    deleteFailed := false
    accountId := account.id
    conversationId
    direction
    senderId
    senderName := if direction = .incoming then r.peerName else none
    mentionsSelf := direction = .incoming &&
      r.rich.any fun rich => rich.mentions.any (NormalizedMention.flagsSelf signalAccount account.aci)
    sentAt
    receivedAt := some now
    text := r.text.map fun text => if textComplete then text else truncateUtf8Bytes text maxHostTextPreviewBytes
    textBytes
    textTruncated := !textComplete
    textRetrievable := textComplete
    status := landingStatus direction
    clientRequestId := none
    quoteMessageId := none
    quoteSnapshot := r.quote
    quote := none
    attachments := fillMissingAttachmentIds sha256 id r.attachments
    rich := r.rich
    editedAt := none
    reactions := []
    edits := []
    deliveredAt := none
    readAt := none
    viewedAt := none
    sendOutcomes := none
    adminDeleted := false
    sticker := r.sticker
    -- a timer notice states its value in the conversation, not in the row
    expireSeconds := if r.isExpirationUpdate then none else r.expireSeconds
    expireStartAt := if r.isExpirationUpdate then none else r.expireStartAt
    serverGuid := r.serverGuid
    serverTimestamp := r.serverTimestamp
    authorAci := if direction = .incoming then
        (r.sourceUuid.bind canonicalAci).or (r.source.bind canonicalAci)
      else none }

end NormalizedReceive

end SignalConnector
