/-
# The store's tables

The rows of the connector's SQLite schema and the store that holds them. A
text column with a closed vocabulary is an enumeration, an `INTEGER` stamp is
the signed 64-bit value SQLite keeps (`asI64` of the milliseconds the code
hands in), and a JSON column is either the value it parses to or malformed.
Primary keys are part of the type: a store in which two rows of a table share
their key cannot be built.
-/
import SignalConnector.Lib.Table

namespace SignalConnector

open Table

/-! ### Columns -/

/-- Rust's `as i64` on a `u64`, the conversion every stamp goes through on its way into a column. -/
def asI64 (n : ℕ) : ℤ := if n < 2 ^ 63 then n else n - 2 ^ 64

/-- Rust's `as u64` on an `i64`, the conversion on the way out. -/
def asU64 (z : ℤ) : ℕ := if 0 ≤ z then z.toNat else (z + 2 ^ 64).toNat

/-- `static_direction`. -/
inductive Direction
  | incoming | outgoing | system
  deriving DecidableEq

/-- `static_status`: the closed vocabulary of `messages.status`, with everything else read as `unknown`. -/
inductive MessageStatus
  | pending | sent | delivered | read | failed | system | remoteDeleted | unknown
  deriving DecidableEq

/-- `static_kind`. -/
inductive ConversationKind
  | direct | group
  deriving DecidableEq

namespace ConversationKind

/-- The text of the `kind` column. -/
def asStr : ConversationKind → String
  | direct => "direct"
  | group => "group"

end ConversationKind

/-- `static_contact_kind`. -/
inductive ContactKind
  | contact | group
  deriving DecidableEq

/-- A JSON column that is not NULL: the value it parses to, or bytes the reader cannot parse. -/
inductive JsonCell (α : Type)
  | parsed (value : α)
  | malformed
  deriving DecidableEq

namespace JsonCell

variable {α : Type}

/-- `serde_json::from_str(..).ok()`. -/
def ok : JsonCell α → Option α
  | parsed value => some value
  | malformed => none

end JsonCell

/-! ### Payloads of the JSON columns -/

/-- `HistoryAttachmentLocator`: the transit pointer of one attachment. -/
structure AttachmentLocator where
  key : Option String
  cdnKey : Option String
  cdnNumber : Option ℕ
  uploadTimestamp : Option ℕ
  digest : Option String
  plaintextHash : Option String
  deriving DecidableEq

namespace AttachmentLocator

def default : AttachmentLocator := ⟨none, none, none, none, none, none⟩

end AttachmentLocator

/-- The serialized face of a `NormalizedAttachment`. -/
structure AttachmentInfo where
  id : String
  contentType : Option String
  filename : Option String
  size : Option ℕ
  deriving DecidableEq

/-- `NormalizedAttachment`: its serialized face and the locator that never serializes. -/
structure NormalizedAttachment where
  info : AttachmentInfo
  locator : Option AttachmentLocator
  deriving DecidableEq

/-- A link card. -/
structure NormalizedPreview where
  url : String
  title : Option String
  description : Option String
  date : Option ℕ
  deriving DecidableEq

/-- A mention in a text. -/
structure NormalizedMention where
  author : String
  authorAci : Option String
  start : ℕ
  length : ℕ
  deriving DecidableEq

/-- A voter's selection. -/
structure NormalizedPollVote where
  voterId : String
  optionIndexes : List ℕ
  deriving DecidableEq

/-- A poll and its votes. -/
structure NormalizedPoll where
  question : String
  options : List String
  allowMultiple : Bool
  terminated : Bool
  votes : List NormalizedPollVote
  deriving DecidableEq

/-- What a merge notice says. -/
structure NormalizedConversationMerge where
  obsoleteConversationTitle : Option String
  obsoleteConversationNumber : Option String
  deriving DecidableEq

/-- `NormalizedRich`, with the legs some modelled function reads or writes. -/
structure NormalizedRich where
  previews : List NormalizedPreview
  mentions : List NormalizedMention
  viewOnce : Bool
  viewOnceInvalid : Bool
  viewOnceOpenedAt : Option ℕ
  poll : Option NormalizedPoll
  conversationMerge : Option NormalizedConversationMerge
  deriving DecidableEq

namespace NormalizedRich

def default : NormalizedRich := ⟨[], [], false, false, none, none, none⟩

end NormalizedRich

/-- A sticker. -/
structure NormalizedSticker where
  packId : String
  packKey : String
  stickerId : ℕ
  emoji : Option String
  deriving DecidableEq

/-- `NormalizedQuoteAttachment`; a thumbnail is metadata only. -/
structure NormalizedQuoteAttachment where
  contentType : Option String
  filename : Option String
  thumbnail : Option AttachmentInfo
  deriving DecidableEq

/-- `NormalizedQuote`, stored as the quote snapshot of an incoming row. -/
structure NormalizedQuote where
  id : ℕ
  author : String
  text : String
  attachments : List NormalizedQuoteAttachment
  deriving DecidableEq

/-- Members reached and not. -/
structure MessageSendOutcomes where
  succeeded : ℕ
  failed : ℕ
  deriving DecidableEq

/-- One entry of a captured group roster; an entry that is no object has neither key. -/
structure RosterMember where
  id : Option String
  uuid : Option String
  deriving DecidableEq

/-- `contacts.extra` as far as it is read: its `members` array, when it has one. -/
structure ContactExtra where
  members : Option (List RosterMember)
  deriving DecidableEq

/-! ### Rows -/

/-- A row of `accounts`. -/
structure AccountRow where
  id : String
  signalAccount : String
  maskedAddress : String
  displayName : Option String
  state : String
  linkedAt : Option ℤ
  lastMessageAt : Option ℤ
  unreadCount : ℕ
  proxyGroup : String
  aci : Option String
  readReceiptsEnabled : Option Bool
  deriving DecidableEq

namespace AccountRow

/-- A freshly linked account. -/
def ofAddress (id signalAccount maskedAddress proxyGroup : String) : AccountRow where
  id := id
  signalAccount := signalAccount
  maskedAddress := maskedAddress
  displayName := none
  state := "ready"
  linkedAt := none
  lastMessageAt := none
  unreadCount := 0
  proxyGroup := proxyGroup
  aci := none
  readReceiptsEnabled := none

end AccountRow

/-- A row of `conversations`. -/
structure ConversationRow where
  id : String
  accountId : String
  kind : ConversationKind
  peerKey : String
  title : String
  lastMessagePreview : Option String
  lastMessageAt : Option ℤ
  unreadCount : ℕ
  unreadMentions : ℕ
  muted : Bool
  pinned : Bool
  expireTimerSeconds : Option ℤ
  conversationColor : Option String
  customColor : Option String
  customColorId : Option String
  mrrFactors : Option String
  readWatermarkMs : Option ℤ
  reportSpamToken : Option String
  deriving DecidableEq

namespace ConversationRow

/-- The row an `INSERT` of these columns makes, with the schema's default in every other one. -/
def ofPeer (id accountId : String) (kind : ConversationKind) (peerKey title : String) : ConversationRow where
  id := id
  accountId := accountId
  kind := kind
  peerKey := peerKey
  title := title
  lastMessagePreview := none
  lastMessageAt := none
  unreadCount := 0
  unreadMentions := 0
  muted := false
  pinned := false
  expireTimerSeconds := none
  conversationColor := none
  customColor := none
  customColorId := none
  mrrFactors := none
  readWatermarkMs := none
  reportSpamToken := none

end ConversationRow

/-- A row of `messages`. -/
structure MessageRow where
  id : String
  accountId : String
  conversationId : String
  direction : Direction
  senderId : String
  sentAt : ℤ
  receivedAt : Option ℤ
  storedAt : Option ℤ
  body : Option String
  bodyBytes : Option ℤ
  bodyTruncated : Bool
  status : MessageStatus
  clientRequestId : Option String
  quoteMessageId : Option String
  quoteSnapshot : Option (JsonCell NormalizedQuote)
  attachments : Option (JsonCell (List AttachmentInfo))
  attachmentLocators : Option (JsonCell (List AttachmentLocator))
  liveAttachmentLocators : Option (JsonCell (List AttachmentLocator))
  rich : Option (JsonCell NormalizedRich)
  sticker : Option (JsonCell NormalizedSticker)
  expireSeconds : Option ℤ
  expireStartAt : Option ℤ
  expireAt : Option ℤ
  serverGuid : Option String
  serverTimestamp : Option ℤ
  editedAt : Option ℤ
  senderName : Option String
  mentionsSelf : Bool
  firstSendAttemptedAt : Option ℤ
  retryAttemptCount : ℕ
  nextAttemptAt : Option ℤ
  deleteFailed : Bool
  deliveredAt : Option ℤ
  readAt : Option ℤ
  viewedAt : Option ℤ
  adminDeleted : Bool
  sendOutcomes : Option (JsonCell MessageSendOutcomes)
  authorAci : Option String
  isErased : Bool
  deriving DecidableEq

namespace MessageRow

/-- So of a message. -/
def ofText (id accountId conversationId : String) (direction : Direction) (senderId : String) (sentAt : ℤ)
    (body : String) (status : MessageStatus) : MessageRow where
  id := id
  accountId := accountId
  conversationId := conversationId
  direction := direction
  senderId := senderId
  sentAt := sentAt
  receivedAt := none
  storedAt := none
  body := some body
  bodyBytes := none
  bodyTruncated := false
  status := status
  clientRequestId := none
  quoteMessageId := none
  quoteSnapshot := none
  attachments := none
  attachmentLocators := none
  liveAttachmentLocators := none
  rich := none
  sticker := none
  expireSeconds := none
  expireStartAt := none
  expireAt := none
  serverGuid := none
  serverTimestamp := none
  editedAt := none
  senderName := none
  mentionsSelf := false
  firstSendAttemptedAt := none
  retryAttemptCount := 0
  nextAttemptAt := none
  deleteFailed := false
  deliveredAt := none
  readAt := none
  viewedAt := none
  adminDeleted := false
  sendOutcomes := none
  authorAci := none
  isErased := false

end MessageRow

/-- A row of the per-recipient receipt ledger. -/
structure MessageReceiptRow where
  messageId : String
  recipient : String
  sentAt : Option ℤ
  failedAt : Option ℤ
  deliveredAt : Option ℤ
  readAt : Option ℤ
  viewedAt : Option ℤ
  updatedAt : ℤ
  deriving DecidableEq

namespace MessageReceiptRow

def key (r : MessageReceiptRow) : String × String := (r.messageId, r.recipient)

end MessageReceiptRow

structure MessageEditRow where
  seq : ℕ
  accountId : String
  messageId : String
  body : String
  bodyBytes : ℤ
  editedAt : ℤ
  deriving DecidableEq

/-- A row of `message_events`; its `kind` column only ever holds `'reaction'`. -/
structure MessageEventRow where
  id : String
  accountId : String
  conversationId : String
  emoji : String
  targetTimestamp : ℤ
  actorId : String
  removed : Bool
  updatedAt : ℤ
  actorName : Option String
  deriving DecidableEq

/-- A row of `contacts`. -/
structure ContactRow where
  id : String
  accountId : String
  kind : ContactKind
  peerKey : String
  title : String
  extra : Option (JsonCell ContactExtra)
  syncedAt : ℤ
  deriving DecidableEq

structure PeerIdentityRow where
  accountId : String
  aci : String
  peerKey : String
  deriving DecidableEq

namespace PeerIdentityRow

def key (r : PeerIdentityRow) : String × String := (r.accountId, r.aci)

end PeerIdentityRow

/-! ### The store -/

/-- The connector's store: one table per `CREATE TABLE` that a modelled function reads or writes. -/
structure Store where
  accounts : Table AccountRow.id
  conversations : Table ConversationRow.id
  messages : Table MessageRow.id
  messageReceipts : Table MessageReceiptRow.key
  messageEdits : Table MessageEditRow.seq
  messageEvents : Table MessageEventRow.id
  contacts : Table ContactRow.id
  peerIdentities : Table PeerIdentityRow.key
  deriving DecidableEq

namespace Store

/-- The store a first `open` creates. -/
def empty : Store where
  accounts := .empty
  conversations := .empty
  messages := .empty
  messageReceipts := .empty
  messageEdits := .empty
  messageEvents := .empty
  contacts := .empty
  peerIdentities := .empty

variable (s : Store) (p : MessageRow → Bool) (f : MessageRow → MessageRow)

/-- `UPDATE messages SET f WHERE p`. -/
def updateMessages (hf : ∀ m, (f m).id = m.id) : Store :=
  { s with messages := s.messages.update p f hf }

theorem rows_updateMessages (hf : ∀ m, (f m).id = m.id) :
    (s.updateMessages p f hf).messages.rows = s.messages.rows.map fun m => if p m then f m else m := rfl

theorem find?_updateMessages (hf : ∀ m, (f m).id = m.id) (messageId : String) :
    (s.updateMessages p f hf).messages.find? messageId =
      (s.messages.find? messageId).map fun m => if p m then f m else m :=
  s.messages.find?_update p f hf messageId

theorem updateMessages_congr {s : Store} {p q : MessageRow → Bool} {f g : MessageRow → MessageRow}
    {hf : ∀ m, (f m).id = m.id} {hg : ∀ m, (g m).id = m.id}
    (h : ∀ m ∈ s.messages.rows, (if p m then f m else m) = if q m then g m else m) :
    s.updateMessages p f hf = s.updateMessages q g hg := by
  unfold updateMessages
  rw [show s.messages.update p f hf = s.messages.update q g hg from
    eq_of_rows (List.map_congr_left h)]

theorem updateMessages_trans {s : Store} {p q r : MessageRow → Bool} {f g h : MessageRow → MessageRow}
    {hf : ∀ m, (f m).id = m.id} {hg : ∀ m, (g m).id = m.id} {hh : ∀ m, (h m).id = m.id}
    (heq : ∀ m ∈ s.messages.rows, (if q (if p m then f m else m) then g (if p m then f m else m)
      else if p m then f m else m) = if r m then h m else m) :
    (s.updateMessages p f hf).updateMessages q g hg = s.updateMessages r h hh := by
  unfold updateMessages
  rw [show (s.messages.update p f hf).update q g hg = s.messages.update r h hh from
    eq_of_rows (by simpa [Function.comp_def] using heq)]

/-- An update that meets no row changes nothing. -/
theorem updateMessages_of_none {s : Store} {p : MessageRow → Bool} {f : MessageRow → MessageRow}
    {hf : ∀ m, (f m).id = m.id} (h : ∀ m ∈ s.messages.rows, p m = false) : s.updateMessages p f hf = s := by
  unfold updateMessages
  rw [show s.messages.update p f hf = s.messages from eq_of_rows (by
    rw [rows_update]
    refine (List.map_congr_left fun m hm => ?_).trans (List.map_id _)
    simp [h m hm])]

end Store

/-- `StoreError`, with the variants modelled functions answer. -/
inductive StoreError
  | unavailable
  | accountNotFound
  | conversationNotFound
  | messageNotFound
  | invalidCursor
  | operationConflict
  deriving DecidableEq

namespace Store

variable {α : Type} {s : Store}

/-- The store after a transaction: a failed one leaves it as it was. -/
def after (s : Store) : Except StoreError (α × Store) → Store
  | .ok (_, t) => t
  | .error _ => s

theorem after_of_ok {P : Store → Prop} {r : Except StoreError (α × Store)} (hs : P s)
    (h : ∀ a t, r = .ok (a, t) → P t) : P (s.after r) := by
  rcases r with e | ⟨a, t⟩
  · exact hs
  · exact h a t rfl

end Store

end SignalConnector
