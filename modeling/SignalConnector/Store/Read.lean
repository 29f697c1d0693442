/-
# Read faces

The three pages a host reads messages through: `list_messages` (newest first,
resumed by a cursor), `list_messages_around` (a window around an anchor) and
`search_messages` (a `LIKE` over the bodies). Each turns the rows it selects
into records and then runs the four attach passes over the page: the reaction
pills, the prior bodies of edited rows, the projection of an outbound quote and
the local row an inbound quote names.
-/
import SignalConnector.Store.Messages
import SignalConnector.Store.Reactions

namespace SignalConnector

def maxPageLimit : ℕ := 200

/-- Rows, and where they go on. -/
structure Page (α : Type) where
  items : List α
  nextCursor : Option String
  deriving DecidableEq

/-! ### Cursors -/

def messageCursorPrefix : String := "m1:"

def searchMessageCursorPrefix : String := "s1:"

/-- Rust's `splitn(n, ':')`. -/
def splitn : ℕ → List Char → List String
  | 0, _ => []
  | 1, cs => [String.ofList cs]
  | n + 2, cs =>
    let rest := cs.dropWhile (· ≠ ':')
    String.ofList (cs.takeWhile (· ≠ ':')) :: if rest.isEmpty then [] else splitn (n + 1) rest.tail

/-- The value of a string of decimal digits. -/
def digitsValue (digits : List Char) : ℕ := digits.foldl (fun n c => 10 * n + (c.toNat - '0'.toNat)) 0

/-- Rust's `parse::<i64>`: an optional sign and digits whose value fits. -/
def parseI64 (text : String) : Option ℤ :=
  let (negative, digits) :=
    match text.toList with
    | '-' :: rest => (true, rest)
    | '+' :: rest => (false, rest)
    | digits => (false, digits)
  if digits.isEmpty ∨ digits.any fun c => !c.isDigit then none
  else
    let value : ℤ := if negative then -digitsValue digits else digitsValue digits
    if -2 ^ 63 ≤ value ∧ value < 2 ^ 63 then some value else none

/-- The `(sent_at, id)` pair at the end of a cursor. -/
def decodeCursorKey : List String → Except StoreError (ℤ × String)
  | [sentAt, id] =>
    match parseI64 sentAt with
    | none => .error .invalidCursor
    | some sentAt =>
      if sentAt < 0 ∨ id = "" ∨ 128 < id.utf8ByteSize then .error .invalidCursor else .ok (sentAt, id)
  | _ => .error .invalidCursor

/-- The cursor behind a message. -/
def encodeMessageCursor (accountId conversationId : String) (item : MessageRecord) : String :=
  messageCursorPrefix ++ accountId ++ ":" ++ conversationId ++ ":" ++ toString item.sentAt ++ ":" ++ item.id

/-- `decode_message_cursor`, past its own test of the first three characters. -/
def decodeMessageCursor (cursor expectedAccountId expectedConversationId : String) :
    Except StoreError (ℤ × String) :=
  match splitn 4 (cursor.toList.drop 3) with
  | accountId :: conversationId :: key =>
    if accountId = expectedAccountId ∧ conversationId = expectedConversationId then decodeCursorKey key
    else .error .invalidCursor
  | _ => .error .invalidCursor

/-- The cursor behind a hit. -/
def encodeSearchMessageCursor (accountId : String) (item : MessageRecord) : String :=
  searchMessageCursorPrefix ++ accountId ++ ":" ++ toString item.sentAt ++ ":" ++ item.id

/-- The account's own only. -/
def decodeSearchMessageCursor (cursor expectedAccountId : String) : Except StoreError (ℤ × String) :=
  if searchMessageCursorPrefix.toList <+: cursor.toList then
    match splitn 3 (cursor.toList.drop 3) with
    | accountId :: key => if accountId = expectedAccountId then decodeCursorKey key else .error .invalidCursor
    | _ => .error .invalidCursor
  else .error .invalidCursor

/-! ### `LIKE` -/

/-- The wildcards, taken literally. -/
def escapeLike (value : String) : String :=
  String.ofList (value.toList.flatMap fun c => if c = '\\' ∨ c = '%' ∨ c = '_' then ['\\', c] else [c])

/-- SQLite's `LIKE … ESCAPE '\'`, which folds the case of ASCII letters. -/
def likeMatch : List Char → List Char → Bool
  | [], text => text.isEmpty
  | '\\' :: c :: pattern, text =>
    match text with
    | [] => false
    | t :: text => t.toLower = c.toLower && likeMatch pattern text
  | '%' :: pattern, text => text.tails.any (likeMatch pattern)
  | '_' :: pattern, text =>
    match text with
    | [] => false
    | _ :: text => likeMatch pattern text
  | c :: pattern, text =>
    match text with
    | [] => false
    | t :: text => t.toLower = c.toLower && likeMatch pattern text

/-- `body LIKE '%'||?2||'%' ESCAPE '\'`: a NULL body never matches. -/
def bodyLike (body : Option String) (like : String) : Bool :=
  body.any fun text => likeMatch ('%' :: like.toList ++ ['%']) text.toList

namespace Store

variable (sha256 : String → String)

/-! ### The attach passes -/

variable (s : Store)

variable (account : AccountRow) (accountId query conversationId : String)

/-- The prior bodies of a message, oldest first. -/
def priorBodies (messageId : String) : List MessageEditEntry :=
  let rows := s.messageEdits.rows.filter fun e => e.accountId = accountId ∧ e.messageId = messageId
  (rows.insertionSort fun a b => a.seq ≤ b.seq).map fun e =>
    ⟨e.body, min e.bodyBytes.toNat u32Max, e.editedAt.toNat⟩

/-- The prior bodies go onto a record that carries an edit stamp. -/
def attachEditsTo (record : MessageRecord) : MessageRecord :=
  if record.editedAt.isSome then
    match s.priorBodies accountId record.id with
    | [] => record
    | edits => { record with edits }
  else record

/-- The prior bodies. -/
def attachEdits (records : List MessageRecord) : List MessageRecord :=
  records.map (s.attachEditsTo accountId)

/-- The quote of a stored row, as a reply shows it. -/
def quoteOf (author : String) (quoted : MessageRow) : NormalizedQuote where
  id := asU64 quoted.sentAt
  author := author
  text := String.ofList (((quoted.body.getD "").toList).take 128)
  attachments := ((messageRecordFromRow quoted).attachments.take 8).map fun attachment =>
    ⟨attachment.info.contentType, attachment.info.filename, none⟩

/-- The outbound quote of one record: a target that is gone, retracted or without an author shows none. -/
def attachOutgoingQuoteTo (record : MessageRecord) : MessageRecord :=
  if record.direction ≠ .outgoing ∨ record.quote.isSome then record
  else
    match record.quoteMessageId, s.conversationById account.id record.conversationId with
    | some target, some conversation =>
      match s.messageById account.id conversation.id target with
      | none => record
      | some quoted =>
        if quoted.adminDeleted ∨ quoted.status = .remoteDeleted then record
        else
          match quotedAuthor account conversation quoted with
          | none => record
          | some author => { record with quote := some (quoteOf author quoted) }
    | _, _ => record

/-- What own replies quote. -/
def attachOutgoingQuotes (records : List MessageRecord) : List MessageRecord :=
  match s.accounts.find? accountId with
  | none => records
  | some account => records.map (s.attachOutgoingQuoteTo account)

/-- `resolve_quote_snapshot_target`: the first row at the quoted timestamp whose author is the one named. -/
def resolveQuoteSnapshotTarget (conversation : ConversationRow) (snapshot : NormalizedQuote) : Option String :=
  let candidates := s.messages.rows.filter fun m =>
    m.accountId = account.id ∧ m.conversationId = conversation.id ∧ m.sentAt = asI64 snapshot.id
  ((candidates.insertionSort fun a b => a.id ≤ b.id).find? fun m =>
    match m.direction with
    | .outgoing => snapshot.author = account.signalAccount
    | .incoming => m.senderId = stableHashId sha256 [account.id, conversation.kind.asStr, snapshot.author]
    | .system => false).map MessageRow.id

/-- The row an inbound quote names. -/
def attachQuoteSnapshotIdTo (record : MessageRecord) : MessageRecord :=
  match record.quoteMessageId, record.quoteSnapshot, s.conversationById account.id record.conversationId with
  | none, some snapshot, some conversation =>
    match s.resolveQuoteSnapshotTarget sha256 account conversation snapshot with
    | none => record
    | some target => { record with quoteMessageId := some target }
  | _, _, _ => record

/-- The rows quoted. -/
def attachQuoteSnapshotIds (records : List MessageRecord) : List MessageRecord :=
  match s.accounts.find? accountId with
  | none => records
  | some account => records.map (s.attachQuoteSnapshotIdTo sha256 account)

/-- The records of selected rows, with everything the passes attach. -/
def attachAll (rows : List MessageRow) : List MessageRecord :=
  s.attachQuoteSnapshotIds sha256 accountId (s.attachOutgoingQuotes accountId
    (s.attachEdits accountId (s.attachReactions accountId (rows.map messageRecordFromRow))))

/-! ### Pages -/

/-- A row comes before the anchor of a page, if it has one. -/
def isBefore (anchor : Option (ℤ × String)) (m : MessageRow) : Bool :=
  match anchor with
  | none => true
  | some (sentAt, id) => m.sentAt < sentAt ∨ (m.sentAt = sentAt ∧ m.id < id)

def isAfter (anchor : ℤ × String) (m : MessageRow) : Bool :=
  anchor.1 < m.sentAt ∨ (m.sentAt = anchor.1 ∧ anchor.2 < m.id)

/-- `ORDER BY sent_at DESC, id DESC`. -/
def newestFirst (rows : List MessageRow) : List MessageRow :=
  rows.insertionSort fun a b => lexLe MessageRow.sentAt MessageRow.id b a

/-- The anchor a `before` argument names: a cursor carries it, a bare message id is looked up. -/
def pageAnchor (before : Option String) : Except StoreError (Option (ℤ × String)) :=
  match before with
  | none => .ok none
  | some cursor =>
    if messageCursorPrefix.toList <+: cursor.toList then
      (decodeMessageCursor cursor accountId conversationId).map some
    else
      match s.messageById accountId conversationId cursor with
      | none => .error .invalidCursor
      | some row => .ok (some (row.sentAt, cursor))

/-- The newest rows that meet `p`, one page of them, and the cursor to the rest. -/
def newestPage (limit : ℕ) (p : MessageRow → Bool) (encode : MessageRecord → String) : Page MessageRecord :=
  let limit := min (max limit 1) maxPageLimit
  let rows := (newestFirst (s.messages.rows.filter p)).take (limit + 1)
  let nextCursor := if limit < rows.length then
      (rows.take limit).getLast?.map fun m => encode (messageRecordFromRow m)
    else none
  ⟨s.attachAll sha256 accountId (rows.take limit), nextCursor⟩

/-- The newest rows before the cursor. -/
def listMessages (limit : ℕ) (before : Option String) : Except StoreError (Page MessageRecord) := do
  let anchor ← s.pageAnchor accountId conversationId before
  .ok (s.newestPage sha256 accountId limit
    (fun m => (m.accountId = accountId ∧ m.conversationId = conversationId) && isBefore anchor m)
    (encodeMessageCursor accountId conversationId))

/-- A window around a row. -/
def listMessagesAround (anchorId : String) (limit : ℕ) : Except StoreError (Page MessageRecord) :=
  let limit := min (max limit 3) maxPageLimit
  match s.messageById accountId conversationId anchorId with
  | none => .error .invalidCursor
  | some anchor =>
    let olderLimit := limit / 2
    let newerLimit := limit - olderLimit - 1
    let inside : MessageRow → Bool := fun m => m.accountId = accountId ∧ m.conversationId = conversationId
    let older := ((newestFirst (s.messages.rows.filter fun m =>
      inside m && isBefore (some (anchor.sentAt, anchorId)) m)).take olderLimit).reverse
    let newer := ((s.messages.rows.filter fun m =>
      inside m && isAfter (anchor.sentAt, anchorId) m).insertionSort
        (lexLe MessageRow.sentAt MessageRow.id)).take newerLimit
    let nextCursor := if older.length = olderLimit then
        older.head?.map fun m => encodeMessageCursor accountId conversationId (messageRecordFromRow m)
      else none
    .ok ⟨s.attachAll sha256 accountId older ++ s.attachAll sha256 accountId [anchor] ++
      s.attachAll sha256 accountId newer, nextCursor⟩

def searchAnchor (cursor : Option String) : Except StoreError (Option (ℤ × String)) :=
  match cursor with
  | none => .ok none
  | some cursor => (decodeSearchMessageCursor cursor accountId).map some

/-- The newest hits before the cursor. -/
def searchMessages (limit : ℕ) (cursor conversationId : Option String) : Except StoreError (Page MessageRecord) :=
  if query = "" then .ok ⟨[], none⟩
  else do
    let anchor ← searchAnchor accountId cursor
    .ok (s.newestPage sha256 accountId limit
      (fun m => (m.accountId = accountId) && bodyLike m.body (escapeLike query) && isBefore anchor m &&
        conversationId.all (· = m.conversationId))
      (encodeSearchMessageCursor accountId))

end Store

end SignalConnector
