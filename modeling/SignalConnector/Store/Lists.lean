/-
# Lists of conversations and contacts

`list_conversations` pages through an account's conversations, those without a
message last; `list_contacts` pages through its contacts cache by kind and peer
key, optionally filtered by a `LIKE`. Both cursors carry the sort key of the
last row of a page.

The summaries here are the stored columns; the derived faces play no part in
the paging.
-/
import SignalConnector.Store.Read

namespace SignalConnector

/-! ### Conversations -/

/-- The stored columns of a `ConversationSummary`. -/
structure ConversationSummary where
  id : String
  accountId : String
  kind : ConversationKind
  title : String
  lastMessagePreview : Option String
  lastMessageAt : Option ℕ
  unreadCount : ℕ
  unreadMentions : ℕ
  readWatermarkMs : Option ℕ
  muted : Bool
  pinned : Bool
  expireTimerSeconds : Option ℕ
  deriving DecidableEq

/-- The row's columns as the list reads them, with their casts. -/
def ConversationSummary.ofRow (c : ConversationRow) : ConversationSummary where
  id := c.id
  accountId := c.accountId
  kind := c.kind
  title := c.title
  lastMessagePreview := c.lastMessagePreview
  lastMessageAt := c.lastMessageAt.map asU64
  unreadCount := c.unreadCount % 2 ^ 32
  unreadMentions := c.unreadMentions % 2 ^ 32
  readWatermarkMs := c.readWatermarkMs.map Int.toNat
  muted := c.muted
  pinned := c.pinned
  expireTimerSeconds := c.expireTimerSeconds.map Int.toNat

variable (accountId : String)

/-- The cursor behind an item. -/
def encodeConversationCursor (item : ConversationSummary) : String :=
  match item.lastMessageAt with
  | some lastMessageAt => "v2:" ++ accountId ++ ":0:" ++ toString lastMessageAt ++ ":" ++ item.id
  | none => "v2:" ++ accountId ++ ":1:0:" ++ item.id

/-- What a conversation cursor says: the time of its row, or none, and the row's id. -/
structure ConversationCursor where
  lastMessageAt : Option ℤ
  id : String
  deriving DecidableEq

/-- Only the account's own cursor. -/
def decodeConversationCursor (cursor expectedAccountId : String) : Except StoreError ConversationCursor :=
  match splitn 5 cursor.toList with
  | [version, accountId, nullFlag, timestamp, id] =>
    if version ≠ "v2" ∨ accountId ≠ expectedAccountId then .error .invalidCursor
    else
      match parseI64 timestamp with
      | none => .error .invalidCursor
      | some timestamp =>
        if timestamp < 0 ∨ id = "" ∨ 128 < id.utf8ByteSize then .error .invalidCursor
        else if nullFlag = "0" then .ok ⟨some timestamp, id⟩
        else if nullFlag = "1" ∧ timestamp = 0 then .ok ⟨none, id⟩
        else .error .invalidCursor
  | _ => .error .invalidCursor

/-- The cursor argument of `list_conversations`. -/
def conversationAnchor (cursor : Option String) : Except StoreError (Option ConversationCursor) :=
  match cursor with
  | none => .ok none
  | some cursor => (decodeConversationCursor cursor accountId).map some

/-- A row comes behind the row of the cursor, if there is one. -/
def ConversationRow.isBehind (cursor : Option ConversationCursor) (c : ConversationRow) : Bool :=
  match cursor with
  | none => true
  | some ⟨some sentAt, id⟩ =>
    match c.lastMessageAt with
    | none => true
    | some at_ => at_ < sentAt ∨ (at_ = sentAt ∧ c.id < id)
  | some ⟨none, id⟩ => c.lastMessageAt.isNone && c.id < id

/-- The sort column: a conversation without a message sorts below every time. -/
def ConversationRow.latest (c : ConversationRow) : WithBot ℤ :=
  match c.lastMessageAt with
  | none => ⊥
  | some at_ => (at_ : WithBot ℤ)

/-! ### Contacts -/

/-- The stored columns of a `ContactSummary`. -/
structure ContactSummary where
  id : String
  kind : ContactKind
  peerKey : String
  title : String
  deriving DecidableEq

def ContactSummary.ofRow (c : ContactRow) : ContactSummary := ⟨c.id, c.kind, c.peerKey, c.title⟩

/-- The text of the `kind` column. -/
def ContactKind.asStr : ContactKind → String
  | .contact => "contact"
  | .group => "group"

/-- The place of a kind among the texts. -/
def ContactKind.rank : ContactKind → ℕ
  | .contact => 0
  | .group => 1

theorem ContactKind.asStr_lt_iff (a b : ContactKind) : a.asStr < b.asStr ↔ a.rank < b.rank := by
  cases a <;> cases b <;> decide

/-- The cursor behind a row. -/
def encodeContactCursor (item : ContactSummary) : String :=
  "c1:" ++ accountId ++ ":" ++ item.kind.asStr ++ ":" ++ item.peerKey

/-- The account's own only. -/
def decodeContactCursor (cursor expectedAccountId : String) : Except StoreError (String × String) :=
  match splitn 4 cursor.toList with
  | [version, accountId, kind, peerKey] =>
    if version ≠ "c1" ∨ accountId ≠ expectedAccountId then .error .invalidCursor
    else if kind ≠ "contact" ∧ kind ≠ "group" then .error .invalidCursor
    else if peerKey = "" ∨ 128 < peerKey.utf8ByteSize then .error .invalidCursor
    else .ok (kind, peerKey)
  | _ => .error .invalidCursor

/-- The cursor argument of `list_contacts`. -/
def contactAnchor (cursor : Option String) : Except StoreError (Option (String × String)) :=
  match cursor with
  | none => .ok none
  | some cursor => (decodeContactCursor cursor accountId).map some

/-- A row comes behind the row of the cursor, if there is one. -/
def ContactRow.isBehind (cursor : Option (String × String)) (c : ContactRow) : Bool :=
  match cursor with
  | none => true
  | some (kind, peerKey) => kind < c.kind.asStr ∨ (c.kind.asStr = kind ∧ peerKey < c.peerKey)

/-- The row matches the optional filter by its title or its peer key. -/
def ContactRow.matchesQuery (query : Option String) (c : ContactRow) : Bool :=
  query.all fun query => bodyLike (some c.title) (escapeLike query) || bodyLike (some c.peerKey) (escapeLike query)

namespace Store

/-- A page, the latest first. -/
def listConversations (s : Store) (accountId : String) (limit : ℕ) (cursor : Option String) :
    Except StoreError (Page ConversationSummary) := do
  let limit := min (max limit 1) maxPageLimit
  let decoded ← conversationAnchor accountId cursor
  let rows := s.conversations.rows.filter fun c => c.accountId = accountId && c.isBehind decoded
  let items := ((rows.insertionSort fun a b =>
    lexLe ConversationRow.latest ConversationRow.id b a).take (limit + 1)).map ConversationSummary.ofRow
  let nextCursor := if limit < items.length then
      (items.take limit).getLast?.map (encodeConversationCursor accountId)
    else none
  .ok ⟨items.take limit, nextCursor⟩

/-- A page by kind and peer key. -/
def listContacts (s : Store) (accountId : String) (query : Option String) (limit : ℕ) (cursor : Option String) :
    Except StoreError (Page ContactSummary) := do
  let limit := min (max limit 1) maxPageLimit
  let decoded ← contactAnchor accountId cursor
  let rows := s.contacts.rows.filter fun c =>
    c.accountId = accountId && c.matchesQuery query && c.isBehind decoded
  let items := ((rows.insertionSort (lexLe (fun c => c.kind.rank) ContactRow.peerKey)).take (limit + 1)).map
    ContactSummary.ofRow
  let nextCursor := if limit < items.length then
      (items.take limit).getLast?.map (encodeContactCursor accountId)
    else none
  .ok ⟨items.take limit, nextCursor⟩

end Store

end SignalConnector
