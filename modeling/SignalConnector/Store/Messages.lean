/-
# Landing and settling message rows

The store's single-row message operations: `insert_message` with the unread and
@ badges it bumps and the attachment merge of its duplicate arm, the lookups by
id and by Signal identity, `update_message_status`, `complete_outgoing_send`
(which retires the mirror row another device's sync transcript left) and
`mark_remote_deleted`. A failed operation has no store: its transaction rolled
back.
-/
import SignalConnector.Store.Record

namespace SignalConnector

/-! ### Attachment cells -/

/-- `has_attachment_descriptors`: a cell the reader cannot parse counts as carrying. -/
def hasAttachmentDescriptors : Option (JsonCell (List AttachmentInfo)) → Bool
  | none => false
  | some (.parsed list) => !list.isEmpty
  | some .malformed => true

/-- `attachments_json_is_empty`: absent or a well-formed empty array. -/
def attachmentsJsonIsEmpty : Option (JsonCell (List AttachmentInfo)) → Bool
  | none => true
  | some (.parsed list) => list.isEmpty
  | some .malformed => false

/-- A JSON list column: NULL reads as the empty list, a malformed cell refuses. -/
def listCell {α : Type} : Option (JsonCell (List α)) → Option (List α)
  | none => some []
  | some cell => cell.ok

/-- The cell a list is written back as. -/
def toListCell {α : Type} (list : List α) : Option (JsonCell (List α)) :=
  if list.isEmpty then none else some (.parsed list)

/-- The descriptor half of a merge round: a slot past the end or without an id takes the candidate. -/
def fillDescriptor (index : ℕ) (candidate : AttachmentInfo) (acc : List AttachmentInfo × Bool) :
    List AttachmentInfo × Bool :=
  if acc.1.length ≤ index then (acc.1 ++ [candidate], true)
  else if (acc.1[index]?.map AttachmentInfo.id) = some "" then (acc.1.set index candidate, true)
  else acc

/-- The locator half: a face that says something fills an empty slot, and the list grows up to it. -/
def fillFace (index : ℕ) (locator : Option AttachmentLocator) (acc : List AttachmentLocator × Bool) :
    List AttachmentLocator × Bool :=
  match locator.filter (· ≠ AttachmentLocator.default) with
  | none => acc
  | some face =>
    let (faces, changed) :=
      if acc.1.length ≤ index then
        (acc.1 ++ List.replicate (index + 1 - acc.1.length) AttachmentLocator.default, true)
      else acc
    if faces[index]? = some AttachmentLocator.default then (faces.set index face, true) else (faces, changed)

def mergeSlot (acc : List AttachmentInfo × List AttachmentLocator × Bool)
    (entry : NormalizedAttachment × ℕ) : List AttachmentInfo × List AttachmentLocator × Bool :=
  let (descriptors, changed) := fillDescriptor entry.2 entry.1.info (acc.1, acc.2.2)
  (descriptors, fillFace entry.2 entry.1.locator (acc.2.1, changed))

/-- `expire_deadline`: when a live timer runs out, in saturating `u64` arithmetic. -/
def expireDeadline (message : MessageRecord) (storedAt : ℕ) : Option ℕ :=
  (message.expireSeconds.filter (0 < ·)).map fun seconds =>
    let start := (message.expireStartAt.or message.receivedAt).getD storedAt
    min (min (start + min (seconds * 1000) (2 ^ 64 - 1)) (2 ^ 64 - 1)) (2 ^ 63 - 1)

namespace MessageRow

/-- The row `insert_message` writes for a record. -/
def ofRecord (message : MessageRecord) (clientRequestId : Option String) (storedAt : ℕ) : MessageRow where
  id := message.id
  accountId := message.accountId
  conversationId := message.conversationId
  direction := message.direction
  senderId := message.senderId
  sentAt := asI64 message.sentAt
  receivedAt := message.receivedAt.map asI64
  storedAt := some (asI64 storedAt)
  body := message.text
  bodyBytes := message.textBytes.map fun n => (n : ℤ)
  bodyTruncated := message.textTruncated && !message.textRetrievable
  status := message.status
  clientRequestId := clientRequestId
  quoteMessageId := message.quoteMessageId
  quoteSnapshot := message.quoteSnapshot.map .parsed
  attachments := toListCell (message.attachments.map NormalizedAttachment.info)
  attachmentLocators := none
  liveAttachmentLocators :=
    toListCell (message.attachments.map fun a => a.locator.getD AttachmentLocator.default)
  rich := message.rich.map .parsed
  sticker := message.sticker.map .parsed
  expireSeconds := message.expireSeconds.map asI64
  expireStartAt := message.expireStartAt.map asI64
  expireAt := (expireDeadline message storedAt).map asI64
  serverGuid := message.serverGuid
  serverTimestamp := message.serverTimestamp.map asI64
  editedAt := message.editedAt.map asI64
  senderName := message.senderName
  mentionsSelf := message.mentionsSelf
  firstSendAttemptedAt := none
  retryAttemptCount := 0
  nextAttemptAt := none
  deleteFailed := false
  deliveredAt := none
  readAt := none
  viewedAt := none
  adminDeleted := false
  sendOutcomes := none
  authorAci := message.authorAci
  isErased := false

end MessageRow

/-- `status NOT IN ('remote-deleted', 'system')`. -/
def MessageRow.isLive (m : MessageRow) : Bool := m.status ≠ .remoteDeleted && m.status ≠ .system

/-- `CASE WHEN last IS NULL OR last < stamp THEN stamp ELSE last END`. -/
def bumpStamp (stamp : ℤ) : Option ℤ → Option ℤ
  | none => some stamp
  | some last => if last < stamp then some stamp else some last

/-- Does a row at `stamp` become the conversation's newest? -/
def isNewer (stamp : ℤ) : Option ℤ → Bool
  | none => true
  | some last => last < stamp

/-! ### Quoting -/

/-- `outgoing_row_status_is_addressable`, which the service has again as `outgoing_status_is_addressable`. -/
def outgoingStatusIsAddressable (status : MessageStatus) : Bool :=
  status = .sent || status = .delivered || status = .read

/-- The author a quote of this row names, if its Signal identity is established. -/
def quotedAuthor (account : AccountRow) (conversation : ConversationRow) (quoted : MessageRow) :
    Option String :=
  match quoted.direction with
  | .outgoing => if outgoingStatusIsAddressable quoted.status then some account.signalAccount else none
  | .incoming => if conversation.kind = .direct then some conversation.peerKey else none
  | .system => none

namespace Store

/-! ### Inserting -/

variable (s : Store)

variable (messageId accountId conversationId : String) (targetSentAt : ℕ)

/-- `merge_attachment_faces_in`: descriptors and locators fill the row's empty slots only. -/
def mergeAttachmentFacesIn (messageId : String) (incoming : List NormalizedAttachment) : Bool × Store :=
  if incoming.isEmpty ∨ incoming.any (fun a => a.info.id = "") then (false, s)
  else
    match s.messages.rows.find? fun m => m.accountId = accountId ∧ m.id = messageId with
    | none => (false, s)
    | some row =>
      match listCell row.attachments, listCell row.liveAttachmentLocators with
      | some descriptors, some faces =>
        let (descriptors, faces, changed) := incoming.zipIdx.foldl mergeSlot (descriptors, faces, false)
        if changed then
          (true, s.updateMessages (fun m => m.accountId = accountId ∧ m.id = messageId)
            (fun m => { m with
              attachments := toListCell descriptors
              liveAttachmentLocators := toListCell faces }) fun _ => rfl)
        else (false, s)
      | _, _ => (false, s)

/-- `merge_live_attachment_faces`: the merge in a transaction of its own. -/
def mergeLiveAttachmentFaces (messageId : String) (incoming : List NormalizedAttachment) : Bool × Store :=
  s.mergeAttachmentFacesIn accountId messageId incoming

/-- The `INSERT OR IGNORE` meets a row: its primary key or its client request id is taken. -/
def insertIgnored (row : MessageRow) : Bool :=
  (s.messages.find? row.id).isSome ||
    (row.clientRequestId.isSome &&
      s.messages.rows.any fun m => m.accountId = row.accountId ∧ m.clientRequestId = row.clientRequestId)

/-- The two badge updates of a landed row. -/
def bumpSummaries (message : MessageRecord) (preview : Option String) (incrementUnread : Bool) : Store :=
  let stamp := asI64 message.sentAt
  { s with
    conversations := s.conversations.update (fun c => c.id = message.conversationId)
      (fun c => { c with
        lastMessagePreview := if isNewer stamp c.lastMessageAt then preview else c.lastMessagePreview
        lastMessageAt := bumpStamp stamp c.lastMessageAt
        unreadCount := c.unreadCount + if incrementUnread then 1 else 0
        unreadMentions := c.unreadMentions + if incrementUnread && message.mentionsSelf then 1 else 0 })
      fun _ => rfl
    accounts := s.accounts.update (fun a => a.id = message.accountId)
      (fun a => { a with
        lastMessageAt := bumpStamp stamp a.lastMessageAt
        unreadCount := a.unreadCount + if incrementUnread then 1 else 0 })
      fun _ => rfl }

/-- `insert_message`. One that meets another row merges its attachments into the row of its id. -/
def insertMessage (message : MessageRecord) (clientRequestId preview : Option String)
    (incrementUnread : Bool) (storedAt : ℕ) : Except StoreError (Bool × Store) :=
  let row := MessageRow.ofRecord message clientRequestId storedAt
  if s.insertIgnored row then
    .ok (false, (s.mergeAttachmentFacesIn message.accountId message.id message.attachments).2)
  else if (s.accounts.find? message.accountId).isSome ∧ (s.conversations.find? message.conversationId).isSome then
    let landed := { s with messages := s.messages.insertOrIgnore row }
    .ok (true, landed.bumpSummaries message preview incrementUnread)
  else .error .unavailable

/-- A row that lands has a fresh id and is stored as it was handed in. -/
theorem find?_insertMessage {s s' : Store} {message : MessageRecord} {clientRequestId preview : Option String}
    {incrementUnread : Bool} {storedAt : ℕ}
    (h : s.insertMessage message clientRequestId preview incrementUnread storedAt = .ok (true, s')) :
    s.messages.find? message.id = none ∧
      s'.messages.find? message.id = some (.ofRecord message clientRequestId storedAt) := by
  unfold insertMessage at h
  dsimp only at h
  split at h
  · cases h
  next hfree =>
  split at h
  · cases h
    have hnone : s.messages.find? message.id = none := by
      simpa [MessageRow.ofRecord] using (Bool.or_eq_false_iff.mp (Bool.eq_false_iff.mpr hfree)).1
    refine ⟨hnone, ?_⟩
    change (s.messages.insertOrIgnore (.ofRecord message clientRequestId storedAt)).find? message.id = _
    rw [Table.find?_insertOrIgnore, hnone]
    simp [MessageRow.ofRecord]
  · cases h

/-! ### Reading -/

/-- `message_by_id`, up to the record face. -/
def messageById (messageId : String) : Option MessageRow :=
  (s.messages.find? messageId).filter fun m => m.accountId = accountId ∧ m.conversationId = conversationId

/-- `message_by_signal_identity`, up to the record face: two matches answer none. -/
def messageBySignalIdentity (direction : Direction)
    (sentAt : ℕ) (senderId legacySenderId : String) : Option MessageRow :=
  let rows := s.messages.rows.filter fun m =>
    m.accountId = accountId ∧ m.conversationId = conversationId ∧ m.direction = direction ∧
      m.sentAt = asI64 sentAt ∧ (m.senderId = senderId ∨ m.senderId = legacySenderId)
  match (rows.insertionSort fun a b => a.id ≤ b.id).take 2 with
  | [row] => some row
  | _ => none

/-! ### Settling -/

/-- The row with this id, in its record face, and whether the write changed a row. -/
def readBack (changed : Bool) : Option (MessageRecord × Bool) :=
  (s.messages.find? messageId).map fun m => (messageRecordFromRow m, changed)

/-- Writes a status the row lacks. -/
def updateMessageStatus (status : MessageStatus) (sentAt : Option ℕ) : Option (MessageRecord × Bool) × Store :=
  let due : MessageRow → Bool := fun m => m.id = messageId ∧ m.status ≠ status
  let changed := s.messages.rows.any due
  let s := s.updateMessages due
    (fun m => { m with status := status, sentAt := (sentAt.map asI64).getD m.sentAt }) fun _ => rfl
  (s.readBack messageId changed, s)

/-- `DELETE FROM messages WHERE p`, with the cascades of the schema. -/
def deleteMessages (p : MessageRow → Bool) : Store :=
  let gone := (s.messages.rows.filter p).map MessageRow.id
  { s with
    messages := s.messages.delete p
    messageReceipts := s.messageReceipts.delete fun r => gone.contains r.messageId
    messageEdits := s.messageEdits.delete fun e => gone.contains e.messageId }

/-- The mirror rows `complete_outgoing_send` looks for: another device's copy of this send. -/
def duplicateIds (sentAt : ℕ) : List String :=
  let rows := s.messages.rows.filter fun m =>
    m.accountId = accountId ∧ m.conversationId = conversationId ∧ m.direction = .outgoing ∧
      m.sentAt = asI64 sentAt ∧ m.id ≠ messageId ∧ m.senderId = accountId ∧ m.clientRequestId = none
  ((rows.map MessageRow.id).insertionSort (· ≤ ·)).take 2

/-- The store with the one mirror row gone, if there is exactly one. -/
def dropMirror (duplicates : List String) : Store :=
  match duplicates with
  | [mirror] => s.deleteMessages fun m => m.id = mirror
  | _ => s

theorem mem_of_mem_dropMirror {s : Store} {duplicates : List String} {y : MessageRow}
    (h : y ∈ (s.dropMirror duplicates).messages.rows) : y ∈ s.messages.rows := by
  unfold dropMirror at h
  split at h
  · exact (Table.mem_delete.mp h).1
  · exact h

theorem exists_mirror {s : Store} {messageId accountId conversationId mirror : String} {sentAt : ℕ}
    (h : s.duplicateIds messageId accountId conversationId sentAt = [mirror]) :
    ∃ m ∈ s.messages.rows, m.id = mirror ∧ m.accountId = accountId ∧ m.conversationId = conversationId ∧
      m.sentAt = asI64 sentAt ∧ m.id ≠ messageId ∧ m.clientRequestId = none := by
  have hmem : mirror ∈ s.duplicateIds messageId accountId conversationId sentAt := by simp [h]
  have hsorted := List.mem_of_mem_take hmem
  rw [List.mem_insertionSort, List.mem_map] at hsorted
  obtain ⟨m, hm, hid⟩ := hsorted
  rw [List.mem_filter, decide_eq_true_eq] at hm
  obtain ⟨hrow, hacc, hconv, -, hsent, hne, -, hnone⟩ := hm
  exact ⟨m, hrow, hid, hacc, hconv, hsent, hne, hnone⟩

theorem mem_dropMirror_of_own {s : Store} {messageId accountId conversationId : String} {sentAt : ℕ}
    {x : MessageRow} (hx : x ∈ s.messages.rows) (hown : x.clientRequestId.isSome) :
    x ∈ (s.dropMirror (s.duplicateIds messageId accountId conversationId sentAt)).messages.rows := by
  unfold dropMirror
  split
  swap
  · exact hx
  next mirror hmirror =>
    obtain ⟨m, hm, hmid, -, -, -, -, hnone⟩ := exists_mirror hmirror
    refine Table.mem_delete.mpr ⟨hx, decide_eq_false fun h => ?_⟩
    rw [s.messages.row_unique hx hm (h.trans hmid.symm), hnone] at hown
    cases hown

/-- The `UPDATE` of `complete_outgoing_send`. -/
def sentRow (sentAt : ℕ) (outcomes : Option MessageSendOutcomes) (m : MessageRow) : MessageRow :=
  { m with
    status := .sent
    sentAt := asI64 sentAt
    firstSendAttemptedAt := none
    retryAttemptCount := 0
    nextAttemptAt := none
    sendOutcomes := outcomes.map .parsed }

theorem id_sentRow (sentAt : ℕ) (outcomes : Option MessageSendOutcomes) (m : MessageRow) :
    (sentRow sentAt outcomes m).id = m.id := rfl

/-- The summaries of a settled send move forwards to its stamp. -/
def bumpEndings (stamp : ℤ) : Store :=
  { s with
    conversations := s.conversations.update (fun c => c.id = conversationId ∧ c.accountId = accountId)
      (fun c => { c with lastMessageAt := bumpStamp stamp c.lastMessageAt }) fun _ => rfl
    accounts := s.accounts.update (fun a => a.id = accountId)
      (fun a => { a with lastMessageAt := bumpStamp stamp a.lastMessageAt }) fun _ => rfl }

/-- `complete_outgoing_send`: whether the status moved to `sent`; `none`, rolled back, when there is no such row. -/
def completeOutgoingSend (sentAt : ℕ) (outcomes : Option MessageSendOutcomes) : Option Bool × Store :=
  let due : MessageRow → Bool := fun m =>
    m.id = messageId ∧ m.accountId = accountId ∧ m.conversationId = conversationId
  let single := s.dropMirror (s.duplicateIds messageId accountId conversationId sentAt)
  match s.messages.rows.find? due with
  | none => (none, s)
  | some previous =>
    let settled := single.updateMessages due (sentRow sentAt outcomes) (id_sentRow sentAt outcomes)
    (some (previous.status ≠ .sent), settled.bumpEndings accountId conversationId (asI64 sentAt))

/-- The `UPDATE` of `mark_remote_deleted`: its own list of columns. -/
def erasedRow (m : MessageRow) : MessageRow :=
  { m with
    status := .remoteDeleted
    body := none
    bodyBytes := none
    bodyTruncated := false
    attachments := none
    attachmentLocators := none
    liveAttachmentLocators := none
    rich := none
    quoteMessageId := none
    quoteSnapshot := none }

/-- The newest row of a conversation (`ORDER BY sent_at DESC, id DESC LIMIT 1`). -/
def newestRow (conversationId : String) : Option MessageRow :=
  let rows := s.messages.rows.filter fun m => m.conversationId = conversationId
  (rows.insertionSort fun a b => b.sentAt < a.sentAt ∨ (b.sentAt = a.sentAt ∧ b.id ≤ a.id)).head?

/-- The rows an author's delete addresses. -/
def deleteTarget (authorSenderId : String) (m : MessageRow) : Bool :=
  m.accountId = accountId ∧ m.conversationId = conversationId ∧ m.sentAt = asI64 targetSentAt ∧
    m.senderId = authorSenderId

/-- `mark_remote_deleted`: the author's live rows at the timestamp, their reactions, and the preview they
may hold. -/
def markRemoteDeleted (authorSenderId : String) : Option (MessageRecord × Bool) × Store :=
  let target := deleteTarget accountId conversationId targetSentAt authorSenderId
  let due : MessageRow → Bool := fun m => target m && m.isLive
  let changed := s.messages.rows.any due
  let s := s.updateMessages due erasedRow fun _ => rfl
  let record := ((s.messages.rows.filter target).insertionSort fun a b => a.id ≤ b.id).head?
  let events := s.messageEvents.update
    (fun e => e.accountId = accountId ∧ e.conversationId = conversationId ∧
      e.targetTimestamp = asI64 targetSentAt)
    (fun e => { e with removed := true }) fun _ => rfl
  let s := if changed then { s with messageEvents := events } else s
  let conversations := s.conversations.update
    (fun c => c.id = conversationId ∧ (s.newestRow conversationId).map MessageRow.id = record.map MessageRow.id)
    (fun c => { c with lastMessagePreview := none }) fun _ => rfl
  let s := if changed && record.isSome then { s with conversations } else s
  (record.map fun m => (messageRecordFromRow m, changed), s)

/-- An erasure writes its own columns on the live rows it addresses, and prior bodies never. -/
theorem markRemoteDeleted_spec (authorSenderId id : String) :
    (s.markRemoteDeleted accountId conversationId targetSentAt authorSenderId).2.messages.find? id =
        (s.messages.find? id).map (fun m =>
          if deleteTarget accountId conversationId targetSentAt authorSenderId m && m.isLive then erasedRow m
          else m) ∧
      (s.markRemoteDeleted accountId conversationId targetSentAt authorSenderId).2.messageEdits =
        s.messageEdits := by
  have hfind := find?_updateMessages s
    (fun m => deleteTarget accountId conversationId targetSentAt authorSenderId m && m.isLive) erasedRow
    (fun _ => rfl) id
  unfold markRemoteDeleted
  dsimp only
  constructor
  · rw [← hfind]
    split <;> split <;> rfl
  · split <;> split <;> rfl

end Store

end SignalConnector
