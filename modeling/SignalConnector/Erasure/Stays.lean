/-
# Does an erased message stay erased?

`mark_remote_deleted` clears a list of columns and sets the status. The list
leaves out the sticker, and neither the edit stamp nor the prior bodies in
`message_edits` go with it. Writers that look at the status pass over the row.
The others do not: the attachment merge (also as the duplicate arm of
`insert_message`), the refill of a history batch, the host's own edit, the two
status writers, and the receipt fold, whose `UPDATE` names only account,
conversation and timestamp.
-/
import SignalConnector.Erasure.Writers

namespace SignalConnector

open Store

/-! ### The operations -/

/-- The arguments of `mark_remote_deleted`. -/
structure RemoteDelete where
  accountId : String
  conversationId : String
  targetSentAt : ℕ
  authorSenderId : String
  deriving DecidableEq

namespace RemoteDelete

/-- The delete turns this row into a tombstone. -/
def Hits (d : RemoteDelete) (m : MessageRow) : Prop :=
  deleteTarget d.accountId d.conversationId d.targetSentAt d.authorSenderId m = true ∧ m.isLive = true
  deriving Decidable

def apply (d : RemoteDelete) (s : Store) : Store :=
  (s.markRemoteDeleted d.accountId d.conversationId d.targetSentAt d.authorSenderId).2

end RemoteDelete

/-- A store operation that may write a message row or what the read faces attach to it. -/
inductive ContentOp
  | insertMessage (message : MessageRecord) (clientRequestId preview : Option String) (incrementUnread : Bool)
      (storedAt : ℕ)
  | mergeLiveAttachmentFaces (accountId messageId : String) (incoming : List NormalizedAttachment)
  | insertHistoryBatch (rows : List HistoryImportInsert) (storedAt : ℕ)
  | applyInboundEdit (accountId conversationId : String) (targetSentAt : ℕ)
      (senderId legacySenderId newText : String) (newTextBytes now : ℕ)
  | applyOutgoingEdit (messageId accountId newText : String) (newTextBytes now : ℕ)
  | applyOutgoingEditBySignal (accountId conversationId : String) (targetSentAt : ℕ) (newText : String)
      (newTextBytes now : ℕ)
  | foldPollVote (accountId conversationId : String) (targetSentAt : ℕ)
      (senderId legacySenderId voterId : String) (optionIndexes : List ℕ)
  | foldPollTerminate (accountId conversationId : String) (targetSentAt : ℕ) (senderId legacySenderId : String)
  | updateMessageStatus (messageId : String) (status : MessageStatus) (sentAt : Option ℕ)
  | completeOutgoingSend (messageId accountId conversationId : String) (sentAt : ℕ)
      (outcomes : Option MessageSendOutcomes)
  | applyPeerReceipt (receipt : PeerReceipt)
  | upsertReactionEvent (accountId conversationId emoji : String) (targetSentAt : ℕ) (actorId : String)
      (removed : Bool) (actorName : Option String) (now : ℕ)
  | markRemoteDeleted (delete : RemoteDelete)
  deriving DecidableEq

namespace ContentOp

variable (sha256 : String → String)

/-- The operation's transaction: an error rolled it back. -/
def perform (s : Store) : ContentOp → Except StoreError Store
  | insertMessage message clientRequestId preview incrementUnread storedAt =>
    (s.insertMessage message clientRequestId preview incrementUnread storedAt).map Prod.snd
  | mergeLiveAttachmentFaces accountId messageId incoming =>
    .ok (s.mergeLiveAttachmentFaces accountId messageId incoming).2
  | insertHistoryBatch rows storedAt => (s.insertHistoryBatch rows storedAt).map Prod.snd
  | applyInboundEdit accountId conversationId targetSentAt senderId legacySenderId newText newTextBytes now =>
    (s.applyInboundEdit accountId conversationId targetSentAt senderId legacySenderId newText newTextBytes
      now).map Prod.snd
  | applyOutgoingEdit messageId accountId newText newTextBytes now =>
    (s.applyOutgoingEdit messageId accountId newText newTextBytes now).map Prod.snd
  | applyOutgoingEditBySignal accountId conversationId targetSentAt newText newTextBytes now =>
    (s.applyOutgoingEditBySignal accountId conversationId targetSentAt newText newTextBytes now).map Prod.snd
  | foldPollVote accountId conversationId targetSentAt senderId legacySenderId voterId optionIndexes =>
    .ok (s.foldPollVote accountId conversationId targetSentAt senderId legacySenderId voterId optionIndexes).2
  | foldPollTerminate accountId conversationId targetSentAt senderId legacySenderId =>
    .ok (s.foldPollTerminate accountId conversationId targetSentAt senderId legacySenderId).2
  | updateMessageStatus messageId status sentAt => .ok (s.updateMessageStatus messageId status sentAt).2
  | completeOutgoingSend messageId accountId conversationId sentAt outcomes =>
    .ok (s.completeOutgoingSend messageId accountId conversationId sentAt outcomes).2
  | applyPeerReceipt receipt => (s.applyPeerReceipt receipt).map Prod.snd
  | upsertReactionEvent accountId conversationId emoji targetSentAt actorId removed actorName now =>
    s.upsertReactionEvent sha256 accountId conversationId emoji targetSentAt actorId removed actorName now
  | markRemoteDeleted delete => .ok (delete.apply s)

def apply (s : Store) (op : ContentOp) : Store :=
  match op.perform sha256 s with
  | .ok s' => s'
  | .error _ => s

end ContentOp

/-! ### The property and its condition -/

/-- The row is there as a tombstone, and no page shows content of it. -/
def Store.Erased (sha256 : String → String) (s : Store) (messageId : String) : Prop :=
  (∃ x, s.messages.find? messageId = some x ∧ x.status = .remoteDeleted) ∧ s.Blanked sha256 messageId

/-- The row has nothing that an erasure does not clear: no sticker, and no prior body that its edit stamp
would show. -/
def MessageRow.LeavesNothing (s : Store) (m : MessageRow) : Prop :=
  m.sticker.bind JsonCell.ok = none ∧ (m.editedAt.isSome → s.priorBodies m.accountId m.id = [])
  deriving Decidable

namespace ContentOp

/-- The operation is not aimed at the erased row `m`. -/
def Avoids (s : Store) (m : MessageRow) : ContentOp → Prop
  | insertMessage message _ _ _ _ =>
    ¬(message.accountId = m.accountId ∧ message.id = m.id ∧ Fills message.attachments)
  | mergeLiveAttachmentFaces accountId messageId incoming =>
    ¬(accountId = m.accountId ∧ messageId = m.id ∧ Fills incoming)
  | insertHistoryBatch rows storedAt =>
    Along (importStep storedAt) (fun s row => ¬Store.Refills m.id s row) s rows
  | applyOutgoingEdit messageId accountId _ _ _ =>
    ¬(messageId = m.id ∧ accountId = m.accountId ∧ m.direction = .outgoing)
  | updateMessageStatus messageId status _ => ¬(messageId = m.id ∧ status ≠ .remoteDeleted)
  | completeOutgoingSend messageId accountId conversationId _ _ =>
    ¬(messageId = m.id ∧ accountId = m.accountId ∧ conversationId = m.conversationId)
  | applyPeerReceipt receipt => ¬s.Spills receipt m
  | _ => True

instance (s : Store) (m : MessageRow) : (op : ContentOp) → Decidable (op.Avoids s m)
  | insertMessage .. | mergeLiveAttachmentFaces .. | applyOutgoingEdit .. | updateMessageStatus ..
  | completeOutgoingSend .. | applyPeerReceipt _ => inferInstanceAs (Decidable (¬_))
  | insertHistoryBatch .. => inferInstanceAs (Decidable (Along _ _ _ _))
  | applyInboundEdit .. | applyOutgoingEditBySignal .. | foldPollVote .. | foldPollTerminate ..
  | upsertReactionEvent .. | markRemoteDeleted _ => .isTrue trivial

/-- The operation is rolled back, or it is not aimed at `m`. -/
def Spares (sha256 : String → String) (m : MessageRow) (s : Store) (op : ContentOp) : Prop :=
  (op.perform sha256 s).isOk = true → op.Avoids s m
  deriving Decidable

end ContentOp

/-! ### Tombstones -/

/-- What is left of `m`: the erased row, up to the stamps of the ladder, and no prior body to show. -/
structure Tombstone (m : MessageRow) (s : Store) : Prop where
  row : ∃ x, s.messages.find? m.id = some x ∧ MessageRow.SameFace (erasedRow m) x ∧
    x.status = .remoteDeleted
  edits : m.editedAt.isSome → s.priorBodies m.accountId m.id = []

theorem Store.priorBodies_eq_nil {s : Store} {accountId messageId : String} :
    s.priorBodies accountId messageId = [] ↔
      ∀ e ∈ s.messageEdits.rows, ¬(e.accountId = accountId ∧ e.messageId = messageId) := by
  have hsort : ∀ l : List MessageEditRow, l.insertionSort (fun a b => a.seq ≤ b.seq) = [] ↔ l = [] := fun l => by
    rw [← List.length_eq_zero_iff, List.length_insertionSort, List.length_eq_zero_iff]
  unfold priorBodies
  rw [List.map_eq_nil_iff, hsort, List.filter_eq_nil_iff]
  simp only [decide_eq_true_eq]

namespace RemoteDelete

variable {d : RemoteDelete} {m : MessageRow} {s : Store}

theorem find?_apply (hm : m ∈ s.messages.rows) (hd : d.Hits m) :
    (d.apply s).messages.find? m.id = some (erasedRow m) := by
  refine (s.markRemoteDeleted_spec d.accountId d.conversationId d.targetSentAt d.authorSenderId m.id).1.trans ?_
  rw [Table.mem_iff_find?.mp hm]
  simp [hd.1, hd.2]

theorem priorBodies_apply (d : RemoteDelete) (s : Store) (accountId messageId : String) :
    (d.apply s).priorBodies accountId messageId = s.priorBodies accountId messageId := by
  unfold Store.priorBodies apply
  rw [(s.markRemoteDeleted_spec d.accountId d.conversationId d.targetSentAt d.authorSenderId messageId).2]

end RemoteDelete

namespace Tombstone

variable {sha256 : String → String} {m : MessageRow} {s s' : Store} {d : RemoteDelete} {op : ContentOp}

theorem of_untouched (h : Tombstone m s) (hs : Store.Untouched m.id s s') : Tombstone m s' where
  row := by
    rw [hs.1]
    exact h.row
  edits hedited := by
    have hnone := priorBodies_eq_nil.mp (h.edits hedited)
    exact priorBodies_eq_nil.mpr fun e he hown => hnone e (hs.2 e he hown.2) hown

section Columns

variable {x : MessageRow} (h : MessageRow.SameFace (erasedRow m) x)
include h

theorem bare (hsticker : m.sticker.bind JsonCell.ok = none)
    (hedits : m.editedAt.isSome → s.priorBodies m.accountId m.id = []) : x.Bare s := by
  have hbody : x.body = none := by
    simpa only [MessageRow.face, erasedRow] using congrArg MessageRow.body h
  have hattachments : x.attachments = none := by
    simpa only [MessageRow.face, erasedRow] using congrArg MessageRow.attachments h
  have hrich : x.rich = none := by
    simpa only [MessageRow.face, erasedRow] using congrArg MessageRow.rich h
  have hsnapshot : x.quoteSnapshot = none := by
    simpa only [MessageRow.face, erasedRow] using congrArg MessageRow.quoteSnapshot h
  have hsticker' : x.sticker = m.sticker := by
    simpa only [MessageRow.face, erasedRow] using congrArg MessageRow.sticker h
  have hedited : x.editedAt = m.editedAt := by
    simpa only [MessageRow.face, erasedRow] using congrArg MessageRow.editedAt h
  refine ⟨hbody, by simp [messageRecordFromRow, hattachments], hsticker' ▸ hsticker, by simp [hrich],
    by simp [hsnapshot], fun hstamp => ?_⟩
  rw [h.accountId, h.id]
  exact hedits (hedited ▸ hstamp)

end Columns

theorem erased (h : Tombstone m s) (hsticker : m.sticker.bind JsonCell.ok = none) : s.Erased sha256 m.id := by
  obtain ⟨x, hx, hface, hstatus⟩ := h.row
  obtain ⟨hmem, hid⟩ := Table.find?_eq_some.mp hx
  have hquote : x.quoteMessageId = none := by
    simpa only [MessageRow.face, erasedRow] using congrArg MessageRow.quoteMessageId hface
  refine ⟨⟨x, hx, hstatus⟩, ?_⟩
  rw [← hid]
  exact (bare hface hsticker h.edits).blanked hmem hquote

theorem start (hm : m ∈ s.messages.rows) (hd : d.Hits m) (hclean : m.LeavesNothing s) : Tombstone m (d.apply s) :=
  ⟨⟨erasedRow m, RemoteDelete.find?_apply hm hd, .refl _, rfl⟩, fun hedited =>
    (d.priorBodies_apply s _ _).trans (hclean.2 hedited)⟩

/-- **The erasure itself clears everything iff there was nothing that it does not clear.** -/
theorem erased_apply_iff (hm : m ∈ s.messages.rows) (hd : d.Hits m) :
    (d.apply s).Erased sha256 m.id ↔ m.LeavesNothing s := by
  constructor
  · rintro ⟨-, hblank⟩
    have hmem := (Table.find?_eq_some.mp (RemoteDelete.find?_apply hm hd)).1
    obtain ⟨-, -, hsticker, -, -, hedits⟩ := Store.Blanked.bare (m := erasedRow m) hblank hmem
    exact ⟨hsticker, fun hedited => (d.priorBodies_apply s _ _).symm.trans (hedits hedited)⟩
  · exact fun hclean => (start hm hd hclean).erased hclean.1

theorem spills_iff {x : MessageRow} (hface : MessageRow.SameFace (erasedRow m) x) (r : PeerReceipt) :
    s.Spills r x ↔ s.Spills r m := by
  unfold Store.Spills
  rw [hface.accountId, hface.sentAt, hface.conversationId]
  rfl

theorem isLive_eq_false {x : MessageRow} (h : x.status = .remoteDeleted) : x.isLive = false := by
  simp [MessageRow.isLive, h]

/-- **An operation that spares the tombstone leaves it standing**, unless it deletes the row. -/
theorem apply (h : Tombstone m s) (hspares : op.Spares sha256 m s)
    (hkept : ((op.apply sha256 s).messages.find? m.id).isSome) : Tombstone m (op.apply sha256 s) := by
  obtain ⟨x, hx, hface, hstatus⟩ := h.row
  have hthere : (s.messages.find? m.id).isSome := by simp [hx]
  have hdead : ∀ y, s.messages.find? m.id = some y → y.isLive = false := by
    intro y hy
    cases hx.symm.trans hy
    exact isLive_eq_false hstatus
  have hrow : ∀ {P : MessageRow → Prop}, P x → ∀ y, s.messages.find? m.id = some y → P y := by
    intro P hP y hy
    cases hx.symm.trans hy
    exact hP
  have hacc : x.accountId = m.accountId := hface.accountId
  unfold ContentOp.apply at hkept ⊢
  cases hperform : op.perform sha256 s with
  | error => exact h
  | ok =>
  rw [hperform] at hkept
  have havoids : op.Avoids s m := hspares (by rw [hperform]; rfl)
  cases op with
  | insertMessage =>
    obtain ⟨⟨landed, s''⟩, hinsert, rfl⟩ := exists_of_map_ok hperform
    exact h.of_untouched (untouched_insertMessage hinsert hthere (hrow (by rw [hacc]; exact havoids)))
  | mergeLiveAttachmentFaces =>
    cases hperform
    exact h.of_untouched (untouched_mergeAttachmentFacesIn (hrow (by rw [hacc]; exact havoids)))
  | insertHistoryBatch rows =>
    obtain ⟨⟨outcome, s''⟩, hbatch, rfl⟩ := exists_of_map_ok hperform
    exact h.of_untouched ((untouched_importSteps rows s hthere havoids).trans
      (insertHistoryBatch_ok hbatch))
  | applyInboundEdit =>
    obtain ⟨⟨record, s''⟩, hedit, rfl⟩ := exists_of_map_ok hperform
    exact h.of_untouched (untouched_applyInboundEdit hedit hdead)
  | applyOutgoingEdit =>
    obtain ⟨⟨record, s''⟩, hedit, rfl⟩ := exists_of_map_ok hperform
    have hdir : x.direction = m.direction := hface.direction
    exact h.of_untouched (untouched_applyOutgoingEdit hedit (hrow (by rw [hacc, hdir]; exact havoids)))
  | applyOutgoingEditBySignal =>
    obtain ⟨⟨record, s''⟩, hedit, rfl⟩ := exists_of_map_ok hperform
    exact h.of_untouched (untouched_applyOutgoingEditBySignal hedit hdead)
  | foldPollVote =>
    cases hperform
    exact h.of_untouched (untouched_foldPollRow hdead)
  | foldPollTerminate =>
    cases hperform
    exact h.of_untouched (untouched_foldPollRow hdead)
  | updateMessageStatus =>
    cases hperform
    refine h.of_untouched (untouched_updateMessageStatus (hrow ?_))
    rintro ⟨hid, hne⟩
    exact havoids ⟨hid, fun heq => hne (hstatus.trans heq.symm)⟩
  | completeOutgoingSend messageId accountId conversationId =>
    cases hperform
    have hconv : x.conversationId = m.conversationId := hface.conversationId
    exact h.of_untouched (untouched_completeOutgoingSend (hrow (by rw [hacc, hconv]; exact havoids)) hkept)
  | applyPeerReceipt receipt =>
    obtain ⟨⟨outcome, s''⟩, hreceipt, rfl⟩ := exists_of_map_ok hperform
    obtain ⟨hedits, y, hy, hface', hstatus'⟩ := find?_applyPeerReceipt hreceipt hx
    rw [if_neg (fun hspill => havoids ((spills_iff hface receipt).mp hspill))] at hstatus'
    refine ⟨⟨y, hy, hface.trans hface', hstatus'.trans hstatus⟩, fun hedited => ?_⟩
    rw [← h.edits hedited]
    unfold Store.priorBodies
    rw [hedits]
  | upsertReactionEvent =>
    obtain ⟨events, rfl⟩ := upsertReactionEvent_frame sha256 hperform
    exact h.of_untouched (.of_tables rfl rfl)
  | markRemoteDeleted =>
    cases hperform
    exact h.of_untouched (untouched_markRemoteDeleted hdead)

/-- A row whose status moved is no tombstone. -/
theorem not_erased_of_status (h : ∃ y, s.messages.find? m.id = some y ∧ y.status ≠ .remoteDeleted) :
    ¬s.Erased sha256 m.id := by
  rintro ⟨⟨x, hx, hstatus⟩, -⟩
  obtain ⟨y, hy, hne⟩ := h
  cases hx.symm.trans hy
  exact hne hstatus

theorem not_erased_of_attachments
    (h : ∃ y, s.messages.find? m.id = some y ∧ (messageRecordFromRow y).attachments ≠ []) :
    ¬s.Erased sha256 m.id := by
  rintro ⟨-, hblank⟩
  obtain ⟨y, hy, hne⟩ := h
  obtain ⟨hmem, hid⟩ := Table.find?_eq_some.mp hy
  exact hne (Store.Blanked.bare (hid ▸ hblank) hmem).2.1

theorem not_erased_of_body {text : String} (h : ∃ y, s.messages.find? m.id = some y ∧ y.body = some text) :
    ¬s.Erased sha256 m.id := by
  rintro ⟨-, hblank⟩
  obtain ⟨y, hy, hbody⟩ := h
  obtain ⟨hmem, hid⟩ := Table.find?_eq_some.mp hy
  cases hbody.symm.trans (Store.Blanked.bare (hid ▸ hblank) hmem).1

/-- **An operation aimed at the tombstone brings the message back**, in its status or on a page. -/
theorem revived (h : Tombstone m s) (hnot : ¬op.Spares sha256 m s) : ¬(op.apply sha256 s).Erased sha256 m.id := by
  obtain ⟨x, hx, hface, hstatus⟩ := h.row
  have hacc : x.accountId = m.accountId := hface.accountId
  have hattachments : x.attachments = none := by
    simpa only [MessageRow.face, erasedRow] using congrArg MessageRow.attachments hface
  have hlive : x.liveAttachmentLocators = none := by
    simpa only [MessageRow.face, erasedRow] using congrArg MessageRow.liveAttachmentLocators hface
  unfold ContentOp.Spares at hnot
  rw [Classical.not_imp] at hnot
  obtain ⟨hok, havoids⟩ := hnot
  unfold ContentOp.apply
  cases hperform : op.perform sha256 s with
  | error =>
    rw [hperform] at hok
    cases hok
  | ok =>
  dsimp only
  cases op with
  | insertMessage message =>
    obtain ⟨hown, hid, hfills⟩ := not_not.mp havoids
    have hthere : (s.messages.find? message.id).isSome := by simp [hid, hx]
    obtain ⟨⟨landed, s''⟩, hinsert, rfl⟩ := exists_of_map_ok hperform
    rw [insertMessage_duplicate hthere] at hinsert
    cases hinsert
    rw [hid]
    exact not_erased_of_attachments
      (attachments_mergeAttachmentFacesIn hx (hacc.trans hown.symm) hattachments hlive hfills)
  | mergeLiveAttachmentFaces =>
    obtain ⟨hown, rfl, hfills⟩ := not_not.mp havoids
    cases hperform
    exact not_erased_of_attachments
      (attachments_mergeAttachmentFacesIn hx (hacc.trans hown.symm) hattachments hlive hfills)
  | insertHistoryBatch rows =>
    obtain ⟨⟨outcome, s''⟩, hbatch, rfl⟩ := exists_of_map_ok hperform
    obtain ⟨y, hy, hshown⟩ := attachments_importSteps rows s x hx hattachments havoids
    exact not_erased_of_attachments ⟨y, (insertHistoryBatch_ok hbatch).1.trans hy, hshown⟩
  | applyOutgoingEdit =>
    obtain ⟨rfl, hown, hdir⟩ := not_not.mp havoids
    obtain ⟨⟨record, s''⟩, hedit, rfl⟩ := exists_of_map_ok hperform
    have hout : x.direction = m.direction := hface.direction
    exact not_erased_of_body
      (body_applyOutgoingEdit hedit hx (hacc.trans hown.symm) (hout.trans hdir))
  | updateMessageStatus messageId status sentAt =>
    obtain ⟨rfl, hne⟩ := not_not.mp havoids
    cases hperform
    obtain ⟨y, hy, hmoved⟩ := status_updateMessageStatus sentAt hx
      (show x.status ≠ status from fun heq => hne (heq.symm.trans hstatus))
    exact not_erased_of_status ⟨y, hy, hmoved ▸ hne⟩
  | completeOutgoingSend messageId accountId conversationId sentAt outcomes =>
    obtain ⟨rfl, hown, hhome⟩ := not_not.mp havoids
    cases hperform
    have hconv : x.conversationId = m.conversationId := hface.conversationId
    obtain ⟨y, hy, hsent⟩ := status_completeOutgoingSend sentAt outcomes hx
      (hacc.trans hown.symm) (hconv.trans hhome.symm)
    exact not_erased_of_status ⟨y, hy, by simp [hsent]⟩
  | applyPeerReceipt receipt =>
    obtain ⟨⟨outcome, s''⟩, hreceipt, rfl⟩ := exists_of_map_ok hperform
    obtain ⟨-, y, hy, -, hmoved⟩ := find?_applyPeerReceipt hreceipt hx
    rw [if_pos ((spills_iff hface receipt).mpr (not_not.mp havoids))] at hmoved
    refine not_erased_of_status ⟨y, hy, hmoved ▸ ?_⟩
    rcases receipt.tier_cases with htier | htier <;> simp [htier]
  | _ => exact absurd trivial havoids

end Tombstone

/-! ### The whole run -/

variable (sha256 : String → String)

/-- **An erased message stays erased iff** the row had no sticker and no prior body and every operation of
the run spares it. -/
theorem erased_stays_erased_iff (s : Store) (d : RemoteDelete) (m : MessageRow) (hm : m ∈ s.messages.rows)
    (hd : d.Hits m) (ops : List ContentOp) (hkept : Along (ContentOp.apply sha256)
      (fun s op => ((op.apply sha256 s).messages.find? m.id).isSome) (d.apply s) ops) :
    ((d.apply s).Erased sha256 m.id ∧
      Along (ContentOp.apply sha256) (fun s op => (op.apply sha256 s).Erased sha256 m.id) (d.apply s) ops) ↔
    (m.LeavesNothing s ∧ Along (ContentOp.apply sha256) (ContentOp.Spares sha256 m) (d.apply s) ops) := by
  rw [Tombstone.erased_apply_iff hm hd]
  refine and_congr_right fun hclean => ?_
  refine Along.iff_of_invariant (Tombstone m) (fun s op h hthere hspares => ?_) (fun s op h => h.revived) ops _
    (Tombstone.start hm hd hclean) hkept
  have hnext := h.apply hspares hthere
  exact ⟨hnext, hnext.erased hclean.1⟩

/-- One sent row of account `a` in conversation `c`. -/
def oneSent (row : MessageRow) : Store :=
  { Store.empty with
    accounts := .single (.ofAddress "a" "+15550100" "+1555***00" "default")
    conversations := .single (.ofPeer "c" "a" .direct "+15550101" "peer")
    messages := .single row }

def sentText : MessageRow := .ofText "m" "a" "c" .outgoing "a" 1000 "secret" .sent

/-- The account's own delete of `sentText`. -/
def ownDelete : RemoteDelete := ⟨"a", "c", 1000, "a"⟩

/-- A mirrored edit, a vote, a reaction and the row's own duplicate. -/
def lateTraffic : List ContentOp :=
  [.applyOutgoingEditBySignal "a" "c" 1000 "later" 5 2000,
    .foldPollVote "a" "c" 1000 "a" "a" "+15550101" [0],
    .upsertReactionEvent "a" "c" "+" 1000 "+15550101" false none 3000,
    .insertMessage (messageRecordFromRow sentText) none none false 4000]

theorem late_traffic_spares_tombstone : (ownDelete.apply (oneSent sentText)).Erased id "m" ∧
      Along (ContentOp.apply id) (fun s op => (op.apply id s).Erased id "m") (ownDelete.apply (oneSent sentText))
        lateTraffic :=
  (erased_stays_erased_iff id (oneSent sentText) ownDelete sentText (by simp [oneSent]) (by decide) lateTraffic
    (by decide)).mpr (by decide)

def sentSticker : MessageRow := { sentText with sticker := some (.parsed ⟨"pack", "key", 7, none⟩) }

/-- What a page shows of a row: its status, text, number of attachments, sticker and prior bodies. -/
structure ShownRow where
  status : MessageStatus
  text : Option String
  attachments : ℕ
  sticker : Bool
  priorBodies : List String
  deriving DecidableEq

/-- The first page of conversation `c`. -/
def firstPage (s : Store) : List ShownRow :=
  match s.listMessages id "a" "c" 50 none with
  | .error _ => []
  | .ok page => page.items.map fun r =>
    ⟨r.status, r.text, r.attachments.length, r.sticker.isSome, r.edits.map MessageEditEntry.body⟩

/-- A sticker and a prior body outlive the erasure; an edit, an attachment and a status are written onto
the tombstone. -/
theorem erased_message_shows_again :
    firstPage (ownDelete.apply (oneSent sentSticker)) = [⟨.remoteDeleted, none, 0, true, []⟩] ∧
      firstPage (ownDelete.apply
          ((ContentOp.applyOutgoingEdit "m" "a" "revised" 7 2000).apply id (oneSent sentText))) =
        [⟨.remoteDeleted, none, 0, false, ["secret"]⟩] ∧
      firstPage ((ContentOp.applyOutgoingEdit "m" "a" "again" 5 2000).apply id
          (ownDelete.apply (oneSent sentText))) = [⟨.remoteDeleted, some "again", 0, false, []⟩] ∧
      firstPage ((ContentOp.mergeLiveAttachmentFaces "a" "m" [⟨⟨"x", none, none, none⟩, none⟩]).apply id
          (ownDelete.apply (oneSent sentText))) = [⟨.remoteDeleted, none, 1, false, []⟩] ∧
      firstPage ((ContentOp.completeOutgoingSend "m" "a" "c" 1000 none).apply id
          (ownDelete.apply (oneSent sentText))) = [⟨.sent, none, 0, false, []⟩] := by
  decide

end SignalConnector
