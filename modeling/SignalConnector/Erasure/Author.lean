/-
# Does a remote delete touch only its author's message?

Clocks are per sender, so rows of several authors may share a conversation and
a timestamp, and one author may own several of them. `mark_remote_deleted`
takes the author into account where it erases rows. It does not where it ends
the reactions, which it looks up by conversation and timestamp alone, nor
where it clears the preview, which it decides by one row: the author's row at
the timestamp with the least id, compared with the newest row of the
conversation.
-/
import SignalConnector.Erasure.Stays
import SignalConnector.Store.Retention

namespace SignalConnector

open List Store Table

/-! ### The property -/

/-- What a conversation's preview keeps of a text. -/
def previewOf (text : String) : String := String.ofList (text.toList.take previewChars)

/-- What a conversation may have shown of a row: a body or prior body, whole (as a send stores it) or cut, or the
name of an attachment. -/
def Store.previewsOf (s : Store) (m : MessageRow) : List String :=
  let texts := m.body.toList ++ (s.messageEdits.rows.filter fun e => e.messageId = m.id).map MessageEditRow.body
  texts ++ texts.map previewOf ++ ((listCell m.attachments).getD []).filterMap AttachmentInfo.filename

/-- The conversation's preview is one of this row, at the time of this row. -/
def ConversationRow.Shows (s : Store) (c : ConversationRow) (m : MessageRow) : Prop :=
  m.conversationId = c.id ∧ c.lastMessageAt = some m.sentAt ∧
    ∃ text ∈ s.previewsOf m, c.lastMessagePreview = some text
  deriving Decidable

namespace RemoteDelete

variable (d : RemoteDelete)

/-- The rows the delete addresses, erased or not. -/
def target : MessageRow → Bool :=
  deleteTarget d.accountId d.conversationId d.targetSentAt d.authorSenderId

/-- The delete ends the reaction, if it erases anything. -/
def ends (e : MessageEventRow) : Bool :=
  e.accountId = d.accountId ∧ e.conversationId = d.conversationId ∧ e.targetTimestamp = asI64 d.targetSentAt

variable {d : RemoteDelete} {s : Store}

end RemoteDelete

end SignalConnector
