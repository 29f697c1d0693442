/-
# Delete-for-me

`delete_messages_by_sent_at` deletes the rows at the timestamps a sync names,
one prepared statement run once for each distinct timestamp, then repairs the
conversation's summary and the account aggregates. Everything depends on the
statement being prepared, and its text is not a statement: it reads
`DELETE , delete_failed FROM messages …`.

The model takes the text as a parameter. With the source's own it fails for
every list that is not empty.
-/
import SignalConnector.Lib.DeleteStatement
import SignalConnector.Store.Retention

namespace SignalConnector

open List

/-! ### The function -/

/-- The value of a column or a parameter. -/
inductive SqlValue
  | text (value : String)
  | integer (value : ℤ)
  deriving DecidableEq

/-- The columns of `messages` a delete by timestamp may name. -/
def MessageRow.column : String → MessageRow → Option SqlValue
  | "account_id", m => some (.text m.accountId)
  | "conversation_id", m => some (.text m.conversationId)
  | "sent_at", m => some (.integer m.sentAt)
  | _, _ => none

/-- The statement of `delete_messages_by_sent_at` as the source has it, its line breaks as blanks. -/
def deleteBySentAtText : String :=
  "DELETE , delete_failed FROM messages WHERE account_id=?1 AND conversation_id=?2 AND sent_at=?3 RETURNING id"

/-- The statement without the stray words. -/
def intendedText : String :=
  "DELETE FROM messages WHERE account_id=?1 AND conversation_id=?2 AND sent_at=?3 RETURNING id"

/-- The timestamps of one call that are looked at. -/
def maxDeleteTimestamps : ℕ := 256

/-- The loop's variables. -/
structure Removal where
  seen : List ℕ
  removed : List (ℕ × String)
  store : Store

namespace Store

/-- `prepare`: the text has to be a delete from `messages` by columns that exist. -/
def prepareDelete (text : String) : Except StoreError DeleteStatement :=
  match parseDelete text with
  | some statement =>
    if statement.table = "messages" ∧ statement.returning = "id" ∧
        statement.conditions.all fun condition =>
          ["account_id", "conversation_id", "sent_at"].contains condition.column then .ok statement
    else .error .unavailable
  | none => .error .unavailable

end Store

/-- One round of the loop: a timestamp not seen before is deleted at. -/
def Removal.round (statement : DeleteStatement) (accountId conversationId : String) (r : Removal) (at_ : ℕ) :
    Removal :=
  if at_ ∈ r.seen then r
  else
    let due := statement.selects MessageRow.column
      [.text accountId, .text conversationId, .integer (asI64 at_)]
    { seen := at_ :: r.seen
      removed := r.removed ++ (r.store.messages.rows.filter due).map fun m => (at_, m.id)
      store := r.store.deleteMessages due }

namespace Store

/-- `delete_messages_by_sent_at`, for the text of its statement. -/
def deleteMessagesBySentAtWith (text : String) (s : Store) (accountId conversationId : String)
    (sentAt : List ℕ) : Except StoreError (List (ℕ × String) × Store) :=
  if sentAt.isEmpty then .ok ([], s)
  else
    (prepareDelete text).bind fun statement =>
      let r := (sentAt.take maxDeleteTimestamps).foldl (Removal.round statement accountId conversationId) ⟨[], [], s⟩
      if r.removed.isEmpty then .ok ([], r.store)
      else .ok (r.removed, (r.store.repairSummary conversationId).recountAccounts)

/-- The source's text is not prepared. -/
theorem prepareDelete_deleteBySentAtText : prepareDelete deleteBySentAtText = .error .unavailable := by
  decide +kernel

/-- With the source's text the function is the one the badge runs use. -/
theorem deleteMessagesBySentAtWith_text (s : Store) (accountId conversationId : String) (sentAt : List ℕ) :
    s.deleteMessagesBySentAtWith deleteBySentAtText accountId conversationId sentAt =
      s.deleteMessagesBySentAt accountId conversationId sentAt := by
  unfold deleteMessagesBySentAtWith deleteMessagesBySentAt
  rw [prepareDelete_deleteBySentAtText]
  rfl

end Store

/-! ### What it is for -/

/-- The rows a call names. -/
def stampedAt (accountId conversationId : String) (sentAt : List ℕ) (m : MessageRow) : Bool :=
  m.accountId = accountId ∧ m.conversationId = conversationId ∧ m.sentAt ∈ sentAt.map asI64

namespace Store

/-- The summary columns of a conversation agree with the rows it holds. -/
def SummaryRepaired (s : Store) (conversationId : String) : Prop :=
  ∀ c ∈ s.conversations.rows, c.id = conversationId →
    c.lastMessageAt =
        ((s.messages.rows.filter fun m => m.conversationId = conversationId).map MessageRow.sentAt).max? ∧
      c.unreadCount ≤ s.incomingCount conversationId

/-- Every account's columns agree with its conversations. -/
def AccountsRecounted (s : Store) : Prop :=
  ∀ a ∈ s.accounts.rows,
    a.unreadCount = tally ConversationRow.accountId ConversationRow.unreadCount s.conversations.rows a.id ∧
      a.lastMessageAt = ((s.conversations.rows.filter fun c => c.accountId = a.id).filterMap
        ConversationRow.lastMessageAt).max?

/-- It deletes the rows named and no others, answers each once under its timestamp, repairs the summaries if it
deleted any, and finds nothing when repeated. -/
def RemovesAddressed (call : Store → Except StoreError (List (ℕ × String) × Store)) (s : Store)
    (accountId conversationId : String) (sentAt : List ℕ) : Prop :=
  ∃ removed s', call s = .ok (removed, s') ∧
    s'.messages.rows = s.messages.rows.filter (fun m => !stampedAt accountId conversationId sentAt m) ∧
    (removed.map Prod.snd).Perm
      ((s.messages.rows.filter (stampedAt accountId conversationId sentAt)).map MessageRow.id) ∧
    (∀ entry ∈ removed, ∃ m ∈ s.messages.rows, m.id = entry.2 ∧ m.sentAt = asI64 entry.1) ∧
    (removed ≠ [] → s'.SummaryRepaired conversationId ∧ s'.AccountsRecounted) ∧
    call s' = .ok ([], s')

end Store

/-! ### The source's text -/

/-- **Delete-for-me works for the empty list only**, in every store, for every account and conversation. -/
theorem delete_for_me_iff (s : Store) (accountId conversationId : String) (sentAt : List ℕ) : s.RemovesAddressed
        (fun s => s.deleteMessagesBySentAtWith deleteBySentAtText accountId conversationId sentAt)
        accountId conversationId sentAt ↔ sentAt = [] := by
  constructor
  · rintro ⟨removed, s', hcall, -⟩
    dsimp only at hcall
    rw [Store.deleteMessagesBySentAtWith_text, Store.deleteMessagesBySentAt] at hcall
    split at hcall
    · next hempty => exact List.isEmpty_iff.mp hempty
    · cases hcall
  · rintro rfl
    have hnone : ∀ m, stampedAt accountId conversationId [] m = false := fun m => by simp [stampedAt]
    refine ⟨[], s, rfl, ?_, ?_, by simp, by simp, rfl⟩ <;> simp [hnone]

/-- Two rows of conversation `c`, one at 1000 and one at 2000. -/
def twoStamps : Store :=
  { Store.empty with
    accounts := .single (.ofAddress "a" "+15550100" "+1555***00" "default")
    conversations := .single (.ofPeer "c" "a" .direct "+15550101" "peer")
    messages := ⟨[.ofText "m1" "a" "c" .outgoing "a" 1000 "one" .sent,
      .ofText "m2" "a" "c" .outgoing "a" 2000 "two" .sent], by decide⟩ }

/-- The row at 1000 is addressed; the call fails, where the intended statement deletes it. -/
theorem addressed_row_not_deleted :
    (twoStamps.deleteMessagesBySentAtWith deleteBySentAtText "a" "c" [1000]).toOption.isNone ∧
      ((twoStamps.deleteMessagesBySentAtWith intendedText "a" "c" [1000]).toOption.map fun answer =>
        (answer.1, answer.2.messages.rows.map MessageRow.id)) = some ([(1000, "m1")], ["m2"]) := by
  decide +kernel

end SignalConnector
