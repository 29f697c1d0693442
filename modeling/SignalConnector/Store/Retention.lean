/-
# Deleting history

The four operations that take message rows away: retention (`prune_history`),
disappearing messages (`sweep_expired_messages`, which erases a view-once row
in place), `delete_messages_by_sent_at` and `delete_conversation`. What they
share is the repair of the summaries they disturb: a touched conversation is
recomputed from the rows it still holds, and every account's badge from its
conversations.
-/
import SignalConnector.Lib.Select
import SignalConnector.Lib.Tally
import SignalConnector.Store.Conversations
import SignalConnector.Store.Messages

namespace SignalConnector

open List Table

def messageRetentionMs : ℤ := 90 * 24 * 60 * 60 * 1000

def retentionSafetyWindowMs : ℤ := 7 * 24 * 60 * 60 * 1000

def maxMessagesPerConversation : ℕ := 2000

def previewChars : ℕ := 120

/-- `i64::saturating_sub` of a span that is not negative. -/
def satSubI64 (now span : ℤ) : ℤ := max (now - span) (-2 ^ 63)

/-- What a prune did. -/
structure HistoryPruneOutcome where
  messagesDeleted : ℕ
  conversationsRepaired : ℕ
  deriving DecidableEq

/-- What went, by conversation. -/
structure ExpiredMessageGroup where
  accountId : String
  conversationId : String
  messageIds : List String
  deriving DecidableEq

namespace MessageRow

/-- `COALESCE(stored_at, received_at, sent_at)`: since when this machine holds the row. -/
def heldSince (m : MessageRow) : ℤ := (m.storedAt.or m.receivedAt).getD m.sentAt

/-- `status NOT IN ('pending', 'unknown')`. -/
def resolved (m : MessageRow) : Bool := m.status ≠ .pending && m.status ≠ .unknown

/-- The row's timer has run out and its contents are not erased yet. -/
def timerOut (m : MessageRow) (now : ℤ) : Bool := m.expireAt.any (· ≤ now) && !m.isErased

/-- The rich record carries a view-once marker. -/
def viewOnce (m : MessageRow) : Bool :=
  ((m.rich.bind JsonCell.ok).map fun rich => rich.viewOnce || rich.viewOnceInvalid).getD false

end MessageRow

/-- `erased_rich_json`: the view-once facts stay, every content leg goes. -/
def erasedRich (rich : Option (JsonCell NormalizedRich)) : Option (JsonCell NormalizedRich) :=
  rich.map fun cell =>
    let rich := cell.ok.getD NormalizedRich.default
    .parsed { NormalizedRich.default with
      viewOnce := rich.viewOnce
      viewOnceInvalid := rich.viewOnceInvalid
      viewOnceOpenedAt := rich.viewOnceOpenedAt }

/-- The `UPDATE` that burns a view-once row in place. -/
def burntRow (m : MessageRow) : MessageRow :=
  { m with
    body := none
    bodyBytes := none
    bodyTruncated := false
    quoteSnapshot := none
    attachments := none
    attachmentLocators := none
    liveAttachmentLocators := none
    sticker := none
    rich := erasedRich m.rich
    isErased := true }

theorem id_burntRow (m : MessageRow) : (burntRow m).id = m.id := rfl

namespace Store

/-! ### Repairing the summaries -/

variable (s : Store)

def incomingCount (conversationId : String) : ℕ :=
  s.messages.rows.countP fun m => m.conversationId = conversationId ∧ m.direction = .incoming

/-- The summary columns of a conversation, from the rows it still holds. -/
def repairedRow (c : ConversationRow) : ConversationRow :=
  { c with
    lastMessageAt := ((s.messages.rows.filter fun m => m.conversationId = c.id).map MessageRow.sentAt).max?
    lastMessagePreview := ((s.newestRow c.id).bind MessageRow.body).map fun body =>
      String.ofList (body.toList.take previewChars)
    unreadCount := min c.unreadCount (s.incomingCount c.id) }

theorem id_repairedRow (c : ConversationRow) : (s.repairedRow c).id = c.id := rfl

/-- The repair of one touched conversation. -/
def repairSummary (conversationId : String) : Store :=
  s.updateConversations (fun c => c.id = conversationId) s.repairedRow s.id_repairedRow

theorem foldl_repairSummary : ∀ (touched : List String) (s : Store), touched.foldl repairSummary s =
    s.updateConversations (fun c => touched.contains c.id) s.repairedRow s.id_repairedRow
  | [], s => by
    unfold updateConversations
    rw [show s.conversations.update _ _ _ = s.conversations from eq_of_rows (by simp)]
    rfl
  | id :: touched, s => by
    rw [foldl_cons, foldl_repairSummary touched]
    unfold repairSummary updateConversations
    refine congrArg (fun conversations => { s with conversations }) (eq_of_rows ?_)
    rw [rows_update, rows_update, rows_update, map_map]
    refine map_congr_left fun c _ => ?_
    change (if touched.contains (if decide (c.id = id) then s.repairedRow c else c).id then
      s.repairedRow (if decide (c.id = id) then s.repairedRow c else c) else _) = _
    have htwice : s.repairedRow (s.repairedRow c) = s.repairedRow c := by simp [repairedRow]
    by_cases hc : c.id = id
    · simp [hc, htwice]
    · simp [hc]

/-- An account's badge and ending, from these conversations. -/
def recountedRow (conversations : List ConversationRow) (a : AccountRow) : AccountRow :=
  { a with
    unreadCount := tally ConversationRow.accountId ConversationRow.unreadCount conversations a.id
    lastMessageAt := ((conversations.filter fun c => c.accountId = a.id).filterMap ConversationRow.lastMessageAt).max? }

/-- Every account's badge and ending, from its conversations. -/
def recountAccounts : Store :=
  { s with accounts := s.accounts.update (fun _ => true) (recountedRow s.conversations.rows) fun _ => rfl }

/-- The rows of the list, by their ids. -/
def named (rows : List MessageRow) (m : MessageRow) : Bool := (rows.map MessageRow.id).contains m.id

/-- `DELETE FROM messages WHERE id IN (…)`. -/
def deleteRows (gone : List MessageRow) : Store := s.deleteMessages (named gone)

/-- The conversations of the rows, each once and in order. -/
def touchedConversations (rows : List MessageRow) : List String :=
  ((rows.map MessageRow.conversationId).dedup).insertionSort (· ≤ ·)

/-! ### What a deletion disturbs -/

variable {s t : Store}

/-- A row with one of the ids is in the conversation. -/
def touches (s : Store) (hit : String → Bool) (conversationId : String) : Bool :=
  s.messages.rows.any fun m => hit m.id && m.conversationId = conversationId

/-- Only the ids of rows that are there count. -/
theorem touches_congr {p q : String → Bool} (h : ∀ m ∈ s.messages.rows, p m.id = q m.id) : s.touches p = s.touches q := by
  funext id
  unfold touches
  rw [Bool.eq_iff_iff, any_eq_true, any_eq_true]
  exact exists_congr fun m => and_congr_right fun hm => by rw [h m hm]

theorem repairedRow_congr {c : ConversationRow} (h : (t.messages.rows.filter fun m => m.conversationId = c.id) =
      s.messages.rows.filter fun m => m.conversationId = c.id) : t.repairedRow c = s.repairedRow c := by
  have hcount : t.incomingCount c.id = s.incomingCount c.id := by
    have hsplit : ∀ u : Store, u.incomingCount c.id =
        (u.messages.rows.filter fun m => m.conversationId = c.id).countP fun m => m.direction = .incoming := by
      intro u
      rw [countP_filter]
      exact countP_congr fun m _ => by simp [and_comm]
    rw [hsplit, hsplit, h]
  unfold repairedRow newestRow
  rw [h, hcount]

theorem repair_repair {first last : Store} {touched touched' : String → Bool} (rows : List ConversationRow)
    (hle : ∀ id, last.incomingCount id ≤ first.incomingCount id)
    (hsame : ∀ c ∈ rows, touched' c.id = false → last.repairedRow c = first.repairedRow c) :
    (rows.map fun c => if touched c.id then first.repairedRow c else c).map
        (fun c => if touched' c.id then last.repairedRow c else c) =
      rows.map fun c => if touched c.id || touched' c.id then last.repairedRow c else c := by
  rw [map_map]
  refine map_congr_left fun c hc => ?_
  rw [Function.comp_apply]
  by_cases h : touched c.id
  · simp only [h, if_true, id_repairedRow, Bool.true_or]
    by_cases h' : touched' c.id
    · -- the second repair makes good what the first has written
      rw [if_pos h']
      simp [repairedRow, min_assoc, min_eq_right (hle c.id)]
    · rw [if_neg h']
      exact (hsame c hc (Bool.eq_false_iff.mpr h')).symm
  · simp [h]

theorem rows_recountAccounts (s : Store) :
    s.recountAccounts.accounts.rows = s.accounts.rows.map (recountedRow s.conversations.rows) := by
  change (s.accounts.rows.map fun a => if true then recountedRow s.conversations.rows a else a) = _
  simp only [if_true]

/-- The touched conversations repaired and every account recounted. -/
def settled (s : Store) (touched : String → Bool) : Store :=
  (s.updateConversations (fun c => touched c.id) s.repairedRow s.id_repairedRow).recountAccounts

theorem rows_accounts_settled (s : Store) (touched : String → Bool) : (s.settled touched).accounts.rows =
    s.accounts.rows.map (recountedRow (s.settled touched).conversations.rows) :=
  rows_recountAccounts (s.updateConversations _ s.repairedRow s.id_repairedRow)

/-- Settled once after a first deletion and again after a second, the store is settled as after both. -/
theorem settled_settled {first : Store} (last : Store) {touched touched' : String → Bool}
    (hconversations : last.conversations = first.conversations) (haccounts : last.accounts = first.accounts)
    (hle : ∀ id, last.incomingCount id ≤ first.incomingCount id)
    (hsame : ∀ id, touched' id = false → (last.messages.rows.filter fun m => m.conversationId = id) =
      first.messages.rows.filter fun m => m.conversationId = id) :
    { last with
      accounts := (first.settled touched).accounts
      conversations := (first.settled touched).conversations }.settled touched' =
      last.settled fun id => touched id || touched' id := by
  set between : Store :=
    { last with
      accounts := (first.settled touched).accounts
      conversations := (first.settled touched).conversations }
  have hconversations' : (between.settled touched').conversations =
      (last.settled fun id => touched id || touched' id).conversations := by
    refine eq_of_rows ?_
    change (first.conversations.rows.map fun c => if touched c.id then first.repairedRow c else c).map
        (fun c => if touched' c.id then last.repairedRow c else c) =
      last.conversations.rows.map fun c => if touched c.id || touched' c.id then last.repairedRow c else c
    rw [hconversations]
    exact repair_repair _ hle fun c _ h => repairedRow_congr (hsame c.id h)
  have haccounts' : (between.settled touched').accounts =
      (last.settled fun id => touched id || touched' id).accounts := by
    refine eq_of_rows ?_
    have hrows := congrArg Table.rows hconversations'
    calc (between.settled touched').accounts.rows
        = (first.settled touched).accounts.rows.map (recountedRow (between.settled touched').conversations.rows) :=
          between.rows_accounts_settled touched'
      _ = (first.accounts.rows.map (recountedRow (first.settled touched).conversations.rows)).map
            (recountedRow (between.settled touched').conversations.rows) :=
          congrArg _ (first.rows_accounts_settled touched)
      _ = last.accounts.rows.map
            (recountedRow (last.settled fun id => touched id || touched' id).conversations.rows) := by
          rw [map_map, hrows, haccounts]
          rfl
      _ = _ := (last.rows_accounts_settled _).symm
  calc between.settled touched'
      = { last with
          accounts := (between.settled touched').accounts
          conversations := (between.settled touched').conversations } := rfl
    _ = last.settled fun id => touched id || touched' id := by
        rw [haccounts', hconversations']
        rfl

theorem named_iff_mem {rows : List MessageRow} (hrows : ∀ m ∈ rows, m ∈ s.messages.rows) {m : MessageRow}
    (hm : m ∈ s.messages.rows) : named rows m = true ↔ m ∈ rows := by
  unfold named
  rw [contains_iff_mem, mem_map]
  constructor
  · rintro ⟨x, hx, hid⟩
    rwa [← s.messages.row_unique (hrows x hx) hm hid]
  · exact fun h => ⟨m, h, rfl⟩

theorem deleteMessages_congr {p q : MessageRow → Bool} (h : ∀ m ∈ s.messages.rows, p m = q m) :
    s.deleteMessages p = s.deleteMessages q := by
  have hrows : s.messages.delete p = s.messages.delete q :=
    eq_of_rows (filter_congr fun m hm => by rw [h m hm])
  unfold deleteMessages
  rw [filter_congr h, hrows]

theorem contains_touchedConversations {rows : List MessageRow} {hit : String → Bool}
    (hrows : ∀ m, m ∈ rows ↔ m ∈ s.messages.rows ∧ hit m.id) (conversationId : String) :
    (touchedConversations rows).contains conversationId = s.touches hit conversationId := by
  unfold touchedConversations touches
  rw [Bool.eq_iff_iff, contains_iff_mem, mem_insertionSort, mem_dedup, mem_map, any_eq_true]
  refine exists_congr fun m => ?_
  rw [hrows, Bool.and_eq_true, decide_eq_true_eq, and_assoc]

theorem mem_selected_of_short {p : MessageRow → Bool} {le : MessageRow → MessageRow → Prop} [DecidableRel le] {n : ℕ}
    (hshort : (((s.messages.rows.filter p).insertionSort le).take n).length < n) {m : MessageRow}
    (hm : m ∈ s.messages.rows) (hp : p m) : m ∈ ((s.messages.rows.filter p).insertionSort le).take n := by
  rw [length_take] at hshort
  rw [take_of_length_le (by omega), mem_insertionSort, mem_filter]
  exact ⟨hm, hp⟩

/-! ### Retention -/

/-- The age rule: resolved rows held since before the limit, oldest first. -/
def expiredRows (s : Store) (expiredBefore : ℤ) (maxMessages : ℕ) : List MessageRow :=
  let rows := s.messages.rows.filter fun m => m.heldSince < expiredBefore && m.resolved
  (rows.insertionSort fun a b => a.heldSince ≤ b.heldSince).take maxMessages

/-- `ROW_NUMBER() OVER (PARTITION BY conversation_id ORDER BY sent_at DESC, id DESC)`. -/
def recency (s : Store) (m : MessageRow) : ℕ :=
  s.messages.rows.countP fun x =>
    x.conversationId = m.conversationId ∧ (m.sentAt < x.sentAt ∨ (m.sentAt = x.sentAt ∧ m.id ≤ x.id))

/-- The cap rule: resolved rows past the newest 2000 of their conversation and out of the safety
window, oldest first. -/
def overCapRows (s : Store) (expiredBefore keepAfter : ℤ) (remaining : ℕ) : List MessageRow :=
  let crowded : String → Bool := fun id =>
    maxMessagesPerConversation < s.messages.rows.countP fun m => m.conversationId = id
  let rows := s.messages.rows.filter fun m =>
    crowded m.conversationId && (expiredBefore ≤ m.heldSince && m.heldSince < keepAfter && m.resolved &&
      maxMessagesPerConversation < s.recency m)
  (rows.insertionSort fun a b => a.heldSince ≤ b.heldSince).take remaining

/-- The rows one retention pass deletes: by age first, and by the cap with what is left of the batch. -/
def prunedRows (s : Store) (nowMs maxMessages : ℕ) : List MessageRow :=
  let now := asI64 nowMs
  let expiredBefore := satSubI64 now messageRetentionMs
  let expired := s.expiredRows expiredBefore maxMessages
  if expired.length < maxMessages then
    expired ++ (s.deleteRows expired).overCapRows expiredBefore (satSubI64 now retentionSafetyWindowMs)
      (maxMessages - expired.length)
  else expired

/-- Rows go, summaries are repaired. -/
def pruneHistory (s : Store) (nowMs maxMessages : ℕ) : HistoryPruneOutcome × Store :=
  let gone := s.prunedRows nowMs maxMessages
  let touched := touchedConversations gone
  if touched.isEmpty then (⟨0, 0⟩, s)
  else
    (⟨gone.length, touched.length⟩, (touched.foldl repairSummary (s.deleteRows gone)).recountAccounts)

/-! ### Disappearing messages -/

/-- The view-once rows a sweep burns, oldest deadline first. -/
def burningRows (s : Store) (now : ℤ) (cap : ℕ) : List MessageRow :=
  let rows := s.messages.rows.filter fun m => m.timerOut now && m.viewOnce
  (rows.insertionSort (lexLe (fun m => m.expireAt.getD 0) MessageRow.id)).take cap

/-- The plain rows a sweep deletes, oldest deadline first. -/
def lapsedRows (s : Store) (now : ℤ) (cap : ℕ) : List MessageRow :=
  let rows := s.messages.rows.filter fun m => m.timerOut now && !m.viewOnce
  (rows.insertionSort (lexLe (fun m => m.expireAt.getD 0) MessageRow.id)).take cap

/-- The deleted rows, grouped by account and conversation. -/
def expiredGroups (rows : List MessageRow) : List ExpiredMessageGroup :=
  let keys := (rows.map fun m => (m.accountId, m.conversationId)).dedup
  (keys.insertionSort fun a b => a.1 < b.1 ∨ (a.1 = b.1 ∧ a.2 ≤ b.2)).map fun key =>
    ⟨key.1, key.2, (rows.filter fun m => m.accountId = key.1 ∧ m.conversationId = key.2).map MessageRow.id⟩

/-- `sweep_expired_messages`: view-once rows burn in place, the others leave with the rest of the
budget. -/
def sweepExpiredMessages (s : Store) (nowMs cap : ℕ) : List ExpiredMessageGroup × Store :=
  let now := asI64 nowMs
  let burning := s.burningRows now cap
  let burnt := s.updateMessages (named burning) burntRow id_burntRow
  let gone := burnt.lapsedRows now (cap - burning.length)
  let touched := touchedConversations (burning ++ gone)
  (expiredGroups gone, (touched.foldl repairSummary (burnt.deleteRows gone)).recountAccounts)

/-- The rows a sweep deletes are not those it burns. -/
theorem lapsedRows_burnt (s : Store) (now : ℤ) (cap budget : ℕ) :
    (s.updateMessages (named (s.burningRows now cap)) burntRow id_burntRow).lapsedRows now budget =
      s.lapsedRows now budget := by
  have hburning : ∀ m ∈ s.messages.rows, named (s.burningRows now cap) m → m.viewOnce := by
    intro m hm hnamed
    obtain ⟨x, hx, hid⟩ := mem_map.mp (contains_iff_mem.mp hnamed)
    have hx := (mem_insertionSort _).mp (mem_of_mem_take hx)
    rw [mem_filter, Bool.and_eq_true] at hx
    rw [← s.messages.row_unique hx.1 hm hid]
    exact hx.2.2
  have hrows : ((s.messages.rows.map fun m => if named (s.burningRows now cap) m then burntRow m else m).filter
      fun m => m.timerOut now && !m.viewOnce) =
      s.messages.rows.filter fun m => m.timerOut now && !m.viewOnce := by
    generalize s.messages.rows = rows at hburning
    induction rows with
    | nil => rfl
    | cons m rows ih =>
      have ih := ih fun x hx => hburning x (mem_cons_of_mem _ hx)
      rw [map_cons, filter_cons, filter_cons, ih]
      by_cases hm : named (s.burningRows now cap) m
      · have hview := hburning m mem_cons_self hm
        simp [hm, hview, burntRow, MessageRow.timerOut]
      · simp [hm]
  unfold lapsedRows
  dsimp only
  rw [rows_updateMessages, hrows]

/-! ### Deletes by name -/

/-- `delete_messages_by_sent_at`. Its statement reads `DELETE , delete_failed FROM messages …`, which SQLite
refuses: any timestamp fails before a row is touched. -/
def deleteMessagesBySentAt (s : Store) (_accountId _conversationId : String) (sentAt : List ℕ) :
    Except StoreError (List (ℕ × String) × Store) :=
  if sentAt.isEmpty then .ok ([], s) else .error .unavailable

/-- The reactions of a conversation whose target row is gone go with it. -/
def deleteOrphanEvents (s : Store) (accountId conversationId : String) : Store :=
  { s with
    messageEvents := s.messageEvents.delete fun e =>
      e.accountId = accountId ∧ e.conversationId = conversationId ∧
        ¬s.messages.rows.any fun m => m.accountId = e.accountId ∧ m.conversationId = e.conversationId ∧
          m.sentAt = e.targetTimestamp }

/-- The arm of `delete_conversation` that takes the row; another account's row under it holds it by its foreign key. -/
def dropConversation (s : Store) (accountId conversationId : String) : Except StoreError Store :=
  let s := { s with
    messageEvents := s.messageEvents.delete fun e =>
      e.accountId = accountId ∧ e.conversationId = conversationId }
  let s := s.deleteMessages fun m => m.accountId = accountId ∧ m.conversationId = conversationId
  if s.messages.rows.any (fun m => m.conversationId = conversationId) ∨
      s.messageEvents.rows.any fun e => e.conversationId = conversationId then .error .unavailable
  else .ok { s with
    conversations := s.conversations.delete fun c => c.id = conversationId ∧ c.accountId = accountId }

/-- The account's rows of a conversation up to the bound, or all of them. -/
def clearedBy (accountId conversationId : String) (boundAt : Option ℕ) (m : MessageRow) : Bool :=
  m.accountId = accountId && (m.conversationId = conversationId && boundAt.all fun b => m.sentAt ≤ asI64 b)

/-- `delete_conversation`: the rows up to the bound, or all of them, and in the drop arm the
conversation. -/
def deleteConversation (s : Store) (accountId conversationId : String) (boundAt : Option ℕ)
    (dropRow : Bool) : Except StoreError (Option ℕ × Store) :=
  if s.conversations.rows.any fun c => c.id = conversationId ∧ c.accountId = accountId then
    let removed := s.messages.rows.countP (clearedBy accountId conversationId boundAt)
    let cleared := (s.deleteMessages (clearedBy accountId conversationId boundAt)).deleteOrphanEvents accountId
      conversationId
    if dropRow then
      (cleared.dropConversation accountId conversationId).map fun s => (some removed, s.recountAccounts)
    else .ok (some removed, (cleared.repairSummary conversationId).recountAccounts)
  else .ok (none, s)

end Store

end SignalConnector
