/-
# Retention

`prune_history` deletes by age first and by the cap with what is left of the
batch, ranking the rows the age rule has left. The rows it takes are the oldest
of those that one of the two rules dooms (`prunedRows_eq`), and taking some of
them dooms no other row and saves none (`doomed_pruned`), so the batches add up
to one pass over everything (`forget_forget`, `prunesTo_iff`). A scan that
ranks the rows before any is deleted takes more: a row counts against the cap
there although the age rule is about to take it.
-/
import SignalConnector.Expiry.Sweep
import SignalConnector.Lib.Rank

namespace SignalConnector

open List Store

instance : Std.Total fun a b : MessageRow => a.heldSince ≤ b.heldSince := ⟨fun a b => le_total a.heldSince b.heldSince⟩

instance : IsTrans MessageRow fun a b => a.heldSince ≤ b.heldSince := ⟨fun _ _ _ => le_trans⟩

namespace MessageRow

/-- In the conversation of `m` and at or before it, newest first. -/
def Ahead (x m : MessageRow) : Prop :=
  x.conversationId = m.conversationId ∧ (m.sentAt < x.sentAt ∨ (m.sentAt = x.sentAt ∧ m.id ≤ x.id))
  deriving Decidable

theorem ahead_refl (m : MessageRow) : m.Ahead m := ⟨rfl, .inr ⟨rfl, Std.le_refl m.id⟩⟩

theorem ahead_trans (a b c : MessageRow) (hab : a.Ahead b) (hbc : b.Ahead c) : a.Ahead c := by
  refine ⟨hab.1.trans hbc.1, ?_⟩
  rcases hab.2, hbc.2 with ⟨hab | ⟨hab, hab'⟩, hbc | ⟨hbc, hbc'⟩⟩
  · exact .inl (hbc.trans hab)
  · exact .inl (hbc ▸ hab)
  · exact .inl (hab ▸ hbc)
  · exact .inr ⟨hbc.trans hab, Std.le_trans hbc' hab'⟩

theorem ahead_antisymm {a b : MessageRow} (hab : a.Ahead b) (hba : b.Ahead a) : a.id = b.id := by
  rcases hab.2 with hab | ⟨hab, hab'⟩ <;> rcases hba.2 with hba | ⟨hba, hba'⟩
  · exact absurd hab hba.asymm
  · exact absurd hab hba.not_gt
  · exact absurd hba hab.not_gt
  · exact Std.le_antisymm hba' hab'

/-- Taken by the age rule. -/
def aged (m : MessageRow) (expiredBefore : ℤ) : Bool := m.heldSince < expiredBefore && m.resolved

end MessageRow

def expiredBefore (nowMs : ℕ) : ℤ := satSubI64 (asI64 nowMs) messageRetentionMs

def keepAfter (nowMs : ℕ) : ℤ := satSubI64 (asI64 nowMs) retentionSafetyWindowMs

theorem satSubI64_asI64_le {nowMs : ℕ} {span x : ℤ} (hspan : span ≤ 2 ^ 63) (h : x < satSubI64 (asI64 nowMs) span) :
    x < nowMs - span := by
  unfold satSubI64 asI64 at h
  split at h <;> omega

theorem expiredBefore_le_keepAfter (nowMs : ℕ) : expiredBefore nowMs ≤ keepAfter nowMs := by
  unfold expiredBefore keepAfter satSubI64 messageRetentionMs retentionSafetyWindowMs
  omega

namespace Store

variable {s : Store} {nowMs : ℕ}

/-! ### The rows a pass takes -/

def youngRows (s : Store) (nowMs : ℕ) : List MessageRow :=
  s.messages.rows.filter fun m => !m.aged (expiredBefore nowMs)

/-- Taken by the age rule, or by the cap among the rows that one leaves. -/
def doomed (s : Store) (nowMs : ℕ) (m : MessageRow) : Bool :=
  m.resolved && (m.heldSince < expiredBefore nowMs ||
    (m.heldSince < keepAfter nowMs && maxMessagesPerConversation < rank MessageRow.Ahead (s.youngRows nowMs) m))

theorem recency_eq_rank (s : Store) (m : MessageRow) : s.recency m = rank MessageRow.Ahead s.messages.rows m :=
  countP_congr fun _ _ => by rw [decide_eq_true_eq, decide_eq_true_eq, MessageRow.Ahead]

variable {hit : String → Bool} {batch maxMessages : ℕ} {m : MessageRow}

theorem doomed_of_aged (h : m.aged (expiredBefore nowMs)) : s.doomed nowMs m := by
  obtain ⟨hheld, hresolved⟩ := Bool.and_eq_true_iff.mp h
  simp [doomed, hresolved, of_decide_eq_true hheld]

theorem doomed_of_young (h : m.aged (expiredBefore nowMs) = false) :
    s.doomed nowMs m ↔ m.resolved ∧ expiredBefore nowMs ≤ m.heldSince ∧ m.heldSince < keepAfter nowMs ∧
      maxMessagesPerConversation < rank MessageRow.Ahead (s.youngRows nowMs) m := by
  unfold doomed
  unfold MessageRow.aged at h
  by_cases hresolved : m.resolved
  · have hheld : expiredBefore nowMs ≤ m.heldSince := by simpa [hresolved] using h
    simp [hresolved, hheld, not_lt.mpr hheld]
  · simp [hresolved]

/-- The rows the cap rule takes are the doomed ones among those the age rule leaves. -/
theorem overCapRows_of_young (left : Store) (hleft : left.messages.rows = s.youngRows nowMs) (remaining : ℕ) :
    left.overCapRows (expiredBefore nowMs) (keepAfter nowMs) remaining =
      (((s.youngRows nowMs).filter (s.doomed nowMs)).insertionSort fun a b => a.heldSince ≤ b.heldSince).take
        remaining := by
  unfold overCapRows
  dsimp only
  refine congrArg (List.take remaining) (congrArg (List.insertionSort _) ?_)
  rw [hleft]
  refine filter_congr fun m hm => ?_
  have hyoung : m.aged (expiredBefore nowMs) = false := by simpa using (mem_filter.mp hm).2
  have hrank : left.recency m = rank MessageRow.Ahead (s.youngRows nowMs) m := by rw [recency_eq_rank, hleft]
  have hcrowded : rank MessageRow.Ahead (s.youngRows nowMs) m ≤
      (s.youngRows nowMs).countP fun x => x.conversationId = m.conversationId :=
    countP_mono_left fun x _ hx => by simpa using (of_decide_eq_true hx).1
  rw [Bool.eq_iff_iff, doomed_of_young hyoung, hrank]
  simp only [Bool.and_eq_true, decide_eq_true_eq]
  constructor
  · rintro ⟨-, ⟨⟨hheld, hkeep⟩, hresolved⟩, hover⟩
    exact ⟨hresolved, hheld, hkeep, hover⟩
  · rintro ⟨hresolved, hheld, hkeep, hover⟩
    exact ⟨hover.trans_le hcrowded, ⟨⟨hheld, hkeep⟩, hresolved⟩, hover⟩

/-- **One pass takes the oldest of the doomed rows.** -/
theorem prunedRows_eq (s : Store) (nowMs maxMessages : ℕ) : s.prunedRows nowMs maxMessages =
    ((s.messages.rows.filter (s.doomed nowMs)).insertionSort fun a b => a.heldSince ≤ b.heldSince).take maxMessages := by
  set aged : MessageRow → Bool := fun m => m.aged (expiredBefore nowMs) with haged
  set old := (s.messages.rows.filter aged).insertionSort fun a b => a.heldSince ≤ b.heldSince with hold
  set crowded := ((s.youngRows nowMs).filter (s.doomed nowMs)).insertionSort fun a b => a.heldSince ≤ b.heldSince
  have hsorted : ((s.messages.rows.filter (s.doomed nowMs)).insertionSort fun a b => a.heldSince ≤ b.heldSince) =
      old ++ crowded := by
    have hfirst : ∀ a ∈ s.messages.rows.filter (s.doomed nowMs), ∀ b ∈ s.messages.rows.filter (s.doomed nowMs),
        a.heldSince ≤ b.heldSince → aged b → aged a := by
      intro a ha b _ hab hb
      have hresolved := (Bool.and_eq_true_iff.mp (mem_filter.mp ha).2).1
      have hlimit := of_decide_eq_true (Bool.and_eq_true_iff.mp hb).1
      exact Bool.and_eq_true_iff.mpr ⟨decide_eq_true (lt_of_le_of_lt hab hlimit), hresolved⟩
    rw [← insertionSort_append aged hfirst, filter_filter, filter_filter]
    refine congrArg₂ _ (congrArg _ (filter_congr fun m _ => ?_)) (congrArg _ ?_)
    · by_cases hm : aged m
      · rw [hm, doomed_of_aged hm, Bool.and_true]
      · rw [Bool.eq_false_iff.mpr hm, Bool.false_and]
    · unfold youngRows
      rw [filter_filter]
      exact filter_congr fun m _ => Bool.and_comm _ _
  have hexpired : s.expiredRows (expiredBefore nowMs) maxMessages = old.take maxMessages := rfl
  rw [hsorted, take_append]
  change (let expired := s.expiredRows (expiredBefore nowMs) maxMessages
    if expired.length < maxMessages then
      expired ++ (s.deleteRows expired).overCapRows (expiredBefore nowMs) (keepAfter nowMs)
        (maxMessages - expired.length)
    else expired) = _
  rw [hexpired]
  dsimp only
  split
  · next hshort =>
    rw [length_take] at hshort
    have hall : old.take maxMessages = old := take_of_length_le (by omega)
    have hleft : (s.deleteRows old).messages.rows = s.youngRows nowMs := by
      refine filter_congr fun m hm => congrArg _ ?_
      rw [Bool.eq_iff_iff]
      refine (named_iff_mem (fun x hx => ?_) hm).trans ?_
      · exact mem_of_mem_filter ((mem_insertionSort _).mp hx)
      · rw [hold, mem_insertionSort, mem_filter]
        exact and_iff_right hm
    rw [hall, overCapRows_of_young _ hleft]
  · next hfull =>
    have hnone : maxMessages - old.length = 0 := by
      rw [length_take] at hfull
      omega
    rw [hnone, take_zero, append_nil]

theorem mem_prunedRows (h : m ∈ s.prunedRows nowMs maxMessages) : m ∈ s.messages.rows ∧ s.doomed nowMs m := by
  rw [prunedRows_eq] at h
  exact mem_filter.mp ((mem_insertionSort _).mp (mem_of_mem_take h))

/-- A pass that comes up short has taken every doomed row. -/
theorem mem_prunedRows_of_short (hshort : s.messages.rows.countP (s.doomed nowMs) ≤ maxMessages)
    {m : MessageRow} (hm : m ∈ s.messages.rows) (hdoomed : s.doomed nowMs m) : m ∈ s.prunedRows nowMs maxMessages := by
  rw [prunedRows_eq, take_of_length_le, mem_insertionSort, mem_filter]
  · exact ⟨hm, hdoomed⟩
  · rwa [length_insertionSort, ← countP_eq_length_filter]

theorem length_prunedRows (s : Store) (nowMs maxMessages : ℕ) : (s.prunedRows nowMs maxMessages).length =
    min maxMessages (s.messages.rows.countP (s.doomed nowMs)) := by
  rw [prunedRows_eq, length_take, length_insertionSort, countP_eq_length_filter]

theorem touchedConversations_eq_nil {rows : List MessageRow} : (touchedConversations rows).isEmpty ↔ rows = [] := by
  unfold touchedConversations
  rw [List.isEmpty_iff, ← length_eq_zero_iff, length_insertionSort, length_eq_zero_iff,
    dedup_eq_nil, map_eq_nil_iff]

theorem messagesDeleted_pruneHistory (s : Store) (nowMs maxMessages : ℕ) :
    (s.pruneHistory nowMs maxMessages).1.messagesDeleted = (s.prunedRows nowMs maxMessages).length := by
  unfold pruneHistory
  dsimp only
  split
  · next hnone => rw [touchedConversations_eq_nil.mp hnone, length_nil]
  · rfl

/-! ### Rows that are forgotten -/

/-- The store after the rows with these ids are forgotten: what they have disturbed is settled. -/
def forget (s : Store) (hit : String → Bool) : Store :=
  if s.messages.rows.any fun m => hit m.id then (s.deleteMessages fun m => hit m.id).settled (s.touches hit) else s

/-- Only the ids of rows that are there count. -/
theorem forget_congr {p q : String → Bool} (h : ∀ m ∈ s.messages.rows, p m.id = q m.id) : s.forget p = s.forget q := by
  have hsome : (s.messages.rows.any fun m => p m.id) = s.messages.rows.any fun m => q m.id := by
    rw [Bool.eq_iff_iff, any_eq_true, any_eq_true]
    exact exists_congr fun m => and_congr_right fun hm => by rw [h m hm]
  unfold forget
  rw [hsome, touches_congr h, deleteMessages_congr h]

theorem forget_of_none (h : ∀ m ∈ s.messages.rows, hit m.id = false) : s.forget hit = s := by
  unfold forget
  rw [if_neg]
  rw [any_eq_true]
  rintro ⟨m, hm, hhit⟩
  rw [h m hm] at hhit
  cases hhit

theorem rows_forget (s : Store) (hit : String → Bool) :
    (s.forget hit).messages.rows = s.messages.rows.filter fun m => !hit m.id := by
  unfold forget
  split
  · rfl
  · next hnone =>
    refine (filter_eq_self.mpr fun m hm => ?_).symm
    rw [any_eq_true] at hnone
    simpa using fun hhit => hnone ⟨m, hm, hhit⟩

/-- What hangs on the rows goes with them. -/
theorem deleteMessages_eq (s : Store) (p : MessageRow → Bool) : s.deleteMessages p =
    { s with
      messages := s.messages.delete p
      messageReceipts := s.messageReceipts.delete fun r => (s.messages.find? r.messageId).any p
      messageEdits := s.messageEdits.delete fun e => (s.messages.find? e.messageId).any p } := by
  have hgone : ∀ id, ((s.messages.rows.filter p).map MessageRow.id).contains id = (s.messages.find? id).any p :=
    s.messages.contains_keys_filter p
  unfold deleteMessages
  simp only [hgone]

theorem delete_delete {R K : Type} {key : R → K} (t : Table key) (owner : R → String) (p r : MessageRow → Bool) :
    (t.delete fun x => (s.messages.find? (owner x)).any p).delete
        (fun x => ((s.messages.delete p).find? (owner x)).any r) =
      t.delete fun x => (s.messages.find? (owner x)).any fun m => p m || r m := by
  rw [Table.delete_delete]
  refine congrArg t.delete (funext fun x => ?_)
  rw [Table.find?_delete]
  rcases s.messages.find? (owner x) with _ | m
  · rfl
  · by_cases hp : p m <;> simp [hp]

theorem deleteMessages_deleteMessages (s : Store) (p r : MessageRow → Bool) :
    (s.deleteMessages p).deleteMessages r = s.deleteMessages fun m => p m || r m := by
  rw [deleteMessages_eq (s.deleteMessages p), deleteMessages_eq s p, deleteMessages_eq s fun m => p m || r m]
  dsimp only
  rw [Table.delete_delete, delete_delete, delete_delete]

theorem filter_deleteMessages {id : String} (h : s.touches hit id = false) :
    ((s.deleteMessages fun m => hit m.id).messages.rows.filter fun m => m.conversationId = id) =
      s.messages.rows.filter fun m => m.conversationId = id := by
  change (s.messages.rows.filter fun m => !hit m.id).filter _ = _
  rw [filter_filter]
  refine filter_congr fun m hm => ?_
  have hm := (any_eq_false.mp h) m hm
  by_cases hid : m.conversationId = id
  · simpa [hid] using hm
  · simp [hid]

/-- Two deletions, each settled, are one that is. -/
theorem settled_deleteMessages_settled (s : Store) (touched : String → Bool) (hit : String → Bool) :
    ((s.settled touched).deleteMessages fun m => hit m.id).settled (s.touches hit) =
      (s.deleteMessages fun m => hit m.id).settled fun id => touched id || s.touches hit id := by
  exact settled_settled (s.deleteMessages fun m => hit m.id) rfl rfl (fun _ => filter_sublist.countP_le) fun _ h =>
    filter_deleteMessages h

theorem touches_or (s : Store) (p r : String → Bool) (id : String) :
    (s.touches p id || (s.deleteMessages fun m => p m.id).touches r id) = s.touches (fun id => p id || r id) id := by
  rw [Bool.eq_iff_iff, Bool.or_eq_true]
  simp only [touches, any_eq_true, Bool.and_eq_true, Bool.or_eq_true, decide_eq_true_eq]
  constructor
  · rintro (⟨m, hm, hp, hid⟩ | ⟨m, hm, hr, hid⟩)
    · exact ⟨m, hm, .inl hp, hid⟩
    · exact ⟨m, mem_of_mem_filter hm, .inr hr, hid⟩
  · rintro ⟨m, hm, hhit, hid⟩
    by_cases hp : p m.id
    · exact .inl ⟨m, hm, hp, hid⟩
    · exact .inr ⟨m, mem_filter.mpr ⟨hm, by simpa using hp⟩, hhit.resolve_left hp, hid⟩

/-- **What is forgotten in two steps is forgotten in one.** -/
theorem forget_forget (p r : String → Bool) : (s.forget p).forget r = s.forget fun id => p id || r id := by
  by_cases hp : s.messages.rows.any fun m => p m.id
  · by_cases hr : (s.forget p).messages.rows.any fun m => r m.id
    · have hor : s.messages.rows.any fun m => p m.id || r m.id := by
        rw [any_eq_true] at hp ⊢
        obtain ⟨m, hm, hhit⟩ := hp
        exact ⟨m, hm, by rw [hhit, Bool.true_or]⟩
      have hfirst : s.forget p = (s.deleteMessages fun m => p m.id).settled (s.touches p) := if_pos hp
      calc (s.forget p).forget r
          = ((s.forget p).deleteMessages fun m => r m.id).settled ((s.forget p).touches r) := if_pos hr
        _ = ((s.deleteMessages fun m => p m.id).deleteMessages fun m => r m.id).settled
              fun id => s.touches p id || (s.deleteMessages fun m => p m.id).touches r id := by
            rw [hfirst]
            exact settled_deleteMessages_settled (s.deleteMessages fun m => p m.id) (s.touches p) r
        _ = (s.deleteMessages fun m => p m.id || r m.id).settled (s.touches fun id => p id || r id) := by
            rw [deleteMessages_deleteMessages, funext (s.touches_or p r)]
        _ = s.forget fun id => p id || r id := (if_pos hor).symm
    · have hnone : ∀ m ∈ (s.forget p).messages.rows, r m.id = false := by simpa using hr
      rw [forget_of_none hnone]
      refine forget_congr fun m hm => ?_
      by_cases hpm : p m.id
      · rw [hpm, Bool.true_or]
      · rw [hnone m (by rw [rows_forget, mem_filter]; simpa [hm] using hpm), Bool.or_false]
  · have hnone : ∀ m ∈ s.messages.rows, p m.id = false := by simpa using hp
    rw [forget_of_none hnone]
    exact forget_congr fun m hm => by rw [hnone m hm, Bool.false_or]

/-! ### One pass and the next -/

/-- The store after `prune_history`. -/
def pruned (s : Store) (nowMs maxMessages : ℕ) : Store := (s.pruneHistory nowMs maxMessages).2

theorem pruned_eq (s : Store) (nowMs maxMessages : ℕ) :
    s.pruned nowMs maxMessages = s.forget ((s.prunedRows nowMs maxMessages).map MessageRow.id).contains := by
  set gone := s.prunedRows nowMs maxMessages with hgone
  have hrows : ∀ m ∈ gone, m ∈ s.messages.rows := fun m hm => (mem_prunedRows hm).1
  have hhit : ∀ m, m ∈ gone ↔ m ∈ s.messages.rows ∧ (gone.map MessageRow.id).contains m.id := fun m =>
    ⟨fun h => ⟨hrows m h, (named_iff_mem hrows (hrows m h)).mpr h⟩, fun h => (named_iff_mem hrows h.1).mp h.2⟩
  unfold pruned pruneHistory
  dsimp only
  rw [← hgone]
  by_cases hnone : gone = []
  · rw [if_pos (touchedConversations_eq_nil.mpr hnone), hnone]
    exact (forget_of_none fun _ _ => rfl).symm
  · obtain ⟨m, hm⟩ := exists_mem_of_ne_nil _ hnone
    have hsome : s.messages.rows.any fun m => (gone.map MessageRow.id).contains m.id :=
      any_eq_true.mpr ⟨m, hrows m hm, ((hhit m).mp hm).2⟩
    rw [if_neg fun h => hnone (touchedConversations_eq_nil.mp h), forget, if_pos hsome, foldl_repairSummary]
    have htouched : (fun c : ConversationRow => (touchedConversations gone).contains c.id) =
        fun c => s.touches (gone.map MessageRow.id).contains c.id :=
      funext fun c => contains_touchedConversations hhit c.id
    rw [htouched]
    rfl

theorem mem_pruned_iff : m ∈ (s.pruned nowMs maxMessages).messages.rows ↔
    m ∈ s.messages.rows ∧ m ∉ s.prunedRows nowMs maxMessages := by
  rw [pruned_eq, rows_forget, mem_filter, Bool.not_eq_true', ← Bool.not_eq_true]
  exact and_congr_right fun hm => not_congr (named_iff_mem (fun x hx => (mem_prunedRows hx).1) hm)

/-- The rows the age rule leaves, without those the pass has taken. -/
theorem youngRows_pruned (s : Store) (nowMs maxMessages : ℕ) : (s.pruned nowMs maxMessages).youngRows nowMs =
    (s.youngRows nowMs).filter fun m => !named (s.prunedRows nowMs maxMessages) m := by
  unfold youngRows
  rw [pruned_eq, rows_forget, filter_filter, filter_filter]
  exact filter_congr fun m _ => Bool.and_comm _ _

/-- **A pass dooms no row that is left, and saves none.** -/
theorem doomed_pruned (hm : m ∈ (s.pruned nowMs maxMessages).messages.rows) :
    (s.pruned nowMs maxMessages).doomed nowMs m = s.doomed nowMs m := by
  obtain ⟨hrow, hkept⟩ := mem_pruned_iff.mp hm
  by_cases haged : m.aged (expiredBefore nowMs)
  · rw [doomed_of_aged haged, doomed_of_aged haged]
  · have hyoung := Bool.eq_false_iff.mpr haged
    rw [Bool.eq_iff_iff, doomed_of_young hyoung, doomed_of_young hyoung, youngRows_pruned]
    refine and_congr_right fun _ => and_congr_right fun _ => and_congr_right fun _ => ?_
    refine ⟨fun h => h.trans_le (rank_filter_le _ m), fun hover => ?_⟩
    -- the rows that go are themselves over the cap, so the rank of `m` stays over it
    have hgone : ∀ a ∈ s.youngRows nowMs, named (s.prunedRows nowMs maxMessages) a →
        maxMessagesPerConversation < rank MessageRow.Ahead (s.youngRows nowMs) a := by
      intro a ha hnamed
      obtain ⟨hrowa, hyounga⟩ := mem_filter.mp ha
      have hdoomed := (mem_prunedRows ((named_iff_mem (fun x hx => (mem_prunedRows hx).1) hrowa).mp hnamed)).2
      exact ((doomed_of_young (by simpa using hyounga)).mp hdoomed).2.2.2
    refine lt_rank_filter ((s.messages.nodup.of_map _).filter _) MessageRow.ahead_refl MessageRow.ahead_trans ?_ hgone
      (mem_filter.mpr ⟨hrow, by simpa using hyoung⟩) ?_ hover
    · intro a ha b hb hab hba
      exact s.messages.row_unique (mem_of_mem_filter ha) (mem_of_mem_filter hb)
        (MessageRow.ahead_antisymm hab hba)
    · rw [Bool.eq_false_iff]
      exact fun h => hkept ((named_iff_mem (fun x hx => (mem_prunedRows hx).1) hrow).mp h)

/-! ### Pruning to the end -/

def doomedAt (s : Store) (nowMs : ℕ) (id : String) : Bool := (s.messages.find? id).any (s.doomed nowMs)

/-- The store after every doomed row is forgotten. -/
def expunged (s : Store) (nowMs : ℕ) : Store := s.forget (s.doomedAt nowMs)

theorem doomedAt_of_mem (hm : m ∈ s.messages.rows) : s.doomedAt nowMs m.id = s.doomed nowMs m := by
  unfold doomedAt
  rw [Table.mem_iff_find?.mp hm, Option.any_some]

theorem pruned_of_short (hshort : s.messages.rows.countP (s.doomed nowMs) ≤ maxMessages) :
    s.pruned nowMs maxMessages = s.expunged nowMs := by
  rw [pruned_eq]
  refine forget_congr fun m hm => ?_
  rw [doomedAt_of_mem hm, Bool.eq_iff_iff]
  exact (named_iff_mem (fun _ h => (mem_prunedRows h).1) hm).trans
    ⟨fun h => (mem_prunedRows h).2, mem_prunedRows_of_short hshort hm⟩

/-- What a pass has taken makes no difference to where the passes end. -/
theorem expunged_pruned (s : Store) (nowMs maxMessages : ℕ) :
    (s.pruned nowMs maxMessages).expunged nowMs = s.expunged nowMs := by
  unfold expunged
  nth_rewrite 1 [pruned_eq]
  rw [forget_forget]
  refine forget_congr fun m hm => ?_
  have hnamed : named (s.prunedRows nowMs maxMessages) m = true ↔ m ∈ s.prunedRows nowMs maxMessages :=
    named_iff_mem (fun _ h => (mem_prunedRows h).1) hm
  rw [doomedAt_of_mem hm]
  by_cases htaken : m ∈ s.prunedRows nowMs maxMessages
  · rw [(mem_prunedRows htaken).2]
    exact Bool.or_eq_true_iff.mpr (.inl (hnamed.mpr htaken))
  · have hkept : m ∈ (s.pruned nowMs maxMessages).messages.rows := mem_pruned_iff.mpr ⟨hm, htaken⟩
    have hnot : ((s.prunedRows nowMs maxMessages).map MessageRow.id).contains m.id = false :=
      Bool.eq_false_iff.mpr fun h => htaken (hnamed.mp h)
    rw [hnot, Bool.false_or, doomedAt_of_mem hkept, doomed_pruned hkept]

def doomedCount (s : Store) (nowMs : ℕ) : ℕ := s.messages.rows.countP (s.doomed nowMs)

/-- What a pass takes is doomed no more. -/
theorem doomedCount_pruned_lt (hsome : s.prunedRows nowMs maxMessages ≠ []) :
    (s.pruned nowMs maxMessages).doomedCount nowMs < s.doomedCount nowMs := by
  obtain ⟨m, hm⟩ := exists_mem_of_ne_nil _ hsome
  obtain ⟨hrow, hdoomed⟩ := mem_prunedRows hm
  have hrows : (s.pruned nowMs maxMessages).messages.rows =
      s.messages.rows.filter fun m => !named (s.prunedRows nowMs maxMessages) m := by
    rw [pruned_eq, rows_forget]
    rfl
  have hsame : (s.pruned nowMs maxMessages).doomedCount nowMs =
      (s.pruned nowMs maxMessages).messages.rows.countP (s.doomed nowMs) :=
    countP_congr fun x hx => by rw [doomed_pruned hx]
  rw [hsame, hrows, countP_filter]
  refine countP_lt_countP (fun x _ hx => (Bool.and_eq_true_iff.mp hx).1) hrow hdoomed ?_
  rw [(named_iff_mem (fun _ h => (mem_prunedRows h).1) hrow).mpr hm]
  simp

/-- Where no row is doomed a pass changes nothing. -/
theorem pruneHistory_of_none (h : s.doomedCount nowMs = 0) (maxMessages : ℕ) :
    s.pruneHistory nowMs maxMessages = (⟨0, 0⟩, s) := by
  have hnone : s.prunedRows nowMs maxMessages = [] := by
    rw [← length_eq_zero_iff, length_prunedRows]
    unfold doomedCount at h
    omega
  unfold pruneHistory
  dsimp only
  rw [hnone]
  rfl

theorem doomedCount_expunged (s : Store) (nowMs : ℕ) : (s.expunged nowMs).doomedCount nowMs = 0 := by
  have hall : s.pruned nowMs (s.messages.rows.countP (s.doomed nowMs)) = s.expunged nowMs := pruned_of_short le_rfl
  rw [← hall]
  unfold doomedCount
  rw [countP_eq_zero]
  intro m hm hdoomed
  obtain ⟨hrow, hkept⟩ := mem_pruned_iff.mp hm
  rw [doomed_pruned hm] at hdoomed
  exact hkept (mem_prunedRows_of_short le_rfl hrow hdoomed)

/-- `prune_history` repeated until a call deletes fewer than `batch` rows. -/
def pruneUntilShort (nowMs batch fuel : ℕ) (s : Store) : Option Store :=
  repeatUntil (fun s => (s.pruneHistory nowMs batch).2)
    (fun s => (s.pruneHistory nowMs batch).1.messagesDeleted < batch) fuel s

/-- The passes come to an end, in this store. -/
def PrunesTo (s : Store) (nowMs batch : ℕ) (t : Store) : Prop := ∃ fuel, pruneUntilShort nowMs batch fuel s = some t

/-- **Whatever the batch, the passes end where every doomed row is forgotten at once.** -/
theorem prunesTo_iff {t : Store} (hbatch : 1 ≤ batch) : s.PrunesTo nowMs batch t ↔ t = s.expunged nowMs := by
  have hcount : ∀ u : Store, (u.pruneHistory nowMs batch).1.messagesDeleted = min batch (u.doomedCount nowMs) :=
    fun u => (messagesDeleted_pruneHistory u nowMs batch).trans (length_prunedRows u nowMs batch)
  refine repeatUntil_iff (fun u : Store => u.expunged nowMs) (fun u => u.doomedCount nowMs) (fun u hlast => ?_)
    fun u hlong => ⟨expunged_pruned u nowMs batch, doomedCount_pruned_lt fun hnone => ?_⟩
  · rw [decide_eq_true_eq, hcount] at hlast
    exact pruned_of_short (by unfold doomedCount at hlast; omega)
  · rw [messagesDeleted_pruneHistory, hnone] at hlong
    simp at hlong
    omega

theorem resolved_of_doomed (h : s.doomed nowMs m) : m.resolved ∧ m.heldSince < nowMs - retentionSafetyWindowMs := by
  have hlimits := expiredBefore_le_keepAfter nowMs
  simp only [doomed, Bool.and_eq_true, Bool.or_eq_true, decide_eq_true_eq] at h
  refine ⟨h.1, satSubI64_asI64_le (by unfold retentionSafetyWindowMs; omega) ?_⟩
  change m.heldSince < keepAfter nowMs
  omega

end Store

/-! ### Batches -/

/-- The passes end where one unbounded call does, a further call changes nothing, and none takes a row unresolved or
in the safety window. -/
structure PrunesInBatches (s : Store) (nowMs batch : ℕ) : Prop where
  ends : ∃ t, s.PrunesTo nowMs batch t ∧ (∀ t', s.PrunesTo nowMs batch t' → t' = t) ∧
    (∀ budget, s.messages.rows.length ≤ budget → (s.pruneHistory nowMs budget).2 = t) ∧
    ∀ budget, t.pruneHistory nowMs budget = (⟨0, 0⟩, t)
  keeps : ∀ budget, ∀ m ∈ s.messages.rows, m ∉ (s.pruneHistory nowMs budget).2.messages.rows →
    m.status ≠ .pending ∧ m.status ≠ .unknown ∧ m.heldSince < nowMs - retentionSafetyWindowMs

/-- **Retention does not depend on the size of its batches.** -/
theorem retention_in_batches (s : Store) (nowMs batch : ℕ) (hbatch : 1 ≤ batch) : PrunesInBatches s nowMs batch := by
  refine ⟨⟨s.expunged nowMs, (Store.prunesTo_iff hbatch).mpr rfl, fun t' => (Store.prunesTo_iff hbatch).mp, ?_, ?_⟩, ?_⟩
  · exact fun budget hbudget => Store.pruned_of_short (countP_le_length.trans hbudget)
  · exact pruneHistory_of_none (s.doomedCount_expunged nowMs)
  · intro budget m hm hgone
    have htaken : m ∈ s.prunedRows nowMs budget := by
      by_contra hkept
      exact hgone (mem_pruned_iff.mpr ⟨hm, hkept⟩)
    obtain ⟨hresolved, hheld⟩ := Store.resolved_of_doomed (Store.mem_prunedRows htaken).2
    simp only [MessageRow.resolved, Bool.and_eq_true, decide_eq_true_eq] at hresolved
    exact ⟨hresolved.1, hresolved.2, hheld⟩

theorem retention_row_by_row : 1 ≤ 1 ∧ PrunesInBatches timedStore (10 ^ 13) 1 :=
  ⟨le_rfl, retention_in_batches timedStore (10 ^ 13) 1 le_rfl⟩

/-! ### The single windowed scan -/

namespace Store

variable (s : Store) (nowMs maxMessages : ℕ)

/-- What the single scan looks for: a resolved row out of the safety window, past the retention or its conversation's
cap. -/
def windowed (m : MessageRow) : Bool :=
  m.resolved && m.heldSince < nowMs - retentionSafetyWindowMs &&
    (m.heldSince < nowMs - messageRetentionMs || maxMessagesPerConversation < s.recency m)

/-- The rows the single scan takes: the oldest of those. -/
def windowedRows (maxMessages : ℕ) : List MessageRow :=
  ((s.messages.rows.filter (s.windowed nowMs)).insertionSort fun a b => a.heldSince ≤ b.heldSince).take maxMessages

/-- Past the age limit of the pass, or past its safety limit and the cap among the rows that the age rule leaves. -/
def PastLimits (m : MessageRow) : Prop :=
  m.heldSince < expiredBefore nowMs ∨
    (m.heldSince < keepAfter nowMs ∧ maxMessagesPerConversation < rank MessageRow.Ahead (s.youngRows nowMs) m)
  deriving Decidable

theorem doomed_eq (m : MessageRow) : s.doomed nowMs m = (s.windowed nowMs m && decide (s.PastLimits nowMs m)) := by
  have hrank : rank MessageRow.Ahead (s.youngRows nowMs) m ≤ s.recency m := by
    rw [recency_eq_rank]
    exact rank_filter_le _ m
  rw [Bool.eq_iff_iff]
  constructor
  · intro h
    obtain ⟨hresolved, hheld⟩ := resolved_of_doomed h
    have hpast : s.PastLimits nowMs m := by
      simpa [doomed, hresolved, PastLimits] using h
    have hrule : m.heldSince < nowMs - messageRetentionMs ∨ maxMessagesPerConversation < s.recency m :=
      hpast.imp (satSubI64_asI64_le (by unfold messageRetentionMs; omega)) fun h => h.2.trans_le hrank
    simp [windowed, hresolved, hheld, hrule, hpast]
  · intro h
    simp only [windowed, Bool.and_eq_true, decide_eq_true_eq] at h
    simpa [doomed, h.1.1.1, PastLimits] using h.2

theorem prunedRows_eq_windowed : s.prunedRows nowMs maxMessages =
    (((s.messages.rows.filter (s.windowed nowMs)).insertionSort fun a b => a.heldSince ≤ b.heldSince).filter
      fun m => s.PastLimits nowMs m).take maxMessages := by
  rw [prunedRows_eq, ← insertionSort_filter, filter_filter]
  refine congrArg _ (congrArg _ (filter_congr fun m _ => ?_))
  rw [doomed_eq, Bool.and_comm]

end Store

/-- **One pass is the single windowed scan iff** every row it takes is past the age limit, or past the cap
among the rows the age rule leaves. -/
theorem windowed_scan_iff (s : Store) (nowMs maxMessages : ℕ) : (∀ m ∈ s.messages.rows,
      m ∉ (s.pruneHistory nowMs maxMessages).2.messages.rows ↔ m ∈ s.windowedRows nowMs maxMessages) ↔
      ∀ m ∈ s.windowedRows nowMs maxMessages, s.PastLimits nowMs m := by
  have hgone : ∀ m ∈ s.messages.rows,
      (m ∉ (s.pruneHistory nowMs maxMessages).2.messages.rows ↔ m ∈ s.prunedRows nowMs maxMessages) := fun m hm =>
    (not_congr (mem_pruned_iff.trans (and_iff_right hm))).trans not_not
  have hiff := take_filter_iff (fun m => decide (s.PastLimits nowMs m))
    ((s.messages.rows.filter (s.windowed nowMs)).insertionSort fun a b => a.heldSince ≤ b.heldSince) maxMessages
  rw [← prunedRows_eq_windowed] at hiff
  simp only [decide_eq_true_eq] at hiff
  constructor
  · intro h m hm
    have hrow : m ∈ s.messages.rows :=
      mem_of_mem_filter ((mem_insertionSort _).mp (mem_of_mem_take hm))
    have htaken := (hgone m hrow).mp ((h m hrow).mpr hm)
    rw [prunedRows_eq_windowed] at htaken
    simpa using (mem_filter.mp (mem_of_mem_take htaken)).2
  · intro h m hm
    rw [hgone m hm, hiff.mpr h]
    rfl

def crowdRow (i : ℕ) : MessageRow :=
  { MessageRow.ofText (String.ofList (List.replicate i 'm')) "account" "conversation" .incoming "sender" (5000 - i) "hi"
      .delivered with
    storedAt := some (if i = 0 then 0 else 1000000000 + i) }

theorem nodup_crowd (n : ℕ) : (((List.range n).map crowdRow).map MessageRow.id).Nodup := by
  rw [map_map]
  refine nodup_range.map fun i j h => ?_
  simpa [crowdRow, MessageRow.ofText] using congrArg (fun id : String => id.toList.length) h

/-- A conversation of so many rows. -/
def crowd (n : ℕ) : Store := { Store.empty with messages := ⟨(List.range n).map crowdRow, nodup_crowd n⟩ }

def hundredDays : ℕ := 8640000000

theorem rows_crowd (n : ℕ) : (crowd n).messages.rows = (List.range n).map crowdRow := rfl

theorem heldSince_crowdRow (i : ℕ) : (crowdRow i).heldSince = if i = 0 then 0 else 1000000000 + (i : ℤ) := rfl

theorem length_youngRows_crowd (n : ℕ) : ((crowd (n + 1)).youngRows hundredDays).length ≤ n := by
  have haged : (crowdRow 0).aged (expiredBefore hundredDays) = true := by decide
  unfold youngRows
  rw [rows_crowd, range_succ_eq_map, map_cons, filter_cons_of_neg (by simp [haged])]
  refine (length_filter_le _ _).trans ?_
  simp

theorem recency_crowd (n : ℕ) : (crowd (n + 1)).recency (crowdRow n) = n + 1 := by
  have hall : ∀ x ∈ (crowd (n + 1)).messages.rows, x.Ahead (crowdRow n) := by
    intro x hx
    obtain ⟨i, hi, rfl⟩ := mem_map.mp hx
    have hi : i ≤ n := Nat.lt_succ_iff.mp (mem_range.mp hi)
    refine ⟨rfl, ?_⟩
    rcases hi.lt_or_eq with hlt | rfl
    · exact .inl (by simp only [crowdRow, MessageRow.ofText]; omega)
    · exact .inr ⟨rfl, Std.le_refl _⟩
  rw [Store.recency_eq_rank, rank, countP_eq_length.mpr fun x hx => decide_eq_true (hall x hx), rows_crowd,
    length_map, length_range]

theorem crowd_spared {n : ℕ} (hn : n = maxMessagesPerConversation) :
    crowdRow n ∈ (crowd (n + 1)).windowedRows hundredDays (n + 1) ∧
      crowdRow n ∈ ((crowd (n + 1)).pruneHistory hundredDays (n + 1)).2.messages.rows := by
  have hrow : crowdRow n ∈ (crowd (n + 1)).messages.rows :=
    mem_map.mpr ⟨n, mem_range.mpr (Nat.lt_succ_self n), rfl⟩
  have hheld : (crowdRow n).heldSince = 1000002000 := by rw [heldSince_crowdRow, hn]; decide
  constructor
  · have hwindowed : (crowd (n + 1)).windowed hundredDays (crowdRow n) = true := by
      unfold windowed
      rw [hheld, recency_crowd, hn]
      decide
    unfold windowedRows
    rw [take_of_length_le, mem_insertionSort, mem_filter]
    · exact ⟨hrow, hwindowed⟩
    · rw [length_insertionSort]
      refine (length_filter_le _ _).trans ?_
      rw [rows_crowd, length_map, length_range]
  · refine mem_pruned_iff.mpr ⟨hrow, fun htaken => ?_⟩
    have hdoomed := (Store.mem_prunedRows htaken).2
    have hyoung : (crowdRow n).aged (expiredBefore hundredDays) = false := by
      unfold MessageRow.aged
      rw [hheld, Bool.and_eq_false_iff]
      exact .inl (by decide)
    have hover : maxMessagesPerConversation < ((crowd (n + 1)).youngRows hundredDays).length :=
      ((Store.doomed_of_young hyoung).mp hdoomed).2.2.2.trans_le countP_le_length
    have hlength := length_youngRows_crowd n
    omega

/-- One row over the cap: the age rule takes the newest row first, and then the oldest is one of those the cap
keeps. -/
theorem age_rule_spares_oldest_row : crowdRow maxMessagesPerConversation ∈
        (crowd (maxMessagesPerConversation + 1)).windowedRows hundredDays (maxMessagesPerConversation + 1) ∧
      crowdRow maxMessagesPerConversation ∈ ((crowd (maxMessagesPerConversation + 1)).pruneHistory hundredDays
          (maxMessagesPerConversation + 1)).2.messages.rows :=
  crowd_spared rfl

end SignalConnector
