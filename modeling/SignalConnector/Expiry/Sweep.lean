/-
# Disappearing messages

A sweep takes the rows whose deadline has passed, a batch at a time: it burns a
view-once row in place, deletes any other, and repairs the summaries it has
disturbed. Whatever the batches, the sweeps add up to one: `Store.expire` says
what becomes of a store when a set of rows expires, two such steps are one with
both sets, and draining a store is `Store.expire` with every row that is due.
-/
import SignalConnector.Lib.Run
import SignalConnector.Store.Retention

namespace SignalConnector

open List Table

/-! ### Burning a row -/

namespace MessageRow

variable (m : MessageRow)

theorem viewOnce_burntRow : (burntRow m).viewOnce = m.viewOnce := by
  rcases hrich : m.rich with _ | rich | _ <;>
    simp [viewOnce, burntRow, erasedRich, hrich, JsonCell.ok, NormalizedRich.default]

theorem burntRow_burntRow : burntRow (burntRow m) = burntRow m := by
  rcases hrich : m.rich with _ | rich | _ <;> simp [burntRow, erasedRich, hrich, JsonCell.ok]

/-- What becomes of a row when it expires. -/
def expired : Option MessageRow := if m.viewOnce then some (burntRow m) else none

theorem expired_of_viewOnce {m : MessageRow} (h : m.viewOnce) : m.expired = some (burntRow m) := if_pos h

theorem expired_of_plain {m : MessageRow} (h : ¬m.viewOnce) : m.expired = none := if_neg h

/-- The row is in place without its contents, and no sweep takes it again. -/
structure Burnt (m m' : MessageRow) : Prop where
  kept : m' = { m with
    body := none
    bodyBytes := none
    bodyTruncated := false
    quoteSnapshot := none
    attachments := none
    attachmentLocators := none
    liveAttachmentLocators := none
    sticker := none
    rich := m'.rich
    isErased := true }
  rich : ∀ cell ∈ m'.rich, ∃ rich, cell = .parsed rich ∧ rich.previews = [] ∧ rich.mentions = [] ∧
    rich.poll = none ∧ rich.conversationMerge = none
  done : ∀ now, m'.timerOut now = false

theorem burnt_burntRow : Burnt m (burntRow m) := by
  refine ⟨rfl, fun cell hcell => ?_, fun now => by simp [timerOut, burntRow]⟩
  obtain ⟨cell', -, rfl⟩ := Option.mem_map.mp hcell
  exact ⟨_, rfl, rfl, rfl, rfl, rfl⟩

/-- What is found of a row that has expired. -/
def Fate (found : Option MessageRow) : Prop :=
  if m.viewOnce then ∃ m', found = some m' ∧ Burnt m m' else found = none

theorem fate_expired : m.Fate m.expired := by
  unfold Fate
  split
  · next hview => exact ⟨_, expired_of_viewOnce hview, burnt_burntRow m⟩
  · next hview => exact expired_of_plain hview

end MessageRow

namespace Store

variable {s t : Store}

/-! ### Rows that expire -/

/-- The rows of the store after those with these ids have expired. -/
def expireMessages (s : Store) (hit : String → Bool) : Store :=
  (s.updateMessages (fun m => hit m.id && m.viewOnce) burntRow id_burntRow).deleteMessages fun m =>
    hit m.id && !m.viewOnce

/-- The store after the rows with these ids have expired, with their conversations' summaries repaired and the
accounts recounted. -/
def expire (s : Store) (hit : String → Bool) : Store := (s.expireMessages hit).settled (s.touches hit)

variable {now : ℤ} (nowMs cap : ℕ) {m : MessageRow} (hit : String → Bool)

theorem rows_expireMessages : (s.expireMessages hit).messages.rows =
    s.messages.rows.filterMap fun m => if hit m.id then m.expired else some m := by
  change (s.messages.rows.map fun m => if hit m.id && m.viewOnce then burntRow m else m).filter _ = _
  induction s.messages.rows with
  | nil => rfl
  | cons m rows ih =>
    rw [map_cons, filter_cons, ih, filterMap_cons]
    by_cases hhit : hit m.id <;> by_cases hview : m.viewOnce <;>
      simp [hhit, hview, MessageRow.expired, MessageRow.viewOnce_burntRow, id_burntRow]

theorem messages_expire : (s.expire hit).messages = (s.expireMessages hit).messages := rfl

theorem find?_expireMessages (id : String) : (s.expireMessages hit).messages.find? id =
    (s.messages.find? id).bind fun m => if hit id then m.expired else some m := by
  change ((s.messages.update _ burntRow id_burntRow).delete _).find? id = _
  rw [find?_delete, find?_update]
  rcases hfind : s.messages.find? id with _ | m
  · rfl
  · obtain rfl : m.id = id := key_of_find? hfind
    by_cases hhit : hit m.id <;> by_cases hview : m.viewOnce <;>
      simp [hhit, hview, MessageRow.expired, MessageRow.viewOnce_burntRow, id_burntRow]

/-- The message has left with the rows that expired. -/
def leaves (s : Store) (hit : String → Bool) (id : String) : Bool :=
  (s.messages.find? id).any fun m => hit id && !m.viewOnce

theorem expireMessages_eq : s.expireMessages hit = { s with
      messages := (s.expireMessages hit).messages
      messageReceipts := s.messageReceipts.delete fun r => s.leaves hit r.messageId
      messageEdits := s.messageEdits.delete fun e => s.leaves hit e.messageId } := by
  have hgone : ∀ id, (((s.messages.update (fun m => hit m.id && m.viewOnce) burntRow id_burntRow).rows.filter
      fun m => hit m.id && !m.viewOnce).map MessageRow.id).contains id = s.leaves hit id := by
    intro id
    rw [contains_keys_filter, find?_update]
    unfold leaves
    rcases hfind : s.messages.find? id with _ | m
    · rfl
    · obtain rfl : m.id = id := key_of_find? hfind
      by_cases hhit : hit m.id <;> by_cases hview : m.viewOnce <;>
        simp [hhit, hview, MessageRow.viewOnce_burntRow, id_burntRow]
  unfold expireMessages deleteMessages updateMessages
  simp only [hgone]

/-- Only the ids of rows that are there count. -/
theorem expire_congr {p q : String → Bool} (h : ∀ m ∈ s.messages.rows, p m.id = q m.id) : s.expire p = s.expire q := by
  have hmessages : (s.expireMessages p).messages = (s.expireMessages q).messages := by
    refine eq_of_rows ?_
    rw [rows_expireMessages, rows_expireMessages]
    exact filterMap_congr fun m hm => by rw [h m hm]
  have hleaves : s.leaves p = s.leaves q := by
    funext id
    unfold leaves
    rcases hfind : s.messages.find? id with _ | m
    · rfl
    · obtain ⟨hm, rfl⟩ := Table.find?_eq_some.mp hfind
      rw [Option.any_some, Option.any_some, h m hm]
  unfold expire
  rw [expireMessages_eq p, expireMessages_eq q, hmessages, hleaves, touches_congr h]

/-! ### Expiring in two steps -/

theorem of_mem_expireMessages {hit : String → Bool} {m' : MessageRow}
    (h : m' ∈ (s.expireMessages hit).messages.rows) :
    ∃ m ∈ s.messages.rows, m.id = m'.id ∧ m.conversationId = m'.conversationId ∧ m.direction = m'.direction := by
  rw [rows_expireMessages, mem_filterMap] at h
  obtain ⟨m, hm, hm'⟩ := h
  refine ⟨m, hm, ?_⟩
  unfold MessageRow.expired at hm'
  split at hm'
  · split at hm'
    · cases hm'
      exact ⟨rfl, rfl, rfl⟩
    · cases hm'
  · cases hm'
    exact ⟨rfl, rfl, rfl⟩

theorem filter_rows_expireMessages {hit : String → Bool} {conversationId : String}
    (h : s.touches hit conversationId = false) :
    ((s.expireMessages hit).messages.rows.filter fun m => m.conversationId = conversationId) =
      s.messages.rows.filter fun m => m.conversationId = conversationId := by
  rw [rows_expireMessages]
  unfold touches at h
  rw [any_eq_false] at h
  generalize s.messages.rows = rows at h
  induction rows with
  | nil => rfl
  | cons m rows ih =>
    have ih := ih fun x hx => h x (mem_cons_of_mem _ hx)
    have hm := h m mem_cons_self
    rw [filterMap_cons]
    by_cases hhit : hit m.id
    · have hother : m.conversationId ≠ conversationId := by simpa [hhit] using hm
      rw [if_pos hhit, filter_cons_of_neg (by simpa using hother)]
      by_cases hview : m.viewOnce
      · rw [MessageRow.expired_of_viewOnce hview]
        exact (filter_cons_of_neg (by rw [decide_eq_true_eq]; exact hother)).trans ih
      · rw [MessageRow.expired_of_plain hview]
        exact ih
    · simp [hhit, filter_cons, ih]

/-- Rows only go. -/
theorem incomingCount_expireMessages_le (conversationId : String) :
    (s.expireMessages hit).incomingCount conversationId ≤ s.incomingCount conversationId := by
  unfold incomingCount
  rw [rows_expireMessages]
  induction s.messages.rows with
  | nil => exact le_rfl
  | cons m rows ih =>
    rw [filterMap_cons, countP_cons]
    by_cases hhit : hit m.id
    · rw [if_pos hhit]
      by_cases hview : m.viewOnce
      · rw [MessageRow.expired_of_viewOnce hview]
        change List.countP _ (burntRow m :: _) ≤ _
        rw [countP_cons]
        exact Nat.add_le_add_right ih _
      · rw [MessageRow.expired_of_plain hview]
        exact ih.trans (Nat.le_add_right _ _)
    · rw [if_neg hhit]
      change List.countP _ (m :: _) ≤ _
      rw [countP_cons]
      exact Nat.add_le_add_right ih _

variable (p r : String → Bool)

theorem rows_expire_expire : ((s.expire p).expire r).messages.rows =
    (s.expire fun id => p id || r id).messages.rows := by
  rw [messages_expire, messages_expire, rows_expireMessages, messages_expire, rows_expireMessages,
    rows_expireMessages, filterMap_filterMap]
  refine filterMap_congr fun m _ => ?_
  by_cases hp : p m.id <;> by_cases hview : m.viewOnce <;> by_cases hr : r m.id <;>
    simp [hp, hr, hview, MessageRow.expired, id_burntRow, MessageRow.viewOnce_burntRow, MessageRow.burntRow_burntRow]

theorem leaves_expire_expire (id : String) :
    (s.leaves p id || (s.expire p).leaves r id) = s.leaves (fun id => p id || r id) id := by
  unfold leaves
  rw [messages_expire, find?_expireMessages]
  rcases s.messages.find? id with _ | m
  · rfl
  · by_cases hp : p id <;> by_cases hview : m.viewOnce <;> by_cases hr : r id <;>
      simp [hp, hr, hview, MessageRow.expired, MessageRow.viewOnce_burntRow]

theorem touches_expire_expire (id : String) :
    (s.touches p id || (s.expire p).touches r id) = s.touches (fun id => p id || r id) id := by
  rw [Bool.eq_iff_iff, Bool.or_eq_true]
  simp only [touches, any_eq_true, Bool.and_eq_true, Bool.or_eq_true, decide_eq_true_eq]
  constructor
  · rintro (⟨m, hm, hp, hid⟩ | ⟨m', hm', hr, hid⟩)
    · exact ⟨m, hm, .inl hp, hid⟩
    · obtain ⟨m, hm, hsame, hconversation, -⟩ := of_mem_expireMessages hm'
      exact ⟨m, hm, .inr (by rwa [hsame]), hconversation.trans hid⟩
  · rintro ⟨m, hm, hhit, hid⟩
    by_cases hp : p m.id
    · exact .inl ⟨m, hm, hp, hid⟩
    · refine .inr ⟨m, ?_, hhit.resolve_left hp, hid⟩
      rw [messages_expire, rows_expireMessages, mem_filterMap]
      exact ⟨m, hm, if_neg hp⟩

/-- What hangs on a row leaves with it, in one step or in two. -/
theorem delete_leaves {R K : Type} {key : R → K} (t : Table key) (owner : R → String) (p r : String → Bool) :
    (t.delete fun x => s.leaves p (owner x)).delete (fun x => (s.expire p).leaves r (owner x)) =
      t.delete fun x => s.leaves (fun id => p id || r id) (owner x) := by
  rw [Table.delete_delete]
  exact congrArg t.delete (funext fun x => leaves_expire_expire p r (owner x))

theorem expireMessages_expireMessages :
    (s.expireMessages p).expireMessages r = s.expireMessages fun id => p id || r id := by
  have hmessages : ((s.expireMessages p).expireMessages r).messages =
      (s.expireMessages fun id => p id || r id).messages := eq_of_rows (rows_expire_expire p r)
  have hreceipts : ((s.expireMessages p).expireMessages r).messageReceipts =
      (s.expireMessages fun id => p id || r id).messageReceipts := by
    rw [expireMessages_eq r, expireMessages_eq fun id => p id || r id, expireMessages_eq p]
    exact delete_leaves _ _ p r
  have hedits : ((s.expireMessages p).expireMessages r).messageEdits =
      (s.expireMessages fun id => p id || r id).messageEdits := by
    rw [expireMessages_eq r, expireMessages_eq fun id => p id || r id, expireMessages_eq p]
    exact delete_leaves _ _ p r
  calc (s.expireMessages p).expireMessages r
      = { s with
          messages := ((s.expireMessages p).expireMessages r).messages
          messageReceipts := ((s.expireMessages p).expireMessages r).messageReceipts
          messageEdits := ((s.expireMessages p).expireMessages r).messageEdits } := rfl
    _ = s.expireMessages fun id => p id || r id := by
        rw [hmessages, hreceipts, hedits]
        rfl

/-- **Two sweeps add up.** What expires in two steps expires in one. -/
theorem expire_expire : (s.expire p).expire r = s.expire fun id => p id || r id := by
  have htouches : (fun id => s.touches p id || (s.expire p).touches r id) = s.touches fun id => p id || r id :=
    funext (touches_expire_expire p r)
  calc (s.expire p).expire r
      = ((s.expireMessages p).expireMessages r).settled fun id => s.touches p id || (s.expire p).touches r id :=
        settled_settled ((s.expireMessages p).expireMessages r) rfl rfl (incomingCount_expireMessages_le r)
          fun _ h => filter_rows_expireMessages h
    _ = s.expire fun id => p id || r id := by
        rw [htouches, expireMessages_expireMessages]
        rfl

/-! ### A sweep -/

/-- The store after `sweep_expired_messages`. -/
def swept (s : Store) (nowMs cap : ℕ) : Store := (s.sweepExpiredMessages nowMs cap).2

def sweptRows (s : Store) (nowMs cap : ℕ) : List MessageRow :=
  let burning := s.burningRows (asI64 nowMs) cap
  burning ++ s.lapsedRows (asI64 nowMs) (cap - burning.length)

theorem mem_burningRows {cap : ℕ} {m : MessageRow} (h : m ∈ s.burningRows now cap) :
    m ∈ s.messages.rows ∧ m.timerOut now ∧ m.viewOnce := by
  have hm := (mem_insertionSort _).mp (mem_of_mem_take h)
  rwa [mem_filter, Bool.and_eq_true] at hm

theorem mem_lapsedRows {cap : ℕ} {m : MessageRow} (h : m ∈ s.lapsedRows now cap) :
    m ∈ s.messages.rows ∧ m.timerOut now ∧ ¬m.viewOnce := by
  have hm := (mem_insertionSort _).mp (mem_of_mem_take h)
  rwa [mem_filter, Bool.and_eq_true, Bool.not_eq_true', ← Bool.not_eq_true] at hm

theorem mem_sweptRows {nowMs cap : ℕ} {m : MessageRow} (h : m ∈ s.sweptRows nowMs cap) :
    m ∈ s.messages.rows ∧ m.timerOut (asI64 nowMs) := by
  rcases mem_append.mp h with h | h
  · exact ⟨(mem_burningRows h).1, (mem_burningRows h).2.1⟩
  · exact ⟨(mem_lapsedRows h).1, (mem_lapsedRows h).2.1⟩

/-- A sweep lets the rows it takes expire. -/
theorem swept_eq : s.swept nowMs cap = s.expire ((s.sweptRows nowMs cap).map MessageRow.id).contains := by
  set burning := s.burningRows (asI64 nowMs) cap with hburning
  set gone := s.lapsedRows (asI64 nowMs) (cap - burning.length) with hgone
  have hall : s.sweptRows nowMs cap = burning ++ gone := rfl
  have hmem : ∀ m ∈ s.messages.rows, (((s.sweptRows nowMs cap).map MessageRow.id).contains m.id = true ↔
      m ∈ burning ∨ m ∈ gone) := fun m hm =>
    (named_iff_mem (fun _ h => (mem_sweptRows h).1) hm).trans (by rw [hall, mem_append])
  set hit := ((s.sweptRows nowMs cap).map MessageRow.id).contains
  have hburnt : s.updateMessages (named burning) burntRow id_burntRow =
      s.updateMessages (fun m => hit m.id && m.viewOnce) burntRow id_burntRow := by
    refine updateMessages_congr fun m hm => ?_
    have hiff : named burning m = (hit m.id && m.viewOnce) := by
      rw [Bool.eq_iff_iff, Bool.and_eq_true, hmem m hm, named_iff_mem (fun _ h => (mem_burningRows h).1) hm]
      constructor
      · exact fun h => ⟨.inl h, (mem_burningRows h).2.2⟩
      · rintro ⟨h | h, hview⟩
        · exact h
        · exact absurd hview (mem_lapsedRows h).2.2
    rw [hiff]
  have hleft : (s.updateMessages (named burning) burntRow id_burntRow).deleteRows gone = s.expireMessages hit := by
    rw [hburnt]
    refine deleteMessages_congr fun m' hm' => ?_
    obtain ⟨m, hm, rfl⟩ := mem_map.mp hm'
    have hiff : named gone m = (hit m.id && !m.viewOnce) := by
      rw [Bool.eq_iff_iff, Bool.and_eq_true, Bool.not_eq_true', ← Bool.not_eq_true, hmem m hm,
        named_iff_mem (fun _ h => (mem_lapsedRows h).1) hm]
      constructor
      · exact fun h => ⟨.inr h, (mem_lapsedRows h).2.2⟩
      · rintro ⟨h | h, hview⟩
        · exact absurd (mem_burningRows h).2.2 hview
        · exact h
    split
    · rw [MessageRow.viewOnce_burntRow]
      exact hiff
    · exact hiff
  have htouched : ∀ id, (touchedConversations (burning ++ gone)).contains id = s.touches hit id := by
    refine contains_touchedConversations fun m => ?_
    rw [mem_append]
    constructor
    · intro h
      have hm : m ∈ s.messages.rows := h.elim (fun h => (mem_burningRows h).1) fun h => (mem_lapsedRows h).1
      exact ⟨hm, (hmem m hm).mpr h⟩
    · exact fun h => (hmem m h.1).mp h.2
  have hlapsed : (s.updateMessages (named burning) burntRow id_burntRow).lapsedRows (asI64 nowMs)
      (cap - burning.length) = gone := lapsedRows_burnt s (asI64 nowMs) cap _
  change ((touchedConversations (burning ++ (s.updateMessages (named burning) burntRow id_burntRow).lapsedRows
      (asI64 nowMs) (cap - burning.length))).foldl repairSummary
    ((s.updateMessages (named burning) burntRow id_burntRow).deleteRows
      ((s.updateMessages (named burning) burntRow id_burntRow).lapsedRows (asI64 nowMs)
        (cap - burning.length)))).recountAccounts = _
  rw [hlapsed, hleft, foldl_repairSummary]
  simp only [htouched]
  rfl

/-- The rows of `s` that are changed or gone in `t`. -/
def affected (s t : Store) : List MessageRow := s.messages.rows.filter fun m => t.messages.find? m.id ≠ some m

theorem find?_swept (hm : m ∈ s.messages.rows) :
    (s.swept nowMs cap).messages.find? m.id = if m ∈ s.sweptRows nowMs cap then m.expired else some m := by
  rw [swept_eq, messages_expire, find?_expireMessages, mem_iff_find?.mp hm, Option.bind_some]
  exact if_congr (named_iff_mem (fun _ h => (mem_sweptRows h).1) hm) rfl rfl

theorem nodup_sweptRows : (s.sweptRows nowMs cap).Nodup := by
  have hrows : s.messages.rows.Nodup := s.messages.nodup.of_map _
  have hselected : ∀ (p : MessageRow → Bool) (le : MessageRow → MessageRow → Prop) [DecidableRel le] (n : ℕ),
      (((s.messages.rows.filter p).insertionSort le).take n).Nodup := fun p le _ n =>
    ((perm_insertionSort le _).nodup_iff.mpr (hrows.filter p)).sublist (take_sublist _ _)
  refine nodup_append.mpr ⟨hselected _ _ _, hselected _ _ _, ?_⟩
  rintro m hburning _ hlapsed rfl
  exact (mem_lapsedRows hlapsed).2.2 (mem_burningRows hburning).2.2

theorem length_sweptRows_le : (s.sweptRows nowMs cap).length ≤ cap := by
  have hburning : (s.burningRows (asI64 nowMs) cap).length ≤ cap := length_take_le _ _
  have hlapsed : (s.lapsedRows (asI64 nowMs) (cap - (s.burningRows (asI64 nowMs) cap).length)).length ≤
    cap - (s.burningRows (asI64 nowMs) cap).length := length_take_le _ _
  unfold sweptRows
  rw [length_append]
  omega

/-- A sweep that comes up short has taken every row that is due. -/
theorem mem_sweptRows_of_short {nowMs cap : ℕ} (hshort : (s.sweptRows nowMs cap).length < cap) {m : MessageRow}
    (hm : m ∈ s.messages.rows) (hdue : m.timerOut (asI64 nowMs)) : m ∈ s.sweptRows nowMs cap := by
  have hlengths : (s.burningRows (asI64 nowMs) cap).length +
      (s.lapsedRows (asI64 nowMs) (cap - (s.burningRows (asI64 nowMs) cap).length)).length < cap := by
    rwa [sweptRows, length_append] at hshort
  refine mem_append.mpr ?_
  by_cases hview : m.viewOnce
  · have hburning : (s.burningRows (asI64 nowMs) cap).length < cap := by omega
    exact .inl (mem_selected_of_short hburning hm (by simp [hdue, hview]))
  · have hlapsed : (s.lapsedRows (asI64 nowMs) (cap - (s.burningRows (asI64 nowMs) cap).length)).length <
      cap - (s.burningRows (asI64 nowMs) cap).length := by omega
    exact .inr (mem_selected_of_short hlapsed hm (by simp [hdue, hview]))

theorem affected_swept_perm : (s.affected (s.swept nowMs cap)).Perm (s.sweptRows nowMs cap) := by
  have hrows : s.messages.rows.Nodup := s.messages.nodup.of_map _
  refine (perm_ext_iff_of_nodup (hrows.filter _) (nodup_sweptRows nowMs cap)).mpr fun m => ?_
  rw [mem_filter, decide_eq_true_eq]
  constructor
  · rintro ⟨hm, hchanged⟩
    by_contra hnot
    exact hchanged (by rw [find?_swept nowMs cap hm, if_neg hnot])
  · intro h
    obtain ⟨hm, hdue⟩ := mem_sweptRows h
    refine ⟨hm, ?_⟩
    rw [find?_swept nowMs cap hm, if_pos h]
    by_cases hview : m.viewOnce
    · rw [MessageRow.expired_of_viewOnce hview]
      intro hsame
      rw [← Option.some.inj hsame, (MessageRow.burnt_burntRow m).done] at hdue
      cases hdue
    · rw [MessageRow.expired_of_plain hview]
      exact nofun

/-! ### Draining a store -/

def dueAt (s : Store) (now : ℤ) (id : String) : Bool := (s.messages.find? id).any fun m => m.timerOut now

/-- The store after every row that is due has expired. -/
def drained (s : Store) (nowMs : ℕ) : Store := s.expire (s.dueAt (asI64 nowMs))

theorem dueAt_of_mem (hm : m ∈ s.messages.rows) : s.dueAt now m.id = m.timerOut now := by
  unfold dueAt
  rw [mem_iff_find?.mp hm, Option.any_some]

theorem swept_of_short {nowMs cap : ℕ} (hshort : (s.sweptRows nowMs cap).length < cap) :
    s.swept nowMs cap = s.drained nowMs := by
  rw [swept_eq]
  refine expire_congr fun m hm => ?_
  rw [dueAt_of_mem hm, Bool.eq_iff_iff]
  exact (named_iff_mem (fun _ h => (mem_sweptRows h).1) hm).trans
    ⟨fun h => (mem_sweptRows h).2, mem_sweptRows_of_short hshort hm⟩

/-- What a sweep has taken makes no difference to where the sweeps end. -/
theorem drained_swept : (s.swept nowMs cap).drained nowMs = s.drained nowMs := by
  unfold drained
  nth_rewrite 1 [swept_eq]
  rw [expire_expire]
  refine expire_congr fun m hm => ?_
  have hnamed : named (s.sweptRows nowMs cap) m = true ↔ m ∈ s.sweptRows nowMs cap :=
    named_iff_mem (fun _ h => (mem_sweptRows h).1) hm
  rw [dueAt_of_mem hm]
  unfold dueAt
  rw [find?_swept nowMs cap hm]
  by_cases htaken : m ∈ s.sweptRows nowMs cap
  · rw [(mem_sweptRows htaken).2]
    exact Bool.or_eq_true_iff.mpr (.inl (hnamed.mpr htaken))
  · rw [if_neg htaken, Option.any_some]
    have hnot : ((s.sweptRows nowMs cap).map MessageRow.id).contains m.id = false :=
      Bool.eq_false_iff.mpr fun h => htaken (hnamed.mp h)
    rw [hnot, Bool.false_or]

def dueCount (s : Store) (now : ℤ) : ℕ := s.messages.rows.countP fun m => m.timerOut now

/-- What a sweep takes is due no more. -/
theorem dueCount_swept_lt {nowMs cap : ℕ} (hsome : s.sweptRows nowMs cap ≠ []) :
    (s.swept nowMs cap).dueCount (asI64 nowMs) < s.dueCount (asI64 nowMs) := by
  obtain ⟨m, hm⟩ := exists_mem_of_ne_nil _ hsome
  obtain ⟨hrow, hdue⟩ := mem_sweptRows hm
  have hhit : ((s.sweptRows nowMs cap).map MessageRow.id).contains m.id = true :=
    (named_iff_mem (fun _ h => (mem_sweptRows h).1) hrow).mpr hm
  have hquiet : ∀ m : MessageRow, (m.expired.map fun m => m.timerOut (asI64 nowMs)).getD false = false := by
    intro m
    by_cases hview : m.viewOnce
    · rw [MessageRow.expired_of_viewOnce hview]
      exact (MessageRow.burnt_burntRow m).done _
    · rw [MessageRow.expired_of_plain hview]
      rfl
  unfold dueCount
  rw [swept_eq, messages_expire, rows_expireMessages, countP_filterMap]
  refine countP_lt_countP (fun x _ hx => ?_) hrow hdue (by rw [if_pos hhit, hquiet]; exact Bool.false_ne_true)
  split at hx
  · rw [hquiet] at hx
    cases hx
  · exact hx

/-- The sweep repeated until a call affects fewer than `cap` rows. -/
def sweepUntilShort (fuel : ℕ) (s : Store) : Option Store :=
  repeatUntil (fun s => s.swept nowMs cap) (fun s => (s.affected (s.swept nowMs cap)).length < cap) fuel s

/-- The sweeps come to an end, in this store. -/
def DrainsTo (s : Store) (nowMs cap : ℕ) (t : Store) : Prop := ∃ fuel, sweepUntilShort nowMs cap fuel s = some t

/-- **Whatever the batch, the sweeps end where every due row has expired at once.** -/
theorem drainsTo_iff {nowMs cap : ℕ} (hcap : 1 ≤ cap) : s.DrainsTo nowMs cap t ↔ t = s.drained nowMs := by
  have hcount : ∀ u : Store, decide ((u.affected (u.swept nowMs cap)).length < cap) =
      decide ((u.sweptRows nowMs cap).length < cap) := fun u => by rw [(affected_swept_perm nowMs cap).length_eq]
  refine repeatUntil_iff (fun u : Store => u.drained nowMs) (fun u => u.dueCount (asI64 nowMs)) (fun u hlast => ?_)
    fun u hlong => ⟨drained_swept nowMs cap, dueCount_swept_lt fun hnone => ?_⟩
  · rw [hcount, decide_eq_true_eq] at hlast
    exact swept_of_short hlast
  · rw [hcount, hnone] at hlong
    simp at hlong
    omega

theorem find?_drained (hm : m ∈ s.messages.rows) :
    (s.drained nowMs).messages.find? m.id = if m.timerOut (asI64 nowMs) then m.expired else some m := by
  unfold drained
  rw [messages_expire, find?_expireMessages, dueAt_of_mem hm, mem_iff_find?.mp hm, Option.bind_some]

/-- What is left was there, and is either burnt or not due. -/
theorem of_mem_drained {nowMs : ℕ} {m' : MessageRow} (h : m' ∈ (s.drained nowMs).messages.rows) :
    (∀ now, m'.timerOut now = false) ∨ m' ∈ s.messages.rows ∧ m'.timerOut (asI64 nowMs) = false := by
  obtain ⟨m, hm, hid, -⟩ := of_mem_expireMessages h
  have hfind := mem_iff_find?.mp h
  rw [← hid, find?_drained nowMs hm] at hfind
  split at hfind
  · refine .inl ?_
    unfold MessageRow.expired at hfind
    split at hfind
    · rw [← Option.some.inj hfind]
      exact (MessageRow.burnt_burntRow m).done
    · cases hfind
  · next hnot =>
    rw [← Option.some.inj hfind]
    exact .inr ⟨hm, Bool.eq_false_iff.mpr hnot⟩

end Store

/-! ### Exactly once, exactly on time -/

/-- One call affects `cap` rows at most, all due, and burns those viewed once; and the sweeps end, whatever the
batch, in one store in which each due row has met its fate and no other has changed. -/
structure SweepsOnTime (s : Store) (nowMs cap : ℕ) : Prop where
  few : (s.affected (s.swept nowMs cap)).length ≤ cap
  due : ∀ m ∈ s.affected (s.swept nowMs cap), m.timerOut nowMs
  fate : ∀ m ∈ s.affected (s.swept nowMs cap), m.Fate ((s.swept nowMs cap).messages.find? m.id)
  old : ∀ m' ∈ (s.swept nowMs cap).messages.rows, (s.messages.find? m'.id).isSome
  drains : ∃ t, (∀ batch, 1 ≤ batch → s.DrainsTo nowMs batch t) ∧ (∀ m ∈ t.messages.rows, ¬m.timerOut nowMs) ∧
    ∀ m ∈ s.messages.rows, if m.timerOut nowMs then m.Fate (t.messages.find? m.id)
      else t.messages.find? m.id = some m

/-- **Disappearing messages disappear once and on time**, by any clock in the signed range. -/
theorem sweeps_on_time (s : Store) (nowMs cap : ℕ) (hclock : nowMs < 2 ^ 63) : SweepsOnTime s nowMs cap := by
  have hnow : asI64 nowMs = nowMs := if_pos hclock
  have htaken : ∀ m ∈ s.affected (s.swept nowMs cap), m ∈ s.sweptRows nowMs cap := fun m hm =>
    (Store.affected_swept_perm nowMs cap).mem_iff.mp hm
  refine ⟨?_, fun m hm => ?_, fun m hm => ?_, fun m' hm' => ?_, s.drained nowMs, fun batch hbatch =>
    (Store.drainsTo_iff hbatch).mpr rfl, fun m' hm' => ?_, fun m hm => ?_⟩
  · rw [(Store.affected_swept_perm nowMs cap).length_eq]
    exact Store.length_sweptRows_le nowMs cap
  · exact hnow ▸ (Store.mem_sweptRows (htaken m hm)).2
  · rw [Store.find?_swept nowMs cap (Store.mem_sweptRows (htaken m hm)).1, if_pos (htaken m hm)]
    exact m.fate_expired
  · rw [Store.swept_eq] at hm'
    obtain ⟨m, hm, hid, -⟩ := Store.of_mem_expireMessages hm'
    rw [← hid, mem_iff_find?.mp hm]
    rfl
  · rcases Store.of_mem_drained hm' with hdone | ⟨-, hnot⟩
    · rw [hdone]
      exact Bool.false_ne_true
    · rw [← hnow, hnot]
      exact Bool.false_ne_true
  · rw [Store.find?_drained nowMs hm, hnow]
    split
    · exact m.fate_expired
    · rfl

def timedText : MessageRow :=
  { MessageRow.ofText "text" "account" "conversation" .incoming "sender" 400 "hi" .delivered with
    expireAt := some 1000 }

/-- A picture to be viewed once, whose timer runs out with the text's. -/
def timedPicture : MessageRow :=
  { timedText with
    id := "picture"
    rich := some (.parsed { NormalizedRich.default with viewOnce := true }) }

def timedStore : Store :=
  { Store.empty with
    conversations := .single (.ofPeer "conversation" "account" .direct "+2" "Bo")
    messages := ⟨[timedText, timedPicture], by decide⟩ }

/-- Row by row: the first call burns the picture, and the calls end with the text gone. -/
theorem sweeps_on_time_row_by_row : 2000 < 2 ^ 63 ∧
    timedStore.affected (timedStore.swept 2000 1) = [timedPicture] ∧ SweepsOnTime timedStore 2000 1 :=
  ⟨by decide, by decide +kernel, sweeps_on_time timedStore 2000 1 (by decide)⟩

end SignalConnector
