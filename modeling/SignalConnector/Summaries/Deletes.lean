/-
# Deletes and their summaries

The retention pass, the sweep of disappearing messages and the delete of a
conversation compute the summaries of what they touched afresh: a touched
conversation ends at the newest row it still holds, and every account at the
newest of its conversations.
-/
import SignalConnector.Store.Retention
import SignalConnector.Summaries.Writers

namespace SignalConnector

open List Table

namespace Store

variable {s t u : Store}

theorem endingsCovered_recountAccounts (h : ∀ c ∈ u.conversations.rows, ∃ a ∈ u.accounts.rows, a.id = c.accountId) :
    u.recountAccounts.EndingsCovered := by
  intro c hc
  obtain ⟨a, ha, hkey⟩ := h c hc
  refine ⟨recountedRow u.conversations.rows a, ?_, hkey, ?_⟩
  · rw [rows_recountAccounts]
    exact mem_map_of_mem ha
  · have hle := latest_le_ending hc
    rwa [← hkey] at hle

/-- Rows have gone from the touched conversations alone; the summaries are as they were. -/
structure Thinned (s u : Store) (touched : String → Bool) : Prop where
  rows : ∀ m' ∈ u.messages.rows, ∃ m ∈ s.messages.rows, m'.home = m.home ∧ m'.stamp = m.stamp
  held : ∀ m ∈ s.messages.rows, touched m.conversationId = false →
    ∃ m' ∈ u.messages.rows, m'.home = m.home ∧ m'.stamp = m.stamp
  conversations : u.conversations = s.conversations
  accounts : u.accounts = s.accounts

section Thinned

variable {touched : String → Bool}

theorem Thinned.rowsCovered (h : s.Thinned u touched) (hs : s.RowsCovered) : u.RowsCovered := by
  unfold RowsCovered at hs ⊢
  rw [h.conversations]
  refine hs.rows_mono fun m' hm' => ?_
  obtain ⟨m, hm, hhome, hstamp⟩ := h.rows m' hm'
  exact ⟨m, hm, hhome, hstamp.le⟩

theorem settled_conversations (u : Store) (touched : String → Bool) : (u.settled touched).conversations.rows =
    u.conversations.rows.map fun c => if touched c.id then u.repairedRow c else c := rfl

theorem latest_repairedRow (u : Store) (c : ConversationRow) : (u.repairedRow c).latest =
    markOf ((u.messages.rows.filter fun m => m.conversationId = c.id).map MessageRow.sentAt).max? :=
  ConversationRow.latest_eq _

theorem home_repaired (u : Store) (c : ConversationRow) (b : Bool) : (if b then u.repairedRow c else c).home = c.home := by
  cases b <;> rfl

theorem Thinned.summed (h : s.Thinned u touched) (hs : s.Summed) : (u.settled touched).Summed := by
  constructor
  · intro m hm
    have hm : m ∈ u.messages.rows := hm
    obtain ⟨c, hc, hhome, hle⟩ := h.rowsCovered hs.rows m hm
    refine ⟨_, settled_conversations u touched ▸ mem_map_of_mem hc, (home_repaired u c _).trans hhome, ?_⟩
    split
    · rw [latest_repairedRow]
      refine le_markOf_max? (mem_map_of_mem (mem_filter.mpr ⟨hm, ?_⟩))
      exact decide_eq_true (congrArg Prod.fst hhome).symm
    · exact hle
  · refine endingsCovered_recountAccounts fun c' hc' => ?_
    obtain ⟨c, hc, rfl⟩ := mem_map.mp hc'
    obtain ⟨a, ha, hkey, -⟩ := hs.endings c (h.conversations ▸ hc)
    have hacc : (if touched c.id then u.repairedRow c else c).accountId = c.accountId :=
      congrArg Prod.snd (home_repaired u c _)
    exact ⟨a, h.accounts.symm ▸ ha, hkey.trans hacc.symm⟩

theorem Thinned.endingsAttained (h : s.Thinned u touched) (hrows : s.RowsCovered) (hs : s.EndingsAttained) :
    (u.settled touched).EndingsAttained := by
  intro c' hc'
  rw [settled_conversations] at hc'
  obtain ⟨c, hc, rfl⟩ := mem_map.mp hc'
  rw [home_repaired]
  by_cases htouched : touched c.id = true
  · rw [if_pos htouched, latest_repairedRow]
    refine (markOf_max?_cases _).imp id ?_
    rintro ⟨stamp, hstamp, hmark⟩
    obtain ⟨m, hm, rfl⟩ := mem_map.mp hstamp
    obtain ⟨hm, hconv⟩ := mem_filter.mp hm
    rw [decide_eq_true_eq] at hconv
    obtain ⟨d, hd, hhome, -⟩ := h.rowsCovered hrows m hm
    have hsame : d = c := u.conversations.row_unique hd hc ((congrArg Prod.fst hhome).trans hconv)
    exact ⟨m, hm, by rw [← hhome, hsame], hmark.le⟩
  · rw [if_neg htouched]
    refine (hs c (h.conversations ▸ hc)).imp id ?_
    rintro ⟨m, hm, hhome, hle⟩
    have hconv : m.conversationId = c.id := congrArg Prod.fst hhome
    obtain ⟨m', hm', hhome', hstamp⟩ := h.held m hm (by rw [hconv]; exact Bool.eq_false_iff.mpr htouched)
    exact ⟨m', hm', hhome'.trans hhome, hstamp ▸ hle⟩

theorem Thinned.keeps (h : s.Thinned u touched) : s.KeepsSums (u.settled touched) :=
  ⟨fun _ => h.summed, fun _ hs => h.endingsAttained hs.rows⟩

end Thinned

/-! ### The passes -/

theorem thinned_deleteRows (halike : s.Alike u) {gone : List MessageRow} {touched : String → Bool}
    (hgone : ∀ m ∈ gone, m ∈ u.messages.rows) (htouched : ∀ m ∈ gone, touched m.conversationId = true) :
    s.Thinned (u.deleteRows gone) touched := by
  refine ⟨fun m' hm' => ?_, fun m hm hnot => ?_, halike.conversations, halike.accounts⟩
  · exact mem_of_places halike.places (mem_delete.mp hm').1
  · obtain ⟨m', hm', hhome, hstamp⟩ := mem_of_places halike.places.symm hm
    refine ⟨m', mem_delete.mpr ⟨hm', Bool.eq_false_iff.mpr fun hnamed => ?_⟩, hhome.symm, hstamp.symm⟩
    obtain ⟨g, hg, hid⟩ := mem_map.mp (contains_iff_mem.mp hnamed)
    have hsame : g = m' := u.messages.row_unique (hgone g hg) hm' hid
    have hconv : m.conversationId = m'.conversationId := congrArg Prod.fst hhome
    rw [hconv, ← hsame, htouched g hg] at hnot
    cases hnot

theorem mem_touchedConversations {rows : List MessageRow} {m : MessageRow} (hm : m ∈ rows) :
    (touchedConversations rows).contains m.conversationId = true := by
  rw [contains_iff_mem, touchedConversations, mem_insertionSort, mem_dedup]
  exact mem_map_of_mem hm

theorem mem_of_mem_prunedRows {nowMs maxMessages : ℕ} {m : MessageRow} (h : m ∈ s.prunedRows nowMs maxMessages) :
    m ∈ s.messages.rows := by
  have hselected : ∀ {rows : List MessageRow} {le : MessageRow → MessageRow → Prop} [DecidableRel le] {n : ℕ}
      {p : MessageRow → Bool}, m ∈ ((rows.filter p).insertionSort le).take n → m ∈ rows := fun h =>
    (mem_filter.mp ((mem_insertionSort _).mp (mem_of_mem_take h))).1
  unfold prunedRows at h
  dsimp only at h
  split at h
  · rcases mem_append.mp h with h | h
    · exact hselected h
    · exact (mem_delete.mp (hselected h)).1
  · exact hselected h

theorem keeps_pruneHistory (s : Store) (nowMs maxMessages : ℕ) : s.KeepsSums (s.pruneHistory nowMs maxMessages).2 := by
  unfold pruneHistory
  dsimp only
  split
  · exact .refl s
  · rw [foldl_repairSummary]
    have hgone : ∀ m ∈ s.prunedRows nowMs maxMessages, m ∈ s.messages.rows := fun m => mem_of_mem_prunedRows
    exact (thinned_deleteRows (.refl s) hgone fun m hm => mem_touchedConversations hm).keeps

theorem keeps_sweepExpiredMessages (s : Store) (nowMs cap : ℕ) : s.KeepsSums (s.sweepExpiredMessages nowMs cap).2 := by
  unfold sweepExpiredMessages
  dsimp only
  rw [foldl_repairSummary]
  set burning := s.burningRows (asI64 nowMs) cap
  have halike := alike_updateMessages s (named burning) burntRow id_burntRow
    fun _ => rfl
  have hlapsed : ∀ (u : Store) (budget : ℕ), ∀ m ∈ u.lapsedRows (asI64 nowMs) budget, m ∈ u.messages.rows :=
    fun u budget m hm => (mem_filter.mp ((mem_insertionSort _).mp (mem_of_mem_take hm))).1
  exact (thinned_deleteRows halike (hlapsed _ (cap - burning.length))
    fun m hm => mem_touchedConversations (mem_append_right burning hm)).keeps

/-! ### A conversation is deleted -/

section DeleteConversation

variable {accountId conversationId : String} {boundAt : Option ℕ} {dropRow : Bool} {removed : Option ℕ}

theorem thinned_cleared (s : Store) (accountId conversationId : String) (boundAt : Option ℕ) :
    s.Thinned ((s.deleteMessages (clearedBy accountId conversationId boundAt)).deleteOrphanEvents accountId
      conversationId) fun id => id = conversationId := by
  refine ⟨fun m hm => ⟨m, (mem_delete.mp hm).1, rfl, rfl⟩, fun m hm hnot => ⟨m, ?_, rfl, rfl⟩, rfl, rfl⟩
  rw [decide_eq_false_iff_not] at hnot
  exact mem_delete.mpr ⟨hm, by simp [clearedBy, hnot]⟩

theorem dropConversation_spec (h : u.dropConversation accountId conversationId = .ok t) :
    (∀ m ∈ t.messages.rows, m ∈ u.messages.rows ∧ m.conversationId ≠ conversationId) ∧
      (∀ m ∈ u.messages.rows, m.conversationId ≠ conversationId → m ∈ t.messages.rows) ∧
      t.conversations = u.conversations.delete (fun c => c.id = conversationId ∧ c.accountId = accountId) ∧
      t.accounts = u.accounts := by
  unfold dropConversation at h
  dsimp only at h
  split at h
  · cases h
  next hgone =>
  cases h
  refine ⟨fun m hm => ⟨(mem_delete.mp hm).1, fun hconv => hgone (.inl ?_)⟩, fun m hm hne => ?_, rfl, rfl⟩
  · exact any_eq_true.mpr ⟨m, hm, decide_eq_true hconv⟩
  · exact mem_delete.mpr ⟨hm, decide_eq_false fun h => hne h.2⟩

theorem keeps_dropConversation (hthere : ∃ c ∈ u.conversations.rows, c.home = (conversationId, accountId))
    (h : u.dropConversation accountId conversationId = .ok t) :
    (u.RowsCovered → (∀ c ∈ u.conversations.rows, ∃ a ∈ u.accounts.rows, a.id = c.accountId) →
        t.recountAccounts.Summed) ∧ ((∀ c ∈ u.conversations.rows, c.id ≠ conversationId → c.latest = ⊥ ∨
        ∃ m ∈ u.messages.rows, m.home = c.home ∧ c.latest ≤ m.stamp) → t.recountAccounts.EndingsAttained) := by
  obtain ⟨hrows, hheld, hconversations, haccounts⟩ := dropConversation_spec h
  have hstay : ∀ c, c ∈ t.conversations.rows ↔ c ∈ u.conversations.rows ∧ c.id ≠ conversationId := by
    intro c
    rw [hconversations, mem_delete, decide_eq_false_iff_not]
    refine and_congr_right fun hc => ⟨fun hnot hid => hnot ⟨hid, ?_⟩, fun hne h => hne h.1⟩
    exact congrArg Prod.snd ((home_eq_iff hthere hc).mp hid)
  refine ⟨fun hs haccount => ⟨fun m hm => ?_, ?_⟩, fun hs c hc => ?_⟩
  · obtain ⟨hm, hne⟩ := hrows m hm
    obtain ⟨c, hc, hhome, hle⟩ := hs m hm
    exact ⟨c, (hstay c).mpr ⟨hc, fun hid => hne ((congrArg Prod.fst hhome).symm.trans hid)⟩, hhome, hle⟩
  · refine endingsCovered_recountAccounts fun c hc => ?_
    rw [haccounts]
    exact haccount c ((hstay c).mp hc).1
  · obtain ⟨hmem, hne⟩ := (hstay c).mp hc
    refine (hs c hmem hne).imp id ?_
    rintro ⟨m, hm, hhome, hle⟩
    exact ⟨m, hheld m hm fun h => hne ((congrArg Prod.fst hhome).symm.trans h), hhome, hle⟩

theorem keeps_deleteConversation
    (h : s.deleteConversation accountId conversationId boundAt dropRow = .ok (removed, t)) : s.KeepsSums t := by
  have hthin := s.thinned_cleared accountId conversationId boundAt
  unfold deleteConversation at h
  split at h
  · next hthere =>
    dsimp only at h
    split at h
    · obtain ⟨u, hdrop, heq⟩ := exists_of_map_ok h
      obtain ⟨-, rfl⟩ := Prod.mk.inj heq
      obtain ⟨c, hc, hid⟩ := any_eq_true.mp hthere
      rw [decide_eq_true_eq] at hid
      obtain ⟨hsummed, hattained⟩ := keeps_dropConversation (hthin.conversations ▸ ⟨c, hc, Prod.ext hid.1 hid.2⟩) hdrop
      refine ⟨fun _ hs => hsummed (hthin.rowsCovered hs.rows) fun d hd => ?_,
        fun _ _ hs => hattained fun d hd hne => ?_⟩
      · obtain ⟨a, ha, hkey, -⟩ := hs.endings d hd
        exact ⟨a, ha, hkey⟩
      · refine (hs d hd).imp id ?_
        rintro ⟨m, hm, hhome, hle⟩
        have hconv : m.conversationId = d.id := congrArg Prod.fst hhome
        obtain ⟨m', hm', hhome', hstamp⟩ := hthin.held m hm (decide_eq_false fun h => hne (hconv.symm.trans h))
        exact ⟨m', hm', hhome'.trans hhome, hstamp ▸ hle⟩
    · cases h
      exact hthin.keeps
  · cases h
    exact .refl s

end DeleteConversation

end Store

end SignalConnector
