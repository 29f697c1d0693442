/-
# The @ badge goes with the unread badge

A conversation should never show more mentions than unread messages, and
reading it should clear both. The deletes clamp the unread badge to the rows a
conversation still holds and leave the @ badge as it is, so they keep the two
in step exactly when the conversation still holds as many incoming rows as it
shows mentions.
-/
import SignalConnector.Badges.Sum

namespace SignalConnector

open List Store

/-- No conversation shows more mentions than unread messages. -/
def Store.MentionsPaired (s : Store) : Prop := ∀ c ∈ s.conversations.rows, c.unreadMentions ≤ c.unreadCount

theorem Store.mentionsPaired_iff {s : Store} : s.MentionsPaired ↔ s.counters.Paired := by
  constructor
  · intro h b hb
    obtain ⟨c, hc, rfl⟩ := mem_map.mp hb
    exact h c hc
  · exact fun h c hc => h c.badge (badge_mem hc)

namespace BadgeOp

variable {s : Store} {op : BadgeOp} {c : Counters}

/-- Every conversation a delete repairs keeps as many incoming rows as it shows mentions. -/
def KeepsMentioned (s : Store) (op : BadgeOp) : Prop :=
  ∀ gone touched, op.repair s = some (gone, touched) →
    ∀ c ∈ s.conversations.rows, touched.contains c.id → c.unreadMentions ≤ s.incomingKept gone c.id

/-- Reading a conversation leaves it without mentions. -/
def Clears (s' : Store) : BadgeOp → Prop
  | .clearConversationUnread accountId conversationId =>
    ∀ c ∈ s'.conversations.rows, c.id = conversationId → c.accountId = accountId → c.unreadMentions = 0
  | _ => True

instance (s : Store) (op : BadgeOp) : Decidable (op.KeepsMentioned s) :=
  decidable_of_iff (∀ p ∈ op.repair s, ∀ c ∈ s.conversations.rows, p.2.contains c.id →
    c.unreadMentions ≤ s.incomingKept p.1 c.id) ⟨fun h _ _ hrepair => h _ hrepair, fun h _ hrepair => h _ _ hrepair⟩

theorem keepsMentioned_of_none (h : op.repair s = none) : op.KeepsMentioned s := by
  intro gone touched hrepair
  rw [h] at hrepair
  cases hrepair

/-- A fold of two paired conversations leaves paired counts. -/
theorem pair_paired (hpaired : s.MentionsPaired) {shell canonical : ConversationRow} {unread mentions : ℕ}
    (h : op.pair s = some ((shell, canonical), unread, mentions)) (hshell : shell ∈ s.conversations.rows)
    (hcanonical : canonical ∈ s.conversations.rows) : mentions ≤ unread := by
  cases op with
  | normalizeMemoIdentity =>
    obtain ⟨found, -, heq⟩ := Option.map_eq_some_iff.mp h
    cases heq
    have hc := hpaired _ hcanonical
    have hs := hpaired _ hshell
    omega
  | mergePeerIdentity =>
    obtain ⟨found, -, heq⟩ := Option.map_eq_some_iff.mp h
    cases heq
    exact countP_le_length
  | _ => cases h

/-- **One operation keeps the badges paired iff its repair keeps what they mention.** -/
theorem Moves.paired_iff (h : Moves s op c) (hpaired : s.counters.Paired) : c.Paired ↔ op.KeepsMentioned s := by
  have hrows := mentionsPaired_iff.mpr hpaired
  cases h with
  | stay _ hrepair =>
    refine iff_of_true hpaired fun gone touched hsome row _ htouched => ?_
    rw [hrepair gone touched hsome] at htouched
    cases htouched
  | openAccount => exact iff_of_true hpaired (keepsMentioned_of_none rfl)
  | openConversation => exact iff_of_true (hpaired.openConversation _ _) (keepsMentioned_of_none rfl)
  | @land message _ _ incrementUnread =>
    refine iff_of_true (hpaired.land _ _ ?_) (keepsMentioned_of_none rfl)
    cases incrementUnread <;> cases message.mentionsSelf <;> decide
  | read => exact iff_of_true (hpaired.read _ _ _) (keepsMentioned_of_none rfl)
  | @repair _ gone touched _ hrepair =>
    refine (hpaired.clamp_iff _).trans ⟨fun h gone' touched' hsome row hrow htouched => ?_, fun h b hb n hn => ?_⟩
    · cases hrepair.symm.trans hsome
      exact h row.badge (Store.badge_mem hrow) _ (if_pos htouched)
    · obtain ⟨row, hrow, rfl⟩ := mem_map.mp hb
      unfold heldAfter at hn
      split at hn
      · next htouched => exact Option.some.inj hn ▸ h gone touched hrepair row hrow htouched
      · cases hn
  | drop => exact iff_of_true (hpaired.drop _ _) (keepsMentioned_of_none rfl)
  | @foldNew accountId id shell _ _ hshell =>
    exact iff_of_true ((hpaired.openConversation id accountId).fold _ _ (hrows shell hshell))
      (keepsMentioned_of_none rfl)
  | fold hpair hshell hcanonical _ _ hrepair =>
    exact iff_of_true (hpaired.fold _ _ (pair_paired hrows hpair hshell hcanonical))
      (keepsMentioned_of_none hrepair)

/-- Where the badges are paired, an empty unread badge leaves nothing to clear. -/
theorem clears_apply {sha256 : String → String} (hexist : s.AccountsExist) (hpaired : s.MentionsPaired)
    (op : BadgeOp) : op.Clears (op.apply sha256 s) := by
  cases op with
  | clearConversationUnread accountId conversationId =>
    intro row hrow hid haccount
    simp only [apply, Store.clearConversationUnread] at hrow
    split at hrow
    · next hprev =>
      cases hfind : s.conversations.rows.find? fun c =>
          decide (c.id = conversationId ∧ c.accountId = accountId) with
      | none => exact absurd (decide_eq_true ⟨hid, haccount⟩) (List.find?_eq_none.mp hfind row hrow)
      | some c =>
        have hnamed := find?_some hfind
        rw [decide_eq_true_eq] at hnamed
        have hmem := mem_of_find?_eq_some hfind
        rw [s.conversations.row_unique hrow hmem (hid.trans hnamed.1.symm)]
        rw [hfind] at hprev
        have hzero : c.unreadCount = 0 := hprev
        have hle := hpaired c hmem
        omega
    split at hrow
    · next hmissing =>
      have hhome := hexist row hrow
      rw [haccount, Option.isNone_iff_eq_none.mp hmissing] at hhome
      cases hhome
    · obtain ⟨c, -, rfl⟩ := mem_map.mp hrow
      split
      · rfl
      · next hnot =>
        rw [if_neg hnot] at hid haccount
        exact absurd (decide_eq_true ⟨hid, haccount⟩) hnot
  | _ => trivial

end BadgeOp

variable (sha256 : String → String)

/-- **The @ badge goes with the unread badge** iff every conversation repaired keeps as many incoming rows
as it shows mentions. -/
theorem mentions_paired_iff (s : Store) :
    (s.MentionsPaired → ∀ op : BadgeOp, ((op.apply sha256 s).MentionsPaired ↔ op.KeepsMentioned s)) ∧
    (s.AccountsExist → s.MentionsPaired → ∀ ops : List BadgeOp,
      Along (BadgeOp.apply sha256) (fun s op => op.KeepsMentioned s) s ops → Along (BadgeOp.apply sha256)
        (fun s op => (op.apply sha256 s).MentionsPaired ∧ op.Clears (op.apply sha256 s)) s ops) := by
  have hstep : ∀ (s : Store) (op : BadgeOp), s.MentionsPaired →
      ((op.apply sha256 s).MentionsPaired ↔ op.KeepsMentioned s) := by
    intro s op hpaired
    rw [mentionsPaired_iff]
    exact (BadgeOp.moves_apply s op).paired_iff (mentionsPaired_iff.mp hpaired)
  refine ⟨fun hpaired op => hstep s op hpaired, fun hexist hpaired ops halong => ?_⟩
  exact halong.imp (fun s => s.AccountsExist ∧ s.MentionsPaired)
    (fun s op hop hs => ⟨BadgeOp.accountsExist_apply op hs.1, (hstep s op hs.2).mpr hop⟩)
    (fun s op hop hs => ⟨(hstep s op hs.2).mpr hop, BadgeOp.clears_apply hs.1 hs.2 op⟩) ops s
    ⟨hexist, hpaired⟩

/-- An unread mention in a group, and retention 92 days later. -/
def forgottenMention : List BadgeOp :=
  let mention := messageRecordFromRow
    { MessageRow.ofText "m" "a" "a\x00group\x00g" .incoming "x" 1000 "@you" .delivered with mentionsSelf := true }
  [.upsertAccount "+15550100" none "default" "a",
    .ensureConversation "a" .group "g" "group",
    .insertMessage mention none none true 1000,
    .pruneHistory 8000000000 100]

/-- A mention that is read before the retention comes. -/
theorem readMention_paired :
    Along (BadgeOp.apply id) (fun s op => (op.apply id s).MentionsPaired ∧ op.Clears (op.apply id s)) Store.empty
      (forgottenMention.insertIdx 3 (.clearConversationUnread "a" "a\x00group\x00g")) :=
  (mentions_paired_iff id Store.empty).2 (fun _ h => absurd h not_mem_nil) (fun _ h => absurd h not_mem_nil) _
    (by decide +kernel)

/-- The unread badge is gone with the row, the mention stays, and reading the group does not clear it. -/
theorem mention_outlives_unread : (forgottenMention.foldl (BadgeOp.apply id) Store.empty).counters.badges.rows =
        [⟨"a\x00group\x00g", "a", 0, 1⟩] ∧
      ((forgottenMention ++ [BadgeOp.clearConversationUnread "a" "a\x00group\x00g"]).foldl (BadgeOp.apply id)
        Store.empty).counters.badges.rows = [⟨"a\x00group\x00g", "a", 0, 1⟩] ∧
      ¬(forgottenMention.foldl (BadgeOp.apply id) Store.empty).MentionsPaired := by
  have hrows : (forgottenMention.foldl (BadgeOp.apply id) Store.empty).counters.badges.rows =
      [⟨"a\x00group\x00g", "a", 0, 1⟩] := by decide
  refine ⟨hrows, by decide, fun h => ?_⟩
  exact absurd (mentionsPaired_iff.mp h _ (hrows ▸ mem_singleton_self _)) (by decide)

end SignalConnector
