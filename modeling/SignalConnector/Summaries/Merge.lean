/-
# Folding two conversations into one

The peer fold and the memo fold move the rows of a shell into its canonical
conversation, take the later of the two endings and delete the shell. A peer
fold may leave a notice besides, a row the summaries are not told of.
-/
import SignalConnector.Summaries.Writers

namespace SignalConnector

open List Table

namespace Store

variable {s t u : Store} {shell canonical : ConversationRow}

/-- Where a row of this conversation is after the fold. -/
def foldedId (shell canonical : ConversationRow) (conversationId : String) : String :=
  if conversationId = shell.id then canonical.id else conversationId

/-- The ending of a conversation after the fold. -/
def foldedMark (shell canonical c : ConversationRow) : WithBot ℤ :=
  if c.id = canonical.id then max c.latest shell.latest else c.latest

/-- The shell has been folded: every row is where the fold puts it, every old row stands there or has a twin, and the
conversation ends where the later of the two ended. -/
structure FoldsInto (s t : Store) (shell canonical : ConversationRow) : Prop where
  rows : ∀ m' ∈ t.messages.rows, ∃ m ∈ s.messages.rows,
    m'.home = (foldedId shell canonical m.conversationId, m.accountId) ∧ m'.stamp = m.stamp
  held : ∀ m ∈ s.messages.rows, ∃ m' ∈ t.messages.rows,
    m'.home = (foldedId shell canonical m.conversationId, m.accountId) ∧ m'.stamp = m.stamp
  conversations : ∀ c' ∈ t.conversations.rows, ∃ c ∈ s.conversations.rows, c.id ≠ shell.id ∧ c'.home = c.home ∧
    c'.latest = foldedMark shell canonical c
  kept : ∀ c ∈ s.conversations.rows, c.id ≠ shell.id → ∃ c' ∈ t.conversations.rows, c'.home = c.home ∧
    c'.latest = foldedMark shell canonical c
  accounts : t.accounts = s.accounts

/-- The two conversations of a fold. -/
structure FoldPair (s : Store) (shell canonical : ConversationRow) : Prop where
  shell_mem : shell ∈ s.conversations.rows
  canonical_mem : canonical ∈ s.conversations.rows
  apart : shell.id ≠ canonical.id
  account : shell.accountId = canonical.accountId

theorem le_foldedMark (shell canonical c : ConversationRow) : c.latest ≤ foldedMark shell canonical c := by
  unfold foldedMark
  split
  · exact le_max_left _ _
  · exact le_rfl

theorem FoldsInto.summed (h : s.FoldsInto t shell canonical) (hpair : s.FoldPair shell canonical) (hs : s.Summed) :
    t.Summed := by
  constructor
  · intro m' hm'
    obtain ⟨m, hm, hhome, hstamp⟩ := h.rows m' hm'
    obtain ⟨c, hc, hcm, hle⟩ := hs.rows m hm
    obtain ⟨hcid, hcacc⟩ := Prod.mk.inj hcm
    rw [hhome, hstamp]
    by_cases hshell : m.conversationId = shell.id
    · -- a row of the shell: the shell covers it, and the canonical conversation takes the shell's ending
      have hsame : c = shell := s.conversations.row_unique hc hpair.shell_mem (hcid.trans hshell)
      subst hsame
      obtain ⟨c', hc', hhome', hmark⟩ := h.kept canonical hpair.canonical_mem hpair.apart.symm
      refine ⟨c', hc', ?_, ?_⟩
      · rw [hhome', foldedId, if_pos hshell]
        exact Prod.ext rfl (hpair.account.symm.trans hcacc)
      · rw [hmark, foldedMark, if_pos rfl]
        exact hle.trans (le_max_right _ _)
    · have hapart : c.id ≠ shell.id := fun h => hshell (hcid.symm.trans h)
      obtain ⟨c', hc', hhome', hmark⟩ := h.kept c hc hapart
      refine ⟨c', hc', ?_, ?_⟩
      · rw [hhome', hcm, foldedId, if_neg hshell]
        rfl
      · rw [hmark]
        exact hle.trans (le_foldedMark shell canonical c)
  · intro c' hc'
    obtain ⟨c, hc, -, hhome, hmark⟩ := h.conversations c' hc'
    obtain ⟨a, ha, hkey, hle⟩ := hs.endings c hc
    refine ⟨a, h.accounts ▸ ha, hkey.trans (Prod.mk.inj hhome).2.symm, ?_⟩
    rw [hmark, foldedMark]
    split
    · next hcanonical =>
      have hsame : c = canonical := s.conversations.row_unique hc hpair.canonical_mem hcanonical
      subst hsame
      obtain ⟨b, hb, hbkey, hble⟩ := hs.endings shell hpair.shell_mem
      have hab : b = a := s.accounts.row_unique hb ha (hbkey.trans (hpair.account.trans hkey.symm))
      exact max_le hle (hab ▸ hble)
    · exact hle

theorem FoldsInto.endingsAttained (h : s.FoldsInto t shell canonical) (hpair : s.FoldPair shell canonical)
    (hs : s.EndingsAttained) : t.EndingsAttained := by
  intro c' hc'
  obtain ⟨c, hc, hapart, hhome, hmark⟩ := h.conversations c' hc'
  have hreach : ∀ d ∈ s.conversations.rows, foldedId shell canonical d.id = c.id → d.accountId = c.accountId →
      d.latest = ⊥ ∨ ∃ m' ∈ t.messages.rows, m'.home = c'.home ∧ d.latest ≤ m'.stamp := by
    intro d hd hid hacc
    rcases hs d hd with hbot | ⟨m, hm, hmd, hle⟩
    · exact .inl hbot
    · obtain ⟨m', hm', hmhome, hstamp⟩ := h.held m hm
      obtain ⟨hmid, hmacc⟩ := Prod.mk.inj hmd
      refine .inr ⟨m', hm', ?_, hstamp ▸ hle⟩
      rw [hmhome, hhome, hmid, hid, hmacc, hacc]
      rfl
  have hown := hreach c hc (if_neg hapart) rfl
  rw [hmark, foldedMark]
  split
  · next hcanonical =>
    have hsame : c = canonical := s.conversations.row_unique hc hpair.canonical_mem hcanonical
    have hfolded := hreach shell hpair.shell_mem ((if_pos rfl).trans (congrArg ConversationRow.id hsame).symm)
      (hpair.account.trans (congrArg ConversationRow.accountId hsame).symm)
    rcases le_total c.latest shell.latest with hle | hle
    · rwa [max_eq_right hle]
    · rwa [max_eq_left hle]
  · exact hown

theorem FoldsInto.keeps (h : s.FoldsInto t shell canonical) (hpair : s.FoldPair shell canonical) : s.KeepsSums t :=
  ⟨fun _ => h.summed hpair, fun _ _ => h.endingsAttained hpair⟩

/-! ### Moving the rows -/

theorem mem_moveMessages {shellId canonicalId : String} {m' : MessageRow} :
    m' ∈ (s.moveMessages shellId canonicalId).messages.rows ↔
      ∃ m ∈ s.messages.rows, (if (m.conversationId = shellId && s.unmatched canonicalId m) = true then
        { m with conversationId := canonicalId } else m) = m' ∧ m'.conversationId ≠ shellId := by
  unfold moveMessages deleteMessages
  dsimp only
  rw [mem_delete, rows_updateMessages, mem_map, decide_eq_false_iff_not]
  constructor
  · rintro ⟨⟨m, hm, rfl⟩, hne⟩
    exact ⟨m, hm, rfl, hne⟩
  · rintro ⟨m, hm, rfl, hne⟩
    exact ⟨⟨m, hm, rfl⟩, hne⟩

/-- A row that moves or stays is where the fold puts it. -/
theorem moved_home {m' : MessageRow}
    (hm' : m' ∈ (s.moveMessages shell.id canonical.id).messages.rows) : ∃ m ∈ s.messages.rows,
      m'.home = (foldedId shell canonical m.conversationId, m.accountId) ∧ m'.stamp = m.stamp := by
  obtain ⟨m, hm, hmoved, hne⟩ := mem_moveMessages.mp hm'
  refine ⟨m, hm, ?_⟩
  split at hmoved
  · next hmove =>
    rw [Bool.and_eq_true, decide_eq_true_eq] at hmove
    subst hmoved
    rw [foldedId, if_pos hmove.1]
    exact ⟨rfl, rfl⟩
  · subst hmoved
    rw [foldedId, if_neg hne]
    exact ⟨rfl, rfl⟩

theorem moved_held (hapart : shell.id ≠ canonical.id) {m : MessageRow} (hm : m ∈ s.messages.rows) :
    ∃ m' ∈ (s.moveMessages shell.id canonical.id).messages.rows,
      m'.home = (foldedId shell canonical m.conversationId, m.accountId) ∧ m'.stamp = m.stamp := by
  by_cases hshell : m.conversationId = shell.id
  · rw [foldedId, if_pos hshell]
    by_cases hfree : s.unmatched canonical.id m = true
    · exact ⟨{ m with conversationId := canonical.id }, mem_moveMessages.mpr
        ⟨m, hm, if_pos (by simp [hshell, hfree]), fun h => hapart h.symm⟩, rfl, rfl⟩
    · simp only [unmatched, Bool.not_eq_true', Bool.not_eq_false, any_eq_true, Bool.and_eq_true,
        decide_eq_true_eq, MessageRow.sameIdentity] at hfree
      obtain ⟨twin, htwin, hconv, hacc, -, hsent, -⟩ := hfree
      have hne : twin.conversationId ≠ shell.id := fun h => hapart (h.symm.trans hconv)
      refine ⟨twin, mem_moveMessages.mpr ⟨twin, htwin, if_neg (by simp [hne]), hne⟩, Prod.ext hconv hacc, ?_⟩
      rw [MessageRow.stamp, hsent, MessageRow.stamp]
  · rw [foldedId, if_neg hshell]
    exact ⟨m, mem_moveMessages.mpr ⟨m, hm, if_neg (by simp [hshell]), hshell⟩, rfl, rfl⟩

theorem foldsInto_of_state {state : ConversationRow → ConversationRow} (hapart : shell.id ≠ canonical.id)
    (hmessages : t.messages = (s.moveMessages shell.id canonical.id).messages)
    (hconversations : t.conversations.rows =
      (s.conversations.rows.map fun c => if decide (c.id = canonical.id) then state c else c).filter
        fun c => !decide (c.id = shell.id))
    (haccounts : t.accounts = s.accounts) (hhome : ∀ c, (state c).home = c.home)
    (hlast : ∀ c, (state c).lastMessageAt = combine max c.lastMessageAt shell.lastMessageAt) :
    s.FoldsInto t shell canonical := by
  have hstate : ∀ c : ConversationRow, (if decide (c.id = canonical.id) then state c else c).home = c.home ∧
      (if decide (c.id = canonical.id) then state c else c).latest = foldedMark shell canonical c := by
    intro c
    unfold foldedMark
    by_cases hc : c.id = canonical.id
    · simp only [hc, decide_true, if_true]
      rw [ConversationRow.latest_eq, hlast, markOf_combine, ← ConversationRow.latest_eq, ← ConversationRow.latest_eq]
      exact ⟨hhome c, rfl⟩
    · simp [hc]
  refine ⟨fun m' hm' => moved_home (hmessages ▸ hm'), fun m hm => hmessages ▸ moved_held hapart hm, fun c' hc' => ?_,
    fun c hc hne => ?_, haccounts⟩
  · rw [hconversations] at hc'
    obtain ⟨hmem, hne⟩ := mem_filter.mp hc'
    obtain ⟨c, hc, rfl⟩ := mem_map.mp hmem
    refine ⟨c, hc, fun hid => ?_, hstate c⟩
    rw [Bool.not_eq_true', decide_eq_false_iff_not] at hne
    exact hne ((Prod.mk.inj (hstate c).1).1.trans hid)
  · rw [hconversations]
    refine ⟨_, mem_filter.mpr ⟨mem_map_of_mem hc, ?_⟩, hstate c⟩
    rw [Bool.not_eq_true', decide_eq_false_iff_not]
    exact fun hid => hne ((Prod.mk.inj (hstate c).1).1.symm.trans hid)

/-! ### The peer fold -/

/-- The fold without its notice. -/
theorem foldsInto_foldPeer (s : Store) (hapart : shell.id ≠ canonical.id) :
    s.FoldsInto (s.foldPeer shell canonical none) shell canonical :=
  foldsInto_of_state hapart rfl rfl rfl (fun _ => rfl) fun _ => rfl

theorem foldPeer_some (s : Store) (shell canonical : ConversationRow) (notice : MessageRow) :
    s.foldPeer shell canonical (some notice) =
      { s.foldPeer shell canonical none with
        messages := (s.foldPeer shell canonical none).messages.insertOrIgnore notice } := rfl

/-- The notice of a merge, if it leaves one that is not there yet, is no newer than both conversations. -/
def NoticeCovered (s : Store) (sha256 : String → String) (accountId : String) (shell canonical : ConversationRow)
    (now : ℕ) : Prop :=
  ∀ notice ∈ s.noticeOf sha256 accountId shell canonical now,
    ((s.moveMessages shell.id canonical.id).messages.find? notice.id).isSome ∨
      notice.stamp ≤ max canonical.latest shell.latest

section Peer

variable {sha256 : String → String} {accountId aci numberPeerKey : String} {now : ℕ}

/-- A notice that is minted stands in the canonical conversation at the time of the merge. -/
theorem noticeOf_spec {notice : MessageRow} (h : s.noticeOf sha256 accountId shell canonical now = some notice) :
    notice.home = (canonical.id, accountId) ∧ notice.stamp = asI64 now := by
  unfold noticeOf at h
  dsimp only at h
  split at h
  · cases h
    exact ⟨rfl, rfl⟩
  · cases h

theorem Summed.insertOrIgnore (hs : s.Summed) {row : MessageRow} (hrow : (s.messages.find? row.id).isSome ∨
    ∃ c ∈ s.conversations.rows, c.home = row.home ∧ row.stamp ≤ c.latest) :
    ({ s with messages := s.messages.insertOrIgnore row } : Store).Summed := by
  refine ⟨fun m hm => ?_, hs.endings⟩
  rcases hrow with htaken | ⟨c, hc, hhome, hle⟩
  · obtain ⟨taken, htaken⟩ := Option.isSome_iff_exists.mp htaken
    rw [insertOrIgnore_of_taken htaken] at hm
    exact hs.rows m hm
  · rcases mem_of_mem_insertOrIgnore hm with hm | rfl
    · exact hs.rows m hm
    · exact ⟨c, hc, hhome, hle⟩

theorem EndingsAttained.insertOrIgnore (hs : s.EndingsAttained) (row : MessageRow) :
    ({ s with messages := s.messages.insertOrIgnore row } : Store).EndingsAttained := by
  refine AttainedBy.mono hs (fun m hm => ?_) fun c hc => ⟨c, hc, rfl, le_rfl⟩
  exact ⟨m, mem_insertOrIgnore_of_mem hm, rfl, le_rfl⟩

theorem exists_folded (hpair : s.FoldPair shell canonical) : ∃ c ∈ (s.foldPeer shell canonical none).conversations.rows,
    c.home = canonical.home ∧ c.latest = max canonical.latest shell.latest := by
  obtain ⟨c, hc, hhome, hmark⟩ := (foldsInto_foldPeer s hpair.apart).kept canonical hpair.canonical_mem hpair.apart.symm
  exact ⟨c, hc, hhome, hmark.trans (if_pos rfl)⟩

/-- **A merge whose notice is covered keeps the summaries.** -/
theorem summed_foldPeer (hs : s.Summed) (hpair : s.FoldPair shell canonical) (haccount : canonical.accountId = accountId)
    (hnotice : s.NoticeCovered sha256 accountId shell canonical now) :
    (s.foldPeer shell canonical (s.noticeOf sha256 accountId shell canonical now)).Summed := by
  have hfold := (foldsInto_foldPeer s hpair.apart).summed hpair hs
  rcases hminted : s.noticeOf sha256 accountId shell canonical now with _ | notice
  · exact hfold
  · rw [foldPeer_some]
    refine hfold.insertOrIgnore ((hnotice notice hminted).imp id fun hle => ?_)
    obtain ⟨c, hc, hhome, hlatest⟩ := exists_folded hpair
    refine ⟨c, hc, ?_, hlatest ▸ hle⟩
    rw [hhome, (noticeOf_spec hminted).1, ← haccount]
    rfl

/-- **A merge whose notice is newer than both conversations leaves a row that is not covered.** -/
theorem not_summariesCover_foldPeer (hpair : s.FoldPair shell canonical)
    (hnotice : ¬s.NoticeCovered sha256 accountId shell canonical now) :
    ¬(s.foldPeer shell canonical (s.noticeOf sha256 accountId shell canonical now)).SummariesCover := by
  unfold NoticeCovered at hnotice
  push Not at hnotice
  obtain ⟨notice, hminted, hfree, hnewer⟩ := hnotice
  rw [Option.mem_def] at hminted
  rw [hminted, foldPeer_some]
  intro hcover
  have hnone : (s.moveMessages shell.id canonical.id).messages.find? notice.id = none := by simpa using hfree
  have hmem : notice ∈ ((s.moveMessages shell.id canonical.id).messages.insertOrIgnore notice).rows := by
    rw [rows_insertOrIgnore_of_free hnone]
    exact mem_append_right _ mem_cons_self
  obtain ⟨c, hc, hid, hle, -⟩ := hcover notice hmem
  obtain ⟨d, hd, hhome, hlatest⟩ := exists_folded hpair
  have hsame : c = d := (s.foldPeer shell canonical none).conversations.row_unique hc hd
    (hid.trans ((congrArg Prod.fst (noticeOf_spec hminted).1).trans (congrArg Prod.fst hhome).symm))
  rw [hsame, hlatest] at hle
  exact absurd hle (not_le.mpr hnewer)

/-- The notice of the merge this call makes, if it makes one, is covered. -/
def MergeCovered (s : Store) (sha256 : String → String) (accountId aci numberPeerKey : String) (now : ℕ) : Prop :=
  ∀ account ∈ s.accounts.find? accountId, aci ≠ numberPeerKey →
    ∀ pair ∈ s.peerPair account aci numberPeerKey, s.NoticeCovered sha256 accountId pair.1 pair.2 now

theorem foldPair_of_peerPair {account : AccountRow} (h : s.peerPair account aci numberPeerKey = some (shell, canonical)) :
    s.FoldPair shell canonical := by
  obtain ⟨hshell, hcanonical, hapart, haccount⟩ := peerPair_spec h
  exact ⟨hshell, hcanonical, hapart, haccount⟩

/-- What a merge leaves: nothing new, or a fold. -/
theorem mergePeerIdentity_cases (s : Store) (sha256 : String → String) (accountId aci numberPeerKey : String)
    (now : ℕ) : (∀ o u, s.mergePeerIdentity sha256 accountId aci numberPeerKey now = .ok (o, u) → u = s) ∧
        s.MergeCovered sha256 accountId aci numberPeerKey now ∨
      ∃ shell canonical o, s.FoldPair shell canonical ∧ canonical.accountId = accountId ∧
        s.mergePeerIdentity sha256 accountId aci numberPeerKey now =
          .ok (o, s.foldPeer shell canonical (s.noticeOf sha256 accountId shell canonical now)) ∧
        (s.MergeCovered sha256 accountId aci numberPeerKey now ↔
          s.NoticeCovered sha256 accountId shell canonical now) := by
  unfold mergePeerIdentity MergeCovered
  by_cases hsame : aci = numberPeerKey
  · refine .inl ⟨fun o u h => ?_, fun _ _ hne => absurd hsame hne⟩
    rw [if_pos hsame] at h
    cases h
    rfl
  rw [if_neg hsame]
  rcases haccount : s.accounts.find? accountId with _ | account
  · exact .inl ⟨fun o u h => (nomatch h), fun _ h => nomatch h⟩
  dsimp only
  rcases hpair : s.peerPair account aci numberPeerKey with _ | ⟨shell, canonical⟩
  · refine .inl ⟨fun o u h => ?_, ?_⟩
    · cases h
      rfl
    · rintro _ ⟨⟩ - pair hmem
      rw [hpair] at hmem
      cases hmem
  · have hfold := foldPair_of_peerPair hpair
    obtain ⟨c, hc, hhome, -⟩ := exists_folded hfold
    have hfound : (s.foldPeer shell canonical (s.noticeOf sha256 accountId shell canonical now)).conversations.find?
        canonical.id = some c := by
      have hfind : (s.foldPeer shell canonical none).conversations.find? canonical.id = some c :=
        Table.find?_eq_some.mpr ⟨hc, congrArg Prod.fst hhome⟩
      rcases s.noticeOf sha256 accountId shell canonical now with _ | notice
      · exact hfind
      · exact hfind
    have hacc : canonical.accountId = accountId := by
      rw [← hfold.account, (peerPair_shell hpair).1]
      exact key_of_find? haccount
    refine .inr ⟨shell, canonical, some ⟨c, shell.id, s.noticeOf sha256 accountId shell canonical now⟩, hfold, hacc,
      ?_, ?_⟩
    · dsimp only
      rw [hfound]
    · constructor
      · exact fun h => h account rfl hsame (shell, canonical) hpair
      · rintro h _ ⟨⟩ - pair hmem
        rw [hpair] at hmem
        cases hmem
        exact h

end Peer

/-! ### Conversations that come and are named -/

theorem keeps_updateConversations (p : ConversationRow → Bool) (f : ConversationRow → ConversationRow)
    (hf : ∀ c, (f c).id = c.id) (hhome : ∀ c, (f c).home = c.home) (hlatest : ∀ c, (f c).latest = c.latest) :
    s.KeepsSums (s.updateConversations p f hf) := by
  have hsame : ∀ c, (if p c then f c else c).home = c.home ∧ (if p c then f c else c).latest = c.latest := by
    intro c
    split
    · exact ⟨hhome c, hlatest c⟩
    · exact ⟨rfl, rfl⟩
  have hfrom : ∀ c' ∈ (s.updateConversations p f hf).conversations.rows, ∃ c ∈ s.conversations.rows,
      c'.home = c.home ∧ c'.latest = c.latest := by
    intro c' hc'
    obtain ⟨c, hc, rfl⟩ := mem_map.mp hc'
    exact ⟨c, hc, hsame c⟩
  have hto : ∀ c ∈ s.conversations.rows, ∃ c' ∈ (s.updateConversations p f hf).conversations.rows,
      c'.home = c.home ∧ c'.latest = c.latest := fun c hc => ⟨_, mem_map_of_mem hc, hsame c⟩
  refine ⟨fun _ hs => ⟨?_, ?_⟩, fun _ _ hs => ?_⟩
  · refine CoveredBy.tops_mono hs.rows fun c hc => ?_
    obtain ⟨c', hc', hhome, hlatest⟩ := hto c hc
    exact ⟨c', hc', hhome, hlatest.ge⟩
  · refine CoveredBy.rows_mono hs.endings fun c' hc' => ?_
    obtain ⟨c, hc, hhome, hlatest⟩ := hfrom c' hc'
    exact ⟨c, hc, congrArg Prod.snd hhome, hlatest.le⟩
  · refine AttainedBy.mono hs (fun m hm => ⟨m, hm, rfl, le_rfl⟩) fun c' hc' => ?_
    obtain ⟨c, hc, hhome, hlatest⟩ := hfrom c' hc'
    exact ⟨c, hc, hhome.symm, hlatest.le⟩

/-- A new conversation has no ending. -/
theorem keeps_insertConversation {row : ConversationRow} (hrow : row.latest = ⊥)
    (h : s.insertConversation row = .ok t) :
    t.conversations.rows = s.conversations.rows ++ [row] ∧ s.KeepsSums t := by
  unfold insertConversation at h
  split at h
  · cases h
  next hfree =>
  cases h
  push Not at hfree
  obtain ⟨hid, -, haccount⟩ := hfree
  have hrows := rows_insertOrIgnore_of_free (r := row) (by simpa using hid)
  refine ⟨hrows, fun _ hs => ⟨?_, ?_⟩, fun _ _ hs => ?_⟩
  · exact CoveredBy.tops_mono hs.rows fun c hc => ⟨c, mem_insertOrIgnore_of_mem hc, rfl, le_rfl⟩
  · intro c hc
    rcases mem_of_mem_insertOrIgnore hc with hc | rfl
    · exact hs.endings c hc
    · obtain ⟨a, ha⟩ := Option.ne_none_iff_exists'.mp (by simpa using haccount)
      obtain ⟨hmem, hkey⟩ := Table.find?_eq_some.mp ha
      exact ⟨a, hmem, hkey, hrow ▸ bot_le⟩
  · intro c hc
    rcases mem_of_mem_insertOrIgnore hc with hc | rfl
    · exact hs c hc
    · exact .inl hrow

theorem latest_ofPeer (id accountId : String) (kind : ConversationKind) (peerKey title : String) :
    (ConversationRow.ofPeer id accountId kind peerKey title).latest = ⊥ := rfl

variable {sha256 : String → String} {accountId : String}

theorem keeps_ensureConversation {peerKey title : String} {kind : ConversationKind} {c : ConversationRow}
    (h : s.ensureConversation sha256 accountId kind peerKey title = .ok (c, t)) : s.KeepsSums t := by
  unfold ensureConversation at h
  dsimp only at h
  split at h
  · split at h
    · cases h
      unfold setConversationTitle
      dsimp only
      split
      · exact .refl s
      · exact keeps_updateConversations _ _ _ (fun _ => rfl) fun _ => rfl
    · cases h
      exact .refl s
  · obtain ⟨u, hu, heq⟩ := exists_of_map_ok h
    cases heq
    exact (keeps_insertConversation (latest_ofPeer ..) hu).2

/-! ### The memo fold -/

theorem ensureCanonical_spec {aci title key : String}
    (hshell : s.conversationByPeer accountId .direct key = some shell) (hkey : aci ≠ key)
    (h : s.ensureCanonical sha256 accountId aci title = .ok (canonical, t)) :
    t.FoldPair shell canonical ∧ s.KeepsSums t := by
  obtain ⟨hmem, haccount, hpeer⟩ := conversationByPeer_spec hshell
  unfold ensureCanonical at h
  split at h
  · next found hfound =>
    cases h
    obtain ⟨hmem', haccount', hpeer'⟩ := conversationByPeer_spec hfound
    refine ⟨⟨hmem, hmem', fun hid => hkey ?_, haccount.trans haccount'.symm⟩, .refl s⟩
    rw [← hpeer', ← hpeer, s.conversations.row_unique hmem hmem' hid]
  · obtain ⟨u, hu, heq⟩ := exists_of_map_ok h
    cases heq
    obtain ⟨hrows, hkeeps⟩ := keeps_insertConversation (latest_ofPeer ..) hu
    have hnodup := t.conversations.nodup
    rw [hrows, map_append] at hnodup
    refine ⟨⟨hrows ▸ mem_append_left _ hmem, hrows ▸ mem_append_right _ mem_cons_self, fun hid => ?_,
      haccount⟩, hkeeps⟩
    exact (nodup_append.mp hnodup).2.2 _ (mem_map_of_mem hmem) _ mem_cons_self hid

theorem keeps_foldMemo (hpair : s.FoldPair shell canonical) : s.KeepsSums (s.foldMemo shell canonical) := by
  have hfold : ∀ (u : Store) (d : ConversationRow), d.id = canonical.id → u.FoldsInto
      (((u.moveMessages shell.id canonical.id).moveEvents shell.id canonical.id).updateConversations
        (fun c => c.id = canonical.id) (memoState shell) (id_memoState shell) |>.deleteShell shell.id) shell d := by
    intro u d hid
    rw [← hid]
    exact foldsInto_of_state (fun h => hpair.apart (h.trans hid)) rfl rfl rfl (fun _ => rfl) fun _ => rfl
  unfold foldMemo
  dsimp only
  split
  · -- the canonical row takes the shell's title first
    have htitled := keeps_updateConversations (s := s) (fun c => c.id = canonical.id)
      (fun c => { c with title := shell.title }) (fun _ => rfl) (fun _ => rfl) fun _ => rfl
    have hpair' : (s.updateConversations (fun c => c.id = canonical.id) (fun c => { c with title := shell.title })
        fun _ => rfl).FoldPair shell { canonical with title := shell.title } := by
      refine ⟨mem_map.mpr ⟨shell, hpair.shell_mem, if_neg (by simp [hpair.apart])⟩,
        mem_map.mpr ⟨canonical, hpair.canonical_mem, if_pos (by simp)⟩, hpair.apart, hpair.account⟩
    have hinto := hfold (s.updateConversations (fun c => c.id = canonical.id)
      (fun c => { c with title := shell.title }) fun _ => rfl) { canonical with title := shell.title } rfl
    exact htitled.trans (hinto.keeps hpair')
  · exact (hfold s canonical rfl).keeps hpair

/-- **The memo fold keeps the summaries.** -/
theorem keeps_normalizeMemoIdentity {o : Option ConversationRow}
    (h : s.normalizeMemoIdentity sha256 accountId = .ok (o, t)) : s.KeepsSums t := by
  unfold normalizeMemoIdentity at h
  split at h
  · cases h
  next account haccount =>
  split at h
  · cases h
    exact .refl s
  next aci shell hshell =>
  obtain ⟨⟨canonical, u⟩, hensure, h⟩ := exists_of_bind_ok h
  obtain ⟨-, rfl⟩ := Prod.mk.inj (Except.ok.inj h)
  have hid : account.id = accountId := key_of_find? haccount
  unfold memoShell at hshell
  obtain ⟨own, hown, hshell⟩ := Option.bind_eq_some_iff.mp hshell
  obtain ⟨found, hfound, heq⟩ := Option.map_eq_some_iff.mp hshell
  cases heq
  have hne := (Option.filter_eq_some_iff.mp hown).2
  rw [decide_eq_true_eq] at hne
  obtain ⟨hpair, hkeeps⟩ := ensureCanonical_spec (hid ▸ hfound) hne hensure
  exact hkeeps.trans (keeps_foldMemo hpair)

end Store

end SignalConnector
