/-
# The endings of conversations and accounts

A conversation's `last_message_at` is meant to be the stamp of its newest row,
an account's that of its newest conversation. Ten writers keep the two columns
by three methods: they raise them to a stamp, fold two of them into their
maximum, or compute them afresh from the rows. An absent ending lies below
every stamp (`markOf`).
-/
import SignalConnector.Lib.Cover
import SignalConnector.Store.IdentityFold
import SignalConnector.Store.Lists

namespace SignalConnector

open List

/-! ### Marks -/

/-- A column of stamps as a mark: an absent one lies below every stamp. -/
def markOf : Option ℤ → WithBot ℤ
  | none => ⊥
  | some stamp => (stamp : WithBot ℤ)

theorem markOf_bumpStamp (stamp : ℤ) : ∀ last, markOf (bumpStamp stamp last) = max (markOf last) stamp
  | none => by simp [bumpStamp, markOf]
  | some last => by
    by_cases h : last < stamp
    · simp [bumpStamp, markOf, h, h.le]
    · simp [bumpStamp, markOf, h, not_lt.mp h]

theorem markOf_combine : ∀ last last', markOf (combine max last last') = max (markOf last) (markOf last')
  | none, last' => by simp [combine, markOf]
  | some last, none => by simp [combine, markOf]
  | some last, some last' => by simp [combine, markOf]

theorem isNewer_iff (stamp : ℤ) : ∀ last, isNewer stamp last = true ↔ markOf last < stamp
  | none => by simp [isNewer, markOf]
  | some last => by simp [isNewer, markOf]

theorem le_markOf_max? {stamps : List ℤ} {stamp : ℤ} (h : stamp ∈ stamps) :
    (stamp : WithBot ℤ) ≤ markOf stamps.max? := by
  obtain ⟨newest, hnewest⟩ := Option.isSome_iff_exists.mp (isSome_max?_of_mem h)
  rw [hnewest]
  exact WithBot.coe_le_coe.mpr ((max?_eq_some_iff.mp hnewest).2 stamp h)

theorem markOf_max?_cases (stamps : List ℤ) : markOf stamps.max? = ⊥ ∨ ∃ stamp ∈ stamps, markOf stamps.max? = stamp := by
  rcases hnewest : stamps.max? with _ | newest
  · exact .inl rfl
  · exact .inr ⟨newest, max?_mem hnewest, rfl⟩

/-- The ending of an account, as a mark. -/
def AccountRow.latest (a : AccountRow) : WithBot ℤ := markOf a.lastMessageAt

theorem ConversationRow.latest_eq (c : ConversationRow) : c.latest = markOf c.lastMessageAt := by
  unfold ConversationRow.latest markOf
  rcases c.lastMessageAt <;> rfl

/-- The stamp of a row, as a mark. -/
def MessageRow.stamp (m : MessageRow) : WithBot ℤ := (m.sentAt : WithBot ℤ)

/-- The conversation and the account a row belongs to. -/
def MessageRow.home (m : MessageRow) : String × String := (m.conversationId, m.accountId)

def ConversationRow.home (c : ConversationRow) : String × String := (c.id, c.accountId)

namespace Store

/-! ### What the summaries owe -/

/-- Every row is in a conversation of its own account and no newer than its ending. -/
def RowsCovered (s : Store) : Prop :=
  CoveredBy s.messages.rows MessageRow.home MessageRow.stamp s.conversations.rows ConversationRow.home
    ConversationRow.latest

/-- Every conversation has its account and ends no later than it. -/
def EndingsCovered (s : Store) : Prop :=
  CoveredBy s.conversations.rows ConversationRow.accountId ConversationRow.latest s.accounts.rows AccountRow.id
    AccountRow.latest

/-- Every conversation that has an ending has a row at it. -/
def EndingsAttained (s : Store) : Prop :=
  AttainedBy s.messages.rows MessageRow.home MessageRow.stamp s.conversations.rows ConversationRow.home
    ConversationRow.latest

/-- Every row is no newer than its conversation's ending, which is no later than its account's. -/
def SummariesCover (s : Store) : Prop :=
  ∀ m ∈ s.messages.rows, ∃ c ∈ s.conversations.rows, c.id = m.conversationId ∧ m.stamp ≤ c.latest ∧
    ∃ a ∈ s.accounts.rows, a.id = m.accountId ∧ c.latest ≤ a.latest

/-- A conversation with a row newer than every row of another ends after it, and so is listed above it whatever the
ids. -/
def SortedByRows (s : Store) : Prop :=
  ∀ c ∈ s.conversations.rows, ∀ c' ∈ s.conversations.rows, ∀ m ∈ s.messages.rows, m.conversationId = c.id →
    (∀ m' ∈ s.messages.rows, m'.conversationId = c'.id → m'.sentAt < m.sentAt) → c'.latest < c.latest

variable {s t : Store}

theorem summariesCover (hrows : s.RowsCovered) (hendings : s.EndingsCovered) : s.SummariesCover := by
  intro m hm
  obtain ⟨c, hc, hhome, hstamp⟩ := hrows m hm
  obtain ⟨a, ha, haccount, hending⟩ := hendings c hc
  have hhome := Prod.mk.inj hhome
  exact ⟨c, hc, hhome.1, hstamp, a, ha, haccount.trans hhome.2, hending⟩

theorem sortedByRows (hrows : s.RowsCovered) (hattained : s.EndingsAttained) : s.SortedByRows := by
  intro c hc c' hc' m hm hin holder
  obtain ⟨d, hd, hhome, hstamp⟩ := hrows m hm
  have hsame : d = c := s.conversations.row_unique hd hc ((Prod.mk.inj hhome).1.trans hin)
  subst hsame
  rcases hattained c' hc' with hbot | ⟨m', hm', hhome', hmark⟩
  · rw [hbot]
    exact (WithBot.bot_lt_coe m.sentAt).trans_le hstamp
  · have hlt := holder m' hm' (Prod.mk.inj hhome').1
    exact hmark.trans_lt ((WithBot.coe_lt_coe.mpr hlt).trans_le hstamp)

/-! ### Raising a conversation to a row -/

/-- The conversation of this home is raised to the stamp. -/
def RaisesEnding (s t : Store) (home : String × String) (stamp : ℤ) : Prop :=
  ∃ f : ConversationRow → ConversationRow, t.conversations.rows = s.conversations.rows.map f ∧
    ∀ c ∈ s.conversations.rows, (f c).home = c.home ∧
      (f c).latest = if c.home = home then max c.latest (stamp : WithBot ℤ) else c.latest

/-- The account is raised to the stamp. -/
def RaisesAccount (s t : Store) (accountId : String) (stamp : ℤ) : Prop :=
  ∃ f : AccountRow → AccountRow, t.accounts.rows = s.accounts.rows.map f ∧
    ∀ a ∈ s.accounts.rows, (f a).id = a.id ∧
      (f a).latest = if a.id = accountId then max a.latest (stamp : WithBot ℤ) else a.latest

/-- A row stands at the stamp and its conversation has been raised to it; the other rows stand as they stood. -/
structure RaisesRow (s t : Store) (home : String × String) (stamp : ℤ) : Prop where
  there : ∃ c ∈ s.conversations.rows, c.home = home
  lands : ∃ m ∈ t.messages.rows, m.home = home ∧ m.stamp = stamp
  others : ∀ m' ∈ t.messages.rows, (∃ m ∈ s.messages.rows, m'.home = m.home ∧ m'.stamp = m.stamp) ∨
    m'.home = home ∧ m'.stamp = stamp
  ending : s.RaisesEnding t home stamp

/-- No row of a conversation has sunk unless another one stands where it stood. -/
def RowsHeld (s t : Store) : Prop :=
  ∀ m ∈ s.messages.rows, ∃ m' ∈ t.messages.rows, m'.home = m.home ∧ m.stamp ≤ m'.stamp

section Raise

variable {home : String × String} {stamp : ℤ}

theorem RaisesEnding.le (h : s.RaisesEnding t home stamp) : ∀ c ∈ s.conversations.rows,
    ∃ c' ∈ t.conversations.rows, c'.home = c.home ∧ c.latest ≤ c'.latest ∧ (c.home = home → stamp ≤ c'.latest) := by
  obtain ⟨f, hrows, hf⟩ := h
  intro c hc
  obtain ⟨hhome, hlatest⟩ := hf c hc
  refine ⟨f c, hrows ▸ mem_map_of_mem hc, hhome, ?_, fun hc => ?_⟩
  · rw [hlatest]
    split
    · exact le_max_left _ _
    · exact le_rfl
  · rw [hlatest, if_pos hc]
    exact le_max_right _ _

theorem RaisesRow.rowsCovered (h : s.RaisesRow t home stamp) (hs : s.RowsCovered) : t.RowsCovered := by
  intro m' hm'
  rcases h.others m' hm' with ⟨m, hm, hhome, hstamp⟩ | ⟨hhome, hstamp⟩
  · obtain ⟨c, hc, hcm, hle⟩ := hs m hm
    obtain ⟨c', hc', hkey, hraised, -⟩ := h.ending.le c hc
    exact ⟨c', hc', by rw [hkey, hcm, hhome], hstamp ▸ hle.trans hraised⟩
  · obtain ⟨c, hc, hcm⟩ := h.there
    obtain ⟨c', hc', hkey, -, hraised⟩ := h.ending.le c hc
    exact ⟨c', hc', by rw [hkey, hcm, hhome], hstamp ▸ hraised hcm⟩

theorem RaisesRow.endingsAttained (h : s.RaisesRow t home stamp) (hheld : s.RowsHeld t) (hs : s.EndingsAttained) :
    t.EndingsAttained := by
  obtain ⟨f, hrows, hf⟩ := h.ending
  intro c' hc'
  rw [hrows] at hc'
  obtain ⟨c, hc, rfl⟩ := mem_map.mp hc'
  obtain ⟨hhome, hlatest⟩ := hf c hc
  have hold : c.latest = ⊥ ∨ ∃ m ∈ t.messages.rows, m.home = (f c).home ∧ c.latest ≤ m.stamp := by
    rcases hs c hc with hbot | ⟨m, hm, hmc, hle⟩
    · exact .inl hbot
    · obtain ⟨m', hm', hmm, hle'⟩ := hheld m hm
      exact .inr ⟨m', hm', by rw [hmm, hmc, hhome], hle.trans hle'⟩
  by_cases hraised : c.home = home ∧ c.latest ≤ (stamp : WithBot ℤ)
  · obtain ⟨m, hm, hmc, hat⟩ := h.lands
    refine .inr ⟨m, hm, by rw [hmc, hhome, hraised.1], ?_⟩
    rw [hlatest, if_pos hraised.1, hat]
    exact max_le hraised.2 le_rfl
  · have hsame : (f c).latest = c.latest := by
      rw [hlatest]
      split
      · next hc => exact max_eq_left (not_le.mp fun hle => hraised ⟨hc, hle⟩).le
      · rfl
    rw [hsame]
    exact hold

theorem RaisesEnding.endingsCovered (h : s.RaisesEnding t home stamp) (haccount : s.RaisesAccount t home.2 stamp)
    (hs : s.EndingsCovered) : t.EndingsCovered := by
  obtain ⟨f, hrows, hf⟩ := h
  obtain ⟨g, haccounts, hg⟩ := haccount
  intro c' hc'
  rw [hrows] at hc'
  obtain ⟨c, hc, rfl⟩ := mem_map.mp hc'
  obtain ⟨hhome, hlatest⟩ := hf c hc
  obtain ⟨a, ha, hkey, hle⟩ := hs c hc
  obtain ⟨hid, hending⟩ := hg a ha
  refine ⟨g a, haccounts ▸ mem_map_of_mem ha, ?_, ?_⟩
  · rw [hid, hkey]
    exact (Prod.mk.inj hhome).2.symm
  · rw [hlatest, hending]
    split
    · next hc =>
      rw [if_pos (hkey.trans (congrArg Prod.snd hc))]
      exact max_le_max_right _ hle
    · split
      · exact hle.trans (le_max_left _ _)
      · exact hle

end Raise

end Store

end SignalConnector
