/-
# The writers of rows and their summaries

A row that lands and a send that settles raise the endings to a stamp; a batch
of history raises the conversations row by row and computes the account's
ending at its end.
-/
import SignalConnector.Store.History
import SignalConnector.Store.RetryQueue
import SignalConnector.Summaries.Endings

namespace SignalConnector

open List Table

namespace Store

variable {s t u : Store}

/-- The rows are covered by their conversations and these by their accounts. -/
structure Summed (s : Store) : Prop where
  rows : s.RowsCovered
  endings : s.EndingsCovered

/-- The summaries stay above the rows if no notice is newer, and the endings are reached if no newest stamp goes. -/
structure KeepsSumsIf (noticeKept newestKept : Prop) (s t : Store) : Prop where
  summed : noticeKept → s.Summed → t.Summed
  attained : newestKept → s.Summed → s.EndingsAttained → t.EndingsAttained

/-- Summaries and endings are kept whatever happens. -/
abbrev KeepsSums (s t : Store) : Prop := KeepsSumsIf True True s t

section KeepsSums

variable {noticeKept newestKept : Prop}

theorem KeepsSumsIf.refl (s : Store) : KeepsSumsIf noticeKept newestKept s s := ⟨fun _ hs => hs, fun _ _ hs => hs⟩

theorem KeepsSums.trans (h : s.KeepsSums t) (h' : t.KeepsSums u) : s.KeepsSums u :=
  ⟨fun _ hs => h'.summed trivial (h.summed trivial hs),
    fun _ hs hattained => h'.attained trivial (h.summed trivial hs) (h.attained trivial hs hattained)⟩

theorem KeepsSumsIf.of_summed (h : s.Summed → KeepsSumsIf noticeKept newestKept s t) : KeepsSumsIf noticeKept newestKept s t :=
  ⟨fun hkept hs => (h hs).summed hkept hs, fun hkept hs => (h hs).attained hkept hs⟩

theorem RaisesRow.keepsIf {home : String × String} {stamp : ℤ} (h : s.RaisesRow t home stamp)
    (haccount : s.RaisesAccount t home.2 stamp) (hheld : newestKept → s.RowsHeld t) :
    KeepsSumsIf noticeKept newestKept s t :=
  ⟨fun _ hs => ⟨h.rowsCovered hs.rows, h.ending.endingsCovered haccount hs.endings⟩,
    fun hkept _ hattained => h.endingsAttained (hheld hkept) hattained⟩

end KeepsSums

/-! ### Writes beside the summaries -/

/-- Where a row stands. -/
def placeOf (m : MessageRow) : (String × String) × WithBot ℤ := (m.home, m.stamp)

/-- The rows stand where they stood, and conversations and accounts are as they were. -/
structure Alike (s t : Store) : Prop where
  places : t.messages.rows.map placeOf = s.messages.rows.map placeOf
  conversations : t.conversations = s.conversations
  accounts : t.accounts = s.accounts

theorem Alike.refl (s : Store) : s.Alike s := ⟨rfl, rfl, rfl⟩

theorem mem_of_places {rows rows' : List MessageRow} (h : rows'.map placeOf = rows.map placeOf) {m' : MessageRow}
    (hm' : m' ∈ rows') : ∃ m ∈ rows, m'.home = m.home ∧ m'.stamp = m.stamp := by
  have hplace : placeOf m' ∈ rows.map placeOf := h ▸ mem_map_of_mem hm'
  obtain ⟨m, hm, heq⟩ := mem_map.mp hplace
  exact ⟨m, hm, (Prod.mk.inj heq).1.symm, (Prod.mk.inj heq).2.symm⟩

theorem Alike.rowsCovered (h : s.Alike t) (hs : s.RowsCovered) : t.RowsCovered := by
  unfold RowsCovered at hs ⊢
  rw [h.conversations]
  refine hs.rows_mono fun m' hm' => ?_
  obtain ⟨m, hm, hhome, hstamp⟩ := mem_of_places h.places hm'
  exact ⟨m, hm, hhome, hstamp.le⟩

theorem Alike.endingsAttained (h : s.Alike t) (hs : s.EndingsAttained) : t.EndingsAttained := by
  unfold EndingsAttained at hs ⊢
  rw [h.conversations]
  refine hs.mono (fun m hm => ?_) fun c hc => ⟨c, hc, rfl, le_rfl⟩
  obtain ⟨m', hm', hhome, hstamp⟩ := mem_of_places h.places.symm hm
  exact ⟨m', hm', hhome.symm, hstamp.le⟩

theorem Alike.keeps (h : s.Alike t) : s.KeepsSums t := by
  refine ⟨fun _ hs => ⟨h.rowsCovered hs.rows, ?_⟩, fun _ _ => h.endingsAttained⟩
  have hendings := hs.endings
  unfold EndingsCovered at hendings ⊢
  rwa [h.conversations, h.accounts]

theorem alike_updateMessages (s : Store) (p : MessageRow → Bool) (f : MessageRow → MessageRow)
    (hf : ∀ m, (f m).id = m.id) (hplace : ∀ m, placeOf (f m) = placeOf m) : s.Alike (s.updateMessages p f hf) := by
  refine ⟨?_, rfl, rfl⟩
  rw [rows_updateMessages, map_map]
  refine map_congr_left fun m _ => ?_
  simp only [Function.comp_apply]
  split
  · exact hplace m
  · rfl

theorem alike_mergeAttachmentFacesIn (s : Store) (accountId messageId : String)
    (incoming : List NormalizedAttachment) : s.Alike (s.mergeAttachmentFacesIn accountId messageId incoming).2 := by
  unfold mergeAttachmentFacesIn
  split
  · exact .refl s
  split
  · exact .refl s
  split
  · dsimp only
    split
    · exact alike_updateMessages s _ _ _ fun _ => rfl
    · exact .refl s
  · exact .refl s

/-! ### Raising -/

variable {accountId conversationId : String} {home : String × String} {stamp : ℤ}

theorem home_eq_iff (hthere : ∃ c ∈ s.conversations.rows, c.home = home)
    {c : ConversationRow} (hc : c ∈ s.conversations.rows) : c.id = home.1 ↔ c.home = home := by
  obtain ⟨d, hd, rfl⟩ := hthere
  refine ⟨fun hid => ?_, fun h => congrArg Prod.fst h⟩
  rw [s.conversations.row_unique hc hd hid]

theorem raisesEnding_update {p : ConversationRow → Bool} {f : ConversationRow → ConversationRow}
    (ht : t.conversations.rows = s.conversations.rows.map fun c => if p c then f c else c)
    (hp : ∀ c ∈ s.conversations.rows, p c = true ↔ c.home = home) (hhome : ∀ c, (f c).home = c.home)
    (hlast : ∀ c, (f c).lastMessageAt = bumpStamp stamp c.lastMessageAt) : s.RaisesEnding t home stamp := by
  refine ⟨fun c => if p c then f c else c, ht, fun c hc => ?_⟩
  dsimp only
  by_cases hhit : p c = true
  · rw [if_pos hhit, if_pos ((hp c hc).mp hhit), ConversationRow.latest_eq, hlast, markOf_bumpStamp,
      ← ConversationRow.latest_eq]
    exact ⟨hhome c, rfl⟩
  · rw [if_neg hhit, if_neg fun h => hhit ((hp c hc).mpr h)]
    exact ⟨rfl, rfl⟩

theorem raisesAccount_update {f : AccountRow → AccountRow}
    (ht : t.accounts.rows = s.accounts.rows.map fun a => if decide (a.id = accountId) then f a else a)
    (hf : ∀ a, (f a).id = a.id) (hlast : ∀ a, (f a).lastMessageAt = bumpStamp stamp a.lastMessageAt) : s.RaisesAccount t accountId stamp := by
  refine ⟨_, ht, fun a _ => ?_⟩
  simp only [decide_eq_true_eq]
  by_cases hhit : a.id = accountId
  · rw [if_pos hhit, if_pos hhit, AccountRow.latest, hlast, markOf_bumpStamp]
    exact ⟨hf a, rfl⟩
  · rw [if_neg hhit, if_neg hhit]
    exact ⟨rfl, rfl⟩

/-! ### A row lands -/

/-- The conversation, if it is there, is the account's. -/
def OwnConversation (s : Store) (accountId conversationId : String) : Prop :=
  ∀ c ∈ s.conversations.rows, c.id = conversationId → c.accountId = accountId
  deriving Decidable

theorem exists_home (hown : s.OwnConversation accountId conversationId)
    (hthere : (s.conversations.find? conversationId).isSome) :
    ∃ c ∈ s.conversations.rows, c.home = (conversationId, accountId) := by
  obtain ⟨c, hc⟩ := Option.isSome_iff_exists.mp hthere
  obtain ⟨hmem, hid⟩ := Table.find?_eq_some.mp hc
  exact ⟨c, hmem, Prod.ext hid (hown c hmem hid)⟩

theorem lands_insertOrIgnore {row : MessageRow} (hfree : s.messages.find? row.id = none) :
    ∃ m ∈ (s.messages.insertOrIgnore row).rows, m.home = row.home ∧ m.stamp = row.stamp := by
  refine ⟨row, ?_, rfl, rfl⟩
  rw [rows_insertOrIgnore_of_free hfree]
  exact mem_append_right _ mem_cons_self

theorem others_insertOrIgnore {row : MessageRow} : ∀ m' ∈ (s.messages.insertOrIgnore row).rows,
    (∃ m ∈ s.messages.rows, m'.home = m.home ∧ m'.stamp = m.stamp) ∨ m'.home = row.home ∧ m'.stamp = row.stamp := by
  intro m' hm'
  rcases mem_of_mem_insertOrIgnore hm' with hm | rfl
  · exact .inl ⟨m', hm, rfl, rfl⟩
  · exact .inr ⟨rfl, rfl⟩

variable {message : MessageRecord} {clientRequestId preview : Option String} {incrementUnread landed : Bool}
  {storedAt : ℕ}

theorem insertMessage_cases (hown : s.OwnConversation message.accountId message.conversationId)
    (h : s.insertMessage message clientRequestId preview incrementUnread storedAt = .ok (landed, t)) :
    s.Alike t ∨ s.RaisesRow t (message.conversationId, message.accountId) (asI64 message.sentAt) ∧
      s.RaisesAccount t message.accountId (asI64 message.sentAt) ∧ s.RowsHeld t := by
  unfold insertMessage at h
  dsimp only at h
  split at h
  · cases h
    exact .inl (alike_mergeAttachmentFacesIn s _ _ _)
  · next hfree =>
    split at h
    · next hthere =>
      cases h
      have hhome := exists_home hown hthere.2
      have hnone : s.messages.find? message.id = none := by
        simpa [MessageRow.ofRecord] using (Bool.or_eq_false_iff.mp (Bool.eq_false_iff.mpr hfree)).1
      refine .inr ⟨⟨hhome, lands_insertOrIgnore hnone, others_insertOrIgnore, ?_⟩, ?_, fun m hm => ?_⟩
      · exact raisesEnding_update rfl (fun c hc => by rw [← home_eq_iff hhome hc, decide_eq_true_eq]) (fun _ => rfl)
          fun _ => rfl
      · exact raisesAccount_update rfl (fun _ => rfl) fun _ => rfl
      · exact ⟨m, mem_insertOrIgnore_of_mem hm, rfl, le_rfl⟩
    · cases h

theorem keepsSums_insertMessage (hown : s.OwnConversation message.accountId message.conversationId)
    (h : s.insertMessage message clientRequestId preview incrementUnread storedAt = .ok (landed, t)) : s.KeepsSums t := by
  rcases insertMessage_cases hown h with halike | ⟨hrow, haccount, hheld⟩
  · exact halike.keeps
  · exact hrow.keepsIf haccount fun _ => hheld

/-! ### A send settles -/

section Settle

variable {messageId accountId conversationId : String} {sentAt : ℕ} {outcomes : Option MessageSendOutcomes}

/-- The completion leaves the newest stamp of its conversation: it moves the row forwards, or another is as new. -/
def StampKept (s : Store) (messageId accountId conversationId : String) (sentAt : ℕ) : Prop :=
  ∀ m ∈ s.messages.rows, m.id = messageId → m.home = (conversationId, accountId) →
    m.sentAt ≤ asI64 sentAt ∨ ∃ x ∈ s.messages.rows, x.id ≠ messageId ∧ x.home = m.home ∧ m.sentAt ≤ x.sentAt

/-- A mirror stands where the completion puts its row. -/
theorem mem_dropMirror_or {x : MessageRow} (hx : x ∈ s.messages.rows) :
    x ∈ (s.dropMirror (s.duplicateIds messageId accountId conversationId sentAt)).messages.rows ∨
      x.id ≠ messageId ∧ x.home = (conversationId, accountId) ∧ x.sentAt = asI64 sentAt := by
  unfold dropMirror
  split
  · next mirror hmirror =>
    by_cases hgone : x.id = mirror
    · obtain ⟨m, hrow, hmid, hacc, hconv, hsent, hne, -⟩ := exists_mirror hmirror
      rw [← s.messages.row_unique hrow hx (hmid.trans hgone.symm)]
      exact .inr ⟨hne, Prod.ext hconv hacc, hsent⟩
    · exact .inl (mem_delete.mpr ⟨hx, decide_eq_false hgone⟩)
  · exact .inl hx

def settles (messageId accountId conversationId : String) (m : MessageRow) : Bool :=
  m.id = messageId ∧ m.accountId = accountId ∧ m.conversationId = conversationId

theorem settles_iff {m : MessageRow} :
    settles messageId accountId conversationId m = true ↔ m.id = messageId ∧ m.home = (conversationId, accountId) := by
  simp only [settles, decide_eq_true_eq, MessageRow.home, Prod.mk.injEq]
  tauto

/-- The store with the send settled, before its summaries. -/
def sendSettled (s : Store) (messageId accountId conversationId : String) (sentAt : ℕ)
    (outcomes : Option MessageSendOutcomes) : Store :=
  (s.dropMirror (s.duplicateIds messageId accountId conversationId sentAt)).updateMessages
    (settles messageId accountId conversationId) (sentRow sentAt outcomes) (id_sentRow sentAt outcomes)

theorem mem_sendSettled {m' : MessageRow} :
    m' ∈ (s.sendSettled messageId accountId conversationId sentAt outcomes).messages.rows ↔
      ∃ m ∈ (s.dropMirror (s.duplicateIds messageId accountId conversationId sentAt)).messages.rows,
        (if settles messageId accountId conversationId m then sentRow sentAt outcomes m else m) = m' := by
  unfold sendSettled
  rw [rows_updateMessages, mem_map]

theorem exists_settled (sentAt : ℕ) (outcomes : Option MessageSendOutcomes) {previous : MessageRow} (hmem : previous ∈ s.messages.rows)
    (hdue : settles messageId accountId conversationId previous = true) :
    ∃ m ∈ (s.sendSettled messageId accountId conversationId sentAt outcomes).messages.rows,
      m.home = (conversationId, accountId) ∧ m.stamp = asI64 sentAt := by
  obtain ⟨hid, hhome⟩ := settles_iff.mp hdue
  rcases mem_dropMirror_or hmem with hkept | ⟨hne, -⟩
  · exact ⟨sentRow sentAt outcomes previous, mem_sendSettled.mpr ⟨previous, hkept, if_pos hdue⟩, hhome, rfl⟩
  · exact absurd hid hne

/-- A completion that keeps the newest stamp leaves a row for every row. -/
theorem rowsHeld_sendSettled {previous : MessageRow} (hmem : previous ∈ s.messages.rows)
    (hdue : settles messageId accountId conversationId previous = true)
    (hkept : s.StampKept messageId accountId conversationId sentAt) :
    s.RowsHeld (s.sendSettled messageId accountId conversationId sentAt outcomes) := by
  obtain ⟨settled, hsettled, hhome, hstamp⟩ := exists_settled sentAt outcomes hmem hdue
  have hother : ∀ x ∈ s.messages.rows, settles messageId accountId conversationId x = false →
      ∃ m ∈ (s.sendSettled messageId accountId conversationId sentAt outcomes).messages.rows,
        m.home = x.home ∧ x.stamp ≤ m.stamp := by
    intro x hx hnot
    rcases mem_dropMirror_or hx with hstays | ⟨-, hxhome, hsent⟩
    · exact ⟨x, mem_sendSettled.mpr ⟨x, hstays, if_neg (by simp [hnot])⟩, rfl, le_rfl⟩
    · exact ⟨settled, hsettled, hhome.trans hxhome.symm, by rw [hstamp, MessageRow.stamp, hsent]⟩
  intro m hm
  by_cases hmdue : settles messageId accountId conversationId m = true
  · obtain ⟨hid, hmhome⟩ := settles_iff.mp hmdue
    rcases hkept m hm hid hmhome with hle | ⟨x, hx, hne, hxhome, hle⟩
    · exact ⟨settled, hsettled, hhome.trans hmhome.symm, hstamp ▸ WithBot.coe_le_coe.mpr hle⟩
    · have hnot : settles messageId accountId conversationId x = false :=
        Bool.eq_false_iff.mpr fun h => hne (settles_iff.mp h).1
      obtain ⟨m', hm', hhome', hle'⟩ := hother x hx hnot
      exact ⟨m', hm', hhome'.trans hxhome, (WithBot.coe_le_coe.mpr hle).trans hle'⟩
  · exact hother m hm (Bool.eq_false_iff.mpr hmdue)

theorem raises_bumpEndings (accountId conversationId : String) (stamp : ℤ)
    (hconversations : u.conversations = s.conversations) (haccounts : u.accounts = s.accounts) :
    s.RaisesEnding (u.bumpEndings accountId conversationId stamp) (conversationId, accountId) stamp ∧
      s.RaisesAccount (u.bumpEndings accountId conversationId stamp) accountId stamp := by
  refine ⟨raisesEnding_update (p := fun c => c.id = conversationId ∧ c.accountId = accountId)
    (f := fun c => { c with lastMessageAt := bumpStamp stamp c.lastMessageAt }) ?_ (fun c _ => ?_) (fun _ => rfl)
    fun _ => rfl, raisesAccount_update (f := fun a => { a with lastMessageAt := bumpStamp stamp a.lastMessageAt }) ?_
    (fun _ => rfl) fun _ => rfl⟩
  · rw [← hconversations]
    rfl
  · rw [decide_eq_true_eq, ConversationRow.home, Prod.mk.injEq]
  · rw [← haccounts]
    rfl

theorem completeOutgoingSend_cases (hs : s.RowsCovered)
    (h : (s.completeOutgoingSend messageId accountId conversationId sentAt outcomes).2 = t) :
    t = s ∨ s.RaisesRow t (conversationId, accountId) (asI64 sentAt) ∧ s.RaisesAccount t accountId (asI64 sentAt) ∧
      (s.StampKept messageId accountId conversationId sentAt → s.RowsHeld t) := by
  unfold completeOutgoingSend at h
  dsimp only at h
  split at h
  · exact .inl h.symm
  · next previous hprevious =>
    have hmem := mem_of_find?_eq_some hprevious
    have hdue : settles messageId accountId conversationId previous = true := find?_some hprevious
    have ht : t = (s.sendSettled messageId accountId conversationId sentAt outcomes).bumpEndings accountId
        conversationId (asI64 sentAt) := h.symm
    obtain ⟨hending, haccount⟩ := raises_bumpEndings (s := s)
      (u := s.sendSettled messageId accountId conversationId sentAt outcomes) accountId conversationId (asI64 sentAt)
      (by unfold sendSettled dropMirror; split <;> rfl) (by unfold sendSettled dropMirror; split <;> rfl)
    obtain ⟨c, hc, hchome, -⟩ := hs previous hmem
    subst ht
    refine .inr ⟨⟨⟨c, hc, hchome.trans (settles_iff.mp hdue).2⟩, exists_settled sentAt outcomes hmem hdue, fun m' hm' => ?_, hending⟩,
      haccount, rowsHeld_sendSettled hmem hdue⟩
    obtain ⟨x, hx, rfl⟩ := mem_sendSettled.mp hm'
    split
    · next hxdue => exact .inr ⟨(settles_iff.mp hxdue).2, rfl⟩
    · exact .inl ⟨x, mem_of_mem_dropMirror hx, rfl, rfl⟩

theorem keeps_completeOutgoingSend : KeepsSumsIf True (s.StampKept messageId accountId conversationId sentAt) s
    (s.completeOutgoingSend messageId accountId conversationId sentAt outcomes).2 := by
  refine .of_summed fun hs => ?_
  rcases completeOutgoingSend_cases hs.rows rfl with hsame | ⟨hrow, haccount, hheld⟩
  · rw [hsame]
    exact .refl s
  · exact hrow.keepsIf haccount hheld

theorem settleUnknownSend_cases (hs : s.RowsCovered) (dispatched : Bool)
    (h : (s.settleUnknownSend messageId dispatched).2 = t) :
    s.Alike t ∨ ∃ home : String × String, ∃ stamp : ℤ, s.RaisesRow t home stamp ∧ s.RaisesAccount t home.2 stamp ∧
      s.RowsHeld t := by
  unfold settleUnknownSend at h
  dsimp only at h
  split at h
  · exact .inl (h ▸ .refl s)
  · next row hrow =>
    have hmem := mem_of_find?_eq_some hrow
    have halike := alike_updateMessages s (fun m => m.id = messageId ∧ m.status = .unknown)
      (fun m => { m.retired with status := if dispatched then .sent else .failed }) (fun _ => rfl) fun _ => rfl
    cases dispatched with
    | false => exact .inl (h ▸ halike)
    | true =>
      obtain ⟨hending, haccount⟩ := raises_bumpEndings row.accountId row.conversationId row.sentAt
        halike.conversations halike.accounts
      obtain ⟨c, hc, hchome, -⟩ := hs row hmem
      subst h
      refine .inr ⟨row.home, row.sentAt, ⟨⟨c, hc, hchome⟩, ?_, fun m' hm' => ?_, hending⟩, haccount, fun m hm => ?_⟩
      · obtain ⟨m, hm, hhome, hstamp⟩ := mem_of_places halike.places.symm hmem
        exact ⟨m, hm, hhome.symm, hstamp.symm⟩
      · exact .inl (mem_of_places halike.places hm')
      · obtain ⟨m', hm', hhome, hstamp⟩ := mem_of_places halike.places.symm hm
        exact ⟨m', hm', hhome.symm, hstamp.le⟩

theorem keeps_settleUnknownSend (dispatched : Bool) : s.KeepsSums (s.settleUnknownSend messageId dispatched).2 := by
  refine .of_summed fun hs => ?_
  rcases settleUnknownSend_cases hs.rows dispatched rfl with halike | ⟨home, stamp, hrow, haccount, hheld⟩
  · exact halike.keeps
  · exact hrow.keepsIf haccount fun _ => hheld

end Settle

/-! ### A batch of history -/

/-- The account's ending computed from its conversations is above each of them. -/
theorem latest_le_ending {conversations : List ConversationRow} {c : ConversationRow} (hc : c ∈ conversations) :
    c.latest ≤ markOf ((conversations.filter fun d => d.accountId = c.accountId).filterMap
      ConversationRow.lastMessageAt).max? := by
  rw [ConversationRow.latest_eq]
  rcases hlast : c.lastMessageAt with _ | stamp
  · exact bot_le
  · refine le_markOf_max? (mem_filterMap.mpr ⟨c, mem_filter.mpr ⟨hc, ?_⟩, hlast⟩)
    exact decide_eq_true rfl

/-- A conversation's mark, as far as accounts other than this one are concerned. -/
def markBut (accountId : String) (c : ConversationRow) : WithBot ℤ := if c.accountId = accountId then ⊥ else c.latest

/-- Every conversation has its account, and ends no later than it unless the account is this one. -/
def EndingsCoveredBut (s : Store) (accountId : String) : Prop :=
  CoveredBy s.conversations.rows ConversationRow.accountId (markBut accountId) s.accounts.rows AccountRow.id
    AccountRow.latest

theorem EndingsCovered.but (h : s.EndingsCovered) (accountId : String) : s.EndingsCoveredBut accountId := by
  intro c hc
  obtain ⟨a, ha, hkey, hle⟩ := h c hc
  refine ⟨a, ha, hkey, ?_⟩
  unfold markBut
  split
  · exact bot_le
  · exact hle

theorem endingsCovered_refreshEnding (h : s.EndingsCoveredBut accountId) :
    (s.refreshEnding accountId).EndingsCovered := by
  intro c hc
  obtain ⟨a, ha, hkey, hle⟩ := h c hc
  refine ⟨_, mem_map_of_mem ha, ?_, ?_⟩
  · dsimp only
    split <;> exact hkey
  · dsimp only
    split
    · next hown =>
      rw [decide_eq_true_eq] at hown
      obtain rfl : accountId = c.accountId := hown.symm.trans hkey
      exact latest_le_ending hc
    · next hother =>
      have hother : c.accountId ≠ accountId := fun h => hother (decide_eq_true (hkey.trans h))
      rwa [markBut, if_neg hother] at hle

variable {row : HistoryImportInsert} {outcome outcome' : HistoryBatchOutcome}

theorem raisesEnding_advanceEnding
    (hthere : ∃ c ∈ s.conversations.rows, c.home = (row.record.conversationId, row.record.accountId))
    (ht : u.conversations = s.conversations) :
    s.RaisesEnding (u.advanceEnding row) (row.record.conversationId, row.record.accountId)
      (asI64 row.record.sentAt) := by
  refine ⟨fun c => if (c.id = row.record.conversationId && isNewer (asI64 row.record.sentAt) c.lastMessageAt) = true
    then { c with lastMessagePreview := row.preview, lastMessageAt := some (asI64 row.record.sentAt) } else c,
    by rw [← ht]; rfl, fun c hc => ?_⟩
  have hiff := home_eq_iff hthere hc
  have hnewer := isNewer_iff (asI64 row.record.sentAt) c.lastMessageAt
  rw [← ConversationRow.latest_eq] at hnewer
  dsimp only
  by_cases hhome : c.home = (row.record.conversationId, row.record.accountId)
  · rw [if_pos hhome]
    by_cases hnew : c.latest < (asI64 row.record.sentAt : WithBot ℤ)
    · rw [if_pos (by simp [hiff.mpr hhome, hnewer.mpr hnew]), max_eq_right hnew.le]
      exact ⟨rfl, rfl⟩
    · rw [if_neg (by simp [hnewer, hnew]), max_eq_left (not_lt.mp hnew)]
      exact ⟨rfl, rfl⟩
  · rw [if_neg hhome, if_neg fun h => hhome (hiff.mp (of_decide_eq_true (Bool.and_eq_true_iff.mp h).1))]
    exact ⟨rfl, rfl⟩

theorem importRow_cases (hown : s.OwnConversation row.record.accountId row.record.conversationId)
    (h : importRow storedAt (outcome, s) row = .ok (outcome', t)) : t.accounts = s.accounts ∧ (s.Alike t ∨
      s.RaisesRow t (row.record.conversationId, row.record.accountId) (asI64 row.record.sentAt) ∧ s.RowsHeld t) := by
  unfold importRow at h
  dsimp only at h
  split at h
  · next existing _ =>
    cases h
    unfold refillAttachments
    split
    · have halike := alike_updateMessages s (fun m => m.id = existing.id) (fun m => { m with
        attachments := some (.parsed (row.record.attachments.map NormalizedAttachment.info))
        attachmentLocators := toListCell row.locators }) (fun _ => rfl) fun _ => rfl
      exact ⟨rfl, .inl halike⟩
    · exact ⟨rfl, .inl (.refl s)⟩
  · split at h
    · cases h
      exact ⟨rfl, .inl (.refl s)⟩
    · next hfree =>
      split at h
      · next hthere =>
        cases h
        have hhome := exists_home hown hthere.2
        have hnone : s.messages.find? row.record.id = none := by
          simpa [MessageRow.ofHistory, MessageRow.ofRecord] using
            (Bool.or_eq_false_iff.mp (Bool.eq_false_iff.mpr hfree)).1
        refine ⟨rfl, .inr ⟨⟨hhome, lands_insertOrIgnore hnone, others_insertOrIgnore, ?_⟩, fun m hm => ?_⟩⟩
        · exact raisesEnding_advanceEnding hhome rfl
        · exact ⟨m, mem_insertOrIgnore_of_mem hm, rfl, le_rfl⟩
      · cases h

/-- The rows of a batch are of one account and in conversations of it. -/
def OneAccount (s : Store) (rows : List HistoryImportInsert) (accountId : String) : Prop :=
  ∀ row ∈ rows, row.record.accountId = accountId ∧ s.OwnConversation accountId row.record.conversationId

/-- What holds between two rows of a batch. -/
structure Importing (s u : Store) (accountId : String) : Prop where
  rows : u.RowsCovered
  endings : u.EndingsCoveredBut accountId
  attained : s.EndingsAttained → u.EndingsAttained
  homes : ∀ c ∈ u.conversations.rows, ∃ d ∈ s.conversations.rows, c.home = d.home

theorem Importing.step (h : s.Importing u accountId)
    (hrow : row.record.accountId = accountId ∧ s.OwnConversation accountId row.record.conversationId)
    (himport : importRow storedAt (outcome, u) row = .ok (outcome', t)) : s.Importing t accountId := by
  obtain ⟨rfl, hown⟩ := hrow
  have hown' : u.OwnConversation row.record.accountId row.record.conversationId := by
    intro c hc hid
    obtain ⟨d, hd, hhome⟩ := h.homes c hc
    exact (Prod.mk.inj hhome).2.trans (hown d hd ((Prod.mk.inj hhome).1.symm.trans hid))
  have hendings := h.endings
  obtain ⟨haccounts, hcases⟩ := importRow_cases hown' himport
  unfold EndingsCoveredBut at hendings
  rcases hcases with halike | ⟨hraise, hheld⟩
  · refine ⟨halike.rowsCovered h.rows, ?_, fun hs => halike.endingsAttained (h.attained hs), ?_⟩
    · unfold EndingsCoveredBut
      rwa [halike.conversations, haccounts]
    · rw [halike.conversations]
      exact h.homes
  · obtain ⟨f, hmap, hf⟩ := hraise.ending
    refine ⟨hraise.rowsCovered h.rows, ?_, fun hs => hraise.endingsAttained hheld (h.attained hs), ?_⟩
    · unfold EndingsCoveredBut
      rw [haccounts, hmap]
      refine hendings.rows_mono fun c' hc' => ?_
      obtain ⟨c, hc, rfl⟩ := mem_map.mp hc'
      obtain ⟨hhome, hlatest⟩ := hf c hc
      have hacc : (f c).accountId = c.accountId := (Prod.mk.inj hhome).2
      refine ⟨c, hc, hacc, ?_⟩
      unfold markBut
      rw [hacc]
      split
      · exact le_rfl
      · next hother => rw [hlatest, if_neg fun hc => hother (congrArg Prod.snd hc)]
    · rw [hmap]
      intro c' hc'
      obtain ⟨c, hc, rfl⟩ := mem_map.mp hc'
      obtain ⟨d, hd, hhome⟩ := h.homes c hc
      exact ⟨d, hd, (hf c hc).1.trans hhome⟩

theorem Importing.run {accountId : String} : ∀ {rows : List HistoryImportInsert} {u t : Store}
    {outcome outcome' : HistoryBatchOutcome}, s.OneAccount rows accountId → s.Importing u accountId →
      rows.foldlM (importRow storedAt) (outcome, u) = .ok (outcome', t) → s.Importing t accountId
  | [], _, _, _, _, _, h, hrun => by
    cases hrun
    exact h
  | row :: rows, _, _, _, _, hrows, h, hrun => by
    rw [foldlM_cons] at hrun
    obtain ⟨⟨mid, v⟩, hstep, hrun⟩ := exists_of_bind_ok hrun
    exact Importing.run (fun other hother => hrows other (mem_cons_of_mem row hother))
      (h.step (hrows row mem_cons_self) hstep) hrun

theorem keeps_insertHistoryBatch {rows : List HistoryImportInsert}
    (hrows : ∀ first ∈ rows.head?, s.OneAccount rows first.record.accountId)
    (h : s.insertHistoryBatch rows storedAt = .ok (outcome, t)) : s.KeepsSums t := by
  rcases rows with _ | ⟨first, rest⟩
  · cases h
    exact .refl s
  · unfold insertHistoryBatch at h
    obtain ⟨⟨outcome', u⟩, hrun, h⟩ := exists_of_bind_ok h
    cases h
    have himported (hs : s.Summed) : s.Importing u first.record.accountId :=
      Importing.run (hrows first rfl) ⟨hs.rows, hs.endings.but _, fun h => h, fun c hc => ⟨c, hc, rfl⟩⟩ hrun
    exact ⟨fun _ hs => ⟨(himported hs).rows, endingsCovered_refreshEnding (himported hs).endings⟩,
      fun _ hs => (himported hs).attained⟩

end Store

end SignalConnector
