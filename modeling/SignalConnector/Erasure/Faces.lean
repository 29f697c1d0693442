/-
# What the read faces show of a row

Whatever page a row is read through, its record is `Store.shownRecord`: the
row's own columns, and what the attach passes add. None of the passes touches
the content columns, so a row is blank on every page exactly when its columns
are and no prior body is attached to it; and the window around a row always
shows the row.
-/
import SignalConnector.Lib.Fold
import SignalConnector.Store.Read

namespace SignalConnector

open List

/-- A read of a page of messages. -/
inductive ReadFace
  | list (accountId conversationId : String) (limit : ℕ) (before : Option String)
  | around (accountId conversationId anchorId : String) (limit : ℕ)
  | search (accountId query : String) (limit : ℕ) (cursor conversationId : Option String)
  deriving DecidableEq

def ReadFace.page (sha256 : String → String) (s : Store) : ReadFace → Except StoreError (Page MessageRecord)
  | list accountId conversationId limit before => s.listMessages sha256 accountId conversationId limit before
  | around accountId conversationId anchorId limit =>
    s.listMessagesAround sha256 accountId conversationId anchorId limit
  | search accountId query limit cursor conversationId =>
    s.searchMessages sha256 accountId query limit cursor conversationId

/-- The record has nothing of a message's content: no body, attachment, sticker, rich content, quote or
prior body. -/
def MessageRecord.Blank (r : MessageRecord) : Prop :=
  r.text = none ∧ r.attachments = [] ∧ r.sticker = none ∧ r.rich = none ∧ r.quoteSnapshot = none ∧
    r.quote = none ∧ r.edits = []
  deriving Decidable

namespace Store

variable (sha256 : String → String)

/-- Every page that shows the message shows it blank. -/
def Blanked (s : Store) (messageId : String) : Prop :=
  ∀ (face : ReadFace) (page : Page MessageRecord), face.page sha256 s = .ok page →
    ∀ r ∈ page.items, r.id = messageId → r.Blank

/-- The record of a row on a page whose first row is of the given conversation. -/
def shownRecord (s : Store) (accountId conversationId : String) (m : MessageRow) : MessageRecord :=
  let record := s.attachEditsTo accountId
    (s.attachReactionsTo accountId conversationId (messageRecordFromRow m))
  match s.accounts.find? accountId with
  | none => record
  | some account => s.attachQuoteSnapshotIdTo sha256 account (s.attachOutgoingQuoteTo account record)

variable (s : Store) (account : AccountRow) (accountId conversationId : String) (r : MessageRecord)

theorem attachAll_eq (rows : List MessageRow) : s.attachAll sha256 accountId rows =
      rows.map (s.shownRecord sha256 accountId ((rows.head?.map MessageRow.conversationId).getD "")) := by
  unfold attachAll attachQuoteSnapshotIds attachOutgoingQuotes attachEdits attachReactions shownRecord
  cases rows with
  | nil => cases s.accounts.find? accountId <;> rfl
  | cons first =>
    cases s.accounts.find? accountId <;> simp only [map_cons, map_map, Function.comp_def] <;> rfl

/-! ### What each pass writes -/

theorem attachReactionsTo_eq (h : r.reactions = []) : s.attachReactionsTo accountId conversationId r =
      { r with reactions := s.reactionAggregates accountId conversationId r.sentAt } := by
  unfold attachReactionsTo
  split
  · next hnone => rw [hnone, ← h]
  · rfl

theorem attachEditsTo_eq (h : r.edits = []) : s.attachEditsTo accountId r =
      { r with edits := if r.editedAt.isSome then s.priorBodies accountId r.id else [] } := by
  unfold attachEditsTo
  split
  · split
    · next hnone => rw [hnone, ← h]
    · rfl
  · rw [← h]

/-- The quote is read off the record, whatever reactions it has. -/
theorem attachOutgoingQuoteTo_eq : ∃ quote, (r.quoteMessageId = none → quote = r.quote) ∧
      ∀ reactions, s.attachOutgoingQuoteTo account { r with reactions } = { r with reactions, quote } := by
  refine ⟨(s.attachOutgoingQuoteTo account r).quote, fun hnone => ?_, fun reactions => ?_⟩
  · unfold attachOutgoingQuoteTo
    rw [hnone]
    split <;> rfl
  unfold attachOutgoingQuoteTo
  dsimp only
  split
  · rfl
  split
  swap
  · rfl
  split
  · rfl
  split
  · rfl
  split <;> rfl

theorem attachQuoteSnapshotIdTo_eq : ∃ quoteMessageId, ∀ reactions,
      s.attachQuoteSnapshotIdTo sha256 account { r with reactions } = { r with reactions, quoteMessageId } := by
  refine ⟨(s.attachQuoteSnapshotIdTo sha256 account r).quoteMessageId, fun reactions => ?_⟩
  unfold attachQuoteSnapshotIdTo
  dsimp only
  split
  · split <;> rfl
  · rfl

/-- Nothing but the reactions of a record depends on the conversation of the page's first row. -/
theorem shownRecord_eq (m : MessageRow) : ∃ quote quoteMessageId, (m.quoteMessageId = none → quote = none) ∧
      ∀ conversationId, s.shownRecord sha256 accountId conversationId m =
        { messageRecordFromRow m with
          reactions := s.reactionAggregates accountId conversationId (asU64 m.sentAt)
          edits := if m.editedAt.isSome then s.priorBodies accountId m.id else []
          quote
          quoteMessageId } := by
  unfold shownRecord
  have hread : ∀ conversationId, s.attachEditsTo accountId
      (s.attachReactionsTo accountId conversationId (messageRecordFromRow m)) =
        { messageRecordFromRow m with
          reactions := s.reactionAggregates accountId conversationId (asU64 m.sentAt)
          edits := if m.editedAt.isSome then s.priorBodies accountId m.id else [] } := fun conversationId => by
    rw [attachReactionsTo_eq _ _ _ _ rfl, attachEditsTo_eq _ _ _ rfl]
    simp [messageRecordFromRow]
  simp only [hread]
  cases s.accounts.find? accountId with
  | none => exact ⟨none, m.quoteMessageId, fun _ => rfl, fun _ => rfl⟩
  | some account =>
    obtain ⟨quote, hnone, hquote⟩ := s.attachOutgoingQuoteTo_eq account
      { messageRecordFromRow m with edits := if m.editedAt.isSome then s.priorBodies accountId m.id else [] }
    obtain ⟨quoteMessageId, hid⟩ := s.attachQuoteSnapshotIdTo_eq sha256 account
      { messageRecordFromRow m with
        edits := if m.editedAt.isSome then s.priorBodies accountId m.id else []
        quote }
    refine ⟨quote, quoteMessageId, hnone, fun _ => ?_⟩
    exact (congrArg (s.attachQuoteSnapshotIdTo sha256 account) (hquote _)).trans (hid _)

end Store

/-- A record shows a row: the content of its columns, and its prior bodies if it has an edit stamp. -/
structure Shows (s : Store) (m : MessageRow) (r : MessageRecord) : Prop where
  id : r.id = m.id
  text : r.text = m.body
  attachments : r.attachments = (messageRecordFromRow m).attachments
  sticker : r.sticker = m.sticker.bind JsonCell.ok
  rich : r.rich = m.rich.bind JsonCell.ok
  quoteSnapshot : r.quoteSnapshot = m.quoteSnapshot.bind JsonCell.ok
  quote : m.quoteMessageId = none → r.quote = none
  edits : r.edits = if m.editedAt.isSome then s.priorBodies m.accountId m.id else []

variable {sha256 : String → String} {s : Store} {m : MessageRow}

theorem shows_shownRecord (conversationId : String) :
    Shows s m (s.shownRecord sha256 m.accountId conversationId m) := by
  obtain ⟨quote, quoteMessageId, hnone, hshown⟩ := s.shownRecord_eq sha256 m.accountId m
  rw [hshown]
  exact ⟨rfl, rfl, rfl, rfl, rfl, rfl, hnone, rfl⟩

/-! ### Pages -/

theorem shown_attachAll {accountId : String} {rows : List MessageRow} {r : MessageRecord}
    (hrows : ∀ m ∈ rows, m ∈ s.messages.rows ∧ m.accountId = accountId)
    (h : r ∈ s.attachAll sha256 accountId rows) : ∃ m ∈ s.messages.rows, Shows s m r := by
  rw [s.attachAll_eq] at h
  obtain ⟨m, hm, rfl⟩ := mem_map.mp h
  obtain ⟨hmem, rfl⟩ := hrows m hm
  exact ⟨m, hmem, shows_shownRecord _⟩

theorem mem_newestFirst {rows : List MessageRow} : m ∈ Store.newestFirst rows ↔ m ∈ rows :=
  mem_insertionSort _

theorem shown_newestPage {accountId : String} {limit : ℕ} {p : MessageRow → Bool}
    {encode : MessageRecord → String} {r : MessageRecord} (hp : ∀ m, p m = true → m.accountId = accountId)
    (hr : r ∈ (s.newestPage sha256 accountId limit p encode).items) : ∃ m ∈ s.messages.rows, Shows s m r := by
  refine shown_attachAll (fun m hm => ?_) hr
  have hm := mem_filter.mp (mem_newestFirst.mp (mem_of_mem_take (mem_of_mem_take hm)))
  exact ⟨hm.1, hp m hm.2⟩

theorem shown_of_mem {face : ReadFace} {page : Page MessageRecord} {r : MessageRecord}
    (h : face.page sha256 s = .ok page) (hr : r ∈ page.items) : ∃ m ∈ s.messages.rows, Shows s m r := by
  cases face with
  | list =>
    obtain ⟨anchor, -, h⟩ := exists_of_bind_ok h
    cases h
    refine shown_newestPage (fun m hm => ?_) hr
    simp only [Bool.and_eq_true, decide_eq_true_eq] at hm
    exact hm.1.1
  | around =>
    simp only [ReadFace.page, Store.listMessagesAround] at h
    split at h
    · cases h
    next anchor hanchor =>
      cases h
      have hanchor := Option.filter_eq_some_iff.mp hanchor
      rcases mem_append.mp hr with hr | hr
      · rcases mem_append.mp hr with hr | hr
        · refine shown_attachAll (fun m hm => ?_) hr
          have hm := mem_filter.mp (mem_newestFirst.mp (mem_of_mem_take (mem_reverse.mp hm)))
          simp only [Bool.and_eq_true, decide_eq_true_eq] at hm
          exact ⟨hm.1, hm.2.1.1⟩
        · refine shown_attachAll (fun m hm => ?_) hr
          rw [mem_singleton] at hm
          subst hm
          exact ⟨(Table.find?_eq_some.mp hanchor.1).1, (of_decide_eq_true hanchor.2).1⟩
      · refine shown_attachAll (fun m hm => ?_) hr
        have hm := mem_filter.mp ((mem_insertionSort _).mp (mem_of_mem_take hm))
        simp only [Bool.and_eq_true, decide_eq_true_eq] at hm
        exact ⟨hm.1, hm.2.1.1⟩
  | search =>
    simp only [ReadFace.page, Store.searchMessages] at h
    split at h
    · cases h
      cases hr
    · obtain ⟨anchor, -, h⟩ := exists_of_bind_ok h
      cases h
      refine shown_newestPage (fun m hm => ?_) hr
      simp only [Bool.and_eq_true, decide_eq_true_eq] at hm
      exact hm.1.1.1

theorem shown_around (sha256 : String → String) (hm : m ∈ s.messages.rows) :
    ∃ page, (ReadFace.around m.accountId m.conversationId m.id 3).page sha256 s = .ok page ∧
      ∃ r ∈ page.items, Shows s m r := by
  have hfind : s.messageById m.accountId m.conversationId m.id = some m :=
    Option.filter_eq_some_iff.mpr ⟨Table.mem_iff_find?.mp hm, by simp⟩
  have hshown := s.attachAll_eq sha256 m.accountId [m]
  simp only [ReadFace.page, Store.listMessagesAround, hfind]
  refine ⟨_, rfl, s.shownRecord sha256 m.accountId m.conversationId m, ?_, shows_shownRecord _⟩
  simp only [hshown, map_cons, map_nil, head?_cons, Option.map_some, Option.getD_some,
    mem_append, mem_singleton, true_or, or_true]

/-! ### Blank rows -/

namespace MessageRow

/-- No page shows content of the row: its columns read back as nothing, and no prior body is on file for
a row with an edit stamp. -/
def Bare (s : Store) (m : MessageRow) : Prop :=
  m.body = none ∧ (messageRecordFromRow m).attachments = [] ∧ m.sticker.bind JsonCell.ok = none ∧
    m.rich.bind JsonCell.ok = none ∧ m.quoteSnapshot.bind JsonCell.ok = none ∧
    (m.editedAt.isSome → s.priorBodies m.accountId m.id = [])

end MessageRow

/-- The window around a row gives away a row that is not bare. -/
theorem Store.Blanked.bare (h : s.Blanked sha256 m.id) (hm : m ∈ s.messages.rows) : m.Bare s := by
  obtain ⟨page, hpage, r, hr, hshows⟩ := shown_around sha256 hm
  obtain ⟨htext, hattachments, hsticker, hrich, hsnapshot, -, hedits⟩ := h _ page hpage r hr hshows.id
  refine ⟨hshows.text ▸ htext, hshows.attachments ▸ hattachments, hshows.sticker ▸ hsticker,
    hshows.rich ▸ hrich, hshows.quoteSnapshot ▸ hsnapshot, fun hedited => ?_⟩
  have hshown := hshows.edits
  rw [if_pos hedited] at hshown
  exact hshown ▸ hedits

/-- **A bare row that quotes nothing is blank on every page.** -/
theorem MessageRow.Bare.blanked (h : m.Bare s) (hm : m ∈ s.messages.rows) (hquote : m.quoteMessageId = none) :
    s.Blanked sha256 m.id := by
  obtain ⟨hbody, hattachments, hsticker, hrich, hsnapshot, hedits⟩ := h
  intro face page hpage r hr hid
  obtain ⟨x, hx, hshows⟩ := shown_of_mem hpage hr
  obtain rfl : x = m := s.messages.row_unique hx hm (hshows.id.symm.trans hid)
  refine ⟨hshows.text.trans hbody, hshows.attachments.trans hattachments, hshows.sticker.trans hsticker,
    hshows.rich.trans hrich, hshows.quoteSnapshot.trans hsnapshot, hshows.quote hquote, ?_⟩
  rw [hshows.edits]
  split
  · next hedited => exact hedits hedited
  · rfl

end SignalConnector
