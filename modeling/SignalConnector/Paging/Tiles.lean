/-
# Does paging tile the history?

Each of the four lists answers pages of a strictly ordered selection of rows,
and the condition behind a cursor selects exactly the rows behind its row, so
what a reader sees depends on nothing but the cursors: the whole list, once and
in order, if the cursor of every row at a page edge is accepted, and an error
at the first edge where it is not (`Pages.tiles_iff`).

A cursor is refused when an id in front has a colon, when the time of its row
is negative, and when the id at its end is empty or longer than 128 bytes.
-/
import SignalConnector.Erasure.Faces
import SignalConnector.Lib.Paging
import SignalConnector.Paging.Cursors

namespace SignalConnector

open List

/-! ### What the schema promises -/

/-- A value of an `INTEGER` column. -/
def InI64 (z : ℤ) : Prop := -2 ^ 63 ≤ z ∧ z < 2 ^ 63
  deriving Decidable

/-- The sort columns hold 64-bit integers, and no account has two contacts of one kind and peer key. -/
structure Store.MeetsSchema (s : Store) : Prop where
  sentAt : ∀ m ∈ s.messages.rows, InI64 m.sentAt
  lastMessageAt : ∀ c ∈ s.conversations.rows, ∀ at_ ∈ c.lastMessageAt, InI64 at_
  contacts : ∀ c ∈ s.contacts.rows, ∀ c' ∈ s.contacts.rows,
    c.accountId = c'.accountId → c.kind = c'.kind → c.peerKey = c'.peerKey → c = c'

/-- A column printed as `u64` fits into `i64` iff it is not negative. -/
theorem asU64_lt_iff {z : ℤ} (h : InI64 z) : asU64 z < 2 ^ 63 ↔ 0 ≤ z := by
  unfold asU64
  obtain ⟨hlow, hhigh⟩ := h
  split <;> omega

theorem asU64_of_nonneg {z : ℤ} (h : 0 ≤ z) : (asU64 z : ℤ) = z := by
  unfold asU64
  rw [if_pos h]
  exact Int.toNat_of_nonneg h

/-! ### Pages of messages -/

def pageSize (limit : ℕ) : ℕ := min (max limit 1) maxPageLimit

theorem pageSize_pos (limit : ℕ) : 0 < pageSize limit := by
  unfold pageSize maxPageLimit
  omega

/-- The key in the cursor of a message is one the decoder takes. -/
def MessageRow.CursorFits (m : MessageRow) : Prop := 0 ≤ m.sentAt ∧ IdFits m.id
  deriving Decidable

/-- Strictly descending `(sent_at, id)`. -/
def MessageRow.NewerThan (a b : MessageRow) : Prop := lexLt MessageRow.sentAt MessageRow.id b a

def Page.split {α : Type} (page : Page α) : List α × Option String := (page.items, page.nextCursor)

theorem keyFits_iff {m : MessageRow} (h : InI64 m.sentAt) :
    KeyFits (messageRecordFromRow m).sentAt (messageRecordFromRow m).id ↔ m.CursorFits :=
  and_congr (asU64_lt_iff h) Iff.rfl

namespace Store

variable (sha256 : String → String) {s : Store}

theorem id_shownRecord (s : Store) (accountId conversationId : String) (m : MessageRow) :
    (s.shownRecord sha256 accountId conversationId m).id = m.id := by
  obtain ⟨quote, quoteMessageId, -, hshown⟩ := s.shownRecord_eq sha256 accountId m
  rw [hshown]
  rfl

theorem ids_attachAll (s : Store) (accountId : String) (rows : List MessageRow) :
    (s.attachAll sha256 accountId rows).map MessageRecord.id = rows.map MessageRow.id := by
  rw [s.attachAll_eq, map_map]
  exact map_congr_left fun m _ => s.id_shownRecord sha256 accountId _ m

theorem newestPage_spec (s : Store) (accountId : String) (limit : ℕ) (p : MessageRow → Bool)
    (encode : MessageRecord → String) : (s.newestPage sha256 accountId limit p encode).items.map MessageRecord.id =
        ((newestFirst (s.messages.rows.filter p)).take (pageSize limit)).map MessageRow.id ∧
      (s.newestPage sha256 accountId limit p encode).nextCursor =
        (pageEnd (pageSize limit) (newestFirst (s.messages.rows.filter p))).map
          fun m => encode (messageRecordFromRow m) := by
  refine ⟨?_, pageEnd_fetched (pageSize limit) _ _⟩
  rw [← take_take_succ]
  exact s.ids_attachAll sha256 accountId _

/-! ### The order of messages -/

/-- Rows of a table that sort alike are the same row. -/
theorem newestFirst_antisymm {a b : MessageRow} (ha : a ∈ s.messages.rows) (hb : b ∈ s.messages.rows)
    (hab : lexLe MessageRow.sentAt MessageRow.id b a) (hba : lexLe MessageRow.sentAt MessageRow.id a b) : a = b :=
  s.messages.row_unique ha hb (lexLe_antisymm hba hab)

theorem pairwise_newestFirst (s : Store) (p : MessageRow → Bool) :
    (newestFirst (s.messages.rows.filter p)).Pairwise MessageRow.NewerThan := by
  have hnd : (s.messages.rows.filter p).Nodup := (List.Nodup.of_map _ s.messages.nodup).filter p
  refine (pairwise_strict_insertionSort hnd fun a ha b hb => ?_).imp fun h => lexLt_iff.mpr h
  exact newestFirst_antisymm (mem_of_mem_filter ha) (mem_of_mem_filter hb)

theorem isBefore_iff (e a : MessageRow) : isBefore (some (e.sentAt, e.id)) a = true ↔
      lexLe MessageRow.sentAt MessageRow.id a e ∧ ¬lexLe MessageRow.sentAt MessageRow.id e a := by
  rw [← lexLt_iff, isBefore, decide_eq_true_eq]
  exact Iff.rfl

theorem newestFirst_before (s : Store) (p : MessageRow → Bool) {pre post : List MessageRow} {e : MessageRow}
    (hsplit : newestFirst (s.messages.rows.filter p) = pre ++ e :: post) :
    newestFirst (s.messages.rows.filter fun m => p m && isBefore (some (e.sentAt, e.id)) m) = post := by
  have hnd := (List.Nodup.of_map _ s.messages.nodup).filter p
  simp only [Bool.and_comm (p _)]
  rw [← filter_filter]
  refine insertionSort_behind hnd (fun a ha b hb => ?_) hsplit (isBefore_iff e)
  exact newestFirst_antisymm (mem_of_mem_filter ha) (mem_of_mem_filter hb)

theorem isAfter_iff (e a : MessageRow) : isAfter (e.sentAt, e.id) a = true ↔
      lexLe MessageRow.sentAt MessageRow.id e a ∧ ¬lexLe MessageRow.sentAt MessageRow.id a e := by
  rw [← lexLt_iff, isAfter, decide_eq_true_eq, eq_comm (a := a.sentAt)]
  exact Iff.rfl

theorem oldestFirst_after (s : Store) (p : MessageRow → Bool) {pre post : List MessageRow} {e : MessageRow}
    (hsplit : (s.messages.rows.filter p).insertionSort (lexLe MessageRow.sentAt MessageRow.id) = pre ++ e :: post) :
    (s.messages.rows.filter fun m => p m && isAfter (e.sentAt, e.id) m).insertionSort
      (lexLe MessageRow.sentAt MessageRow.id) = post := by
  have hnd := (List.Nodup.of_map _ s.messages.nodup).filter p
  simp only [Bool.and_comm (p _)]
  rw [← filter_filter]
  refine insertionSort_behind hnd (fun a ha b hb hab hba => ?_) hsplit (isAfter_iff e)
  exact newestFirst_antisymm (mem_of_mem_filter ha) (mem_of_mem_filter hb) hba hab

/-- A face of `newestPage` whose cursors resume behind their row is a page function of its rows. -/
theorem pages_of_newestPage (s : Store) (accountId : String) (limit : ℕ) (p : MessageRow → Bool)
    (encode : MessageRecord → String) (Accepts : MessageRow → Prop)
    (face : Option String → Except StoreError (Page MessageRecord))
    (hstart : face none = .ok (s.newestPage sha256 accountId limit p encode))
    (hnext : ∀ m ∈ s.messages.rows, Accepts m → face (some (encode (messageRecordFromRow m))) =
      .ok (s.newestPage sha256 accountId limit (fun x => p x && isBefore (some (m.sentAt, m.id)) x) encode))
    (hrefused : ∀ m ∈ s.messages.rows, ¬Accepts m →
      face (some (encode (messageRecordFromRow m))) = .error .invalidCursor) :
    Pages (fun cursor => (face cursor).toOption.map Page.split) MessageRecord.id MessageRow.id
      (fun m => encode (messageRecordFromRow m)) (pageSize limit) Accepts
      (newestFirst (s.messages.rows.filter p)) := by
  have hmem : ∀ {pre e post}, newestFirst (s.messages.rows.filter p) = pre ++ e :: post → e ∈ s.messages.rows := by
    intro pre e post hsplit
    have he : e ∈ newestFirst (s.messages.rows.filter p) := hsplit ▸ by simp
    exact mem_of_mem_filter ((perm_insertionSort _ _).mem_iff.mp he)
  refine ⟨?_, fun pre e post hsplit haccepts => ?_, fun pre e post hsplit hrefuses => ?_⟩
  · obtain ⟨hitems, hcursor⟩ := s.newestPage_spec sha256 accountId limit p encode
    refine ⟨_, ?_, hitems⟩
    rw [hstart, ← hcursor]
    rfl
  · obtain ⟨hitems, hcursor⟩ := s.newestPage_spec sha256 accountId limit
      (fun x => p x && isBefore (some (e.sentAt, e.id)) x) encode
    rw [s.newestFirst_before p hsplit] at hitems hcursor
    refine ⟨_, ?_, hitems⟩
    rw [hnext e (hmem hsplit) haccepts, ← hcursor]
    rfl
  · rw [hrefused e (hmem hsplit) hrefuses]
    rfl

/-! ### The list of a conversation -/

variable (accountId query conversationId : String)

def inConversation (m : MessageRow) : Bool :=
  m.accountId = accountId ∧ m.conversationId = conversationId

/-- The history of a conversation, newest first. -/
def history (s : Store) (accountId conversationId : String) : List MessageRow :=
  newestFirst (s.messages.rows.filter (inConversation accountId conversationId))

/-- The cursor `list_messages` mints for the row is accepted. -/
def CursorAccepted (m : MessageRow) : Prop :=
  Unsplit accountId ∧ Unsplit conversationId ∧ m.CursorFits
  deriving Decidable

theorem isPrefix_encodeMessageCursor (item : MessageRecord) :
    messageCursorPrefix.toList <+: (encodeMessageCursor accountId conversationId item).toList := by
  unfold encodeMessageCursor
  simp only [String.toList_append, append_assoc]
  exact prefix_append _ _

theorem pageAnchor_encode (s : Store) (accountId conversationId : String) {m : MessageRow} (h : InI64 m.sentAt) :
    s.pageAnchor accountId conversationId
        (some (encodeMessageCursor accountId conversationId (messageRecordFromRow m))) =
      if CursorAccepted accountId conversationId m then .ok (some (m.sentAt, m.id))
      else .error .invalidCursor := by
  unfold pageAnchor
  dsimp only
  rw [if_pos (isPrefix_encodeMessageCursor _ _ _), decode_encodeMessageCursor]
  by_cases haccepted : CursorAccepted accountId conversationId m
  · obtain ⟨haccount, hconversation, hfits⟩ := haccepted
    rw [if_pos ⟨haccount, hconversation, (keyFits_iff h).mpr hfits⟩, if_pos ⟨haccount, hconversation, hfits⟩]
    change Except.ok (some (((asU64 m.sentAt : ℕ) : ℤ), m.id)) = _
    rw [asU64_of_nonneg hfits.1]
  · rw [if_neg haccepted, if_neg fun hall => haccepted ⟨hall.1, hall.2.1, (keyFits_iff h).mp hall.2.2⟩]
    rfl

theorem listMessages_none (s : Store) (accountId conversationId : String) (limit : ℕ) :
    s.listMessages sha256 accountId conversationId limit none =
      .ok (s.newestPage sha256 accountId limit (inConversation accountId conversationId)
        (encodeMessageCursor accountId conversationId)) := by
  change Except.ok (s.newestPage sha256 accountId limit
    (fun m => inConversation accountId conversationId m && true) _) = _
  simp only [Bool.and_true]

theorem listMessages_accepted (s : Store) {accountId conversationId : String} (limit : ℕ) {m : MessageRow}
    (h : InI64 m.sentAt) (haccepted : CursorAccepted accountId conversationId m) :
    s.listMessages sha256 accountId conversationId limit
        (some (encodeMessageCursor accountId conversationId (messageRecordFromRow m))) =
      .ok (s.newestPage sha256 accountId limit
        (fun x => inConversation accountId conversationId x && isBefore (some (m.sentAt, m.id)) x)
        (encodeMessageCursor accountId conversationId)) := by
  unfold listMessages
  rw [pageAnchor_encode s accountId conversationId h, if_pos haccepted]
  rfl

theorem listMessages_refused (s : Store) {accountId conversationId : String} (limit : ℕ) {m : MessageRow}
    (h : InI64 m.sentAt) (hrefused : ¬CursorAccepted accountId conversationId m) :
    s.listMessages sha256 accountId conversationId limit
        (some (encodeMessageCursor accountId conversationId (messageRecordFromRow m))) = .error .invalidCursor := by
  unfold listMessages
  rw [pageAnchor_encode s accountId conversationId h, if_neg hrefused]
  rfl

/-- Following `list_messages` from the start lists every row of the conversation once, newest first. -/
def MessagesTile (s : Store) (accountId conversationId : String) (limit : ℕ) : Prop :=
  Tiles (fun cursor => (s.listMessages sha256 accountId conversationId limit cursor).toOption.map Page.split)
    MessageRecord.id MessageRow.id MessageRow.NewerThan
    (s.messages.rows.filter (inConversation accountId conversationId))

theorem messagesTile_iff (hs : s.MeetsSchema) (accountId conversationId : String) (limit : ℕ) :
    s.MessagesTile sha256 accountId conversationId limit ↔
      ∀ m, IsEdge (pageSize limit) (s.history accountId conversationId) m →
        CursorAccepted accountId conversationId m := by
  have hpages := s.pages_of_newestPage sha256 accountId limit (inConversation accountId conversationId)
    (encodeMessageCursor accountId conversationId) (CursorAccepted accountId conversationId)
    (s.listMessages sha256 accountId conversationId limit)
    (s.listMessages_none sha256 accountId conversationId limit)
    (fun m hm => s.listMessages_accepted sha256 limit (hs.sentAt m hm))
    (fun m hm => s.listMessages_refused sha256 limit (hs.sentAt m hm))
  exact hpages.tiles_iff (pageSize_pos limit) (perm_insertionSort _ _) (s.pairwise_newestFirst _)

/-! ### Search -/

/-- The rows that match a search; nothing matches the empty query. -/
def isMatch (conversationId : Option String) (m : MessageRow) : Bool :=
  query ≠ "" && (m.accountId = accountId) && bodyLike m.body (escapeLike query) &&
    conversationId.all (· = m.conversationId)

/-- The cursor `search_messages` mints for the row is accepted. -/
def SearchCursorAccepted (m : MessageRow) : Prop := Unsplit accountId ∧ m.CursorFits
  deriving Decidable

theorem searchAnchor_encode {accountId : String} {m : MessageRow} (h : InI64 m.sentAt) :
    searchAnchor accountId (some (encodeSearchMessageCursor accountId (messageRecordFromRow m))) =
      if SearchCursorAccepted accountId m then .ok (some (m.sentAt, m.id)) else .error .invalidCursor := by
  unfold searchAnchor
  dsimp only
  rw [decode_encodeSearchMessageCursor]
  by_cases haccepted : SearchCursorAccepted accountId m
  · obtain ⟨haccount, hfits⟩ := haccepted
    rw [if_pos ⟨haccount, (keyFits_iff h).mpr hfits⟩, if_pos ⟨haccount, hfits⟩]
    change Except.ok (some (((asU64 m.sentAt : ℕ) : ℤ), m.id)) = _
    rw [asU64_of_nonneg hfits.1]
  · rw [if_neg haccepted, if_neg fun hall => haccepted ⟨hall.1, (keyFits_iff h).mp hall.2⟩]
    rfl

theorem searchMessages_anchor (s : Store) {accountId query : String} (hquery : query ≠ "") (limit : ℕ)
    (conversationId : Option String) {cursor : Option String} {anchor : Option (ℤ × String)}
    (h : searchAnchor accountId cursor = .ok anchor) :
    s.searchMessages sha256 accountId query limit cursor conversationId = .ok (s.newestPage sha256 accountId limit
        (fun m => isMatch accountId query conversationId m && isBefore anchor m)
        (encodeSearchMessageCursor accountId)) := by
  unfold searchMessages
  rw [if_neg hquery, h]
  refine congrArg (fun p => Except.ok (s.newestPage sha256 accountId limit p _)) (funext fun m => ?_)
  simp only [isMatch, hquery, ne_eq, not_false_eq_true, decide_true, Bool.true_and]
  rw [Bool.and_right_comm]

/-- Following `search_messages` from the start lists every matching row once, newest first. -/
def SearchTiles (s : Store) (accountId query : String) (conversationId : Option String) (limit : ℕ) : Prop :=
  Tiles (fun cursor =>
      (s.searchMessages sha256 accountId query limit cursor conversationId).toOption.map Page.split)
    MessageRecord.id MessageRow.id MessageRow.NewerThan
    (s.messages.rows.filter (isMatch accountId query conversationId))

def matchingRows (s : Store) (accountId query : String) (conversationId : Option String) : List MessageRow :=
  newestFirst (s.messages.rows.filter (isMatch accountId query conversationId))

theorem searchTiles_iff (hs : s.MeetsSchema) (accountId query : String) (conversationId : Option String)
    (limit : ℕ) : s.SearchTiles sha256 accountId query conversationId limit ↔
      ∀ m, IsEdge (pageSize limit) (s.matchingRows accountId query conversationId) m →
        SearchCursorAccepted accountId m := by
  by_cases hquery : query = ""
  · -- the one page of the empty query is empty, and so are its matches
    subst hquery
    have hnone : s.messages.rows.filter (isMatch accountId "" conversationId) = [] :=
      filter_eq_nil_iff.mpr fun m _ => by simp [isMatch]
    refine iff_of_true ⟨[], ?_, List.Pairwise.nil, 1, [], rfl, rfl⟩ fun m hm => ?_
    · rw [hnone]
    · rw [Store.matchingRows, hnone] at hm
      exact absurd hm (isEdge_of_length_le (Nat.zero_le _) m)
  have hpages := s.pages_of_newestPage sha256 accountId limit (isMatch accountId query conversationId)
    (encodeSearchMessageCursor accountId) (SearchCursorAccepted accountId)
    (fun cursor => s.searchMessages sha256 accountId query limit cursor conversationId)
    (by
      rw [s.searchMessages_anchor sha256 hquery limit conversationId
        (show searchAnchor accountId none = .ok none from rfl)]
      simp only [isBefore, Bool.and_true])
    (fun m hm haccepted => s.searchMessages_anchor sha256 hquery limit conversationId
      (by rw [searchAnchor_encode (hs.sentAt m hm), if_pos haccepted]))
    (fun m hm hrefused => by
      rw [searchMessages, if_neg hquery, searchAnchor_encode (hs.sentAt m hm), if_neg hrefused]
      rfl)
  exact hpages.tiles_iff (pageSize_pos limit) (perm_insertionSort _ _) (s.pairwise_newestFirst _)

/-! ### Around a row -/

/-- How many rows before the anchor a window takes. -/
def olderSize (limit : ℕ) : ℕ := min (max limit 3) maxPageLimit / 2

/-- How many rows after the anchor a window takes. -/
def newerSize (limit : ℕ) : ℕ := min (max limit 3) maxPageLimit - olderSize limit - 1

theorem olderSize_pos (limit : ℕ) : 0 < olderSize limit := by
  unfold olderSize maxPageLimit
  omega

/-- `list_messages_around` answers a stretch with the anchor in it; without a cursor nothing comes before it, and
with one `list_messages` goes on right before it. -/
def AroundContinues (s : Store) (accountId conversationId : String) (anchor : MessageRow) (limit : ℕ) : Prop :=
  ∃ page pre window post, s.listMessagesAround sha256 accountId conversationId anchor.id limit = .ok page ∧
    (s.history accountId conversationId).reverse = pre ++ window ++ post ∧ anchor ∈ window ∧
    page.items.map MessageRecord.id = window.map MessageRow.id ∧
    match page.nextCursor with
    | none => pre = []
    | some cursor => ∀ limit', ∃ next,
      s.listMessages sha256 accountId conversationId limit' (some cursor) = .ok next ∧
        next.items.map MessageRecord.id = (pre.reverse.take (pageSize limit')).map MessageRow.id

/-- The row the window's cursor names: the last of a full older half. -/
def windowEnd (s : Store) (accountId conversationId : String) (anchor : MessageRow) (limit : ℕ) :
    Option MessageRow :=
  ((s.history accountId conversationId).filter (isBefore (some (anchor.sentAt, anchor.id))))[olderSize limit - 1]?

section Around

variable {accountId conversationId : String} {anchor : MessageRow} {newer older : List MessageRow}
  (hsplit : s.history accountId conversationId = newer ++ anchor :: older)
include hsplit

/-- The rows after a row are, oldest first, those listed in front of it, turned round. -/
theorem insertionSort_after : (s.messages.rows.filter fun m => inConversation accountId conversationId m &&
      isAfter (anchor.sentAt, anchor.id) m).insertionSort (lexLe MessageRow.sentAt MessageRow.id) =
        newer.reverse := by
  have hanti : ∀ a ∈ s.messages.rows.filter (inConversation accountId conversationId),
      ∀ b ∈ s.messages.rows.filter (inConversation accountId conversationId),
        lexLe MessageRow.sentAt MessageRow.id a b → lexLe MessageRow.sentAt MessageRow.id b a → a = b :=
    fun a ha b hb hab hba =>
      newestFirst_antisymm (mem_of_mem_filter ha) (mem_of_mem_filter hb) hba hab
  have holdest : (s.messages.rows.filter (inConversation accountId conversationId)).insertionSort
      (lexLe MessageRow.sentAt MessageRow.id) = older.reverse ++ anchor :: newer.reverse := by
    have hflip := congrArg List.reverse (insertionSort_flip hanti)
    rw [reverse_reverse] at hflip
    rw [← hflip]
    change (s.history accountId conversationId).reverse = _
    rw [hsplit]
    simp
  exact s.oldestFirst_after _ holdest

theorem windowEnd_eq (limit : ℕ) :
    s.windowEnd accountId conversationId anchor limit = older[olderSize limit - 1]? := by
  have hbefore : (s.history accountId conversationId).filter (isBefore (some (anchor.sentAt, anchor.id))) =
      older := by
    rw [← s.newestFirst_before _ hsplit]
    unfold history newestFirst
    rw [← insertionSort_filter, filter_filter]
    exact congrArg _ (filter_congr fun m _ => Bool.and_comm _ _)
  rw [windowEnd, hbefore]

/-- The window, cut out of the history. -/
theorem listMessagesAround_eq (hanchor : anchor ∈ s.messages.rows)
    (hinside : inConversation accountId conversationId anchor = true) (limit : ℕ) :
    ∃ page, s.listMessagesAround sha256 accountId conversationId anchor.id limit = .ok page ∧
      page.items.map MessageRecord.id = ((older.take (olderSize limit)).reverse ++ [anchor] ++
        newer.reverse.take (newerSize limit)).map MessageRow.id ∧
      page.nextCursor = (older[olderSize limit - 1]?).map fun m =>
        encodeMessageCursor accountId conversationId (messageRecordFromRow m) := by
  have hfind : s.messageById accountId conversationId anchor.id = some anchor :=
    Option.filter_eq_some_iff.mpr ⟨Table.mem_iff_find?.mp hanchor, hinside⟩
  have hbefore : newestFirst (s.messages.rows.filter fun m =>
      decide (m.accountId = accountId ∧ m.conversationId = conversationId) &&
        isBefore (some (anchor.sentAt, anchor.id)) m) = older := s.newestFirst_before _ hsplit
  have hafter : (s.messages.rows.filter fun m =>
      decide (m.accountId = accountId ∧ m.conversationId = conversationId) &&
        isAfter (anchor.sentAt, anchor.id) m).insertionSort (lexLe MessageRow.sentAt MessageRow.id) =
          newer.reverse := insertionSort_after hsplit
  have hpos := olderSize_pos limit
  simp only [listMessagesAround, hfind, hbefore, hafter]
  refine ⟨_, rfl, ?_, ?_⟩
  · simp only [map_append, ids_attachAll]
    rfl
  · change (if (older.take (olderSize limit)).reverse.length = olderSize limit then
      (older.take (olderSize limit)).reverse.head?.map _ else none) = _
    rw [length_reverse, length_take, head?_reverse]
    by_cases hfull : olderSize limit ≤ older.length
    · rw [if_pos (Nat.min_eq_left hfull), getLast?_eq_getElem?, length_take, Nat.min_eq_left hfull,
        getElem?_take_of_lt (by omega)]
    · rw [if_neg (by omega), getElem?_eq_none (by omega)]
      rfl

end Around

theorem aroundContinues_iff (hs : s.MeetsSchema) {accountId conversationId : String} {anchor : MessageRow}
    (hanchor : anchor ∈ s.messages.rows) (hinside : inConversation accountId conversationId anchor = true)
    (limit : ℕ) : s.AroundContinues sha256 accountId conversationId anchor limit ↔
      ∀ m ∈ s.windowEnd accountId conversationId anchor limit, CursorAccepted accountId conversationId m := by
  have hmem : anchor ∈ s.history accountId conversationId :=
    (perm_insertionSort _ _).mem_iff.mpr (mem_filter.mpr ⟨hanchor, hinside⟩)
  obtain ⟨newer, older, hsplit⟩ := append_of_mem hmem
  obtain ⟨page, hpage, hitems, hcursor⟩ := listMessagesAround_eq sha256 hsplit hanchor hinside limit
  have hpos := olderSize_pos limit
  rw [windowEnd_eq hsplit]
  cases hend : older[olderSize limit - 1]? with
  | none =>
    -- fewer rows before the anchor than the window takes: it has them all
    have hshort : older.length ≤ olderSize limit := by
      have := List.getElem?_eq_none_iff.mp hend
      omega
    rw [hend] at hcursor
    refine iff_of_true ⟨page, [], _, newer.reverse.drop (newerSize limit), hpage, ?_, ?_, hitems, ?_⟩ (by simp)
    · rw [hsplit, take_of_length_le hshort, nil_append, append_assoc, append_assoc,
        take_append_drop]
      simp
    · simp
    · rw [hcursor]
      rfl
  | some e =>
    have hlt : olderSize limit - 1 < older.length := (List.getElem?_eq_some_iff.mp hend).1
    have hcut : older = older.take (olderSize limit - 1) ++ e :: older.drop (olderSize limit) := by
      have hdrop := drop_eq_getElem_cons hlt
      rw [(List.getElem?_eq_some_iff.mp hend).2, Nat.sub_add_cancel hpos] at hdrop
      rw [← hdrop, take_append_drop]
    have hrest : s.history accountId conversationId =
        (newer ++ anchor :: older.take (olderSize limit - 1)) ++ e :: older.drop (olderSize limit) := by
      rw [hsplit, append_assoc, cons_append, ← hcut]
    have he : e ∈ s.messages.rows := by
      have : e ∈ s.history accountId conversationId := by rw [hrest]; simp
      exact mem_of_mem_filter ((perm_insertionSort _ _).mem_iff.mp this)
    rw [hend] at hcursor
    simp only [Option.mem_some_iff, forall_eq']
    constructor
    · rintro ⟨page', pre, window, post, hpage', -, -, -, hnext⟩
      cases hpage.symm.trans hpage'
      rw [hcursor] at hnext
      obtain ⟨next, hok, -⟩ := hnext 1
      by_contra hrefused
      rw [s.listMessages_refused sha256 1 (hs.sentAt e he) hrefused] at hok
      cases hok
    · intro haccepted
      refine ⟨page, (older.drop (olderSize limit)).reverse, _, newer.reverse.drop (newerSize limit), hpage, ?_, ?_,
        hitems, ?_⟩
      · rw [hsplit, append_assoc, append_assoc, append_assoc, take_append_drop,
          ← append_assoc (older.drop _).reverse, ← reverse_append, take_append_drop]
        simp
      · simp
      · rw [hcursor]
        intro limit'
        refine ⟨_, s.listMessages_accepted sha256 limit' (hs.sentAt e he) haccepted, ?_⟩
        rw [(s.newestPage_spec sha256 accountId limit' _ _).1, s.newestFirst_before _ hrest, reverse_reverse]

end Store

/-! ### The list of conversations -/

namespace ConversationRow

/-- The cursor `list_conversations` mints for the row is accepted. -/
def CursorAccepted (accountId : String) (c : ConversationRow) : Prop :=
  Unsplit accountId ∧ (∀ at_ ∈ c.lastMessageAt, 0 ≤ at_) ∧ IdFits c.id
  deriving Decidable

/-- The order of the list: those without a message last, then descending `(last_message_at, id)`. -/
def ListedBefore (a b : ConversationRow) : Prop := lexLt latest ConversationRow.id b a

theorem isBehind_iff (e a : ConversationRow) : a.isBehind (some ⟨e.lastMessageAt, e.id⟩) = true ↔
      lexLe latest ConversationRow.id a e ∧ ¬lexLe latest ConversationRow.id e a := by
  rw [← lexLt_iff]
  unfold isBehind lexLt latest
  cases e.lastMessageAt <;> cases a.lastMessageAt <;> simp

theorem keyFits_iff {c : ConversationRow} (h : ∀ at_ ∈ c.lastMessageAt, InI64 at_) :
    ConversationKeyFits (.ofRow c) ↔ (∀ at_ ∈ c.lastMessageAt, 0 ≤ at_) ∧ IdFits c.id := by
  refine and_congr ?_ Iff.rfl
  change (∀ at_ ∈ c.lastMessageAt.map asU64, at_ < 2 ^ 63) ↔ _
  cases hat : c.lastMessageAt with
  | none => simp
  | some at_ => simpa using asU64_lt_iff (h at_ hat)

theorem decode_encode {accountId : String} {c : ConversationRow} (h : ∀ at_ ∈ c.lastMessageAt, InI64 at_) :
    decodeConversationCursor (encodeConversationCursor accountId (.ofRow c)) accountId =
      if c.CursorAccepted accountId then .ok ⟨c.lastMessageAt, c.id⟩ else .error .invalidCursor := by
  rw [decode_encodeConversationCursor]
  by_cases haccepted : c.CursorAccepted accountId
  · rw [if_pos ⟨haccepted.1, (keyFits_iff h).mpr haccepted.2⟩, if_pos haccepted]
    refine congrArg (fun at_ => Except.ok (ConversationCursor.mk at_ c.id)) ?_
    change (c.lastMessageAt.map asU64).map Int.ofNat = _
    cases hat : c.lastMessageAt with
    | none => rfl
    | some at_ => exact congrArg some (asU64_of_nonneg (haccepted.2.1 at_ hat))
  · rw [if_neg haccepted, if_neg fun hall => haccepted ⟨hall.1, (keyFits_iff h).mp hall.2⟩]

end ConversationRow

namespace Store

variable {s : Store}

/-- The conversations of an account, in the order of the list. -/
def conversationList (s : Store) (accountId : String) : List ConversationRow :=
  (s.conversations.rows.filter fun c => c.accountId = accountId).insertionSort fun a b =>
    lexLe ConversationRow.latest ConversationRow.id b a

/-- Following `list_conversations` from the start lists every conversation of the account once, in order. -/
def ConversationsTile (s : Store) (accountId : String) (limit : ℕ) : Prop :=
  Tiles (fun cursor => (s.listConversations accountId limit cursor).toOption.map Page.split)
    ConversationSummary.id ConversationRow.id ConversationRow.ListedBefore
    (s.conversations.rows.filter fun c => c.accountId = accountId)

theorem listConversations_decoded (s : Store) {accountId : String} (limit : ℕ) {cursor : Option String}
    {decoded : Option ConversationCursor} (h : conversationAnchor accountId cursor = .ok decoded) :
    (s.listConversations accountId limit cursor).toOption.map Page.split =
      some (pageOf (pageSize limit) ConversationSummary.ofRow (encodeConversationCursor accountId)
        (((s.conversations.rows.filter fun c => c.accountId = accountId).filter
          (ConversationRow.isBehind decoded)).insertionSort fun a b =>
            lexLe ConversationRow.latest ConversationRow.id b a)) := by
  have hfilter : s.conversations.rows.filter (fun c => c.accountId = accountId && c.isBehind decoded) =
      (s.conversations.rows.filter fun c => c.accountId = accountId).filter
        (ConversationRow.isBehind decoded) := by
    rw [filter_filter]
    exact filter_congr fun c _ => Bool.and_comm _ _
  unfold listConversations
  rw [h, ← pageOf_fetched, ← hfilter]
  rfl

theorem listConversations_refused (s : Store) {accountId cursor : String} (limit : ℕ)
    (h : decodeConversationCursor cursor accountId = .error .invalidCursor) :
    (s.listConversations accountId limit (some cursor)).toOption.map Page.split = none := by
  unfold listConversations
  rw [show conversationAnchor accountId (some cursor) = .error .invalidCursor by rw [conversationAnchor, h]; rfl]
  rfl

theorem conversationsTile_iff (hs : s.MeetsSchema) (accountId : String) (limit : ℕ) :
    s.ConversationsTile accountId limit ↔
      ∀ c, IsEdge (pageSize limit) (s.conversationList accountId) c → c.CursorAccepted accountId := by
  have hnd : (s.conversations.rows.filter fun c => c.accountId = accountId).Nodup :=
    (List.Nodup.of_map _ s.conversations.nodup).filter _
  have hanti : ∀ a ∈ s.conversations.rows.filter (fun c => c.accountId = accountId),
      ∀ b ∈ s.conversations.rows.filter (fun c => c.accountId = accountId),
        lexLe ConversationRow.latest ConversationRow.id b a → lexLe ConversationRow.latest ConversationRow.id a b →
          a = b := fun a ha b hb hba hab =>
    s.conversations.row_unique (mem_of_mem_filter ha) (mem_of_mem_filter hb) (lexLe_antisymm hab hba)
  have hcolumn : ∀ c ∈ s.conversations.rows.filter (fun c => c.accountId = accountId),
      ∀ at_ ∈ c.lastMessageAt, InI64 at_ := fun c hc => hs.lastMessageAt c (mem_of_mem_filter hc)
  have hpages := Pages.of_keyset hnd hanti (pageSize limit) ConversationSummary.ofRow
    (encodeConversationCursor accountId) ConversationSummary.id (ConversationRow.CursorAccepted accountId)
    ConversationRow.isBehind_iff
    (fun cursor => (s.listConversations accountId limit cursor).toOption.map Page.split)
    (by
      rw [s.listConversations_decoded limit (show conversationAnchor accountId none = .ok none from rfl),
        filter_eq_self.mpr fun c _ => show c.isBehind none = true from rfl])
    (fun c hc haccepted => s.listConversations_decoded limit (by
      rw [conversationAnchor, ConversationRow.decode_encode (hcolumn c hc), if_pos haccepted]
      rfl))
    (fun c hc hrefused => s.listConversations_refused limit (by
      rw [ConversationRow.decode_encode (hcolumn c hc), if_neg hrefused]))
  refine hpages.tiles_iff (pageSize_pos limit) (perm_insertionSort _ _) ?_
  exact (pairwise_strict_insertionSort hnd hanti).imp fun h => lexLt_iff.mpr h

end Store

/-! ### The list of contacts -/

namespace ContactRow

/-- The cursor `list_contacts` mints for the row is accepted. -/
def CursorAccepted (accountId : String) (c : ContactRow) : Prop := Unsplit accountId ∧ IdFits c.peerKey
  deriving Decidable

/-- The order of the list: ascending `(kind, peer_key)`. -/
def ListedBefore (a b : ContactRow) : Prop := lexLt (fun c => c.kind.rank) ContactRow.peerKey a b

theorem isBehind_iff (e a : ContactRow) : a.isBehind (some (e.kind.asStr, e.peerKey)) = true ↔
      lexLe (fun c => c.kind.rank) ContactRow.peerKey e a ∧
        ¬lexLe (fun c => c.kind.rank) ContactRow.peerKey a e := by
  have heq : a.kind.asStr = e.kind.asStr ↔ e.kind.rank = a.kind.rank := by
    cases a.kind <;> cases e.kind <;> decide
  rw [← lexLt_iff, isBehind, decide_eq_true_eq, ContactKind.asStr_lt_iff, heq]
  exact Iff.rfl

theorem decode_encode (accountId : String) (c : ContactRow) :
    decodeContactCursor (encodeContactCursor accountId (.ofRow c)) accountId =
      if c.CursorAccepted accountId then .ok (c.kind.asStr, c.peerKey) else .error .invalidCursor :=
  decode_encodeContactCursor accountId (.ofRow c)

end ContactRow

namespace Store

variable {s : Store}

/-- The contacts of an account that pass the filter. -/
def contactRows (s : Store) (accountId : String) (query : Option String) : List ContactRow :=
  s.contacts.rows.filter fun c => c.accountId = accountId && c.matchesQuery query

/-- The contacts of an account that pass the filter, in the order of the list. -/
def contactList (s : Store) (accountId : String) (query : Option String) : List ContactRow :=
  (s.contactRows accountId query).insertionSort (lexLe (fun c => c.kind.rank) ContactRow.peerKey)

/-- Following `list_contacts` from the start lists every contact once, in order. -/
def ContactsTile (s : Store) (accountId : String) (query : Option String) (limit : ℕ) : Prop :=
  Tiles (fun cursor => (s.listContacts accountId query limit cursor).toOption.map Page.split)
    ContactSummary.id ContactRow.id ContactRow.ListedBefore (s.contactRows accountId query)

theorem listContacts_decoded (s : Store) {accountId : String} (query : Option String) (limit : ℕ)
    {cursor : Option String} {decoded : Option (String × String)}
    (h : contactAnchor accountId cursor = .ok decoded) :
    (s.listContacts accountId query limit cursor).toOption.map Page.split =
      some (pageOf (pageSize limit) ContactSummary.ofRow (encodeContactCursor accountId)
        (((s.contactRows accountId query).filter (ContactRow.isBehind decoded)).insertionSort
          (lexLe (fun c => c.kind.rank) ContactRow.peerKey))) := by
  have hfilter : s.contacts.rows.filter
      (fun c => c.accountId = accountId && c.matchesQuery query && c.isBehind decoded) =
        (s.contactRows accountId query).filter (ContactRow.isBehind decoded) := by
    rw [contactRows, filter_filter]
    exact filter_congr fun c _ => Bool.and_comm _ _
  unfold listContacts
  rw [h, ← pageOf_fetched, ← hfilter]
  rfl

theorem listContacts_refused (s : Store) {accountId cursor : String} (query : Option String) (limit : ℕ)
    (h : decodeContactCursor cursor accountId = .error .invalidCursor) :
    (s.listContacts accountId query limit (some cursor)).toOption.map Page.split = none := by
  unfold listContacts
  rw [show contactAnchor accountId (some cursor) = .error .invalidCursor by rw [contactAnchor, h]; rfl]
  rfl

theorem contactsTile_iff (hs : s.MeetsSchema) (accountId : String) (query : Option String) (limit : ℕ) :
    s.ContactsTile accountId query limit ↔
      ∀ c, IsEdge (pageSize limit) (s.contactList accountId query) c → c.CursorAccepted accountId := by
  have hnd : (s.contactRows accountId query).Nodup := (List.Nodup.of_map _ s.contacts.nodup).filter _
  have hmem : ∀ c ∈ s.contactRows accountId query, c ∈ s.contacts.rows ∧ c.accountId = accountId := by
    intro c hc
    obtain ⟨hrow, hpass⟩ := mem_filter.mp hc
    rw [Bool.and_eq_true, decide_eq_true_eq] at hpass
    exact ⟨hrow, hpass.1⟩
  have hanti : ∀ a ∈ s.contactRows accountId query, ∀ b ∈ s.contactRows accountId query,
      lexLe (fun c => c.kind.rank) ContactRow.peerKey a b → lexLe (fun c => c.kind.rank) ContactRow.peerKey b a →
        a = b := by
    intro a ha b hb hab hba
    have hrank := lexLe_antisymm_fst hab hba
    have hkind : a.kind = b.kind := by
      revert hrank
      cases a.kind <;> cases b.kind <;> decide
    exact hs.contacts a (hmem a ha).1 b (hmem b hb).1 ((hmem a ha).2.trans (hmem b hb).2.symm) hkind
      (lexLe_antisymm hab hba)
  have hpages := Pages.of_keyset hnd hanti (pageSize limit) ContactSummary.ofRow
    (encodeContactCursor accountId) ContactSummary.id (ContactRow.CursorAccepted accountId)
    ContactRow.isBehind_iff
    (fun cursor => (s.listContacts accountId query limit cursor).toOption.map Page.split)
    (by
      rw [s.listContacts_decoded query limit (show contactAnchor accountId none = .ok none from rfl),
        filter_eq_self.mpr fun c _ => show c.isBehind none = true from rfl])
    (fun c hc haccepted => s.listContacts_decoded query limit (by
      rw [contactAnchor, ContactRow.decode_encode, if_pos haccepted]
      rfl))
    (fun c hc hrefused => s.listContacts_refused query limit (by
      rw [ContactRow.decode_encode, if_neg hrefused]))
  refine hpages.tiles_iff (pageSize_pos limit) (perm_insertionSort _ _) ?_
  exact (pairwise_strict_insertionSort hnd hanti).imp fun h => lexLt_iff.mpr h

end Store

/-! ### All lists -/

/-- **Paging tiles the history exactly where the cursors at page edges are accepted**, and a window around a row goes
on with the next older row iff its cursor is. -/
theorem paging_tiles_iff (sha256 : String → String) (s : Store) (hs : s.MeetsSchema) (accountId : String)
    (limit : ℕ) : (∀ conversationId, s.MessagesTile sha256 accountId conversationId limit ↔
      ∀ m, IsEdge (pageSize limit) (s.history accountId conversationId) m →
        Store.CursorAccepted accountId conversationId m) ∧
    (∀ conversationId, ∀ anchor ∈ s.messages.rows, Store.inConversation accountId conversationId anchor = true →
      (s.AroundContinues sha256 accountId conversationId anchor limit ↔
        ∀ m ∈ s.windowEnd accountId conversationId anchor limit, Store.CursorAccepted accountId conversationId m)) ∧
    (s.ConversationsTile accountId limit ↔
      ∀ c, IsEdge (pageSize limit) (s.conversationList accountId) c → c.CursorAccepted accountId) ∧
    (∀ query, s.ContactsTile accountId query limit ↔
      ∀ c, IsEdge (pageSize limit) (s.contactList accountId query) c → c.CursorAccepted accountId) ∧
    (∀ query conversationId, s.SearchTiles sha256 accountId query conversationId limit ↔
      ∀ m, IsEdge (pageSize limit) (s.matchingRows accountId query conversationId) m →
        Store.SearchCursorAccepted accountId m) :=
  ⟨fun conversationId => Store.messagesTile_iff sha256 hs accountId conversationId limit,
    fun _ _ hanchor hinside => Store.aroundContinues_iff sha256 hs hanchor hinside limit,
    Store.conversationsTile_iff hs accountId limit,
    fun query => Store.contactsTile_iff hs accountId query limit,
    fun query conversationId => Store.searchTiles_iff sha256 hs accountId query conversationId limit⟩

/-- Two texts in conversation `c` of account `a`, at the times given. -/
def twoTexts (first second : ℕ) : Store :=
  { Store.empty with
    accounts := .single (.ofAddress "a" "+15550100" "+1555***00" "default")
    conversations := .single (.ofPeer "c" "a" .direct "+15550101" "peer")
    messages := ⟨[.ofText "m1" "a" "c" .outgoing "a" (asI64 first) "one" .sent,
      .ofText "m2" "a" "c" .outgoing "a" (asI64 second) "two" .sent], by simp [MessageRow.ofText]⟩ }

theorem two_texts_tile : (twoTexts 1000 2000).MessagesTile id "a" "c" 1 :=
  ((paging_tiles_iff id (twoTexts 1000 2000) ⟨by decide, by decide, by decide⟩ "a" 1).1 "c").mpr
    fun m hm => (by decide : ∀ m ∈ (twoTexts 1000 2000).history "a" "c", Store.CursorAccepted "a" "c" m) m hm.mem

/-- Two messages stamped above the range of `i64`: the first page's cursor is refused, the older one never listed. -/
theorem minted_cursor_refused :
    let s := twoTexts 18446744073709551609 18446744073709551611
    let cursor := "m1:a:c:18446744073709551611:m2"
    ((s.listMessages id "a" "c" 1 none).toOption.map fun page => (page.items.map MessageRecord.id, page.nextCursor)) =
        some (["m2"], some cursor) ∧
      (s.listMessages id "a" "c" 1 (some cursor)).toOption.isNone := by
  decide

end SignalConnector
