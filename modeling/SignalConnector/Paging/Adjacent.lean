/-
# The adjacent-media probe

`list_adjacent_media` walks a conversation away from an anchor row, one
bounded chunk at a time, behind a cursor that is moved to the last row it has
scanned. Whatever the size of the chunks, what it answers is filter-then-take.
-/
import SignalConnector.Paging.Tiles

namespace SignalConnector

open List

/-! ### Scanning behind a cursor -/

section Scan

variable {C R : Type} (beyond : C → List R) (key : R → C) (keep : R → Bool) (chunk limit : ℕ)

/-- Reads `chunk` rows behind the cursor at a time, until `limit` of them are kept or a chunk is short. -/
def scanChunks : ℕ → C → List R → Option (List R)
  | 0, _, _ => none
  | fuel + 1, cursor, found =>
    if found.length < limit then
      let rows := (beyond cursor).take chunk
      let found := found ++ rows.filter keep
      if rows.length < chunk then some found
      else scanChunks fuel ((rows.getLast?.map key).getD cursor) found
    else some found

variable {beyond key chunk}

theorem scanChunks_spec (hchunk : 0 < chunk) {rows : List R}
    (hbeyond : ∀ pre e post, rows = pre ++ e :: post → beyond (key e) = post) :
    ∀ fuel found pre e post, rows = pre ++ e :: post → post.length < fuel →
      (scanChunks beyond key keep chunk limit fuel (key e) found).map (List.take limit) =
        some ((found ++ post.filter keep).take limit)
  | 0, _, _, _, _, _, h => absurd h (Nat.not_lt_zero _)
  | fuel + 1, found, pre, e, post, hrows, h => by
    unfold scanChunks
    rw [hbeyond pre e post hrows]
    by_cases hfull : found.length < limit
    · rw [if_pos hfull]
      dsimp only
      by_cases hshort : (post.take chunk).length < chunk
      · rw [if_pos hshort, take_of_length_le (by rw [length_take] at hshort; omega), Option.map_some]
      · rw [if_neg hshort]
        -- a whole chunk: the walk goes on behind its last row
        have hne : post.take chunk ≠ [] := fun hnil => by simp [hnil, hchunk] at hshort
        have hsplit : rows = (pre ++ e :: (post.take chunk).dropLast) ++
            (post.take chunk).getLast hne :: post.drop chunk := by
          rw [hrows, append_assoc, cons_append, append_cons (List.dropLast _),
            dropLast_append_getLast, take_append_drop]
        have hless : (post.drop chunk).length < fuel := by
          rw [length_take] at hshort
          rw [length_drop]
          omega
        rw [getLast?_eq_some_getLast hne, Option.map_some, Option.getD_some,
          scanChunks_spec hchunk hbeyond fuel _ _ _ _ hsplit hless, append_assoc, ← filter_append,
          take_append_drop]
    · rw [if_neg hfull, Option.map_some, take_append_of_le_length (by omega)]

end Scan

/-! ### The probe -/

/-- Which way to look. -/
inductive AdjacentMediaDirection where
  | older
  | newer
  deriving DecidableEq

def maxAdjacentMediaLimit : ℕ := 20

/-- An image or video, not for one view. -/
def messageHasVisualMedia (record : MessageRecord) : Bool :=
  !(record.rich.any fun rich => rich.viewOnce || rich.viewOnceInvalid) &&
    record.attachments.any fun attachment => attachment.info.contentType.any fun contentType =>
      "image/".toList.isPrefixOf contentType.toList || "video/".toList.isPrefixOf contentType.toList

namespace AdjacentMediaDirection

/-- A row is strictly beyond the cursor. -/
def beyond : AdjacentMediaDirection → ℤ × String → MessageRow → Bool
  | older, cursor => Store.isBefore (some cursor)
  | newer, cursor => Store.isAfter cursor

/-- Adjacency order: `(sent_at, id)`, descending for older rows. -/
def inOrder : AdjacentMediaDirection → List MessageRow → List MessageRow
  | older => Store.newestFirst
  | newer => List.insertionSort (lexLe MessageRow.sentAt MessageRow.id)

/-- A walk in this direction passes the first row before it comes to the second. -/
def Passes : AdjacentMediaDirection → MessageRow → MessageRow → Prop
  | older, a, b => a.NewerThan b
  | newer, a, b => b.NewerThan a

instance : ∀ (direction : AdjacentMediaDirection) (a b : MessageRow), Decidable (direction.Passes a b)
  | older, a, b => inferInstanceAs (Decidable (b.sentAt < a.sentAt ∨ (b.sentAt = a.sentAt ∧ b.id < a.id)))
  | newer, a, b => inferInstanceAs (Decidable (a.sentAt < b.sentAt ∨ (a.sentAt = b.sentAt ∧ a.id < b.id)))

theorem beyond_iff : ∀ (direction : AdjacentMediaDirection) (e m : MessageRow),
    direction.beyond (e.sentAt, e.id) m = true ↔ direction.Passes e m
  | older, e, m => (Store.isBefore_iff e m).trans lexLt_iff.symm
  | newer, e, m => (Store.isAfter_iff e m).trans lexLt_iff.symm

theorem perm_inOrder : ∀ (direction : AdjacentMediaDirection) rows, (direction.inOrder rows).Perm rows
  | older, _ => perm_insertionSort _ _
  | newer, _ => perm_insertionSort _ _

theorem inOrder_filter (p : MessageRow → Bool) :
    ∀ (direction : AdjacentMediaDirection) rows, direction.inOrder (rows.filter p) = (direction.inOrder rows).filter p
  | older, rows => insertionSort_filter p rows
  | newer, rows => insertionSort_filter p rows

end AdjacentMediaDirection

namespace Store

variable (s : Store) (direction : AdjacentMediaDirection) (accountId conversationId : String)

/-- The rows of the conversation beyond the cursor, in adjacency order. -/
def rowsBeyond (cursor : ℤ × String) : List MessageRow :=
  direction.inOrder <| s.messages.rows.filter fun m =>
    inConversation accountId conversationId m && direction.beyond cursor m

/-- `list_adjacent_media`, with the chunk size a parameter; the cursor's cast of `sent_at` to `u64` and back is left
out. -/
def listAdjacentMedia (sha256 : String → String) (chunk fuel : ℕ) (anchorMessageId : String) (limit : ℕ) :
    Option (Except StoreError (List MessageRecord)) :=
  let limit := min (max limit 1) maxAdjacentMediaLimit
  match s.messageById accountId conversationId anchorMessageId with
  | none => some (.error .invalidCursor)
  | some anchor =>
    (scanChunks (s.rowsBeyond direction accountId conversationId) (fun m => (m.sentAt, m.id))
      (fun m => messageHasVisualMedia (messageRecordFromRow m)) chunk limit fuel
      (anchor.sentAt, anchorMessageId) []).map fun found => .ok (s.attachAll sha256 accountId (found.take limit))

theorem pairwise_inOrder (p : MessageRow → Bool) :
    (direction.inOrder (s.messages.rows.filter p)).Pairwise direction.Passes := by
  cases direction with
  | older => exact s.pairwise_newestFirst p
  | newer =>
    have hnd : (s.messages.rows.filter p).Nodup := (List.Nodup.of_map _ s.messages.nodup).filter p
    refine (pairwise_strict_insertionSort hnd fun a ha b hb hab hba => ?_).imp fun h => lexLt_iff.mpr h
    exact newestFirst_antisymm (mem_of_mem_filter ha) (mem_of_mem_filter hb) hba hab

theorem rowsBeyond_eq (pre : List MessageRow) (e : MessageRow) (post : List MessageRow)
    (hsplit : direction.inOrder (s.messages.rows.filter (inConversation accountId conversationId)) =
      pre ++ e :: post) : s.rowsBeyond direction accountId conversationId (e.sentAt, e.id) = post := by
  cases direction with
  | older => exact s.newestFirst_before _ hsplit
  | newer => exact s.oldestFirst_after _ hsplit

/-- **The chunked probe is filter-then-take**: with chunks of any positive size it answers the first rows with visual
media strictly beyond the anchor, in the order a walk passes them. -/
theorem adjacent_media_filter_then_take (sha256 : String → String) (anchorMessageId : String) (limit chunk : ℕ) :
    match s.messageById accountId conversationId anchorMessageId with
    | none => ∀ fuel, s.listAdjacentMedia direction accountId conversationId sha256 (chunk + 1) fuel
        anchorMessageId limit = some (.error .invalidCursor)
    | some anchor => ∃ media : List MessageRow,
      media.Perm (s.messages.rows.filter fun m => m.accountId = accountId ∧ m.conversationId = conversationId ∧
        messageHasVisualMedia (messageRecordFromRow m) ∧ direction.Passes anchor m) ∧
      media.Pairwise direction.Passes ∧ anchor ∉ media ∧
      ∃ records : List MessageRecord, records = s.attachAll sha256 accountId (media.take (min (max limit 1) 20)) ∧
        records.map MessageRecord.id = (media.take (min (max limit 1) 20)).map MessageRow.id ∧
        ∀ fuel, s.messages.rows.length < fuel → s.listAdjacentMedia direction accountId conversationId sha256
          (chunk + 1) fuel anchorMessageId limit = some (.ok records) := by
  rcases hanchor : s.messageById accountId conversationId anchorMessageId with - | anchor
  · intro fuel
    unfold listAdjacentMedia
    rw [hanchor]
  · obtain ⟨hfind, hin⟩ := Option.filter_eq_some_iff.mp hanchor
    obtain rfl : anchor.id = anchorMessageId := s.messages.key_of_find? hfind
    have hmedia : (s.messages.rows.filter fun m => m.accountId = accountId ∧ m.conversationId = conversationId ∧
          messageHasVisualMedia (messageRecordFromRow m) ∧ direction.Passes anchor m) =
        s.messages.rows.filter fun m => messageHasVisualMedia (messageRecordFromRow m) &&
          (inConversation accountId conversationId m && direction.beyond (anchor.sentAt, anchor.id) m) := by
      refine filter_congr fun m _ => ?_
      rw [Bool.eq_iff_iff, Bool.and_eq_true, Bool.and_eq_true, direction.beyond_iff, inConversation]
      simp only [decide_eq_true_eq]
      tauto
    dsimp only
    rw [hmedia]
    refine ⟨_, direction.perm_inOrder _, s.pairwise_inOrder direction _, fun hmem => ?_, _, rfl,
      s.ids_attachAll sha256 accountId _, fun fuel hfuel => ?_⟩
    · have := (mem_filter.mp ((direction.perm_inOrder _).mem_iff.mp hmem)).2
      cases direction <;> simp [AdjacentMediaDirection.beyond, isBefore, isAfter] at this
    · have hperm := direction.perm_inOrder (s.messages.rows.filter (inConversation accountId conversationId))
      obtain ⟨pre, post, hsplit⟩ := append_of_mem
        (hperm.mem_iff.mpr (mem_filter.mpr ⟨(Table.find?_eq_some.mp hfind).1, hin⟩))
      have hlength : post.length < fuel := by
        have hle := length_filter_le (inConversation accountId conversationId) s.messages.rows
        rw [← hperm.length_eq, hsplit, length_append, length_cons] at hle
        omega
      obtain ⟨found, hfound, htake⟩ := Option.map_eq_some_iff.mp <|
        scanChunks_spec (fun m => messageHasVisualMedia (messageRecordFromRow m))
          (min (max limit 1) maxAdjacentMediaLimit) (Nat.succ_pos chunk)
          (s.rowsBeyond_eq direction accountId conversationId) fuel [] pre anchor post hsplit hlength
      unfold listAdjacentMedia
      rw [hanchor]
      dsimp only
      rw [hfound, Option.map_some, htake, ← filter_filter, AdjacentMediaDirection.inOrder_filter]
      rw [← s.rowsBeyond_eq direction accountId conversationId pre anchor post hsplit]
      rfl

end Store
end SignalConnector
