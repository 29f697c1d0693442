/-
# The history of a message's edits

An edit replaces the body of the rows it addresses and files the body it
replaced. The three calls do this alike (`Store.editCall_eq`): all rows of the
address are rewritten, and the body of the one with the lowest id is filed. So a
second row of the address loses its body without an entry, and an edit that
says what the row said files a body that was not replaced.
-/
import SignalConnector.Lib.BoundedLog
import SignalConnector.Lib.Run
import SignalConnector.Store.Edits

namespace SignalConnector

open List Table

/-- A call of `apply_inbound_edit`, `apply_outgoing_edit` or `apply_outgoing_edit_by_signal`. -/
inductive EditCall
  | inbound (accountId conversationId : String) (targetSentAt : ℕ) (senderId legacySenderId newText : String)
    (newTextBytes now : ℕ)
  | outgoing (messageId accountId newText : String) (newTextBytes now : ℕ)
  | bySignal (accountId conversationId : String) (targetSentAt : ℕ) (newText : String) (newTextBytes now : ℕ)
  deriving DecidableEq

namespace EditCall

def accountId : EditCall → String
  | inbound accountId .. | outgoing _ accountId .. | bySignal accountId .. => accountId

def newText : EditCall → String
  | inbound _ _ _ _ _ newText .. | outgoing _ _ newText .. | bySignal _ _ _ newText .. => newText

def newTextBytes : EditCall → ℕ
  | inbound _ _ _ _ _ _ newTextBytes _ | outgoing _ _ _ newTextBytes _ | bySignal _ _ _ _ newTextBytes _ => newTextBytes

def now : EditCall → ℕ
  | inbound _ _ _ _ _ _ _ now | outgoing _ _ _ _ now | bySignal _ _ _ _ _ now => now

/-- The rows of the editor that the call is for. -/
def due : EditCall → MessageRow → Bool
  | inbound accountId conversationId targetSentAt senderId legacySenderId .. => fun m =>
    (m.accountId = accountId ∧ m.conversationId = conversationId ∧ m.sentAt = asI64 targetSentAt ∧
      (m.senderId = senderId ∨ m.senderId = legacySenderId)) && m.direction = .incoming && m.isLive
  | outgoing messageId accountId .. => fun m =>
    m.id = messageId ∧ m.accountId = accountId ∧ m.direction = .outgoing
  | bySignal accountId conversationId targetSentAt .. => fun m =>
    (m.accountId = accountId ∧ m.conversationId = conversationId ∧ m.sentAt = asI64 targetSentAt ∧
      m.direction = .outgoing) && m.isLive

end EditCall

/-- What a row says, an absent body read as an empty one. -/
def MessageRow.text (m : MessageRow) : String := m.body.getD ""

namespace Store

def edit (s : Store) : EditCall → Except StoreError (Option MessageRecord × Store)
  | .inbound accountId conversationId targetSentAt senderId legacySenderId newText newTextBytes now =>
    s.applyInboundEdit accountId conversationId targetSentAt senderId legacySenderId newText newTextBytes now
  | .outgoing messageId accountId newText newTextBytes now =>
    s.applyOutgoingEdit messageId accountId newText newTextBytes now
  | .bySignal accountId conversationId targetSentAt newText newTextBytes now =>
    s.applyOutgoingEditBySignal accountId conversationId targetSentAt newText newTextBytes now

/-- The store after a call; a call that fails is rolled back. -/
def editCall (s : Store) (c : EditCall) : Store :=
  match s.edit c with
  | .ok (_, s') => s'
  | .error _ => s

/-- The prior bodies filed for a message, oldest first. -/
def editsOf (s : Store) (id : String) : List MessageEditRow :=
  (s.messageEdits.rows.filter fun e => e.messageId = id).insertionSort fun a b => a.seq ≤ b.seq

/-! ### The snapshot -/

theorem le_foldr_max {n : ℕ} : ∀ {l : List ℕ}, n ∈ l → n ≤ l.foldr max 0
  | m :: l, h => by
    rw [foldr_cons]
    rcases mem_cons.mp h with rfl | h
    · exact le_max_left _ _
    · exact (le_foldr_max h).trans (le_max_right _ _)

theorem seq_lt_nextEditSeq {s : Store} {e : MessageEditRow} (h : e ∈ s.messageEdits.rows) : e.seq < s.nextEditSeq :=
  Nat.lt_succ_of_le (le_foldr_max (mem_map_of_mem h))

/-- **A snapshot files the body as the newest of its message,** which keeps its newest twenty. -/
theorem editsOf_snapshotPriorBody {s s' : Store} {accountId messageId priorBody : String} {now : ℕ}
    (h : s.snapshotPriorBody accountId messageId priorBody now = .ok s') (hne : priorBody ≠ "") :
    ∃ e : MessageEditRow, e ∉ s.messageEdits.rows ∧ e.messageId = messageId ∧
      e.body = truncateUtf8Bytes priorBody maxEditBodyBytes ∧
      s'.editsOf messageId = (s.editsOf messageId ++ [e]).rtake maxEditHistoryEntries ∧
      ∀ id, id ≠ messageId → s'.editsOf id = s.editsOf id := by
  unfold snapshotPriorBody at h
  rw [if_neg hne] at h
  split at h
  swap
  · cases h
  cases h
  set e : MessageEditRow := ⟨s.nextEditSeq, accountId, messageId, truncateUtf8Bytes priorBody maxEditBodyBytes,
    (min (truncateUtf8Bytes priorBody maxEditBodyBytes).utf8ByteSize u32Max : ℕ), asI64 now⟩ with he
  have hfree : s.messageEdits.find? e.seq = none :=
    Table.find?_eq_none.mpr fun e' he' => (seq_lt_nextEditSeq he').ne
  have hrows := rows_insertOrIgnore_of_free hfree
  have hnd : ((s.messageEdits.insertOrIgnore e).rows.map MessageEditRow.seq).Nodup :=
    (s.messageEdits.insertOrIgnore e).nodup
  have hown : (s.messageEdits.insertOrIgnore e).rows.filter (fun e => e.messageId = messageId) =
      s.messageEdits.rows.filter (fun e => e.messageId = messageId) ++ [e] := by
    rw [hrows, filter_append]
    simp [he]
  refine ⟨e, fun hmem => (seq_lt_nextEditSeq hmem).ne rfl, rfl, rfl, ?_, fun id hid => ?_⟩
  · have hown' : ((s.messageEdits.insertOrIgnore e).delete fun e' => e'.messageId = messageId ∧
          e'.seq ∉ keptEdits (s.messageEdits.insertOrIgnore e) messageId).rows.filter (fun e' => e'.messageId = messageId) =
        ((s.messageEdits.insertOrIgnore e).rows.filter fun e' => e'.messageId = messageId).filter
          fun e' => e'.seq ∈ keptEdits (s.messageEdits.insertOrIgnore e) messageId := by
      rw [rows_delete, filter_filter, filter_filter]
      refine filter_congr fun e' _ => ?_
      by_cases hid : e'.messageId = messageId <;> simp [hid]
    have hnd' := hnd.sublist ((filter_sublist (p := fun e => e.messageId = messageId)).map MessageEditRow.seq)
    have hkept := sort_kept hnd' maxEditHistoryEntries
    unfold editsOf
    rw [hown']
    refine hkept.trans ?_
    rw [hown] at hnd' ⊢
    rw [sort_concat (hnd'.sublist ((sublist_append_left _ _).map _)) fun e' he' =>
      seq_lt_nextEditSeq (mem_of_mem_filter he')]
  · unfold editsOf
    rw [rows_delete, hrows, filter_filter, filter_append]
    have hother : [e].filter (fun e' => decide (e'.messageId = id) && !decide (e'.messageId = messageId ∧
        e'.seq ∉ keptEdits (s.messageEdits.insertOrIgnore e) messageId)) = [] := by
      simp [he, Ne.symm hid]
    rw [hother, append_nil]
    refine congrArg _ (filter_congr fun e' _ => ?_)
    by_cases hid' : e'.messageId = id <;> simp [hid', hid]

/-! ### One call -/

/-- The store in which the rows of the call say what it says. -/
def rewritten (s : Store) (c : EditCall) : Store :=
  s.updateMessages c.due (MessageRow.edited c.newText c.newTextBytes c.now)
    (MessageRow.id_edited c.newText c.newTextBytes c.now)

theorem firstRow_eq_none {s : Store} {p : MessageRow → Bool} (h : ∀ m ∈ s.messages.rows, ¬p m) : s.firstRow p = none := by
  rw [firstRow, filter_eq_nil_iff.mpr h]
  rfl

theorem exists_firstRow {s : Store} {p : MessageRow → Bool} {m : MessageRow} (hm : m ∈ s.messages.rows) (hp : p m) :
    ∃ first, s.firstRow p = some first := by
  have hsorted : m ∈ (s.messages.rows.filter p).insertionSort fun a b => a.id ≤ b.id :=
    (mem_insertionSort _).mpr (mem_filter.mpr ⟨hm, hp⟩)
  obtain ⟨first, rest, hrest⟩ := exists_cons_of_ne_nil (ne_nil_of_mem hsorted)
  exact ⟨first, by rw [firstRow, hrest, head?_cons]⟩

variable (s : Store) (c : EditCall)

theorem find?_due_outgoing (messageId accountId newText : String) (newTextBytes now : ℕ) :
    s.messages.rows.find? (EditCall.outgoing messageId accountId newText newTextBytes now).due =
      s.firstRow (EditCall.outgoing messageId accountId newText newTextBytes now).due := by
  rcases hfound : s.messages.rows.find? (EditCall.outgoing messageId accountId newText newTextBytes now).due with _ | m
  · exact (firstRow_eq_none (List.find?_eq_none.mp hfound)).symm
  · have hm := mem_of_find?_eq_some hfound
    have hdue := find?_some hfound
    obtain ⟨first, hfirst⟩ := exists_firstRow hm hdue
    obtain ⟨hmem, hdue'⟩ := firstRow_eq_some hfirst
    rw [hfirst, s.messages.row_unique hm hmem ((of_decide_eq_true hdue).1.trans (of_decide_eq_true hdue').1.symm)]

theorem map_snd_bind {ρ σ : Type} (x : Except StoreError σ) (f : σ → ρ) :
    (x >>= fun s => .ok (f s, s)).map Prod.snd = x := by
  cases x <;> rfl

/-- **The three edits do the same:** the rows of the address are rewritten, and the body of the first is filed. -/
theorem map_snd_edit : (s.edit c).map Prod.snd =
    (s.rewritten c).snapshotOf c.accountId (s.firstRow c.due) c.now := by
  cases c with
  | inbound accountId conversationId targetSentAt senderId legacySenderId newText newTextBytes now =>
    by_cases hany : s.messages.rows.any (EditCall.inbound accountId conversationId targetSentAt senderId legacySenderId
        newText newTextBytes now).due
    · exact (congrArg (Except.map Prod.snd) (if_pos hany)).trans (map_snd_bind _ _)
    · have hnone : ∀ m ∈ s.messages.rows, ¬(EditCall.inbound accountId conversationId targetSentAt senderId
          legacySenderId newText newTextBytes now).due m := fun m hm hdue => hany (any_eq_true.mpr ⟨m, hm, hdue⟩)
      rw [firstRow_eq_none hnone, rewritten, updateMessages_of_none fun m hm => by simpa using hnone m hm]
      exact congrArg (Except.map Prod.snd) (if_neg hany)
  | outgoing =>
    rw [← find?_due_outgoing]
    exact map_snd_bind _ _
  | bySignal => exact map_snd_bind _ _

theorem editCall_eq : s.editCall c =
    match (s.rewritten c).snapshotOf c.accountId (s.firstRow c.due) c.now with
    | .ok s' => s'
    | .error _ => s := by
  rw [← map_snd_edit, editCall]
  rcases s.edit c with e | ⟨record, s'⟩ <;> rfl

theorem find?_rewritten (id : String) : (s.rewritten c).messages.find? id =
    (s.messages.find? id).map fun m => if c.due m then m.edited c.newText c.newTextBytes c.now else m :=
  find?_updateMessages s _ _ _ id

/-- The call is for a row and not refused: a body is filed under an account only. -/
def Takes (first : MessageRow) : Prop :=
  s.firstRow c.due = some first ∧ (first.text = "" ∨ (s.accounts.find? c.accountId).isSome)

variable {s : Store} {c : EditCall} {first : MessageRow}

/-- A call that finds no row or no account changes nothing. -/
theorem editCall_of_not_takes (h : ∀ first, ¬s.Takes c first) : s.editCall c = s := by
  rw [editCall_eq]
  rcases hfirst : s.firstRow c.due with _ | first
  · refine updateMessages_of_none fun m hm => Bool.eq_false_iff.mpr fun hdue => ?_
    obtain ⟨first, hfirst'⟩ := exists_firstRow hm hdue
    rw [hfirst] at hfirst'
    cases hfirst'
  · have hrefused := not_or.mp fun htakes => h first ⟨hfirst, htakes⟩
    have hsnapshot : (s.rewritten c).snapshotOf c.accountId (some first) c.now = .error .unavailable :=
      (if_neg hrefused.1).trans (if_neg fun hboth => hrefused.2 hboth.1)
    rw [hsnapshot]

theorem editCall_of_takes (h : s.Takes c first) : (∀ id, (s.editCall c).messages.find? id =
        (s.messages.find? id).map fun m => if c.due m then m.edited c.newText c.newTextBytes c.now else m) ∧
      (first.text = "" → ∀ id, (s.editCall c).editsOf id = s.editsOf id) ∧
      (first.text ≠ "" → ∃ e : MessageEditRow, e ∉ s.messageEdits.rows ∧ e.messageId = first.id ∧
        e.body = truncateUtf8Bytes first.text maxEditBodyBytes ∧
        (s.editCall c).editsOf first.id = (s.editsOf first.id ++ [e]).rtake maxEditHistoryEntries ∧
        ∀ id, id ≠ first.id → (s.editCall c).editsOf id = s.editsOf id) := by
  obtain ⟨hfirst, haccount⟩ := h
  rw [editCall_eq, hfirst]
  by_cases hempty : first.text = ""
  · have hsnapshot : (s.rewritten c).snapshotOf c.accountId (some first) c.now = .ok (s.rewritten c) := if_pos hempty
    rw [hsnapshot]
    exact ⟨find?_rewritten s c, fun _ _ => rfl, fun hne => absurd hempty hne⟩
  · have hrow : ((s.rewritten c).messages.find? first.id).isSome := by
      rw [find?_rewritten, mem_iff_find?.mp (firstRow_eq_some hfirst).1]
      rfl
    obtain ⟨s', hsnapshot⟩ : ∃ s', (s.rewritten c).snapshotPriorBody c.accountId first.id first.text c.now = .ok s' :=
      ⟨_, (if_neg hempty).trans (if_pos ⟨haccount.resolve_left hempty, hrow⟩)⟩
    have hok : (s.rewritten c).snapshotOf c.accountId (some first) c.now = .ok s' := hsnapshot
    rw [hok]
    have hfiled := editsOf_snapshotPriorBody hsnapshot hempty
    refine ⟨fun id => ?_, fun h => absurd h hempty, fun _ => hfiled⟩
    dsimp only
    rw [(snapshotPriorBody_spec hsnapshot).1, find?_rewritten]

/-! ### What is to be recorded -/

/-- A row whose non-empty body was replaced has one new entry, which holds it; every other message has the entries
it had. -/
structure Recorded (s s' : Store) : Prop where
  rows : ∀ m ∈ s.messages.rows, ∃ m', s'.messages.find? m.id = some m' ∧
    if m'.body ≠ m.body ∧ m.text ≠ "" then
      ∃ e : MessageEditRow, e ∉ s.messageEdits.rows ∧ e.messageId = m.id ∧
        e.body = truncateUtf8Bytes m.text maxEditBodyBytes ∧
        s'.editsOf m.id = (s.editsOf m.id ++ [e]).rtake maxEditHistoryEntries
    else s'.editsOf m.id = s.editsOf m.id
  others : ∀ id, s.messages.find? id = none → s'.editsOf id = s.editsOf id

/-- The call, if taken, replaces the body of its first row, if not empty, and no other. -/
def ReplacesOne (s : Store) (c : EditCall) : Prop :=
  ∀ first, s.Takes c first → (first.text ≠ "" → first.body ≠ some c.newText) ∧
    ∀ m ∈ s.messages.rows, c.due m → m.id ≠ first.id → m.text = "" ∨ m.body = some c.newText

theorem mem_rtake_concat (l : List MessageEditRow) (e : MessageEditRow) :
    e ∈ (l ++ [e]).rtake maxEditHistoryEntries := by
  rw [maxEditHistoryEntries, rtake_concat_succ]
  simp

theorem mem_editsOf {id : String} {e : MessageEditRow} (h : e ∈ s.editsOf id) : e ∈ s.messageEdits.rows :=
  mem_of_mem_filter ((mem_insertionSort _).mp h)

/-- **A call records what it replaces iff it replaces one body at most, the first row's.** -/
theorem recorded_iff (s : Store) (c : EditCall) : Recorded s (s.editCall c) ↔ s.ReplacesOne c := by
  by_cases htakes : ∃ first, s.Takes c first
  swap
  · rw [not_exists] at htakes
    rw [editCall_of_not_takes htakes]
    refine ⟨fun _ first h => absurd h (htakes first), fun _ => ⟨fun m hm => ?_, fun _ _ => rfl⟩⟩
    exact ⟨m, mem_iff_find?.mp hm, by simp⟩
  obtain ⟨first, hfirst⟩ := htakes
  obtain ⟨hfind, hempty, hfiled⟩ := editCall_of_takes hfirst
  obtain ⟨hmem, hdue⟩ := firstRow_eq_some hfirst.1
  have hsame : ∀ id, id ≠ first.id → (s.editCall c).editsOf id = s.editsOf id := fun id hid => by
    by_cases hne : first.text = ""
    · exact hempty hne id
    · obtain ⟨e, -, -, -, -, hothers⟩ := hfiled hne
      exact hothers id hid
  have hrow : ∀ m ∈ s.messages.rows, (s.editCall c).messages.find? m.id =
      some (if c.due m then m.edited c.newText c.newTextBytes c.now else m) := fun m hm => by
    rw [hfind, mem_iff_find?.mp hm, Option.map_some]
  constructor
  · rintro ⟨hrows, -⟩ first' hfirst'
    obtain rfl : first' = first := Option.some.inj (hfirst'.1.symm.trans hfirst.1)
    refine ⟨fun hne hbody => ?_, fun m hm hdue' hid => ?_⟩
    · -- the first row said so before, and yet a body was filed
      obtain ⟨e, hfresh, -, -, hedits, -⟩ := hfiled hne
      obtain ⟨m', hm', hrecorded⟩ := hrows first' hmem
      obtain rfl := Option.some.inj ((hrow first' hmem).symm.trans hm')
      rw [if_pos hdue, if_neg fun h => h.1 hbody.symm, hedits] at hrecorded
      exact hfresh (mem_editsOf (hrecorded ▸ mem_rtake_concat _ e))
    · -- another row of the address lost its body, and none was filed for it
      by_contra hnot
      rw [not_or] at hnot
      obtain ⟨m', hm', hrecorded⟩ := hrows m hm
      obtain rfl := Option.some.inj ((hrow m hm).symm.trans hm')
      rw [if_pos hdue', if_pos ⟨fun hbody => hnot.2 hbody.symm, hnot.1⟩, hsame m.id hid] at hrecorded
      obtain ⟨e, hfresh, -, -, hedits⟩ := hrecorded
      exact hfresh (mem_editsOf (hedits ▸ mem_rtake_concat _ e))
  · intro h
    obtain ⟨hchanged, hothers⟩ := h first hfirst
    refine ⟨fun m hm => ⟨_, hrow m hm, ?_⟩, fun id hnone => hsame id ?_⟩
    · by_cases hid : m.id = first.id
      · obtain rfl : m = first := s.messages.row_unique hm hmem hid
        rw [if_pos hdue]
        by_cases hne : m.text = ""
        · rw [if_neg fun h => h.2 hne]
          exact hempty hne m.id
        · obtain ⟨e, hfresh, hmessage, hbody, hedits, -⟩ := hfiled hne
          rw [if_pos ⟨fun hbody => hchanged hne hbody.symm, hne⟩]
          exact ⟨e, hfresh, hmessage, hbody, hedits⟩
      · rw [if_neg]
        · exact hsame m.id hid
        · rintro ⟨hbody, hne⟩
          by_cases hdue' : c.due m
          · rw [if_pos hdue'] at hbody
            rcases hothers m hm hdue' hid with hempty | hsaid
            · exact hne hempty
            · exact hbody hsaid.symm
          · rw [if_neg hdue'] at hbody
            exact hbody rfl
    · rintro rfl
      rw [mem_iff_find?.mp hmem] at hnone
      cases hnone

/-! ### Whole runs -/

/-- The body a call replaces in a row, cut as it is filed; an empty one is none. -/
def replacedBy (s : Store) (c : EditCall) (id : String) : List String :=
  match s.messages.find? id, (s.editCall c).messages.find? id with
  | some m, some m' => if m'.body ≠ m.body ∧ m.text ≠ "" then [truncateUtf8Bytes m.text maxEditBodyBytes] else []
  | _, _ => []

/-- The bodies the calls of a run replace in a row, in this order. -/
def replacedIn (id : String) : Store → List EditCall → List String
  | _, [] => []
  | s, c :: calls => s.replacedBy c id ++ replacedIn id (s.editCall c) calls

/-- Each call records one entry for each body replaced, a message keeps the last twenty, and a call changes no row
but its editor's. -/
structure EditsRecorded (s : Store) (calls : List EditCall) : Prop where
  recorded : Along editCall (fun s c => Recorded s (s.editCall c)) s calls
  history : ∀ before, before <+: calls → ∀ id, ((before.foldl editCall s).editsOf id).map (·.body) =
    ((s.editsOf id).map (·.body) ++ replacedIn id s before).rtake maxEditHistoryEntries
  editor : Along editCall (fun s c => ∀ m ∈ s.messages.rows, ¬c.due m →
    (s.editCall c).messages.find? m.id = some m) s calls

theorem Recorded.history (h : Recorded s (s.editCall c)) {id : String}
    (hcap : (s.editsOf id).length ≤ maxEditHistoryEntries) : ((s.editCall c).editsOf id).map (·.body) =
      ((s.editsOf id).map (·.body) ++ s.replacedBy c id).rtake maxEditHistoryEntries := by
  have hkept : ((s.editsOf id).map MessageEditRow.body ++ []).rtake maxEditHistoryEntries =
      (s.editsOf id).map MessageEditRow.body := by
    rw [append_nil, rtake_of_length_le (by rwa [length_map])]
  unfold replacedBy
  rcases hm : s.messages.find? id with _ | m
  · rw [h.others id hm, hkept]
  · obtain ⟨m', hm', hrecorded⟩ := h.rows m (Table.find?_eq_some.mp hm).1
    rw [key_of_find? hm] at hm' hrecorded
    rw [hm']
    dsimp only
    split_ifs at hrecorded ⊢ with hreplaced
    · obtain ⟨e, -, -, hbody, hedits⟩ := hrecorded
      rw [hedits, ← map_rtake, map_append, map_singleton, hbody]
    · rw [hrecorded, hkept]

theorem history_of_recorded (id : String) : ∀ (calls : List EditCall) (s : Store),
    (s.editsOf id).length ≤ maxEditHistoryEntries → Along editCall (fun s c => Recorded s (s.editCall c)) s calls →
      ((calls.foldl editCall s).editsOf id).map (·.body) =
        ((s.editsOf id).map (·.body) ++ replacedIn id s calls).rtake maxEditHistoryEntries
  | [], s, hcap, _ => by
    rw [replacedIn, append_nil, rtake_of_length_le (by rwa [length_map])]
    rfl
  | c :: calls, s, hcap, h => by
    have hstep := h.1.history hcap
    have hcap' : ((s.editCall c).editsOf id).length ≤ maxEditHistoryEntries := by
      rw [← length_map (·.body), hstep]
      exact length_rtake_le _ _
    rw [foldl_cons, history_of_recorded id calls (s.editCall c) hcap' h.2, hstep, rtake_rtake_append,
      append_assoc, replacedIn]

theorem find?_editCall_of_not_due {m : MessageRow} (hm : m ∈ s.messages.rows) (hdue : ¬c.due m) :
    (s.editCall c).messages.find? m.id = some m := by
  by_cases htakes : ∃ first, s.Takes c first
  · obtain ⟨first, hfirst⟩ := htakes
    rw [(editCall_of_takes hfirst).1, mem_iff_find?.mp hm, Option.map_some, if_neg hdue]
  · rw [editCall_of_not_takes (not_exists.mp htakes)]
    exact mem_iff_find?.mp hm

/-- **Edits record what they replace iff each replaces one body**: a call taken changes the non-empty body
of its first row and no other. -/
theorem edits_recorded_iff (s : Store) (calls : List EditCall) : s.EditsRecorded calls ↔
    (∀ id, (s.editsOf id).length ≤ maxEditHistoryEntries) ∧ Along editCall ReplacesOne s calls := by
  constructor
  · rintro ⟨hrecorded, hhistory, -⟩
    refine ⟨fun id => ?_, (Along.congr recorded_iff calls s).mp hrecorded⟩
    have hstart := congrArg List.length (hhistory [] nil_prefix id)
    rw [length_map] at hstart
    exact hstart.trans_le (length_rtake_le _ _)
  · rintro ⟨hcap, hone⟩
    have hrecorded := (Along.congr recorded_iff calls s).mpr hone
    refine ⟨hrecorded, ?_, Along.of_forall (fun s c m hm hdue => find?_editCall_of_not_due hm hdue) calls s⟩
    rintro before ⟨rest, rfl⟩ id
    exact history_of_recorded id before s (hcap id) ((Along.append_iff before rest s).mp hrecorded).1

end Store

/-! ### Two rows at one address -/

namespace Edits

def twice : Store :=
  { Store.empty with
    accounts := .single (.ofAddress "account" "+1" "+***1" "group")
    messages := ⟨[.ofText "m1" "account" "conversation" .incoming "hash" 400 "hello" .delivered,
      .ofText "m2" "account" "conversation" .incoming "legacy" 400 "hello" .delivered], by decide⟩ }

def correction : EditCall := .inbound "account" "conversation" 400 "hash" "legacy" "hello!" 6 900

/-- The edit replaces both bodies and files one. -/
theorem second_body_is_lost :
    ((twice.editCall correction).messages.rows.map (·.body) = [some "hello!", some "hello!"]) ∧
      ((twice.editCall correction).editsOf "m1").map (·.body) = ["hello"] ∧
      (twice.editCall correction).editsOf "m2" = [] ∧ ¬twice.EditsRecorded [correction] := by
  refine ⟨by decide +kernel, by decide +kernel, by decide +kernel, fun h => ?_⟩
  exact absurd (h.history [correction] prefix_rfl "m2") (by decide +kernel)

end Edits

end SignalConnector
