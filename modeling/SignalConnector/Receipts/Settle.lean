/-
# What a receipt envelope writes

The effect of a whole `apply_peer_receipt` call on a message row. A row is
written because some selected row at its key (account, conversation,
timestamp) moves or is viewed, so its ladder columns after the call are a
function of the selected rows at the key, `PeerReceipt.settle`. A timestamp
that an envelope lists twice finds its rows settled.
-/
import SignalConnector.Store.Receipts

namespace SignalConnector

open List

namespace PeerReceipt

variable (r : PeerReceipt)

/-- The rung of the ladder a receipt asks for. -/
def tier : MessageStatus := r.receipt.asStr

theorem next_eq_tier {r : PeerReceipt} {m : MessageRow} {status : MessageStatus}
    (h : r.next m = some status) : status = r.tier := by
  unfold next at h
  unfold tier
  cases hk : r.receipt <;> cases hs : m.status <;>
    simp_all [nextStatus, ReceiptKind.asStr]

/-! ### What the selected rows at one key write -/

def moved (ms : List MessageRow) : Bool := ms.any fun m => (r.next m).isSome

/-- One of the selected rows is viewed for the first time. -/
def viewed (ms : List MessageRow) : Bool := ms.any fun m => r.firstView m

/-- One of the selected rows is viewed for the first time and does not move. -/
def viewedOnly (ms : List MessageRow) : Bool :=
  ms.any fun m => !(r.next m).isSome && r.firstView m

variable (r : PeerReceipt) (x m : MessageRow) (ms : List MessageRow)

theorem moved_cons : r.moved (m :: ms) = ((r.next m).isSome || r.moved ms) := rfl

theorem viewed_cons : r.viewed (m :: ms) = (r.firstView m || r.viewed ms) := rfl

theorem viewedOnly_cons : r.viewedOnly (m :: ms) = ((!(r.next m).isSome && r.firstView m) || r.viewedOnly ms) := rfl

/-- The columns of a row after the rounds for the selected rows `ms` at its key. -/
def settle (x : MessageRow) : MessageRow :=
  { x with
    status := if r.moved ms then r.tier else x.status
    deliveredAt :=
      if r.moved ms ∧ r.tier = .delivered then x.deliveredAt.or (some (asI64 r.when)) else x.deliveredAt
    readAt := if r.moved ms ∧ r.tier = .read then x.readAt.or (some (asI64 r.when)) else x.readAt
    viewedAt :=
      if r.viewedOnly ms then some (asI64 r.when)
      else if r.viewed ms then x.viewedAt.or (some (asI64 r.when)) else x.viewedAt }

theorem settle_nil : r.settle [] x = x := rfl

theorem settle_one {r : PeerReceipt} {m x : MessageRow}
    (hkey : x.atKey r.accountId m.conversationId m.sentAt = true) : r.settle [m] x = Store.writeOf r m x := by
  unfold Store.writeOf
  rw [if_pos hkey]
  cases hnext : r.next m with
  | none =>
    cases hview : r.firstView m <;>
      simp [settle, moved, viewed, viewedOnly, hnext, hview, MessageRow.stampViewed]
  | some =>
    obtain rfl := next_eq_tier hnext
    cases hview : r.firstView m <;>
      simp [settle, moved, viewed, viewedOnly, hnext, hview, MessageRow.upgrade]

theorem settle_cons : r.settle ms (r.settle [m] x) = r.settle (m :: ms) x := by
  have hnil : r.moved [] = false ∧ r.viewed [] = false ∧ r.viewedOnly [] = false := ⟨rfl, rfl, rfl⟩
  simp only [settle, moved_cons, viewed_cons, viewedOnly_cons, hnil, Bool.or_false]
  congr 1
  · by_cases hm : (r.next m).isSome = true <;> by_cases hs : r.moved ms = true <;> simp [hm, hs]
  · by_cases ht : r.tier = .delivered <;> by_cases hm : (r.next m).isSome = true <;>
      by_cases hs : r.moved ms = true <;> simp [ht, hm, hs]
  · by_cases ht : r.tier = .read <;> by_cases hm : (r.next m).isSome = true <;>
      by_cases hs : r.moved ms = true <;> simp [ht, hm, hs]
  · by_cases hm : (r.next m).isSome = true <;> by_cases hv : r.firstView m = true <;>
      by_cases hs : r.viewed ms = true <;> by_cases ho : r.viewedOnly ms = true <;>
      simp [hm, hv, hs, ho]

end PeerReceipt

namespace PeerReceipt

variable {r : PeerReceipt} {ms : List MessageRow}

theorem viewed_of_viewedOnly (h : r.viewedOnly ms = true) : r.viewed ms = true := by
  obtain ⟨m, hm, hv⟩ := any_eq_true.mp h
  exact any_eq_true.mpr ⟨m, hm, (Bool.and_eq_true_iff.mp hv).2⟩

/-- Selected rows that neither move nor are viewed write nothing. -/
theorem settle_of_quiet (hm : r.moved ms = false)
    (hv : r.viewed ms = false) (x : MessageRow) : r.settle ms x = x := by
  have ho : r.viewedOnly ms = false := by
    rw [Bool.eq_false_iff] at hv ⊢
    exact fun h => hv (viewed_of_viewedOnly h)
  simp [settle, hm, hv, ho]

theorem settle_viewedAt (r : PeerReceipt) (ms : List MessageRow) (x : MessageRow) :
    (r.settle ms x).viewedAt = x.viewedAt ∨ (r.settle ms x).viewedAt = some (asI64 r.when) := by
  simp only [settle]
  split
  · exact .inr rfl
  · split
    · cases x.viewedAt with
      | none => exact .inr rfl
      | some => exact .inl rfl
    · exact .inl rfl

theorem settle_viewedAt_isSome (h : r.viewed ms = true)
    (x : MessageRow) : (r.settle ms x).viewedAt.isSome = true := by
  simp only [settle, h, if_true]
  split
  · rfl
  · cases x.viewedAt <;> rfl

theorem next_of_tier {m : MessageRow} (h : m.status = r.tier) : r.next m = none := by
  unfold next
  rw [h]
  unfold tier
  cases r.receipt <;> rfl

end PeerReceipt

namespace Store

/-- The selected rows at one key whose conversation qualifies. -/
def rowsAt (s : Store) (r : PeerReceipt) (conversationId : String) (sentAt : ℤ) : List MessageRow :=
  (s.qualifiedRows r sentAt).filter fun m => m.conversationId = conversationId

theorem mem_receiptCandidates {s : Store} {accountId : String} {z : ℤ} {m : MessageRow}
    {c : ConversationRow} (h : (m, c) ∈ s.receiptCandidates accountId z) :
    m ∈ s.messages.rows ∧ m.accountId = accountId ∧ m.sentAt = z ∧ m.direction = .outgoing ∧
      s.conversations.find? m.conversationId = some c := by
  have hsorted := mem_of_mem_take h
  rw [mem_insertionSort, mem_filterMap] at hsorted
  obtain ⟨m', hm', hc⟩ := hsorted
  obtain ⟨c', hc', heq⟩ := Option.map_eq_some_iff.mp hc
  cases heq
  obtain ⟨hrow, hp⟩ := mem_filter.mp hm'
  obtain ⟨hacc, hsent, hdir⟩ := of_decide_eq_true hp
  exact ⟨hrow, hacc, hsent, hdir, hc'⟩

theorem mem_qualifiedRows {s : Store} {r : PeerReceipt} {z : ℤ} {m : MessageRow} (h : m ∈ s.qualifiedRows r z) :
    m ∈ s.messages.rows ∧ m.accountId = r.accountId ∧ m.sentAt = z ∧ m.direction = .outgoing ∧
      ∃ c, s.conversations.find? m.conversationId = some c ∧ s.qualifies r.accountId r.recipient c = true := by
  obtain ⟨⟨m', c⟩, hmc, rfl⟩ := mem_map.mp h
  obtain ⟨hcand, hq⟩ := mem_filter.mp hmc
  obtain ⟨hrow, hacc, hsent, hdir, hc⟩ := mem_receiptCandidates hcand
  exact ⟨hrow, hacc, hsent, hdir, c, hc, hq⟩

theorem writesOf_eq_settle (r : PeerReceipt) (z : ℤ) :
    ∀ (ms : List MessageRow) (x : MessageRow), (∀ m ∈ ms, m.sentAt = z) → writesOf r ms x =
        if x.accountId = r.accountId ∧ x.sentAt = z then
          r.settle (ms.filter fun m => m.conversationId = x.conversationId) x
        else x
  | [], x, _ => by simp [writesOf, PeerReceipt.settle_nil]
  | m :: ms, x, hz => by
    have hm : m.sentAt = z := hz m (by simp)
    have ih := writesOf_eq_settle r z ms (writeOf r m x) fun m' h => hz m' (by simp [h])
    change writesOf r ms (writeOf r m x) = _
    rw [ih]
    by_cases hkey : x.atKey r.accountId m.conversationId m.sentAt = true
    · -- the round for `m` reaches `x`
      obtain ⟨hacc, hconv, hsent⟩ := of_decide_eq_true hkey
      rw [← PeerReceipt.settle_one hkey]
      have h : x.accountId = r.accountId ∧ x.sentAt = z := ⟨hacc, hsent.trans hm⟩
      have h' : (r.settle [m] x).accountId = r.accountId ∧ (r.settle [m] x).sentAt = z := h
      rw [if_pos h', if_pos h, PeerReceipt.settle_cons, filter_cons_of_pos (by simpa using hconv.symm)]
      rfl
    · -- it does not, and either the key of `x` differs or its conversation does
      have hskip : writeOf r m x = x := by
        unfold writeOf
        rw [if_neg hkey]
      rw [hskip]
      by_cases h : x.accountId = r.accountId ∧ x.sentAt = z
      · have hconv : m.conversationId ≠ x.conversationId := by
          intro hc
          exact hkey (by simp [MessageRow.atKey, h.1, h.2, hc, hm])
        rw [if_pos h, if_pos h, filter_cons_of_neg (by simpa using hconv)]
      · rw [if_neg h, if_neg h]

theorem writesOf_qualifiedRows (s : Store) (r : PeerReceipt) (z : ℤ) (x : MessageRow) :
    writesOf r (s.qualifiedRows r z) x =
      if x.accountId = r.accountId ∧ x.sentAt = z then r.settle (s.rowsAt r x.conversationId z) x
      else x :=
  writesOf_eq_settle r z _ x fun _ hm => (mem_qualifiedRows hm).2.2.1

end Store

/-! ### A whole envelope -/

namespace MessageRow

/-- The row without its ladder columns. -/
def face (x : MessageRow) : MessageRow :=
  { x with status := .pending, deliveredAt := none, readAt := none, viewedAt := none }

/-- Only the ladder columns of the two rows differ. -/
def SameFace (x y : MessageRow) : Prop := y.face = x.face

theorem SameFace.refl (x : MessageRow) : SameFace x x := rfl

theorem SameFace.trans {x y w : MessageRow} (h : SameFace x y) (h' : SameFace y w) : SameFace x w :=
  Eq.trans h' h

theorem SameFace.settle (r : PeerReceipt) (ms : List MessageRow) (x : MessageRow) :
    SameFace x (r.settle ms x) := rfl

section

variable {x y : MessageRow} (h : SameFace x y)
include h

theorem SameFace.id : y.id = x.id := by
  simpa only [face] using congrArg MessageRow.id h

theorem SameFace.accountId : y.accountId = x.accountId := by
  simpa only [face] using congrArg MessageRow.accountId h

theorem SameFace.conversationId : y.conversationId = x.conversationId := by
  simpa only [face] using congrArg MessageRow.conversationId h

theorem SameFace.direction : y.direction = x.direction := by
  simpa only [face] using congrArg MessageRow.direction h

theorem SameFace.sentAt : y.sentAt = x.sentAt := by
  simpa only [face] using congrArg MessageRow.sentAt h

end

end MessageRow

namespace Store

variable {s s' : Store} {r : PeerReceipt} {done : List ℤ} {g : MessageRow → MessageRow}

/-- Rewriting ladder columns does not change which rows a timestamp selects. -/
theorem receiptCandidates_map (hg : ∀ x, MessageRow.SameFace x (g x))
    (hframe : ReceiptFrame s s') (hrows : s'.messages.rows = s.messages.rows.map g) (accountId : String) (z : ℤ) :
    s'.receiptCandidates accountId z = (s.receiptCandidates accountId z).map fun mc => (g mc.1, mc.2) := by
  have hconv := hframe.conversations
  unfold receiptCandidates
  dsimp only
  rw [map_take, map_insertionSort _ (fun a b => a.1.id ≤ b.1.id), hrows, hconv, filter_map,
    filterMap_map, map_filterMap]
  · have hpred : ((fun m : MessageRow => decide (m.accountId = accountId ∧ m.sentAt = z ∧
        m.direction = .outgoing)) ∘ g) =
        fun m => decide (m.accountId = accountId ∧ m.sentAt = z ∧ m.direction = .outgoing) := by
      funext m
      simp only [Function.comp_apply, (hg m).accountId, (hg m).sentAt, (hg m).direction]
    have hjoin : ((fun m : MessageRow => (s.conversations.find? m.conversationId).map fun c => (m, c)) ∘ g) =
        fun m => ((s.conversations.find? m.conversationId).map fun c => (m, c)).map
          fun mc => (g mc.1, mc.2) := by
      funext m
      simp only [Function.comp_apply, (hg m).conversationId, Option.map_map]
      rfl
    rw [hpred, hjoin]
  · intro a _ b _
    simp only [(hg a.1).id, (hg b.1).id]

theorem qualifiedRows_map (hg : ∀ x, MessageRow.SameFace x (g x))
    (hframe : ReceiptFrame s s') (hrows : s'.messages.rows = s.messages.rows.map g)
    (r : PeerReceipt) (z : ℤ) : s'.qualifiedRows r z = (s.qualifiedRows r z).map g := by
  have hq : ∀ c, s'.qualifies r.accountId r.recipient c = s.qualifies r.accountId r.recipient c :=
    qualifies_congr hframe.peerIdentities hframe.contacts _ _
  unfold qualifiedRows
  rw [receiptCandidates_map hg hframe hrows, filter_map, map_map, map_map]
  simp only [Function.comp_def, hq]

theorem rowsAt_map (hg : ∀ x, MessageRow.SameFace x (g x))
    (hframe : ReceiptFrame s s') (hrows : s'.messages.rows = s.messages.rows.map g)
    (r : PeerReceipt) (conversationId : String) (z : ℤ) :
    s'.rowsAt r conversationId z = (s.rowsAt r conversationId z).map g := by
  unfold rowsAt
  rw [qualifiedRows_map hg hframe hrows, filter_map]
  simp only [Function.comp_def, (hg _).conversationId]

theorem mem_rowsAt {conversationId : String} {z : ℤ} {m : MessageRow} (h : m ∈ s.rowsAt r conversationId z) :
    m ∈ s.qualifiedRows r z ∧ m.conversationId = conversationId := by
  obtain ⟨hm, hc⟩ := mem_filter.mp h
  exact ⟨hm, by simpa using hc⟩

/-- What the timestamps `done` of an envelope have made of the row `x`, now `y`. -/
structure Settled (s : Store) (r : PeerReceipt) (done : List ℤ) (x y : MessageRow) : Prop where
  face : MessageRow.SameFace x y
  fresh : ¬(x.accountId = r.accountId ∧ x.sentAt ∈ done) → y = x
  ladder : x.accountId = r.accountId → x.sentAt ∈ done →
    y.status = (r.settle (s.rowsAt r x.conversationId x.sentAt) x).status ∧
    y.deliveredAt = (r.settle (s.rowsAt r x.conversationId x.sentAt) x).deliveredAt ∧
    y.readAt = (r.settle (s.rowsAt r x.conversationId x.sentAt) x).readAt
  viewedEither : y.viewedAt = x.viewedAt ∨ y.viewedAt = some (asI64 r.when)
  viewedOnce : x.accountId = r.accountId → x.sentAt ∈ done →
    r.viewed (s.rowsAt r x.conversationId x.sentAt) = true →
      y.viewedAt = (r.settle (s.rowsAt r x.conversationId x.sentAt) x).viewedAt
  viewedStill : r.viewed (s.rowsAt r x.conversationId x.sentAt) = false →
    (r.moved (s.rowsAt r x.conversationId x.sentAt) = true →
      ∀ m ∈ s.rowsAt r x.conversationId x.sentAt, m.status.onLadder = true) →
      y.viewedAt = x.viewedAt

theorem Settled.start (s : Store) (r : PeerReceipt) (x : MessageRow) : Settled s r [] x x where
  face := .refl x
  fresh _ := rfl
  ladder _ h := absurd h not_mem_nil
  viewedEither := .inl rfl
  viewedOnce _ h := absurd h not_mem_nil
  viewedStill _ _ := rfl

/-- A timestamp of another key leaves a settled row as it is. -/
theorem Settled.skip {x y : MessageRow} {z : ℤ}
    (h : Settled s r done x y) (hz : ¬(x.accountId = r.accountId ∧ x.sentAt = z)) :
    Settled s r (done ++ [z]) x y := by
  have hdone : x.accountId = r.accountId → x.sentAt ∈ done ++ [z] → x.sentAt ∈ done := by
    intro hacc hmem
    rcases mem_append.mp hmem with hmem | hmem
    · exact hmem
    · exact absurd ⟨hacc, mem_singleton.mp hmem⟩ hz
  refine ⟨h.face, fun hn => h.fresh fun hx => hn ⟨hx.1, mem_append_left _ hx.2⟩, ?_, h.viewedEither,
    ?_, h.viewedStill⟩
  · exact fun hacc hmem => h.ladder hacc (hdone hacc hmem)
  · exact fun hacc hmem => h.viewedOnce hacc (hdone hacc hmem)

theorem Settled.first {x : MessageRow} (hmem : x.accountId = r.accountId) :
    Settled s r (done ++ [x.sentAt]) x (r.settle (s.rowsAt r x.conversationId x.sentAt) x) where
  face := .settle r _ x
  fresh h := absurd ⟨hmem, by simp⟩ h
  ladder _ _ := ⟨rfl, rfl, rfl⟩
  viewedEither := r.settle_viewedAt _ x
  viewedOnce _ _ _ := rfl
  viewedStill hv _ := by
    have ho : r.viewedOnly (s.rowsAt r x.conversationId x.sentAt) = false := by
      rw [Bool.eq_false_iff] at hv ⊢
      exact fun h => hv (PeerReceipt.viewed_of_viewedOnly h)
    simp [PeerReceipt.settle, hv, ho]

/-- A later timestamp at the same key moves nothing. -/
theorem Settled.again {x : MessageRow} (hx : Settled s r done x (g x)) (hacc : x.accountId = r.accountId)
    (hdone : x.sentAt ∈ done) (hrows : ∀ m ∈ s.rowsAt r x.conversationId x.sentAt, Settled s r done m (g m)) :
    Settled s r (done ++ [x.sentAt]) x (r.settle ((s.rowsAt r x.conversationId x.sentAt).map g) (g x)) := by
  set ms := s.rowsAt r x.conversationId x.sentAt with hms
  -- the selected rows share the key of `x`, so they were settled by the same rows
  have hkey : ∀ m ∈ ms, m.accountId = r.accountId ∧ m.sentAt ∈ done ∧
      s.rowsAt r m.conversationId m.sentAt = ms := by
    intro m hm
    obtain ⟨hq, hconv⟩ := mem_rowsAt hm
    obtain ⟨-, hm_acc, hm_sent, -⟩ := mem_qualifiedRows hq
    rw [hconv, hm_sent]
    exact ⟨hm_acc, hdone, rfl⟩
  have hstatus : ∀ m ∈ ms, (g m).status = if r.moved ms then r.tier else m.status := by
    intro m hm
    obtain ⟨hm_acc, hm_done, hm_rows⟩ := hkey m hm
    rw [((hrows m hm).ladder hm_acc hm_done).1, hm_rows]
    rfl
  have hquiet : r.moved (ms.map g) = false := by
    rw [PeerReceipt.moved, any_map, any_eq_false]
    intro m hm
    have hst := hstatus m hm
    by_cases hmoved : r.moved ms = true
    · rw [if_pos hmoved] at hst
      simp [PeerReceipt.next_of_tier hst]
    · rw [if_neg hmoved] at hst
      have hm_next : ¬(r.next m).isSome = true := fun h => hmoved (any_eq_true.mpr ⟨m, hm, h⟩)
      simpa [PeerReceipt.next, hst] using hm_next
  have hcols : ∀ y : MessageRow, (r.settle (ms.map g) y).status = y.status ∧
      (r.settle (ms.map g) y).deliveredAt = y.deliveredAt ∧ (r.settle (ms.map g) y).readAt = y.readAt := by
    intro y
    simp [PeerReceipt.settle, hquiet]
  have hkept : (∀ m ∈ ms, r.firstView (g m) = false) → r.settle (ms.map g) (g x) = g x := fun hview => by
    refine PeerReceipt.settle_of_quiet hquiet ?_ _
    rw [PeerReceipt.viewed, any_map, any_eq_false]
    exact fun m hm => by simp [hview m hm]
  refine ⟨hx.face.trans (.settle r _ _), fun h => absurd ⟨hacc, by simp⟩ h, fun _ _ => ?_, ?_, fun _ _ hv => ?_,
    fun hv hladder => ?_⟩
  · obtain ⟨h₁, h₂, h₃⟩ := hx.ladder hacc hdone
    obtain ⟨k₁, k₂, k₃⟩ := hcols (g x)
    exact ⟨k₁.trans h₁, k₂.trans h₂, k₃.trans h₃⟩
  · rcases r.settle_viewedAt (ms.map g) (g x) with h | h
    · rw [h]
      exact hx.viewedEither
    · exact .inr h
  · -- the first visit viewed every row at the key
    rw [hkept fun m hm => ?_]
    · exact hx.viewedOnce hacc hdone hv
    · obtain ⟨hm_acc, hm_done, hm_rows⟩ := hkey m hm
      have hseen : (g m).viewedAt.isSome = true := by
        rw [(hrows m hm).viewedOnce hm_acc hm_done (hm_rows ▸ hv)]
        exact PeerReceipt.settle_viewedAt_isSome (hm_rows ▸ hv) m
      obtain ⟨stamp, hstamp⟩ := Option.isSome_iff_exists.mp hseen
      simp [PeerReceipt.firstView, hstamp]
  · -- nobody was viewed, and no row came onto the ladder since
    rw [hkept fun m hm => ?_]
    · exact hx.viewedStill hv hladder
    · obtain ⟨-, -, hm_rows⟩ := hkey m hm
      have hsame : (g m).viewedAt = m.viewedAt :=
        (hrows m hm).viewedStill (hm_rows ▸ hv) (hm_rows ▸ hladder)
      have hm_view : r.firstView m = false := by
        have := any_eq_false.mp hv m hm
        simpa using this
      have hst := hstatus m hm
      by_cases hmoved : r.moved ms = true
      · have hm_ladder := hladder hmoved m hm
        simp only [PeerReceipt.firstView, hm_ladder, Bool.and_true] at hm_view
        simp [PeerReceipt.firstView, hsame, hm_view]
      · rw [if_neg hmoved] at hst
        simpa [PeerReceipt.firstView, hsame, hst] using hm_view

/-- The rows of `s`, each as far as the timestamps `done` settled it. -/
def Progress (s : Store) (r : PeerReceipt) (done : List ℤ) (s' : Store) : Prop :=
  ReceiptFrame s s' ∧ ∃ g : MessageRow → MessageRow, (∀ x, MessageRow.SameFace x (g x)) ∧
    s'.messages.rows = s.messages.rows.map g ∧ ∀ x ∈ s.messages.rows, Settled s r done x (g x)

theorem Progress.start (s : Store) (r : PeerReceipt) : Progress s r [] s :=
  ⟨.refl s, id, fun x => .refl x, (map_id _).symm, fun x _ => .start s r x⟩

theorem Progress.step {t : ℕ} {acc acc' : PeerReceiptOutcome × Store} (h : Progress s r done acc.2)
    (happly : applyAt r acc t = .ok acc') : Progress s r (done ++ [asI64 t]) acc'.2 := by
  obtain ⟨hframe, g, hg, hrows, hsettled⟩ := h
  obtain ⟨hframe', hrows'⟩ := applyAt_spec happly
  refine ⟨hframe.trans hframe', fun x => writesOf r (acc.2.qualifiedRows r (asI64 t)) (g x), ?_, ?_, ?_⟩
  · intro x
    dsimp only
    rw [writesOf_qualifiedRows]
    split
    · exact (hg x).trans (.settle r _ _)
    · exact hg x
  · rw [hrows', hrows, map_map]
    rfl
  · intro x hx
    dsimp only
    rw [writesOf_qualifiedRows, (hg x).accountId, (hg x).sentAt, (hg x).conversationId,
      rowsAt_map hg hframe hrows]
    by_cases hkey : x.accountId = r.accountId ∧ x.sentAt = asI64 t
    · obtain ⟨hacc, hsent⟩ := hkey
      rw [if_pos ⟨hacc, hsent⟩, ← hsent]
      have hmem : ∀ m ∈ s.rowsAt r x.conversationId x.sentAt,
          m ∈ s.messages.rows ∧ m.sentAt = x.sentAt := by
        intro m hm
        obtain ⟨hrow, -, hm_sent, -⟩ := mem_qualifiedRows (mem_rowsAt hm).1
        exact ⟨hrow, hm_sent⟩
      by_cases hdone : x.sentAt ∈ done
      · exact (hsettled x hx).again hacc hdone fun m hm => hsettled m (hmem m hm).1
      · -- the first visit to this key finds the rows as the call found them
        have hx_fresh : g x = x := (hsettled x hx).fresh fun h => hdone h.2
        have hms_fresh : (s.rowsAt r x.conversationId x.sentAt).map g =
            s.rowsAt r x.conversationId x.sentAt := by
          conv_rhs => rw [← map_id (s.rowsAt r x.conversationId x.sentAt)]
          refine map_congr_left fun m hm => ?_
          obtain ⟨hrow, hm_sent⟩ := hmem m hm
          exact (hsettled m hrow).fresh fun h => hdone (hm_sent ▸ h.2)
        rw [hms_fresh, hx_fresh]
        exact .first hacc
    · rw [if_neg hkey]
      exact (hsettled x hx).skip hkey

theorem Progress.fold {s : Store} {r : PeerReceipt} :
    ∀ (ts : List ℕ) (done : List ℤ) (acc acc' : PeerReceiptOutcome × Store), Progress s r done acc.2 →
      ts.foldlM (applyAt r) acc = .ok acc' → Progress s r (done ++ ts.map asI64) acc'.2
  | [], done, acc, acc', h, hrun => by
    cases hrun
    simpa using h
  | t :: ts, done, acc, acc', h, hrun => by
    rw [foldlM_cons] at hrun
    obtain ⟨acc₁, hstep, hrun⟩ := exists_of_bind_ok hrun
    have := Progress.fold ts (done ++ [asI64 t]) acc₁ acc' (h.step hstep) hrun
    simpa using this

end Store

namespace PeerReceipt

/-- The stamps of the timestamps a call gets to. -/
def reached (r : PeerReceipt) : List ℤ := (r.targetSentAt.take 256).map asI64

end PeerReceipt

namespace Store

theorem applyPeerReceipt_spec {s s' : Store} {r : PeerReceipt} {outcome : PeerReceiptOutcome}
    (h : s.applyPeerReceipt r = .ok (outcome, s')) :
    (r.recipient = "" ∧ s' = s) ∨ (r.recipient ≠ "" ∧ Progress s r r.reached s') := by
  unfold applyPeerReceipt at h
  split at h
  · next hempty =>
    cases h
    by_cases hrec : r.recipient = ""
    · exact .inl ⟨hrec, rfl⟩
    · have hnil : r.reached = [] := by
        rcases hempty with hempty | hempty
        · simp [PeerReceipt.reached, List.isEmpty_iff.mp hempty]
        · exact absurd hempty hrec
      rw [hnil]
      exact .inr ⟨hrec, .start s r⟩
  · next hempty =>
    refine .inr ⟨fun hrec => hempty (.inr hrec), ?_⟩
    exact Progress.fold _ [] _ _ (.start s r) h

end Store

end SignalConnector
