/-
# The receipt ladder

A receipt is there to move the rows it addresses up the ladder `pending, sent →
delivered → read` and to leave every other row alone (`Store.LadderLaw`). The
call's `UPDATE` is keyed by account, conversation and timestamp, so it does
that exactly when the rows that share a written key move alike
(`Store.KeyClean`).
-/
import SignalConnector.Receipts.Settle

namespace SignalConnector

open List

/-! ### The ladder -/

namespace MessageStatus

/-- The height of a status on the ladder; a status off the ladder has none. -/
def rank : MessageStatus → Option ℕ
  | pending | sent => some 0
  | delivered => some 1
  | read => some 2
  | _ => none

variable (status tier : MessageStatus)

/-- The higher of a row's status and the rung a receipt asks for; a status off the ladder stays. -/
def raise : MessageStatus :=
  match status.rank, tier.rank with
  | some a, some b => if a < b then tier else status
  | _, _ => status

/-- On the ladder and not above `tier`. -/
def notAbove : Bool :=
  match status.rank, tier.rank with
  | some a, some b => a ≤ b
  | _, _ => false

/-- On the ladder and below `tier`. -/
def below : Bool :=
  match status.rank, tier.rank with
  | some a, some b => a < b
  | _, _ => false

end MessageStatus

namespace PeerReceipt

variable (r : PeerReceipt) (status : MessageStatus)

/-- A row is raised to the rung iff it is on the ladder and not above it. -/
theorem raise_eq_tier_iff : status.raise r.tier = r.tier ↔ status.notAbove r.tier = true := by
  unfold tier
  cases r.receipt <;> cases status <;> decide

/-- A row keeps its status under a receipt iff it is not below the rung. -/
theorem raise_eq_self_iff : status.raise r.tier = status ↔ status.below r.tier = false := by
  unfold tier
  cases r.receipt <;> cases status <;> decide

/-- Raising never lowers. -/
theorem rank_raise (n : ℕ) (h : status.rank = some n) : ∃ n', (status.raise r.tier).rank = some n' ∧ n ≤ n' := by
  unfold MessageStatus.raise
  rw [h]
  cases ht : r.tier.rank with
  | none => exact ⟨n, h, le_rfl⟩
  | some b =>
    dsimp only
    split
    · next hlt => exact ⟨b, ht, hlt.le⟩
    · exact ⟨n, h, le_rfl⟩

theorem raise_offLadder (h : status.rank = none) : status.raise r.tier = status := by
  unfold MessageStatus.raise
  rw [h]

def tierStamp (x : MessageRow) : Option ℤ :=
  if r.tier = .delivered then x.deliveredAt else x.readAt

theorem tier_cases : r.tier = .delivered ∨ r.tier = .read := by
  unfold tier
  cases r.receipt <;> decide

end PeerReceipt

/-! ### What a receipt is for -/

namespace Store

variable (s : Store) (r : PeerReceipt)

/-- The receipt is for this row: outgoing, of its account, at a listed timestamp, in a qualifying conversation. -/
def Addressed (x : MessageRow) : Prop :=
  r.recipient ≠ "" ∧ x.accountId = r.accountId ∧ x.direction = .outgoing ∧
    x.sentAt ∈ r.targetSentAt.map asI64 ∧
    (s.conversations.find? x.conversationId).any (s.qualifies r.accountId r.recipient) = true
  deriving Decidable

/-- What a receipt may do to the row `x`, which it leaves as `y`. -/
structure RowLaw (s : Store) (r : PeerReceipt) (x y : MessageRow) : Prop where
  others : ¬s.Addressed r x → y.status = x.status ∧ y.deliveredAt = x.deliveredAt ∧
    y.readAt = x.readAt ∧ y.viewedAt = x.viewedAt
  offLadder : x.status.rank = none → y.status = x.status
  climbs : ∀ n, x.status.rank = some n → ∃ n', y.status.rank = some n' ∧ n ≤ n'
  highest : s.Addressed r x → y.status = x.status.raise r.tier

/-- **The ladder law.** The receipt moves the rows it addresses up to its rung and leaves the others. -/
def LadderLaw (s' : Store) : Prop :=
  ∀ x ∈ s.messages.rows, ∃ y ∈ s'.messages.rows, y.id = x.id ∧ s.RowLaw r x y

/-- The selected rows that decide what is written at the key of `x`. -/
def decidedBy (x : MessageRow) : List MessageRow :=
  if x.sentAt ∈ r.reached then s.rowsAt r x.conversationId x.sentAt else []

/-- A row that fits what the receipt writes at its key: an outgoing one is written iff due, any other shows it
already. -/
def RowClean (x : MessageRow) : Prop :=
  if x.direction = .outgoing then
    (r.moved (s.decidedBy r x) = true → x.status.notAbove r.tier = true) ∧
    (x.status.below r.tier = true → r.moved (s.decidedBy r x) = true)
  else
    (r.moved (s.decidedBy r x) = true → x.status = r.tier ∧ (r.tierStamp x).isSome = true) ∧
    (r.viewed (s.decidedBy r x) = true → x.viewedAt.isSome = true) ∧
    (r.viewedOnly (s.decidedBy r x) = true → x.viewedAt = some (asI64 r.when))
  deriving Decidable

/-- Every key the receipt lists is clean: the account's rows at it, in a qualifying conversation, all
fit what is written there. -/
def KeyClean (r : PeerReceipt) : Prop :=
  r.recipient ≠ "" → ∀ x ∈ s.messages.rows, x.accountId = r.accountId →
    x.sentAt ∈ r.targetSentAt.map asI64 →
    (s.conversations.find? x.conversationId).any (s.qualifies r.accountId r.recipient) = true →
    s.RowClean r x
  deriving Decidable

/-! ### When the law holds -/

variable {s s' : Store} {r : PeerReceipt}

variable {x y : MessageRow}

theorem decidedBy_qualifies {m : MessageRow} (h : m ∈ s.decidedBy r x) :
    (s.conversations.find? x.conversationId).any (s.qualifies r.accountId r.recipient) = true := by
  unfold decidedBy at h
  split at h
  · obtain ⟨hm, hconv⟩ := mem_rowsAt h
    obtain ⟨-, -, -, -, c, hc, hq⟩ := mem_qualifiedRows hm
    rw [← hconv, hc]
    exact hq
  · cases h

/-- The columns a call leaves a row of its account with. -/
theorem Settled.columns (h : Settled s r r.reached x y) (hacc : x.accountId = r.accountId) :
    y.status = (r.settle (s.decidedBy r x) x).status ∧ y.deliveredAt = (r.settle (s.decidedBy r x) x).deliveredAt ∧
    y.readAt = (r.settle (s.decidedBy r x) x).readAt ∧
    (r.viewed (s.decidedBy r x) = true → y.viewedAt = (r.settle (s.decidedBy r x) x).viewedAt) ∧
    (r.viewed (s.decidedBy r x) = false →
      (r.moved (s.decidedBy r x) = true → ∀ m ∈ s.decidedBy r x, m.status.onLadder = true) →
        y.viewedAt = x.viewedAt) := by
  unfold decidedBy
  by_cases hmem : x.sentAt ∈ r.reached
  · simp only [if_pos hmem]
    obtain ⟨h₁, h₂, h₃⟩ := h.ladder hacc hmem
    exact ⟨h₁, h₂, h₃, h.viewedOnce hacc hmem, h.viewedStill⟩
  · simp only [if_neg hmem]
    rw [h.fresh fun hx => hmem hx.2]
    exact ⟨rfl, rfl, rfl, fun _ => rfl, fun _ _ => rfl⟩

/-- The law, read off the row: what is written at its key is what it is due. -/
theorem rowClean_of_rowLaw
    (h : Settled s r r.reached x y) (hrec : r.recipient ≠ "") (hacc : x.accountId = r.accountId)
    (hlisted : x.sentAt ∈ r.targetSentAt.map asI64)
    (hq : (s.conversations.find? x.conversationId).any (s.qualifies r.accountId r.recipient) = true)
    (hlaw : s.RowLaw r x y) : s.RowClean r x := by
  obtain ⟨hstatus, hdelivered, hread, hviewed, -⟩ := h.columns hacc
  unfold RowClean
  split
  · next hdir =>
    have hraise := hlaw.highest ⟨hrec, hacc, hdir, hlisted, hq⟩
    rw [hstatus] at hraise
    constructor
    · intro hmoved
      simp only [PeerReceipt.settle, hmoved, if_true] at hraise
      exact (r.raise_eq_tier_iff _).mp hraise.symm
    · intro hbelow
      by_contra hmoved
      simp only [PeerReceipt.settle, hmoved, if_false] at hraise
      have := (r.raise_eq_self_iff x.status).mp hraise.symm
      rw [hbelow] at this
      cases this
  · next hdir =>
    obtain ⟨e₁, e₂, e₃, e₄⟩ := hlaw.others fun ha => hdir ha.2.2.1
    refine ⟨fun hmoved => ?_, fun hview => ?_, fun honly => ?_⟩
    · rw [hstatus] at e₁
      rw [hdelivered] at e₂
      rw [hread] at e₃
      simp only [PeerReceipt.settle, hmoved, if_true, true_and] at e₁ e₂ e₃
      refine ⟨e₁.symm, ?_⟩
      unfold PeerReceipt.tierStamp
      rcases r.tier_cases with ht | ht
      · rw [if_pos ht] at e₂ ⊢
        rw [← e₂]
        cases x.deliveredAt <;> rfl
      · have hne : r.tier ≠ .delivered := by
          rw [ht]
          decide
        rw [if_pos ht] at e₃
        rw [if_neg hne, ← e₃]
        cases x.readAt <;> rfl
    · rw [← e₄, hviewed hview]
      exact PeerReceipt.settle_viewedAt_isSome hview x
    · rw [← e₄, hviewed (PeerReceipt.viewed_of_viewedOnly honly)]
      simp [PeerReceipt.settle, honly]

theorem RowLaw.of_addressed (ha : s.Addressed r x) (h : y.status = x.status.raise r.tier) : s.RowLaw r x y where
  others hn := absurd ha hn
  offLadder hoff := h.trans (r.raise_offLadder _ hoff)
  climbs n hn := h ▸ r.rank_raise _ n hn
  highest _ := h

theorem RowLaw.of_unchanged (ha : ¬s.Addressed r x)
    (hstatus : y.status = x.status) (hdelivered : y.deliveredAt = x.deliveredAt)
    (hread : y.readAt = x.readAt) (hviewed : y.viewedAt = x.viewedAt) : s.RowLaw r x y where
  others _ := ⟨hstatus, hdelivered, hread, hviewed⟩
  offLadder _ := hstatus
  climbs n hn := ⟨n, hstatus ▸ hn, le_rfl⟩
  highest h := absurd h ha

theorem Settled.unchanged_of_clean
    (h : Settled s r r.reached x y) (hacc : x.accountId = r.accountId) (hdir : x.direction ≠ .outgoing)
    (hclean : s.RowClean r x)
    (hladder : r.moved (s.decidedBy r x) = true → ∀ m ∈ s.decidedBy r x, m.status.onLadder = true) :
    y.status = x.status ∧ y.deliveredAt = x.deliveredAt ∧ y.readAt = x.readAt ∧ y.viewedAt = x.viewedAt := by
  obtain ⟨hstatus, hdelivered, hread, hviewed, hstill⟩ := h.columns hacc
  unfold RowClean at hclean
  rw [if_neg hdir] at hclean
  obtain ⟨hmoved, hview, honly⟩ := hclean
  refine ⟨?_, ?_, ?_, ?_⟩
  · rw [hstatus]
    simp only [PeerReceipt.settle]
    split
    · next hm => exact (hmoved hm).1.symm
    · rfl
  · rw [hdelivered]
    simp only [PeerReceipt.settle]
    split
    · next hm =>
      have hsome := (hmoved hm.1).2
      rw [PeerReceipt.tierStamp, if_pos hm.2] at hsome
      obtain ⟨v, hv⟩ := Option.isSome_iff_exists.mp hsome
      rw [hv]
      rfl
    · rfl
  · rw [hread]
    simp only [PeerReceipt.settle]
    split
    · next hm =>
      have hne : r.tier ≠ .delivered := by
        rw [hm.2]
        decide
      have hsome := (hmoved hm.1).2
      rw [PeerReceipt.tierStamp, if_neg hne] at hsome
      obtain ⟨v, hv⟩ := Option.isSome_iff_exists.mp hsome
      rw [hv]
      rfl
    · rfl
  · cases hv : r.viewed (s.decidedBy r x) with
    | false => exact hstill hv hladder
    | true =>
      rw [hviewed hv]
      simp only [PeerReceipt.settle, hv, if_true]
      split
      · next ho => exact (honly ho).symm
      · obtain ⟨v, hv⟩ := Option.isSome_iff_exists.mp (hview hv)
        rw [hv]
        rfl

theorem mem_listed_of_mem_reached {z : ℤ} (h : z ∈ r.reached) : z ∈ r.targetSentAt.map asI64 := by
  obtain ⟨t, ht, rfl⟩ := mem_map.mp h
  exact mem_map.mpr ⟨t, mem_of_mem_take ht, rfl⟩

theorem onLadder_of_keyClean (hclean : s.KeyClean r)
    (hrec : r.recipient ≠ "") {x : MessageRow} (hmoved : r.moved (s.decidedBy r x) = true) :
    ∀ m ∈ s.decidedBy r x, m.status.onLadder = true := by
  intro m hm
  have hq := decidedBy_qualifies hm
  unfold decidedBy at hm
  split at hm
  · next hreached =>
    obtain ⟨hmq, hconv⟩ := mem_rowsAt hm
    obtain ⟨hrow, hacc, hsent, hdir, -⟩ := mem_qualifiedRows hmq
    have hsame : s.decidedBy r m = s.decidedBy r x := by
      unfold decidedBy
      rw [hsent, hconv]
    have hm_clean := hclean hrec m hrow hacc (mem_listed_of_mem_reached (hsent ▸ hreached)) (hconv ▸ hq)
    rw [RowClean, if_pos hdir, hsame] at hm_clean
    have hnot := hm_clean.1 hmoved
    revert hnot
    cases m.status <;> simp [MessageStatus.notAbove, MessageStatus.rank, MessageStatus.onLadder]
  · cases hm

theorem rowLaw_of_keyClean (h : Settled s r r.reached x y) (hrec : r.recipient ≠ "") (hx : x ∈ s.messages.rows)
    (hclean : s.KeyClean r) : s.RowLaw r x y := by
  by_cases hacc : x.accountId = r.accountId
  swap
  · -- a row of another account is not touched
    rw [h.fresh fun hx => hacc hx.1]
    exact .of_unchanged (fun ha => hacc ha.2.1) rfl rfl rfl rfl
  by_cases hlisted : x.sentAt ∈ r.targetSentAt.map asI64
  swap
  · rw [h.fresh fun hx => hlisted (mem_listed_of_mem_reached hx.2)]
    exact .of_unchanged (fun ha => hlisted ha.2.2.2.1) rfl rfl rfl rfl
  by_cases hq : (s.conversations.find? x.conversationId).any (s.qualifies r.accountId r.recipient) = true
  swap
  · -- no selected row speaks for a conversation that does not qualify
    have hnil : s.decidedBy r x = [] := eq_nil_iff_forall_not_mem.mpr fun m hm =>
      hq (decidedBy_qualifies hm)
    obtain ⟨hstatus, hdelivered, hread, -, hstill⟩ := h.columns hacc
    rw [hnil] at hstatus hdelivered hread hstill
    exact .of_unchanged (fun ha => hq ha.2.2.2.2) hstatus hdelivered hread
      (hstill rfl fun hm => by cases hm)
  have hx_clean := hclean hrec x hx hacc hlisted hq
  by_cases hdir : x.direction = .outgoing
  · refine .of_addressed ⟨hrec, hacc, hdir, hlisted, hq⟩ ?_
    rw [RowClean, if_pos hdir] at hx_clean
    rw [(h.columns hacc).1]
    simp only [PeerReceipt.settle]
    split
    · next hm => exact ((r.raise_eq_tier_iff _).mpr (hx_clean.1 hm)).symm
    · next hm =>
      refine ((r.raise_eq_self_iff _).mpr ?_).symm
      rw [Bool.eq_false_iff]
      exact fun hb => hm (hx_clean.2 hb)
  · obtain ⟨e₁, e₂, e₃, e₄⟩ := h.unchanged_of_clean hacc hdir hx_clean (onLadder_of_keyClean hclean hrec)
    exact .of_unchanged (fun ha => hdir ha.2.2.1) e₁ e₂ e₃ e₄

/-- The ladder law holds of a call iff every key it lists is clean. -/
theorem ladderLaw_iff_keyClean {outcome : PeerReceiptOutcome}
    (h : s.applyPeerReceipt r = .ok (outcome, s')) : s.LadderLaw r s' ↔ s.KeyClean r := by
  rcases applyPeerReceipt_spec h with ⟨hrec, rfl⟩ | ⟨hrec, -, g, hg, hrows, hsettled⟩
  · -- a receipt without a sender does nothing and addresses nothing
    refine ⟨fun _ hne => absurd hrec hne, fun _ x hx => ⟨x, hx, rfl, ?_⟩⟩
    exact .of_unchanged (fun ha => ha.1 hrec) rfl rfl rfl rfl
  · have hmem : ∀ x ∈ s.messages.rows, g x ∈ s'.messages.rows := by
      intro x hx
      rw [hrows]
      exact mem_map_of_mem hx
    constructor
    · intro hlaw _ x hx hacc hlisted hq
      obtain ⟨y, hy, hid, hrow⟩ := hlaw x hx
      obtain rfl := s'.messages.row_unique hy (hmem x hx) (hid.trans (hg x).id.symm)
      exact rowClean_of_rowLaw (hsettled x hx) hrec hacc hlisted hq hrow
    · intro hclean x hx
      exact ⟨g x, hmem x hx, (hg x).id, rowLaw_of_keyClean (hsettled x hx) hrec hx hclean⟩

end Store

/-! ### Runs of receipts -/

/-- A run of receipts, each accepted at a state where its keys are clean; one the store refuses leaves no trace. -/
inductive ReceiptRun : Store → List PeerReceipt → Store → Prop
  | done (s : Store) : ReceiptRun s [] s
  | accepted {s s₁ s' : Store} {r : PeerReceipt} {rs : List PeerReceipt} {outcome : PeerReceiptOutcome} :
      s.applyPeerReceipt r = .ok (outcome, s₁) → s.KeyClean r → ReceiptRun s₁ rs s' →
      ReceiptRun s (r :: rs) s'
  | refused {s s' : Store} {r : PeerReceipt} {rs : List PeerReceipt} {e : StoreError} :
      s.applyPeerReceipt r = .error e → ReceiptRun s rs s' → ReceiptRun s rs s'

/-- The rungs of the receipts of a run that were for the row `x`. -/
def tiersFor (s : Store) (rs : List PeerReceipt) (x : MessageRow) : List MessageStatus :=
  (rs.filter fun r => s.Addressed r x).map PeerReceipt.tier

/-- `top` is the highest of the statuses `all`, which are all on the ladder. -/
def IsHighest (top : MessageStatus) (all : List MessageStatus) : Prop :=
  top ∈ all ∧ ∀ status ∈ all, ∃ a b, status.rank = some a ∧ top.rank = some b ∧ a ≤ b

namespace Store

theorem addressed_congr {s s' : Store} (hframe : ReceiptFrame s s') {x y : MessageRow}
    (hface : MessageRow.SameFace x y) (r : PeerReceipt) : s'.Addressed r y ↔ s.Addressed r x := by
  have hq : s'.qualifies r.accountId r.recipient = s.qualifies r.accountId r.recipient :=
    funext (qualifies_congr hframe.peerIdentities hframe.contacts _ _)
  unfold Addressed
  rw [hface.accountId, hface.direction, hface.sentAt, hface.conversationId, hframe.conversations, hq]

theorem applyPeerReceipt_row {s s' : Store} {r : PeerReceipt} {outcome : PeerReceiptOutcome}
    (h : s.applyPeerReceipt r = .ok (outcome, s')) (hclean : s.KeyClean r) :
    ReceiptFrame s s' ∧ ∀ x ∈ s.messages.rows, ∃ y ∈ s'.messages.rows, MessageRow.SameFace x y ∧
      y.status = if s.Addressed r x then x.status.raise r.tier else x.status := by
  have hlaw := (ladderLaw_iff_keyClean h).mpr hclean
  have hrows : ReceiptFrame s s' ∧ ∃ g : MessageRow → MessageRow, (∀ x, MessageRow.SameFace x (g x)) ∧
      s'.messages.rows = s.messages.rows.map g := by
    rcases applyPeerReceipt_spec h with ⟨-, rfl⟩ | ⟨-, hframe, g, hg, hrows, -⟩
    · exact ⟨.refl s', id, fun x => .refl x, (map_id _).symm⟩
    · exact ⟨hframe, g, hg, hrows⟩
  obtain ⟨hframe, g, hg, hrows⟩ := hrows
  refine ⟨hframe, fun x hx => ?_⟩
  obtain ⟨y, hy, hid, hrow⟩ := hlaw x hx
  have hgx : g x ∈ s'.messages.rows := by
    rw [hrows]
    exact mem_map_of_mem hx
  obtain rfl := s'.messages.row_unique hy hgx (hid.trans (hg x).id.symm)
  refine ⟨g x, hy, hg x, ?_⟩
  split
  · next ha => exact hrow.highest ha
  · next ha => exact (hrow.others ha).1

end Store

/-- Over a run of receipts at clean keys a row climbs through the rungs it received. -/
theorem ReceiptRun.status {s s' : Store} {rs : List PeerReceipt} (h : ReceiptRun s rs s') :
    ∀ x ∈ s.messages.rows, ∃ y ∈ s'.messages.rows, y.id = x.id ∧
      y.status = (tiersFor s rs x).foldl MessageStatus.raise x.status := by
  induction h with
  | done => exact fun x hx => ⟨x, hx, rfl, rfl⟩
  | @accepted s s₁ s' r rs outcome happly hclean _ ih =>
    intro x hx
    obtain ⟨hframe, hrow⟩ := Store.applyPeerReceipt_row happly hclean
    obtain ⟨y, hy, hface, hstatus⟩ := hrow x hx
    obtain ⟨w, hw, hid, hw_status⟩ := ih y hy
    refine ⟨w, hw, hid.trans hface.id, ?_⟩
    have htiers : tiersFor s₁ rs y = tiersFor s rs x := by
      unfold tiersFor
      congr 1
      refine filter_congr fun r _ => ?_
      exact decide_eq_decide.mpr (Store.addressed_congr hframe hface r)
    rw [hw_status, htiers, hstatus]
    unfold tiersFor
    by_cases ha : s.Addressed r x
    · rw [if_pos ha, filter_cons_of_pos (by simpa using ha)]
      rfl
    · rw [if_neg ha, filter_cons_of_neg (by simpa using ha)]
  | refused _ _ ih => exact ih

theorem isHighest_foldl_raise : ∀ (tiers : List MessageStatus) (start : MessageStatus) (n : ℕ),
    start.rank = some n → (∀ t ∈ tiers, ∃ b, t.rank = some b) →
      IsHighest (tiers.foldl MessageStatus.raise start) (start :: tiers)
  | [], start, n, hn, _ => by
    refine ⟨by simp, fun status hs => ?_⟩
    obtain rfl : status = start := by simpa using hs
    exact ⟨n, n, hn, hn, le_rfl⟩
  | t :: tiers, start, n, hn, ht => by
    obtain ⟨b, hb⟩ := ht t (by simp)
    -- the first rung leaves one of the two, and it is above both
    have hfirst : (start.raise t = start ∨ start.raise t = t) ∧
        ∃ c, (start.raise t).rank = some c ∧ n ≤ c ∧ b ≤ c := by
      unfold MessageStatus.raise
      rw [hn, hb]
      dsimp only
      split
      · exact ⟨.inr rfl, b, hb, by omega, le_rfl⟩
      · exact ⟨.inl rfl, n, hn, le_rfl, by omega⟩
    obtain ⟨hmem, c, hc, hnc, hbc⟩ := hfirst
    obtain ⟨htop, hbound⟩ :=
      isHighest_foldl_raise tiers (start.raise t) c hc fun t' h => ht t' (by simp [h])
    obtain ⟨-, d, -, hd, -⟩ := hbound _ (mem_cons_self)
    refine ⟨?_, fun status hs => ?_⟩
    · rcases mem_cons.mp htop with h | h
      · rcases hmem with hm | hm
        · rw [foldl_cons, h, hm]
          simp
        · rw [foldl_cons, h, hm]
          simp
      · exact mem_cons_of_mem _ (mem_cons_of_mem _ h)
    · have hcd : c ≤ d := by
        obtain ⟨a', d', ha', hd', hle⟩ := hbound _ (mem_cons_self)
        rw [hc] at ha'
        rw [hd] at hd'
        cases ha'
        cases hd'
        exact hle
      rcases mem_cons.mp hs with rfl | hs
      · exact ⟨n, d, hn, hd, hnc.trans hcd⟩
      rcases mem_cons.mp hs with rfl | hs
      · exact ⟨b, d, hb, hd, hbc.trans hcd⟩
      · exact hbound status (mem_cons_of_mem _ hs)

/-- **Receipts climb the ladder exactly at clean keys**, and over a run of such calls a row ends at the highest of
its start and the rungs received, or keeps a status off the ladder. -/
theorem receipts_climb_iff_keyClean (s : Store) : (∀ (r : PeerReceipt) (outcome : PeerReceiptOutcome) (s' : Store),
      s.applyPeerReceipt r = .ok (outcome, s') → (s.LadderLaw r s' ↔ s.KeyClean r)) ∧
    ∀ (rs : List PeerReceipt) (s' : Store), ReceiptRun s rs s' →
      ∀ x ∈ s.messages.rows, ∃ y ∈ s'.messages.rows, y.id = x.id ∧ (x.status.rank = none → y.status = x.status) ∧
        (x.status.rank ≠ none → IsHighest y.status (x.status :: tiersFor s rs x)) := by
  refine ⟨fun r outcome s' h => Store.ladderLaw_iff_keyClean h, fun rs s' hrun x hx => ?_⟩
  obtain ⟨y, hy, hid, hstatus⟩ := hrun.status x hx
  refine ⟨y, hy, hid, fun hoff => ?_, fun hon => ?_⟩
  · have hkeep : ∀ tiers : List MessageStatus,
        tiers.foldl MessageStatus.raise x.status = x.status := by
      intro tiers
      induction tiers with
      | nil => rfl
      | cons t tiers ih =>
        have hraise : x.status.raise t = x.status := by
          unfold MessageStatus.raise
          rw [hoff]
        rw [foldl_cons, hraise, ih]
    rw [hstatus, hkeep]
  · obtain ⟨n, hn⟩ := Option.ne_none_iff_exists'.mp hon
    rw [hstatus]
    refine isHighest_foldl_raise _ _ n hn fun t ht => ?_
    obtain ⟨r, -, rfl⟩ := mem_map.mp ht
    rcases r.tier_cases with h | h
    · exact ⟨1, by rw [h]; rfl⟩
    · exact ⟨2, by rw [h]; rfl⟩

/-- A roster-less group with one outgoing message and the messages `others`. -/
def groupStore (others : List MessageRow)
    (h : ((MessageRow.ofText "out" "a" "g" .outgoing "a" 1000 "hi" .sent :: others).map MessageRow.id).Nodup) :
    Store :=
  { Store.empty with
    accounts := .single (.ofAddress "a" "+15550100" "+1555***00" "default")
    conversations := .single (.ofPeer "g" "a" .group "group-key" "group")
    messages := ⟨.ofText "out" "a" "g" .outgoing "a" 1000 "hi" .sent :: others, h⟩ }

def groupRead : PeerReceipt := ⟨"a", "+15550101", [1000], .read, 5000⟩

theorem receipts_climb_in_group :
    ∃ outcome s', (groupStore [] (by decide)).applyPeerReceipt groupRead = .ok (outcome, s') ∧
      (groupStore [] (by decide)).LadderLaw groupRead s' :=
  ⟨_, _, rfl, ((receipts_climb_iff_keyClean _).1 _ _ _ rfl).mpr (by decide)⟩

/-- A member's message that carries the same timestamp is marked read with the outgoing one. -/
theorem receipt_rewrites_incoming_row : ∃ outcome s',
      (groupStore [.ofText "in" "a" "g" .incoming "peer" 1000 "hello" .delivered]
        (by decide)).applyPeerReceipt groupRead = .ok (outcome, s') ∧
      (s'.messages.find? "in").map (fun m => (m.direction, m.status, m.readAt)) =
        some (.incoming, .read, some 5000) ∧
      ¬(groupStore [.ofText "in" "a" "g" .incoming "peer" 1000 "hello" .delivered]
        (by decide)).LadderLaw groupRead s' := by
  refine ⟨_, _, rfl, by decide, ?_⟩
  rw [Store.ladderLaw_iff_keyClean rfl]
  decide

end SignalConnector
