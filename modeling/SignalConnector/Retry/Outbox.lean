/-
# The outbox worker

A supervisor's worker drains the retry queue in passes: it claims a batch of
due rows (which flips them to `pending`), then prepares and dispatches each
claim in turn. The flip is committed before the first claim is prepared, so a
claim that is dropped on the way leaves its row `pending` unless something
settles it; and the scan is over the whole table, whichever engine the worker
dispatches through.
-/
import SignalConnector.Retry.Safety
import SignalConnector.Service.Send

namespace SignalConnector

open List

def outboxClaimBatch : ℕ := 16

/-- What a pass does not decide about a claim: the clock, the engine's answer, and which store calls fail. -/
structure OutboxTurn where
  now : ℕ
  answer : Except EngineError SendReply
  prepareFails : Bool

namespace Store

/-- One claim of a pass: was it handed to `dispatch_prepared`, and the store it leaves. -/
def outboxTurn (s : Store) (claim : RetryClaim) (turn : OutboxTurn) : Bool × Store :=
  if turn.prepareFails then (false, s)
  else
    match s.prepareOutboxRetryText claim turn.now with
    | (.error _, s) => (false, s)
    | (.ok prepared, s) => (true, (s.dispatchPrepared prepared turn.answer turn.now).2)

/-- The claims a pass hands to `dispatch_prepared`, and the store it leaves. -/
def drainClaims (turn : RetryClaim → OutboxTurn) : List RetryClaim → Store → List RetryClaim × Store
  | [], s => ([], s)
  | claim :: rest, s =>
    let (handed, s) := s.outboxTurn claim (turn claim)
    let (dispatched, s) := drainClaims turn rest s
    (if handed then claim :: dispatched else dispatched, s)

/-- `outbox_pass` on a running engine; an engine that is not running ends the pass before any claim. -/
def outboxPass (s : Store) (now : ℕ) (turn : RetryClaim → OutboxTurn) : List RetryClaim × Store :=
  let (claims, s) := s.claimDueRetries now outboxClaimBatch
  drainClaims turn claims s

/-- The claim is prepared for dispatch, or its row settled by the attachment arm. -/
def handled (s : Store) (claim : RetryClaim) (turn : OutboxTurn) : Bool :=
  !turn.prepareFails && (s.rebuildable claim || s.carriesAttachments claim)

/-! ### One turn -/

variable {s : Store} {now : ℕ} {x : MessageRow} {claim : RetryClaim} {turn : OutboxTurn}

theorem outboxTurn_dropped (h : s.handled claim turn = false) : s.outboxTurn claim turn = (false, s) := by
  unfold outboxTurn
  cases hf : turn.prepareFails with
  | true => rfl
  | false =>
    simp only [handled, hf, Bool.not_false, Bool.true_and, Bool.or_eq_false_iff] at h
    rcases s.prepareOutboxRetryText_cases claim turn.now with ⟨hr, -⟩ | ⟨-, hc, -⟩ | ⟨-, -, e, hp⟩
    · simp [h.1] at hr
    · simp [h.2] at hc
    · simp [hp]

theorem outboxTurn_touches (s : Store) (claim : RetryClaim) (turn : OutboxTurn) :
    Touches [claim.messageId] s (s.outboxTurn claim turn).2 := by
  unfold outboxTurn
  split
  · exact .refl _ s
  rcases s.prepareOutboxRetryText_cases claim turn.now with ⟨-, params, hp⟩ | ⟨-, -, hp⟩ | ⟨-, -, e, hp⟩
  · rw [hp]
    exact s.dispatchPrepared_touches _ _ _ _ _ _ _
  · rw [hp]
    exact s.settleSendFailed_touches _ _ _ _
  · rw [hp]
    exact .refl _ s

/-- The attachment arm leaves its row `failed`. -/
theorem settled_of_carriesAttachments (h : s.carriesAttachments claim) (now : ℕ) :
    ∃ y, (s.settleSendFailed claim.messageId now .none none).2.messages.find? claim.messageId = some y ∧
      y.status = .failed ∧ y.clientRequestId.isSome := by
  obtain ⟨⟨account, conversation, row⟩, hclaimed, -⟩ := (Option.any_eq_true _ _).mp h
  obtain ⟨-, -, hm, hmatch⟩ := claimedRow_spec hclaimed
  simp only [claimMatches, Bool.and_eq_true, decide_eq_true_eq] at hmatch
  obtain ⟨⟨⟨⟨hid, -⟩, -⟩, hpending⟩, -⟩ := hmatch
  have hrow : s.messages.find? claim.messageId = some row :=
    Table.find?_eq_some.mpr ⟨mem_of_find?_eq_some hm, hid⟩
  have hcrid : row.clientRequestId = some claim.clientRequestId := by
    have hfound := find?_some hm
    rw [decide_eq_true_eq] at hfound
    exact hfound.2
  have hid' : row.id = claim.messageId := hid
  have hpending' : row.status = .pending := hpending
  refine ⟨s.settledRow now .none none row, ?_, rfl, ?_⟩
  · rw [settleSendFailed_eq, find?_updateMessages, hrow]
    simp [hid', hpending']
  · simp [settledRow, failedRow, MessageRow.retired, hcrid]

theorem outboxTurn_handled (h : s.handled claim turn) : (s.outboxTurn claim turn).1 = true ∨
      ∃ y, (s.outboxTurn claim turn).2.messages.find? claim.messageId = some y ∧
        y.status = .failed ∧ y.clientRequestId.isSome := by
  simp only [handled, Bool.and_eq_true, Bool.not_eq_true', Bool.or_eq_true] at h
  unfold outboxTurn
  rw [if_neg (by simp [h.1])]
  rcases s.prepareOutboxRetryText_cases claim turn.now with ⟨-, params, hp⟩ | ⟨-, hc, hp⟩ | ⟨hr, hc, -⟩
  · left
    rw [hp]
  · right
    rw [hp]
    exact settled_of_carriesAttachments hc turn.now
  · simp [hr, hc] at h

/-! ### A pass -/

theorem mem_of_mem_drainClaims {turn : RetryClaim → OutboxTurn} {claim : RetryClaim} :
    ∀ {claims : List RetryClaim} {s : Store}, claim ∈ (drainClaims turn claims s).1 → claim ∈ claims
  | [], _, h => by cases h
  | first :: rest, s, h => by
    simp only [drainClaims] at h
    split at h
    · rcases mem_cons.mp h with rfl | h
      · exact mem_cons_self
      · exact mem_cons_of_mem _ (mem_of_mem_drainClaims h)
    · exact mem_cons_of_mem _ (mem_of_mem_drainClaims h)

theorem drainClaims_touches (turn : RetryClaim → OutboxTurn) : ∀ (claims : List RetryClaim) (s : Store),
      Touches (claims.map RetryClaim.messageId) s (drainClaims turn claims s).2
  | [], s => .refl _ s
  | claim :: rest, s =>
    ((s.outboxTurn_touches claim (turn claim)).mono (by simp)).trans
      ((drainClaims_touches turn rest _).mono (by simp))

/-- Every claim of the pass is handled in the store its turn finds. -/
def AllHandled (turn : RetryClaim → OutboxTurn) : Store → List RetryClaim → Prop :=
  Along (fun s claim => (s.outboxTurn claim (turn claim)).2) fun s claim => s.handled claim (turn claim)

/-- **A drained batch** of pending rows with request ids: each claim is dispatched or its row back in `failed` iff
each is handled at its turn. -/
theorem drainClaims_handled_iff (turn : RetryClaim → OutboxTurn) :
    ∀ (claims : List RetryClaim) (s : Store), (claims.map RetryClaim.messageId).Nodup →
      (∀ claim ∈ claims, ∃ x, s.messages.find? claim.messageId = some x ∧ x.status ≠ .failed ∧
        x.clientRequestId.isSome) → ((∀ claim ∈ claims, claim ∈ (drainClaims turn claims s).1 ∨
        Failed claim.messageId (drainClaims turn claims s).2) ↔ AllHandled turn s claims)
  | [], s, _, _ => by simp [AllHandled, Along]
  | claim :: rest, s, hnd, hrows => by
    obtain ⟨hfresh, hnd⟩ := nodup_cons.mp hnd
    obtain ⟨x, hx, hxopen, -⟩ := hrows claim mem_cons_self
    have hrest : ∀ c ∈ rest, ∃ x, (s.outboxTurn claim (turn claim)).2.messages.find? c.messageId = some x ∧
        x.status ≠ .failed ∧ x.clientRequestId.isSome := by
      intro c hc
      obtain ⟨z, hz, hzopen, hzc⟩ := hrows c (mem_cons_of_mem _ hc)
      have hne : c.messageId ∉ [claim.messageId] := by
        rw [mem_singleton]
        exact fun h => hfresh (h ▸ mem_map_of_mem hc)
      exact ⟨z, (s.outboxTurn_touches claim (turn claim)).kept _ z hne hz hzc, hzopen, hzc⟩
    have ih := drainClaims_handled_iff turn rest _ hnd hrest
    have htouch := drainClaims_touches turn rest (s.outboxTurn claim (turn claim)).2
    have hother : ∀ c ∈ rest, c ≠ claim := fun c hc h =>
      hfresh (h ▸ mem_map_of_mem hc)
    set s₁ := (s.outboxTurn claim (turn claim)).2 with hs₁
    have hdrain : drainClaims turn (claim :: rest) s =
        (if (s.outboxTurn claim (turn claim)).1 then claim :: (drainClaims turn rest s₁).1
          else (drainClaims turn rest s₁).1, (drainClaims turn rest s₁).2) := rfl
    have hmem : ∀ c ∈ rest, (c ∈ (drainClaims turn (claim :: rest) s).1 ↔ c ∈ (drainClaims turn rest s₁).1) := by
      intro c hc
      rw [hdrain]
      dsimp only
      split
      · simp [hother c hc]
      · rfl
    change _ ↔ (s.handled claim (turn claim) ∧ AllHandled turn s₁ rest)
    rw [forall_mem_cons, ← ih]
    refine and_congr ⟨fun h => ?_, fun h => ?_⟩ (forall₂_congr fun c hc => or_congr (hmem c hc) Iff.rfl)
    · -- a dropped claim leaves the store as it was, and no later turn touches its row
      by_contra hnot
      have hdropped := outboxTurn_dropped (Bool.eq_false_iff.mpr hnot)
      have hstore : s₁ = s := by rw [hs₁, hdropped]
      rcases h with h | ⟨y, hy, hyid, hfailed⟩
      · rw [hdrain, hdropped] at h
        exact hother claim (mem_of_mem_drainClaims (by simpa using h)) rfl
      · have hy' := htouch.old claim.messageId y hfresh
          (Table.find?_eq_some.mpr ⟨hy, hyid⟩)
        rw [hstore, hx] at hy'
        exact hxopen (Option.some.inj hy' ▸ hfailed)
    · rcases outboxTurn_handled h with hhanded | ⟨y, hy, hfailed, hyc⟩
      · left
        rw [hdrain, hhanded]
        exact mem_cons_self
      · obtain ⟨hmem', hid'⟩ := Table.find?_eq_some.mp (htouch.kept claim.messageId y hfresh hy hyc)
        exact .inr ⟨y, hmem', hid', hfailed⟩

/-- The pass flipped this row from `failed` to `pending`. -/
def Flipped (s : Store) (now : ℕ) (x : MessageRow) : Prop :=
  x ∈ s.messages.rows ∧ x.status = .failed ∧
    ∃ y ∈ (s.claimDueRetries now outboxClaimBatch).2.messages.rows, y.id = x.id ∧ y.status = .pending

theorem flipped_iff : Flipped s now x ↔ x ∈ s.dueRetries now outboxClaimBatch ∧ x.claimRefused now = false := by
  rw [Flipped, claimDueRetries_eq]
  constructor
  · rintro ⟨hx, hfailed, y, hy, hid, hpending⟩
    rw [rows_updateMessages] at hy
    obtain ⟨z, hz, rfl⟩ := mem_map.mp hy
    have hzx : z = x := s.messages.row_unique hz hx (by
      rw [← hid]
      split
      · exact (MessageRow.claimedFace_id now z).symm
      · rfl)
    subst hzx
    split at hpending
    · next hdue =>
      obtain ⟨row, hrow, hrid⟩ := any_eq_true.mp hdue
      have hrz := s.messages.row_unique (mem_dueRetries.mp hrow).1 hz (of_decide_eq_true hrid)
      subst hrz
      refine ⟨hrow, Bool.eq_false_iff.mpr fun hr => ?_⟩
      rw [MessageRow.claimedFace, if_pos hr] at hpending
      rw [hfailed] at hpending
      cases hpending
    · rw [hfailed] at hpending
      cases hpending
  · rintro ⟨hdue, hopen⟩
    obtain ⟨hx, hd, -⟩ := mem_dueRetries.mp hdue
    refine ⟨hx, status_of_due hd, x.claimedFace now, ?_, x.claimedFace_id now, ?_⟩
    · rw [rows_updateMessages]
      exact mem_map.mpr ⟨x, hx, if_pos (any_eq_true.mpr ⟨x, hdue, by simp⟩)⟩
    · simp [MessageRow.claimedFace, hopen]

theorem flipped_of_claim (h : claim ∈ (s.claimDueRetries now outboxClaimBatch).1) :
    ∃ x, Flipped s now x ∧ x.id = claim.messageId ∧ x.accountId = claim.accountId ∧ x.clientRequestId.isSome := by
  obtain ⟨x, hx, hopen, hid, hacc, hcrid, -⟩ := mem_claims h
  exact ⟨x, flipped_iff.mpr ⟨hx, hopen⟩, hid, hacc, hcrid⟩

theorem claim_of_flipped (h : Flipped s now x) (hcrid : x.clientRequestId.isSome) :
    ∃ claim ∈ (s.claimDueRetries now outboxClaimBatch).1, claim.messageId = x.id := by
  obtain ⟨hx, hopen⟩ := flipped_iff.mp h
  obtain ⟨clientRequestId, hc⟩ := Option.isSome_iff_exists.mp hcrid
  rw [claimDueRetries_eq]
  exact ⟨x.claim clientRequestId, mem_filterMap.mpr ⟨x, hx, by simp [MessageRow.claimOf, hopen, hc]⟩, rfl⟩

/-- Every row the pass flipped was handed to `dispatch_prepared` or is back in `failed`. -/
def NoneStranded (s : Store) (now : ℕ) (turn : RetryClaim → OutboxTurn) : Prop :=
  ∀ x, Flipped s now x →
    (∃ claim ∈ (s.outboxPass now turn).1, claim.messageId = x.id) ∨ Failed x.id (s.outboxPass now turn).2

end Store

open Store

/-- **When a pass strands no row**: every flipped row has a request id, and every claim can be rebuilt or is settled
by the attachment arm. -/
theorem pass_strands_none_iff (s : Store) (now : ℕ) (turn : RetryClaim → OutboxTurn) : s.NoneStranded now turn ↔
      (∀ x, Flipped s now x → x.clientRequestId.isSome) ∧ AllHandled turn (s.claimDueRetries now outboxClaimBatch).2
        (s.claimDueRetries now outboxClaimBatch).1 := by
  set claims := (s.claimDueRetries now outboxClaimBatch).1 with hclaims
  set s₁ := (s.claimDueRetries now outboxClaimBatch).2 with hs₁
  have hnd : (claims.map RetryClaim.messageId).Nodup := nodup_claims s now outboxClaimBatch
  have hpass : s.outboxPass now turn = drainClaims turn claims s₁ := rfl
  have hrows : ∀ claim ∈ claims, ∃ x, s₁.messages.find? claim.messageId = some x ∧ x.status ≠ .failed ∧
      x.clientRequestId.isSome := by
    intro claim hclaim
    obtain ⟨x, -, -, -, -, hcrid, hfind⟩ := mem_claims hclaim
    exact ⟨_, hfind, by simp, hcrid⟩
  rw [← drainClaims_handled_iff turn claims s₁ hnd hrows]
  unfold NoneStranded
  rw [hpass]
  constructor
  · intro h
    refine ⟨fun x hx => ?_, fun claim hclaim => ?_⟩
    · -- without a client request id the row is no claim's, so no turn settles it
      by_contra hnone
      have hout : x.id ∉ claims.map RetryClaim.messageId := by
        intro hmem
        obtain ⟨claim, hclaim, hid⟩ := mem_map.mp hmem
        obtain ⟨z, hz, hzid, -, hzc⟩ := flipped_of_claim hclaim
        exact hnone (s.messages.row_unique hz.1 hx.1 (hzid.trans hid) ▸ hzc)
      rcases h x hx with ⟨claim, hclaim, hid⟩ | ⟨y, hy, hyid, hfailed⟩
      · exact hout (hid ▸ mem_map_of_mem (mem_of_mem_drainClaims hclaim))
      · have hold := (drainClaims_touches turn claims s₁).old x.id y hout
          (Table.find?_eq_some.mpr ⟨hy, hyid⟩)
        obtain ⟨-, -, z, hz, hzid, hpending⟩ := hx
        rw [Table.find?_eq_some.mpr ⟨hz, hzid⟩] at hold
        rw [Option.some.inj hold, hfailed] at hpending
        cases hpending
    · obtain ⟨x, hx, hxid, -⟩ := flipped_of_claim hclaim
      rcases h x hx with ⟨other, hother, hid⟩ | hfailed
      · left
        have heq : other = claim := inj_on_of_nodup_map hnd (mem_of_mem_drainClaims hother) hclaim
          (hid.trans hxid)
        exact heq ▸ hother
      · exact .inr (hxid ▸ hfailed)
  · rintro ⟨hcrid, h⟩ x hx
    obtain ⟨claim, hclaim, hid⟩ := claim_of_flipped hx (hcrid x hx)
    rcases h claim hclaim with hdisp | hfailed
    · exact .inl ⟨claim, hdisp, hid⟩
    · exact .inr (hid ▸ hfailed)

/-- A text of account `a` that waits for its retry, due at 2000. -/
def queuedText (quoteMessageId : Option String) : MessageRow :=
  { MessageRow.ofText "m" "a" "c" .outgoing "a" 1000 "hi" .failed with
    clientRequestId := some "request-1"
    quoteMessageId := quoteMessageId
    firstSendAttemptedAt := some 1500
    retryAttemptCount := 1
    nextAttemptAt := some 2000 }

def queuedStore (quoteMessageId : Option String) : Store :=
  { Store.empty with
    accounts := .single (.ofAddress "a" "+15550100" "+1555***00" "default")
    conversations := .single (.ofPeer "c" "a" .direct "+15550101" "peer")
    messages := .single (queuedText quoteMessageId) }

/-- The engine delivers the retry. -/
def delivered : RetryClaim → OutboxTurn := fun _ => ⟨2500, .ok ⟨some 2400, none⟩, false⟩

/-- A retry whose quoted message is gone is flipped, dropped, and stays `pending`. -/
theorem quoted_retry_is_stranded : ((queuedStore (some "gone")).outboxPass 2000 delivered).1 = [] ∧
      (((queuedStore (some "gone")).outboxPass 2000 delivered).2.messages.find? "m").map
        MessageRow.status = some .pending ∧ ¬(queuedStore (some "gone")).NoneStranded 2000 delivered := by
  refine ⟨by decide, by decide, fun h => ?_⟩
  obtain ⟨x, hx, -⟩ : ∃ x, Flipped (queuedStore (some "gone")) 2000 x ∧ x.id = "m" :=
    ⟨_, ⟨mem_singleton.mpr rfl, rfl, _, mem_singleton.mpr rfl, rfl, by decide⟩, rfl⟩
  have hnone : ∀ y ∈ ((queuedStore (some "gone")).outboxPass 2000 delivered).2.messages.rows,
      y.status ≠ .failed := by decide
  have hempty : ((queuedStore (some "gone")).outboxPass 2000 delivered).1 = [] := by decide
  rcases h x hx with ⟨claim, hclaim, -⟩ | ⟨y, hy, -, hfailed⟩
  · rw [hempty] at hclaim
    cases hclaim
  · exact hnone y hy hfailed

/-- The same retry without a quote is delivered. -/
example : (((queuedStore none).outboxPass 2000 delivered).2.messages.find? "m").map
    (fun m => (m.status, m.sentAt)) = some (.sent, 2400) := by
  decide

/-! ### Several supervisors on one store -/

section Supervisors

variable {ι : Type}

/-- The shared store, and the claims each supervisor's running pass has still to handle. -/
structure OutboxState (ι : Type) where
  store : Store
  claims : ι → List RetryClaim

/-- One step of the runtime: a supervisor begins a pass or handles the next claim of its pass, or anything else
rewrites the store. -/
inductive OutboxMove (ι : Type)
  | begin (supervisor : ι) (now : ℕ)
  | turn (supervisor : ι) (turn : OutboxTurn)
  | elsewhere (store : Store)

namespace OutboxState

variable [DecidableEq ι]

/-- The state a step leaves, and the claim it hands to `dispatch_prepared` under its supervisor. A
worker runs one pass at a time. -/
def move (st : OutboxState ι) : OutboxMove ι → OutboxState ι × Option (ι × RetryClaim)
  | .begin i now =>
    if st.claims i = [] then
      let (claims, store) := st.store.claimDueRetries now outboxClaimBatch
      ({ store, claims := Function.update st.claims i claims }, none)
    else (st, none)
  | .turn i turn =>
    match st.claims i with
    | [] => (st, none)
    | claim :: rest =>
      let (handed, store) := st.store.outboxTurn claim turn
      ({ store, claims := Function.update st.claims i rest }, if handed then some (i, claim) else none)
  | .elsewhere store => ({ st with store }, none)

def dispatches (st : OutboxState ι) : List (OutboxMove ι) → List (ι × RetryClaim)
  | [] => []
  | m :: moves => (st.move m).2.toList ++ dispatches (st.move m).1 moves

end OutboxState

variable (serves : ι → String → Bool)

/-- A supervisor that begins a pass finds only its own accounts' retries: of every due row the claim does not refuse
and that fewer than a batch of due rows precede. -/
def OwnDue (st : OutboxState ι) : OutboxMove ι → Prop
  | .begin i now => st.claims i = [] → ∀ m ∈ st.store.messages.rows, m.due now →
      m.claimRefused now = false → m.clientRequestId.isSome →
      st.store.messages.rows.countP (fun a => a.due now ∧ a.queuedBefore m ∧ a ≠ m) < outboxClaimBatch →
      serves i m.accountId
  | _ => True

/-- Every claim a supervisor holds is on an account its engine serves. -/
def HoldsOwn (st : OutboxState ι) : Prop := ∀ i, ∀ claim ∈ st.claims i, serves i claim.accountId

theorem claims_own_iff (s : Store) (i : ι) (now : ℕ) (claims : ι → List RetryClaim) (hidle : claims i = []) :
    (∀ claim ∈ (s.claimDueRetries now outboxClaimBatch).1, serves i claim.accountId) ↔
      OwnDue serves ⟨s, claims⟩ (.begin i now) := by
  constructor
  · intro h _ m hm hdue hopen hcrid hfirst
    obtain ⟨clientRequestId, hc⟩ := Option.isSome_iff_exists.mp hcrid
    refine h (m.claim clientRequestId) ?_
    rw [claimDueRetries_eq]
    exact mem_filterMap.mpr ⟨m, mem_dueRetries.mpr ⟨hm, hdue, hfirst⟩, by
      simp [MessageRow.claimOf, hopen, hc]⟩
  · intro h claim hclaim
    obtain ⟨x, hx, -, hacc, hcrid⟩ := flipped_of_claim hclaim
    obtain ⟨hdue, hopen⟩ := flipped_iff.mp hx
    obtain ⟨hm, hd, hfirst⟩ := mem_dueRetries.mp hdue
    exact hacc ▸ h hidle x hm hd hopen hcrid hfirst

variable [DecidableEq ι]

theorem holdsOwn_move {st : OutboxState ι} {m : OutboxMove ι} (hm : OwnDue serves st m) (h : HoldsOwn serves st) :
    HoldsOwn serves (st.move m).1 ∧ ∀ d ∈ (st.move m).2, serves d.1 d.2.accountId := by
  cases m with
  | begin i now =>
    unfold OutboxState.move
    dsimp only
    split
    swap
    · exact ⟨h, by simp⟩
    next hidle =>
      refine ⟨fun j claim hclaim => ?_, by simp⟩
      by_cases hj : j = i
      · subst hj
        simp only [Function.update_self] at hclaim
        exact (claims_own_iff serves st.store j now st.claims hidle).mpr hm claim hclaim
      · simp only [Function.update_of_ne hj] at hclaim
        exact h j claim hclaim
  | turn i =>
    unfold OutboxState.move
    dsimp only
    split
    · exact ⟨h, by simp⟩
    next claim rest hclaims =>
      refine ⟨fun j c hc => ?_, fun d hd => ?_⟩
      · by_cases hj : j = i
        · subst hj
          simp only [Function.update_self] at hc
          exact h j c (hclaims ▸ mem_cons_of_mem _ hc)
        · simp only [Function.update_of_ne hj] at hc
          exact h j c hc
      · split at hd
        · cases hd
          exact h i claim (hclaims ▸ mem_cons_self)
        · cases hd
  | elsewhere => exact ⟨h, by simp [OutboxState.move]⟩

/-- **A retry leaves through its own engine** in every run whose passes begin with no other account's retry in their
batch; and a pass holds own claims only exactly then. -/
theorem retries_leave_through_own_engine :
    (∀ (s : Store) (i : ι) (now : ℕ) (claims : ι → List RetryClaim), claims i = [] →
      ((∀ claim ∈ (s.claimDueRetries now outboxClaimBatch).1, serves i claim.accountId) ↔
        OwnDue serves ⟨s, claims⟩ (.begin i now))) ∧
    ∀ (moves : List (OutboxMove ι)) (st : OutboxState ι), (∀ i, st.claims i = []) →
      Along (fun st m => (st.move m).1) (OwnDue serves) st moves →
      ∀ d ∈ st.dispatches moves, serves d.1 d.2.accountId := by
  refine ⟨fun s i now claims => claims_own_iff serves s i now claims, fun moves st hidle halong => ?_⟩
  have hstart : HoldsOwn serves st := fun i claim hclaim => by simp [hidle i] at hclaim
  clear hidle
  induction moves generalizing st with
  | nil => intro d hd; cases hd
  | cons m moves ih =>
    obtain ⟨hm, halong⟩ := halong
    obtain ⟨hnext, hnow⟩ := holdsOwn_move serves hm hstart
    intro d hd
    rcases mem_append.mp hd with hd | hd
    · exact hnow d (by simpa using hd)
    · exact ih _ halong hnext d hd

end Supervisors

/-- Two engines: one serves account `a`, the other account `b`. -/
def twoEngines (engine : Bool) (accountId : String) : Bool := accountId = if engine then "a" else "b"

/-- The engine of account `a` takes account `a`'s retry. -/
theorem retry_leaves_through_own_engine :
    let dispatches := OutboxState.dispatches ⟨queuedStore none, fun _ => []⟩
      [.begin true 2000, .turn true ⟨2500, .error (.upstream none none), false⟩]
    dispatches.map (fun d => (d.1, d.2.accountId)) = [(true, "a")] ∧
      ∀ d ∈ dispatches, twoEngines d.1 d.2.accountId :=
  ⟨by decide, (retries_leave_through_own_engine twoEngines).2 _ _ (fun _ => rfl)
    ⟨fun _ => by decide, trivial, trivial⟩⟩

/-- The engine of account `b` takes account `a`'s retry and fails it. -/
theorem retry_leaves_through_foreign_engine : (OutboxState.dispatches ⟨queuedStore none, fun _ => []⟩
      [.begin false 2000, .turn false ⟨2500, .error (.upstream none none), false⟩]).map
        (fun d => (d.1, d.2.accountId, twoEngines d.1 d.2.accountId)) = [(false, "a", false)] := by
  decide

end SignalConnector
