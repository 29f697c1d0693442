/-
# One reconciliation pass

When an engine lands, the connector asks it about the outgoing rows of its
proxy group whose outcome is unknown: in batches of 64, oldest first, at most
64 of them. Each batch is queried anew and without a cursor, so a row that its
probe did not settle stands at the head of the next batch again. The pass is
followed here with whatever answers the engine gives; `requery` is what it
comes to.
-/
import SignalConnector.Lib.Requery
import SignalConnector.Service.Send

namespace SignalConnector

open List Store

def unknownReconcileBatch : ℕ := 64

def unknownReconcileMaxBatches : ℕ := 64

/-- What the engine answers to `lookupOutgoingDispatch`: its `dispatched` face, if the answer has one. -/
abbrev ProbeAnswer := Except EngineError (Option Bool)

namespace ProbeAnswer

/-- The engine has left. -/
def leaves : ProbeAnswer → Bool
  | .error .notRunning => true
  | .error .exited => true
  | _ => false

/-- The `dispatched` face. -/
def dispatched : ProbeAnswer → Option Bool
  | .ok face => face
  | .error _ => none

end ProbeAnswer

/-! ### The backlog -/

namespace Store

variable {s : Store}

/-- The backlog row of a message, where its account is in the proxy group. -/
def unknownSendRow (s : Store) (proxyGroup : String) (m : MessageRow) : Option UnknownSendRow :=
  (s.accounts.find? m.accountId).bind fun a =>
    (s.conversations.find? m.conversationId).bind fun c =>
      if a.proxyGroup = proxyGroup then some (.ofRows m a c) else none

/-- The outgoing rows whose outcome is unknown, oldest first. -/
def unknownRows (s : Store) : List MessageRow :=
  (s.messages.rows.filter fun m => m.status = .unknown ∧ m.direction = .outgoing).insertionSort
    (lexLe MessageRow.sentAt MessageRow.id)

def unknownBacklog (s : Store) (proxyGroup : String) : List UnknownSendRow :=
  s.unknownRows.filterMap (s.unknownSendRow proxyGroup)

theorem id_of_unknownSendRow {proxyGroup : String} {m : MessageRow} {r : UnknownSendRow}
    (h : s.unknownSendRow proxyGroup m = some r) : r.id = m.id := by
  obtain ⟨a, -, h⟩ := Option.bind_eq_some_iff.mp h
  obtain ⟨c, -, h⟩ := Option.bind_eq_some_iff.mp h
  split at h
  · rw [← Option.some.inj h]
    rfl
  · cases h

theorem mem_unknownBacklog {proxyGroup : String} {r : UnknownSendRow} (h : r ∈ s.unknownBacklog proxyGroup) :
    ∃ m, s.messages.find? r.id = some m ∧ m.status = .unknown := by
  obtain ⟨m, hm, hr⟩ := mem_filterMap.mp h
  obtain ⟨hm, hstatus⟩ := mem_filter.mp ((mem_insertionSort _).mp hm)
  rw [id_of_unknownSendRow hr]
  exact ⟨m, Table.mem_iff_find?.mp hm, (of_decide_eq_true hstatus).1⟩

theorem nodup_unknownBacklog (s : Store) (proxyGroup : String) :
    ((s.unknownBacklog proxyGroup).map UnknownSendRow.id).Nodup := by
  have hids : (s.unknownRows.map MessageRow.id).Nodup :=
    ((perm_insertionSort _ _).map _).nodup_iff.mpr (s.messages.nodup.sublist (filter_sublist.map _))
  refine hids.sublist ?_
  unfold unknownBacklog
  induction s.unknownRows with
  | nil => exact .slnil
  | cons m rows ih =>
    rw [filterMap_cons]
    rcases hrow : s.unknownSendRow proxyGroup m with _ | r
    · exact ih.cons _
    · rw [map_cons, map_cons, id_of_unknownSendRow hrow]
      exact ih.cons_cons _

/-- The endings move, the addresses do not. -/
theorem unknownSendRow_bumpEndings (s : Store) (accountId conversationId : String) (stamp : ℤ) (proxyGroup : String)
    (m : MessageRow) :
    (s.bumpEndings accountId conversationId stamp).unknownSendRow proxyGroup m = s.unknownSendRow proxyGroup m := by
  have haccount : (s.bumpEndings accountId conversationId stamp).accounts.find? m.accountId =
      (s.accounts.find? m.accountId).map fun a =>
        if a.id = accountId then { a with lastMessageAt := bumpStamp stamp a.lastMessageAt } else a := by
    unfold bumpEndings
    rw [Table.find?_update]
    simp only [decide_eq_true_eq]
  have hconversation : (s.bumpEndings accountId conversationId stamp).conversations.find? m.conversationId =
      (s.conversations.find? m.conversationId).map fun c =>
        if c.id = conversationId ∧ c.accountId = accountId then
          { c with lastMessageAt := bumpStamp stamp c.lastMessageAt } else c := by
    unfold bumpEndings
    rw [Table.find?_update]
    simp only [decide_eq_true_eq]
  unfold unknownSendRow
  rw [haccount, hconversation]
  rcases s.accounts.find? m.accountId with _ | a
  · rfl
  rcases s.conversations.find? m.conversationId with _ | c
  · rfl
  simp only [Option.map_some, Option.bind_some]
  by_cases ha : a.id = accountId <;> by_cases hc : c.id = conversationId ∧ c.accountId = accountId <;>
    simp only [ha, hc, if_true, if_false] <;> rfl

/-- The addresses are what they were. -/
theorem unknownSendRow_settle (s : Store) (proxyGroup messageId : String) (dispatched : Bool) (m : MessageRow) :
    (s.settleUnknownSend messageId dispatched).2.unknownSendRow proxyGroup m = s.unknownSendRow proxyGroup m := by
  unfold settleUnknownSend
  dsimp only
  split
  · rfl
  · cases dispatched
    · rfl
    · exact unknownSendRow_bumpEndings _ _ _ _ proxyGroup m

theorem unknownRows_settle (s : Store) (messageId : String) (dispatched : Bool) :
    (s.settleUnknownSend messageId dispatched).2.unknownRows = s.unknownRows.filter fun m => m.id ≠ messageId := by
  unfold unknownRows
  rw [← insertionSort_filter, settleUnknownSend_messages]
  refine congrArg _ ?_
  rw [filter_filter]
  change (s.messages.rows.map fun m => if decide (m.id = messageId ∧ m.status = .unknown) then
    { m.retired with status := if dispatched then .sent else .failed } else m).filter _ = _
  have hsettled : (if dispatched then MessageStatus.sent else .failed) ≠ .unknown := by cases dispatched <;> decide
  induction s.messages.rows with
  | nil => rfl
  | cons m rows ih =>
    rw [map_cons, filter_cons, ih, filter_cons]
    by_cases hid : m.id = messageId <;> by_cases hunknown : m.status = .unknown <;> simp [hid, hunknown, hsettled]

/-- A row that is settled leaves the backlog, and no other does. -/
theorem unknownBacklog_settle (s : Store) (proxyGroup messageId : String) (dispatched : Bool) :
    (s.settleUnknownSend messageId dispatched).2.unknownBacklog proxyGroup =
      (s.unknownBacklog proxyGroup).filter fun r => r.id ≠ messageId := by
  unfold unknownBacklog
  rw [unknownRows_settle, filterMap_filter, filter_filterMap]
  refine filterMap_congr fun m _ => ?_
  rw [unknownSendRow_settle]
  rcases hrow : s.unknownSendRow proxyGroup m with _ | r
  · simp
  · have hid := id_of_unknownSendRow hrow
    by_cases hm : m.id = messageId <;> simp [hm, hid, Option.filter]

end Store

/-! ### The pass -/

/-- The store, and the probes that have been made. -/
structure Reconciliation where
  store : Store
  probes : List (UnknownSendRow × ProbeAnswer)

namespace Reconciliation

/-- One probe is made: its answer settles the row, or the row stays unknown. -/
def probe (r : Reconciliation) (row : UnknownSendRow) (answer : ProbeAnswer) : Reconciliation where
  store :=
    match answer.dispatched with
    | some dispatched => (r.store.settleUnknownSend row.id dispatched).2
    | none => r.store
  probes := r.probes ++ [(row, answer)]

/-- The rows of one batch are probed in order; an engine that leaves ends the pass (`false`). -/
def probeBatch (engine : ℕ → UnknownSendRow → ProbeAnswer) :
    List UnknownSendRow → Reconciliation → Bool × Reconciliation
  | [], r => (true, r)
  | row :: rows, r =>
    let answer := engine r.probes.length row
    if answer.leaves then (false, r.probe row answer) else probeBatch engine rows (r.probe row answer)

/-- The batches: each is queried anew, and a short one is the last. -/
def pass (engine : ℕ → UnknownSendRow → ProbeAnswer) (groupId : String) : ℕ → Reconciliation → Reconciliation
  | 0, r => r
  | batches + 1, r =>
    let batch := r.store.unsettledUnknownOutgoingSends groupId unknownReconcileBatch
    if batch.isEmpty then r else
    match probeBatch engine batch r with
    | (false, r) => r
    | (true, r) => if batch.length < unknownReconcileBatch then r else pass engine groupId batches r

end Reconciliation

/-- The pass of `spawn_unknown_outcome_reconcile`, where the engine answers its `n`-th probe with `engine n row`. -/
def spawnUnknownOutcomeReconcile (engine : ℕ → UnknownSendRow → ProbeAnswer) (groupId : String) (s : Store) :
    Reconciliation :=
  Reconciliation.pass engine groupId unknownReconcileMaxBatches ⟨s, []⟩

namespace Reconciliation

variable {engine : ℕ → UnknownSendRow → ProbeAnswer} {groupId : String} {r : Reconciliation}

/-- The probe is answered. -/
def settles (engine : ℕ → UnknownSendRow → ProbeAnswer) (n : ℕ) (row : UnknownSendRow) : Bool :=
  (engine n row).dispatched.isSome

def probed (r : Reconciliation) : List UnknownSendRow := r.probes.map Prod.fst

theorem probed_probe (row : UnknownSendRow) (answer : ProbeAnswer) :
    (r.probe row answer).probed = r.probed ++ [row] := by
  simp [probed, probe]

theorem length_probes_probe (row : UnknownSendRow) (answer : ProbeAnswer) :
    (r.probe row answer).probes.length = r.probes.length + 1 := by
  simp [probe]

theorem unknownBacklog_probe {kept rest : List UnknownSendRow} {row : UnknownSendRow}
    (h : r.store.unknownBacklog groupId = kept ++ row :: rest) (answer : ProbeAnswer) :
    (r.probe row answer).store.unknownBacklog groupId =
      kept ++ if answer.dispatched.isSome then rest else row :: rest := by
  unfold probe
  rcases answer.dispatched with _ | dispatched
  · simpa using h
  · have hnodup := r.store.nodup_unknownBacklog groupId
    rw [h, map_append, map_cons] at hnodup
    have hfresh := (nodup_cons.mp (nodup_middle.mp hnodup)).1
    have hother : ∀ x ∈ kept ++ rest, decide (x.id ≠ row.id) = true := fun x hx =>
      decide_eq_true fun hid => hfresh (by rw [← map_append, ← hid]; exact mem_map_of_mem hx)
    have hkept : kept.filter (fun x => x.id ≠ row.id) = kept :=
      filter_eq_self.mpr fun x hx => hother x (mem_append_left _ hx)
    have hrest : rest.filter (fun x => x.id ≠ row.id) = rest :=
      filter_eq_self.mpr fun x hx => hother x (mem_append_right _ hx)
    change (r.store.settleUnknownSend row.id dispatched).2.unknownBacklog groupId = _
    rw [unknownBacklog_settle, h, filter_append, filter_cons_of_neg (by simp), hkept, hrest]
    rfl

theorem probeBatch_spec (hstays : ∀ n row, (engine n row).leaves = false) :
    ∀ (rows kept rest : List UnknownSendRow) (r : Reconciliation),
      r.store.unknownBacklog groupId = kept ++ rows ++ rest →
        (probeBatch engine rows r).1 = true ∧ (probeBatch engine rows r).2.probed = r.probed ++ rows ∧
          (probeBatch engine rows r).2.store.unknownBacklog groupId =
            kept ++ unsettledOf (settles engine) r.probes.length rows ++ rest
  | [], kept, rest, r, h => ⟨rfl, (append_nil _).symm, h⟩
  | row :: rows, kept, rest, r, h => by
    set answer := engine r.probes.length row with hanswer
    have hbatch : probeBatch engine (row :: rows) r = probeBatch engine rows (r.probe row answer) :=
      if_neg (by rw [hstays]; exact Bool.false_ne_true)
    have hleft : (r.probe row answer).store.unknownBacklog groupId =
        (kept ++ if answer.dispatched.isSome then [] else [row]) ++ rows ++ rest := by
      rw [append_assoc, cons_append] at h
      rw [unknownBacklog_probe h]
      split <;> simp
    obtain ⟨hgoes, hprobed, hbacklog⟩ := probeBatch_spec hstays rows _ rest (r.probe row answer) hleft
    rw [hbatch]
    refine ⟨hgoes, ?_, ?_⟩
    · rw [hprobed, probed_probe, append_assoc, singleton_append]
    · rw [hbacklog, length_probes_probe, unsettledOf]
      change _ = kept ++ (if answer.dispatched.isSome then _ else _) ++ rest
      split <;> simp

/-- **The rows a pass probes.** -/
theorem probed_pass (hstays : ∀ n row, (engine n row).leaves = false) : ∀ (batches : ℕ) (r : Reconciliation),
    (pass engine groupId batches r).probed = r.probed ++
      requery unknownReconcileBatch (settles engine) batches r.probes.length (r.store.unknownBacklog groupId)
  | 0, r => (append_nil _).symm
  | batches + 1, r => by
    set backlog := r.store.unknownBacklog groupId with hbacklog
    have hquery : r.store.unsettledUnknownOutgoingSends groupId unknownReconcileBatch =
        backlog.take unknownReconcileBatch := rfl
    obtain ⟨hgoes, hprobed, hleft⟩ := probeBatch_spec hstays (backlog.take unknownReconcileBatch) []
      (backlog.drop unknownReconcileBatch) r (take_append_drop _ backlog).symm
    obtain ⟨goes, after, hafter⟩ : ∃ goes after, probeBatch engine (backlog.take unknownReconcileBatch) r =
        (goes, after) := ⟨_, _, rfl⟩
    have hcount : after.probes.length = after.probed.length := (length_map _).symm
    rw [hafter] at hgoes hprobed hleft
    obtain rfl : goes = true := hgoes
    dsimp only at hprobed hleft
    unfold pass requery
    rw [hquery]
    dsimp only
    rw [hafter]
    dsimp only
    by_cases hempty : backlog = []
    · simp [hempty, unknownReconcileBatch]
    rw [if_neg (by simp [hempty, unknownReconcileBatch])]
    by_cases hshort : backlog.length < unknownReconcileBatch
    · have hall : backlog.take unknownReconcileBatch = backlog := take_of_length_le (by omega)
      rw [hall] at hprobed ⊢
      rw [if_pos hshort, if_pos hshort, hprobed]
    · have hfull : (backlog.take unknownReconcileBatch).length = unknownReconcileBatch := by
        rw [length_take]
        omega
      have hlength : after.probes.length = r.probes.length + unknownReconcileBatch := by
        rw [hcount, hprobed, length_append, hfull, probed, length_map]
      rw [if_neg (by omega), if_neg hshort, probed_pass hstays batches after, hprobed, hleft, hlength, nil_append,
        append_assoc]

theorem mem_unknownBacklog_probe {row x : UnknownSendRow} (hx : x ∈ r.store.unknownBacklog groupId)
    (hne : x.id ≠ row.id) (answer : ProbeAnswer) : x ∈ (r.probe row answer).store.unknownBacklog groupId := by
  unfold probe
  rcases answer.dispatched with _ | dispatched
  · exact hx
  · change x ∈ (r.store.settleUnknownSend row.id dispatched).2.unknownBacklog groupId
    rw [unknownBacklog_settle, mem_filter]
    exact ⟨hx, decide_eq_true hne⟩

theorem probeBatch_invariant (P : Reconciliation → Prop)
    (hprobe : ∀ r row, row ∈ r.store.unknownBacklog groupId → P r → P (r.probe row (engine r.probes.length row))) :
    ∀ (rows : List UnknownSendRow) (r : Reconciliation), (∀ x ∈ rows, x ∈ r.store.unknownBacklog groupId) →
      (rows.map UnknownSendRow.id).Nodup → P r → P (probeBatch engine rows r).2
  | [], _, _, _, hr => hr
  | row :: rows, r, hrows, hnodup, hr => by
    obtain ⟨hfresh, hnodup⟩ := nodup_cons.mp hnodup
    have hnext := hprobe r row (hrows row mem_cons_self) hr
    unfold probeBatch
    dsimp only
    split
    · exact hnext
    · refine probeBatch_invariant P hprobe rows _ (fun x hx => ?_) hnodup hnext
      exact mem_unknownBacklog_probe (hrows x (mem_cons_of_mem _ hx))
        (fun hid => hfresh (hid ▸ mem_map_of_mem hx)) _

theorem pass_invariant (P : Reconciliation → Prop)
    (hprobe : ∀ r row, row ∈ r.store.unknownBacklog groupId → P r → P (r.probe row (engine r.probes.length row))) :
    ∀ (batches : ℕ) (r : Reconciliation), P r → P (pass engine groupId batches r)
  | 0, _, hr => hr
  | batches + 1, r, hr => by
    have hbatch := probeBatch_invariant P hprobe
      (r.store.unsettledUnknownOutgoingSends groupId unknownReconcileBatch) r (fun x hx => mem_of_mem_take hx)
      ((r.store.nodup_unknownBacklog groupId).sublist ((take_sublist _ _).map _)) hr
    unfold pass
    dsimp only
    split
    · exact hr
    · split
      · next hleft =>
        rw [hleft] at hbatch
        exact hbatch
      · next hgoes =>
        rw [hgoes] at hbatch
        split
        · exact hbatch
        · exact pass_invariant P hprobe batches _ hbatch

/-- Every answered probe has settled its row. -/
def Settled (r : Reconciliation) : Prop := ∀ row dispatched, (row, .ok (some dispatched)) ∈ r.probes →
  ∃ m, r.store.messages.find? row.id = some m ∧ m.status = if dispatched then .sent else .failed

theorem find?_settle_of_settled {s : Store} {id messageId : String} {m : MessageRow} {dispatched : Bool}
    (hm : s.messages.find? id = some m) (hsettled : m.status ≠ .unknown) :
    (s.settleUnknownSend messageId dispatched).2.messages.find? id = some m := by
  rw [settleUnknownSend_messages]
  refine (find?_updateMessages s _ _ _ id).trans ?_
  simp [hm, hsettled]

theorem Settled.probe (hr : r.Settled) {row : UnknownSendRow} (hrow : row ∈ r.store.unknownBacklog groupId)
    (answer : ProbeAnswer) : (r.probe row answer).Settled := by
  intro row' dispatched hmem
  rcases mem_append.mp hmem with hold | hnew
  · obtain ⟨m, hm, hstatus⟩ := hr row' dispatched hold
    refine ⟨m, ?_, hstatus⟩
    have hsettled : m.status ≠ .unknown := by
      rw [hstatus]
      cases dispatched <;> decide
    unfold Reconciliation.probe
    rcases answer.dispatched with _ | again
    · exact hm
    · exact find?_settle_of_settled hm hsettled
  · obtain ⟨rfl, rfl⟩ := Prod.mk.inj (mem_singleton.mp hnew)
    obtain ⟨m, hm, hunknown⟩ := Store.mem_unknownBacklog hrow
    exact ⟨_, find?_settleUnknownSend hm hunknown dispatched, rfl⟩

end Reconciliation

/-! ### The whole backlog, once -/

/-- The pass probes every row of the backlog, none of them twice, and settles every row whose probe is answered. -/
structure ReconcilesOnce (engine : ℕ → UnknownSendRow → ProbeAnswer) (groupId : String) (s : Store) : Prop where
  all : ∀ row ∈ s.unknownBacklog groupId, row ∈ (spawnUnknownOutcomeReconcile engine groupId s).probed
  once : ((spawnUnknownOutcomeReconcile engine groupId s).probed.map UnknownSendRow.id).Nodup
  settled : (spawnUnknownOutcomeReconcile engine groupId s).Settled

theorem reconcilesOnce_iff {engine : ℕ → UnknownSendRow → ProbeAnswer} {groupId : String} {s : Store}
    (hstays : ∀ n row, (engine n row).leaves = false) : ReconcilesOnce engine groupId s ↔
      VisitsOnce (requery unknownReconcileBatch (Reconciliation.settles engine) unknownReconcileMaxBatches 0
        (s.unknownBacklog groupId)) (s.unknownBacklog groupId) := by
  have hprobed : (spawnUnknownOutcomeReconcile engine groupId s).probed = requery unknownReconcileBatch
      (Reconciliation.settles engine) unknownReconcileMaxBatches 0 (s.unknownBacklog groupId) :=
    Reconciliation.probed_pass hstays unknownReconcileMaxBatches ⟨s, []⟩
  have hkeeps : ∀ (r : Reconciliation) (row : UnknownSendRow), row ∈ r.store.unknownBacklog groupId → r.Settled →
      (r.probe row (engine r.probes.length row)).Settled := fun _ _ hrow hr => hr.probe hrow _
  have hsettled : (spawnUnknownOutcomeReconcile engine groupId s).Settled :=
    Reconciliation.pass_invariant Reconciliation.Settled hkeeps unknownReconcileMaxBatches ⟨s, []⟩ nofun
  constructor
  · rintro ⟨hall, honce, -⟩
    rw [hprobed] at hall honce
    exact ⟨hall, honce.of_map _⟩
  · rintro ⟨hall, honce⟩
    rw [← hprobed] at hall honce
    refine ⟨hall, honce.map_on fun a ha b hb hid => ?_, hsettled⟩
    rw [hprobed] at ha hb
    exact inj_on_of_nodup_map (s.nodup_unknownBacklog groupId) (mem_of_mem_requery ha) (mem_of_mem_requery hb) hid

/-- **One pass visits the whole backlog once iff** every row of a full batch that another batch follows is
answered. -/
theorem reconcile_pass_iff (engine : ℕ → UnknownSendRow → ProbeAnswer) (groupId : String) (s : Store)
    (hstays : ∀ n row, (engine n row).leaves = false)
    (hsize : (s.unknownBacklog groupId).length ≤ unknownReconcileBatch * unknownReconcileMaxBatches) :
    ReconcilesOnce engine groupId s ↔ ∀ i < unknownReconcileBatch *
          min ((s.unknownBacklog groupId).length / unknownReconcileBatch) (unknownReconcileMaxBatches - 1),
        ∀ row, (s.unknownBacklog groupId)[i]? = some row → ∃ dispatched, engine i row = .ok (some dispatched) := by
  rw [reconcilesOnce_iff hstays, requery_once_iff (by decide) ((s.nodup_unknownBacklog groupId).of_map _) hsize]
  refine forall₂_congr fun i _ => forall₂_congr fun row _ => ?_
  unfold Reconciliation.settles ProbeAnswer.dispatched
  rw [Nat.zero_add]
  rcases engine i row with error | _ | dispatched <;> simp

def strandedRow (i : ℕ) : MessageRow :=
  MessageRow.ofText (String.ofList (List.replicate i 'm')) "account" "conversation" .outgoing "account" i "hi" .unknown

theorem nodup_stranded (n : ℕ) : (((List.range n).map strandedRow).map MessageRow.id).Nodup := by
  rw [map_map]
  refine nodup_range.map fun i j h => ?_
  simpa [strandedRow, MessageRow.ofText] using congrArg (fun id : String => id.toList.length) h

def stranded (n : ℕ) : Store :=
  { Store.empty with
    accounts := .single (.ofAddress "account" "+1" "+1***" "group")
    conversations := .single (.ofPeer "conversation" "account" .direct "+2" "Bo")
    messages := ⟨(List.range n).map strandedRow, nodup_stranded n⟩ }

theorem length_stranded : ((stranded 65).unknownBacklog "group").length = 65 := by decide +kernel

/-- An engine that answers 64 probes and no more. -/
def answersBatch (n : ℕ) (_ : UnknownSendRow) : ProbeAnswer := if n < 64 then .ok (some true) else .error .timeout

/-- Behind a full batch that is answered the last row is probed, and once, though it gets no answer. -/
theorem full_batch_reconciles_once : ReconcilesOnce answersBatch "group" (stranded 65) := by
  refine (reconcile_pass_iff answersBatch "group" (stranded 65) (fun n row => ?_) ?_).mpr fun i hi row _ =>
    ⟨true, if_pos ?_⟩
  · unfold answersBatch
    split <;> rfl
  · rw [length_stranded]
    decide
  · rw [length_stranded] at hi
    exact hi

/-- With every probe timed out, each batch is the first 64 rows, and the row behind them is never probed. -/
theorem row_behind_full_batch_unprobed : ((stranded 65).unknownBacklog "group").length = 65 ∧
      (∃ row ∈ (stranded 65).unknownBacklog "group",
        row ∉ (spawnUnknownOutcomeReconcile (fun _ _ => .error .timeout) "group" (stranded 65)).probed) ∧
      ¬((spawnUnknownOutcomeReconcile (fun _ _ => .error .timeout) "group" (stranded 65)).probed.map
        UnknownSendRow.id).Nodup := by
  set backlog := (stranded 65).unknownBacklog "group"
  have hlength : backlog.length = 65 := length_stranded
  have hprobed : (spawnUnknownOutcomeReconcile (fun _ _ => .error .timeout) "group" (stranded 65)).probed =
      requery unknownReconcileBatch (Reconciliation.settles fun _ _ => .error .timeout) (63 + 1) 0 backlog :=
    (Reconciliation.probed_pass (fun _ _ => rfl) (63 + 1) ⟨stranded 65, []⟩).trans (nil_append _)
  have hnone : ∀ n row, Reconciliation.settles (fun _ _ => .error .timeout) n row = false := fun _ _ => rfl
  have hlast : backlog[64]? =
      some ⟨String.ofList (List.replicate 64 'm'), "account", "conversation", "+1", .direct, "+2", 64⟩ := by
    decide +kernel
  have hbehind : ⟨String.ofList (List.replicate 64 'm'), "account", "conversation", "+1", .direct, "+2", 64⟩ ∉
      backlog.take unknownReconcileBatch := by decide +kernel
  refine ⟨hlength, ⟨_, mem_of_getElem? hlast, fun h => hbehind ?_⟩, fun hnodup => ?_⟩
  · rw [hprobed] at h
    exact mem_take_of_mem_requery hnone h
  · have hnodup := hnodup.of_map
    rw [hprobed, requery, if_neg (by rw [hlength]; decide), unsettledOf_of_none hnone,
      take_append_drop] at hnodup
    obtain ⟨row, hrow⟩ := exists_mem_of_ne_nil (backlog.take unknownReconcileBatch) fun hnil => by
      have hzero := congrArg List.length hnil
      rw [length_take, hlength] at hzero
      cases hzero
    exact absurd rfl ((nodup_append.mp hnodup).2.2 row hrow row (mem_requery_of_mem_take hrow))

end SignalConnector
