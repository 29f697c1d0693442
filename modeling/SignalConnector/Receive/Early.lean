/-
# Controls and receipts that come before their row

A control or a receipt received before the row it addresses waits in a buffer,
and the landing of the row flushes the buffer. A flush that answers has left
the store as the live arms would have and kept the entries of other rows. One
that ends in a failed call is another matter: the table was taken out before
the first entry and is put back after the last, so that a failure loses every
entry that was not applied, those of other rows included.
-/
import SignalConnector.Lib.Flush
import SignalConnector.Receive.Alone

namespace SignalConnector

open List

namespace Ingest

variable (env : IngestEnv)

/-! ### Whole flushes -/

section Flushes

variable {env} {t : Target} {s : Service}

theorem drainControls_eq (t : Target) : ∀ table, drainControls env t table =
    flush (t.isOf env) (fun entry => isFresh env.now entry.bufferedAt)
      (fun entry => applyEarlyControl env t entry.payload) table
  | [] => rfl
  | entry :: table => by
    unfold drainControls flush
    rw [drainControls_eq t table]

theorem drainReceipts_eq (accountId : String) (sentAt : ℕ) : ∀ table, drainReceipts env accountId sentAt table =
    flush (isReceiptOf env accountId sentAt) (fun entry => isFresh env.now entry.bufferedAt)
      (fun entry => applyReceiptBatch env (receiptOf accountId entry)) table
  | [] => rfl
  | entry :: table => by
    unfold drainReceipts flush
    rw [drainReceipts_eq accountId sentAt table]

theorem store_workedOff (table : List EarlyControlEntry) :
    (workedOff (t.isOf env) (fun entry => applyEarlyControl env t entry.payload) table s).store =
      ((table.filter (t.isOf env)).map EarlyControlEntry.payload).foldl (controlStore env t) s.store := by
  unfold workedOff
  generalize table.filter (t.isOf env) = entries
  induction entries generalizing s with
  | nil => rfl
  | cons entry entries ih =>
    rw [foldl_cons, ih, store_applyEarlyControl]
    rfl

end Flushes

/-! ### Failed calls -/

variable (t : Target) (accountId : String) (sentAt : ℕ) (fault : StoreError)

/-- The controls a failed flush has not applied, its own and those that wait for other rows. -/
def unappliedControls (n : ℕ) (s : Service) : Option (List EarlyControlEntry) :=
  unapplied (t.isOf env) (fun entry => isFresh env.now entry.bufferedAt)
    (fun entry => applyEarlyControl env t entry.payload) fault s.earlyControls n { s with earlyControls := [] }

/-- The receipts a failed flush has not applied. -/
def unappliedReceipts (n : ℕ) (s : Service) : Option (List EarlyReceiptEntry) :=
  unapplied (isReceiptOf env accountId sentAt) (fun entry => isFresh env.now entry.bufferedAt)
    (fun entry => applyReceiptBatch env (receiptOf accountId entry)) fault s.earlyReceipts n
    { s with earlyReceipts := [] }

/-- `drain_early_controls` as the flush of a table that is taken out. -/
theorem drainEarlyControls_eq : drainEarlyControls env t =
    flushTaken (t.isOf env) (fun entry => isFresh env.now entry.bufferedAt)
      (fun entry => applyEarlyControl env t entry.payload) (fun s => (s.earlyControls, { s with earlyControls := [] }))
      fun remaining s => { s with earlyControls := remaining } := by
  unfold drainEarlyControls flushTaken
  simp only [drainControls_eq]

/-- `drain_early_receipts` as the flush of a table that is taken out. -/
theorem drainEarlyReceipts_eq : drainEarlyReceipts env accountId sentAt =
    flushTaken (isReceiptOf env accountId sentAt) (fun entry => isFresh env.now entry.bufferedAt)
      (fun entry => applyReceiptBatch env (receiptOf accountId entry))
      (fun s => (s.earlyReceipts, { s with earlyReceipts := [] }))
      fun remaining s => { s with earlyReceipts := remaining } := by
  unfold drainEarlyReceipts flushTaken
  simp only [drainReceipts_eq]

section Failures

variable {env} {t : Target} {s s' : Service} {fault : StoreError} {n : ℕ} {α : Type}

/-! A program of store calls leaves the buffers alone. -/

variable {I : Service → Prop}

theorem preserves_bind {β : Type} {p : Prog Service StoreError α} {k : α → Prog Service StoreError β}
    (hp : p.Preserves I) (hk : ∀ a, (k a).Preserves I) : (p >>= k).Preserves I :=
  Prog.Preserves.bind hp hk

variable (hI : ∀ s store, I s → I { s with store })
include hI

theorem preserves_storeCall (f : Store → Except StoreError (α × Store)) : (storeCall f).Preserves I := by
  refine ⟨fun s a s' hs hcall => ?_, fun _ => trivial⟩
  obtain ⟨⟨b, u⟩, -, heq⟩ := exists_of_map_ok hcall
  cases heq
  exact hI s u hs

theorem preserves_storeRead (f : Store → α) : (storeRead f).Preserves I :=
  preserves_storeCall hI fun s => .ok (f s, s)

theorem preserves_attachTo (f : Store → List MessageRecord → List MessageRecord) (record : MessageRecord) :
    (attachTo f record).Preserves I :=
  preserves_storeRead hI _

theorem preserves_landPollTerminateNotice (t : Target) (legacySender : String) (poll : MessageRecord)
    (notice : PollTerminateNotice) : (landPollTerminateNotice env t legacySender poll notice).Preserves I := by
  unfold landPollTerminateNotice
  split
  · refine preserves_bind (preserves_storeRead hI _) fun existing => ?_
    split
    · trivial
    refine preserves_bind (preserves_storeCall hI _) fun inserted => ?_
    split
    · trivial
    · exact preserves_bind (preserves_storeRead hI _) fun _ => trivial
  · trivial

theorem preserves_applyEarlyControl (t : Target) (payload : EarlyControlPayload) :
    (applyEarlyControl env t payload).Preserves I := by
  have hreport : ∀ record, (reportPoll t record).Preserves I := fun record =>
    preserves_bind (preserves_attachTo hI _ _) fun _ => preserves_attachTo hI _ _
  cases payload with
  | remoteDelete =>
    refine preserves_bind (preserves_storeCall hI _) fun changed => ?_
    split <;> trivial
  | edit =>
    refine preserves_bind (preserves_storeCall hI _) fun applied => ?_
    unfold reportEdit
    split
    · trivial
    · exact preserves_bind (preserves_attachTo hI _ _) fun _ => preserves_bind (preserves_attachTo hI _ _) fun _ =>
        preserves_bind (preserves_attachTo hI _ _) fun _ => trivial
  | pollVote =>
    refine preserves_bind (preserves_storeCall hI _) fun folded => ?_
    split
    · trivial
    · exact preserves_bind (hreport _) fun _ => trivial
  | pollTerminate notice =>
    refine preserves_bind (preserves_storeCall hI _) fun folded => ?_
    split
    · trivial
    · exact preserves_bind (hreport _) fun record =>
        preserves_bind (preserves_landPollTerminateNotice hI t _ record notice) fun _ => trivial

omit hI in
/-- **A flush of controls that fails leaves no control behind.** -/
theorem earlyControls_of_error {e : StoreError}
    (h : (drainEarlyControls env t).runFault fault n s = (.error e, s')) : s'.earlyControls = [] := by
  rw [drainEarlyControls_eq] at h
  refine flushTaken_of_error (P := fun s => s.earlyControls = []) (fun entry _ _ u hu => ?_) rfl h
  have hkeeps : (applyEarlyControl env t entry.payload).Preserves fun s => s.earlyControls = [] :=
    preserves_applyEarlyControl (fun _ _ h => h) t entry.payload
  refine ⟨hkeeps.atCalls hu, fun a u' hrun => ?_⟩
  have hafter := hkeeps.run hu
  rwa [hrun] at hafter

end Failures

/-! ### Receipts -/

/-- The outgoing row has landed, and its conversation is there. -/
def RowLanded (s : Store) : Prop :=
  s.receiptCandidates accountId (asI64 sentAt) ≠ []

section Receipts

variable {env} {s s' : Service} {accountId : String} {sentAt : ℕ}

theorem applyPeerReceipt_landed {store store' : Store} {recipient : String} {kind : ReceiptKind} {at' : ℕ}
    {outcome : PeerReceiptOutcome} (hrecipient : recipient ≠ "") (hlanded : RowLanded accountId sentAt store)
    (h : store.applyPeerReceipt ⟨accountId, recipient, [sentAt], kind, at'⟩ = .ok (outcome, store')) :
    RowLanded accountId sentAt store' ∧
      (sentAt ∈ outcome.matchedTimestamps ∨ sentAt ∈ outcome.blockedTimestamps) := by
  constructor
  · rcases Store.applyPeerReceipt_spec h with ⟨hempty, -⟩ | ⟨-, hframe, g, hg, hrows, -⟩
    · exact absurd hempty hrecipient
    · unfold RowLanded
      rw [Store.receiptCandidates_map hg hframe hrows]
      exact fun hnil => hlanded (map_eq_nil_iff.mp hnil)
  · unfold Store.applyPeerReceipt at h
    rw [if_neg (by simpa using hrecipient), take_of_length_le (by simp), foldlM_cons] at h
    obtain ⟨acc, hat, h⟩ := exists_of_bind_ok h
    cases h
    unfold Store.applyAt at hat
    dsimp only at hat
    rw [if_neg fun hnil => hlanded (List.isEmpty_iff.mp hnil)] at hat
    obtain ⟨acc, -, hat⟩ := exists_of_bind_ok hat
    split at hat
    · cases hat
      exact .inr (by simp)
    · cases hat
      exact .inl (by simp)

theorem preserves_ledgerEvents (I : Service → Prop) (accountId : String) :
    ∀ ids, (ledgerEvents accountId ids).Preserves I
  | [] => trivial
  | messageId :: ids => by
    refine preserves_bind ⟨fun s a s' hs hcall => ?_, fun _ => trivial⟩ fun _ =>
      preserves_bind (preserves_ledgerEvents I accountId ids) fun _ => trivial
    obtain ⟨rfl, rfl⟩ := Prod.mk.inj (Except.ok.inj hcall)
    exact hs

theorem bufferUnseen_of_seen {r : PeerReceipt} {outcome : PeerReceiptOutcome} (s : Service)
    (h : ∀ stamp ∈ r.targetSentAt, stamp ∈ outcome.matchedTimestamps ∨ stamp ∈ outcome.blockedTimestamps) :
    bufferUnseen env r outcome s = s := by
  have hnone : (r.targetSentAt.filter fun stamp =>
      stamp ∉ outcome.matchedTimestamps ∧ stamp ∉ outcome.blockedTimestamps) = [] := by
    refine filter_eq_nil_iff.mpr fun stamp hstamp => ?_
    have hseen := h stamp hstamp
    simp only [decide_eq_true_eq]
    tauto
  unfold bufferUnseen
  rw [hnone]
  rfl

theorem applyReceiptBatch_landed {entry : EarlyReceiptEntry} (hrecipient : entry.recipient ≠ "")
    (hhit : entry.targetSentAt = sentAt) (hs : s.earlyReceipts = [] ∧ RowLanded accountId sentAt s.store) :
    (applyReceiptBatch env (receiptOf accountId entry)).AtCalls
        (fun s => s.earlyReceipts = [] ∧ RowLanded accountId sentAt s.store) s ∧
      ∀ events s', (applyReceiptBatch env (receiptOf accountId entry)).run s = (.ok events, s') →
        s'.earlyReceipts = [] ∧ RowLanded accountId sentAt s'.store := by
  unfold applyReceiptBatch
  rcases hcall : s.store.applyPeerReceipt (receiptOf accountId entry) with e | ⟨outcome, store'⟩
  · refine ⟨⟨hs, fun b s' hb => ?_⟩, fun events s' hrun => ?_⟩
    · dsimp only at hb
      rw [hcall] at hb
      cases hb
    · rw [run_storeCall_of_error _ s hcall] at hrun
      cases hrun
  · subst hhit
    obtain ⟨hlanded, hseen⟩ := applyPeerReceipt_landed hrecipient hs.2 hcall
    have hledger := fun I => preserves_ledgerEvents I accountId (outcome.receiptsChanged.map Prod.fst)
    have hafter : ({ s with store := store' } : Service).earlyReceipts = [] ∧
        RowLanded accountId entry.targetSentAt store' := ⟨hs.1, hlanded⟩
    refine ⟨atCalls_storeCall hcall hs ?_, fun events s' hrun => ?_⟩
    · exact Prog.atCalls_bind _ _ ((hledger _).atCalls hafter) fun _ _ _ => trivial
    · rw [run_storeCall_of_ok _ s hcall] at hrun
      obtain ⟨ledger, u, hread, hrun⟩ := Prog.exists_of_run_bind hrun
      have hu : u = { s with store := store' } := by
        have hsame := (hledger (· = { s with store := store' })).run rfl
        exact (congrArg Prod.snd hread).symm.trans hsame
      obtain ⟨-, hs'⟩ := Prod.mk.inj hrun
      have hbuffer : bufferUnseen env (receiptOf accountId entry) outcome u = s' := hs'
      rw [bufferUnseen_of_seen u (by simpa [receiptOf] using hseen), hu] at hbuffer
      rw [← hbuffer]
      exact hafter

/-- **A flush of receipts for a row that has landed leaves no receipt behind when it fails.** -/
theorem earlyReceipts_of_error {fault e : StoreError} {n : ℕ} (hlanded : RowLanded accountId sentAt s.store)
    (hrecipients : ∀ entry ∈ s.earlyReceipts, entry.recipient ≠ "")
    (h : (drainEarlyReceipts env accountId sentAt).runFault fault n s = (.error e, s')) : s'.earlyReceipts = [] := by
  rw [drainEarlyReceipts_eq] at h
  refine (flushTaken_of_error (P := fun s => s.earlyReceipts = [] ∧ RowLanded accountId sentAt s.store)
    (fun entry hentry hhit u hu => ?_) ⟨rfl, hlanded⟩ h).1
  refine applyReceiptBatch_landed (hrecipients entry hentry) ?_ hu
  simp only [isReceiptOf, Bool.and_eq_true, decide_eq_true_eq] at hhit
  exact hhit.2

end Receipts

/-! ### Early as late -/

/-- The controls that wait for the row, in the order of the buffer. -/
structure Waiting (t : Target) (controls : List LiveControl) (s : Service) : Prop where
  payloads : controls.map LiveControl.payload =
    (s.earlyControls.filter (t.isOf env)).map EarlyControlEntry.payload
  authors : ∀ control ∈ controls, t.senderId ∈ control.authors env t

/-- A flush leaves the store as the live arms would, keeps the entries of other rows and the capacity, and loses
nothing unapplied when a call fails. -/
structure EarlyAsLate (t : Target) (controls : List LiveControl) (fault : StoreError) (n : ℕ) (s : Service) :
    Prop where
  late : ∀ events s', (drainEarlyControls env t).runFault fault n s = (.ok events, s') →
    s'.store = (liveRun env t controls s).store
  others : ∀ events s', (drainEarlyControls env t).runFault fault n s = (.ok events, s') →
    s'.earlyControls = s.earlyControls.filter fun entry => !t.isOf env entry && isFresh env.now entry.bufferedAt
  admitted : ∀ entry, (∀ waiting ∈ s.earlyControls, isFresh env.now waiting.bufferedAt = true) →
    s.earlyControls.length < earlyControlBufferCapacity →
      (s.bufferEarlyControl env.now entry).earlyControls = s.earlyControls ++ [entry]
  bounded : s.earlyControls.length ≤ earlyControlBufferCapacity →
    (∀ entry, (s.bufferEarlyControl env.now entry).earlyControls.length ≤ earlyControlBufferCapacity) ∧
      ((drainEarlyControls env t).runFault fault n s).2.earlyControls.length ≤ earlyControlBufferCapacity
  kept : ∀ e s', (drainEarlyControls env t).runFault fault n s = (.error e, s') →
    ∀ entry ∈ (unappliedControls env t fault n s).getD [], entry ∈ s'.earlyControls

/-- A flush of receipts loses nothing that it has not applied when a call fails. -/
def ReceiptsKept (n : ℕ) (s : Service) : Prop :=
  ∀ e s', (drainEarlyReceipts env accountId sentAt).runFault fault n s = (.error e, s') →
    ∀ entry ∈ (unappliedReceipts env accountId sentAt fault n s).getD [], entry ∈ s'.earlyReceipts

section EarlyAsLate

variable {env} {t : Target} {s s' : Service} {fault : StoreError} {n : ℕ}

theorem drainEarlyControls_of_ok {events : List HostSideEvent}
    (h : (drainEarlyControls env t).runFault fault n s = (.ok events, s')) :
    s'.store = ((s.earlyControls.filter (t.isOf env)).map EarlyControlEntry.payload).foldl (controlStore env t)
        s.store ∧ s'.earlyControls =
        s.earlyControls.filter fun entry => !t.isOf env entry && isFresh env.now entry.bufferedAt := by
  rw [drainEarlyControls_eq] at h
  rcases flushTaken_of_ok h with ⟨hempty, rfl⟩ | rfl
  · dsimp only at hempty ⊢
    rw [hempty]
    exact ⟨rfl, rfl⟩
  · exact ⟨store_workedOff s.earlyControls, rfl⟩

theorem length_drainEarlyControls_le (h : s.earlyControls.length ≤ earlyControlBufferCapacity) :
    ((drainEarlyControls env t).runFault fault n s).2.earlyControls.length ≤ earlyControlBufferCapacity := by
  rcases hrun : (drainEarlyControls env t).runFault fault n s with ⟨e | events, s'⟩
  · rw [earlyControls_of_error hrun]
    exact Nat.zero_le _
  · rw [(drainEarlyControls_of_ok hrun).2]
    exact (length_filter_le _ _).trans h

/-- A table that is gone keeps what is unapplied iff nothing is. -/
theorem kept_iff {E σ : Type} {p : Prog σ StoreError (List HostSideEvent)} {u : σ} (table : σ → List E)
    {left : Option (List E)} (hfails : p.Fails fault n u ↔ left.isSome)
    (hgone : ∀ e u', p.runFault fault n u = (.error e, u') → table u' = []) :
    (∀ e u', p.runFault fault n u = (.error e, u') → ∀ entry ∈ left.getD [], entry ∈ table u') ↔
      left.getD [] = [] := by
  constructor
  · intro hkept
    rcases left with _ | entries
    · rfl
    · obtain ⟨e, u', hrun⟩ := hfails.mpr rfl
      refine eq_nil_iff_forall_not_mem.mpr fun entry hentry => ?_
      have hmem := hkept e u' hrun entry hentry
      rw [hgone e u' hrun] at hmem
      cases hmem
  · intro hnone e u' _ entry hentry
    rw [hnone] at hentry
    cases hentry

/-- **Early controls as late ones.** Where no delete is aged and a poll's address is its author's, a flush does all
it owes iff no call fails before every fresh entry has been applied. -/
theorem early_as_late_iff (env : IngestEnv) (t : Target) (controls : List LiveControl) (fault : StoreError) (n : ℕ)
    (s : Service) (accountId : String) (sentAt m : ℕ) (r : Service) (hwaiting : Waiting env t controls s)
    (halike : ∀ control ∈ controls, control.Alike env t s.store)
    (hlanded : RowLanded accountId sentAt r.store) (hrecipients : ∀ entry ∈ r.earlyReceipts, entry.recipient ≠ "") :
    (EarlyAsLate env t controls fault n s ∧ ReceiptsKept env accountId sentAt fault m r) ↔
      ((unappliedControls env t fault n s).getD [] = [] ∧
        (unappliedReceipts env accountId sentAt fault m r).getD [] = []) := by
  have hdrain : (drainEarlyControls env t).Fails fault n s ↔ (unappliedControls env t fault n s).isSome :=
    drainEarlyControls_eq env t ▸ fails_flushTaken
  have hdrain' : (drainEarlyReceipts env accountId sentAt).Fails fault m r ↔
      (unappliedReceipts env accountId sentAt fault m r).isSome :=
    drainEarlyReceipts_eq env accountId sentAt ▸ fails_flushTaken
  have hcontrols := kept_iff Service.earlyControls hdrain fun _ _ => earlyControls_of_error
  have hreceipts := kept_iff Service.earlyReceipts hdrain' fun _ _ => earlyReceipts_of_error hlanded hrecipients
  refine ⟨fun h => ⟨hcontrols.mp h.1.kept, hreceipts.mp h.2⟩, fun h => ⟨⟨?_, ?_, ?_, ?_, hcontrols.mpr h.1⟩,
    hreceipts.mpr h.2⟩⟩
  · intro events s' hrun
    rw [store_liveRun hwaiting.authors halike, hwaiting.payloads]
    exact (drainEarlyControls_of_ok hrun).1
  · exact fun events s' hrun => (drainEarlyControls_of_ok hrun).2
  · exact fun entry hfresh hroom => takeIn_of_room hfresh hroom
  · exact fun hlen => ⟨fun entry => length_takeIn_le entry hlen, length_drainEarlyControls_le hlen⟩

end EarlyAsLate

/-! ### A failed call and a poll of one's own -/

def earlyEnv : IngestEnv := ⟨id, 1000, "group", "account", fun _ => false⟩

def boRow : Target := ⟨"account", "conversation", .direct, "+2", 400, "bo"⟩

/-- A delete for the row of Bo's and one for a later row of theirs. -/
def boDelete : EarlyControlEntry := ⟨"account", .direct, "+2", 400, "bo", 900, .remoteDelete⟩

def laterDelete : EarlyControlEntry := { boDelete with targetSentAt := 500 }

def boDelivered : EarlyReceiptEntry := ⟨"account", 400, "+2", .delivered, 450, 900⟩

def laterDelivered : EarlyReceiptEntry := { boDelivered with targetSentAt := 500 }

def waitingService : Service where
  store := { Store.empty with
    conversations := .single (.ofPeer "conversation" "account" .direct "+2" "Bo")
    messages := .single (.ofText "m" "account" "conversation" .outgoing "account" 400 "hi" .sent) }
  earlyControls := [boDelete, laterDelete]
  earlyReceipts := [boDelivered, laterDelivered]

/-- Bo's delete in time, as its live arm has it, and one that comes a day and a second after the message. -/
def timelyDelete : LiveControl := .remoteDelete (some 700)

def agedDelete : LiveControl := .remoteDelete (some 86401400)

/-- Both flushes come to their end before the failing call. -/
theorem waiting_flushed : EarlyAsLate earlyEnv boRow [timelyDelete] .unavailable 9 waitingService ∧
    ReceiptsKept earlyEnv "account" 400 .unavailable 9 waitingService := by
  refine (early_as_late_iff earlyEnv boRow [timelyDelete] .unavailable 9 waitingService "account" 400 9
    waitingService ⟨by decide, by decide⟩ ?_ ?_ ?_).mpr ⟨by decide, by decide⟩
  · intro control hcontrol
    rw [mem_singleton.mp hcontrol]
    change ¬LiveControl.Aged boRow timelyDelete
    decide
  · unfold RowLanded
    decide
  · decide

/-- The account's own poll, and a row of Bo's at the same time. -/
def ownPoll : MessageRow :=
  { MessageRow.ofText "poll" "account" "conversation" .outgoing "account" 400 "where" .sent with
    rich := some (.parsed { NormalizedRich.default with poll := some ⟨"where", ["here", "there"], false, false, []⟩ }) }

def ownPollRow : Target := ⟨"account", "conversation", .direct, "+2", 400, "account"⟩

def boHello : MessageRow :=
  .ofText "hello" "account" "conversation" .incoming (ownPollRow.legacySenderId earlyEnv) 400 "hello" .delivered

/-- Bo's vote has come before the poll. -/
def votedService : Service where
  store := { Store.empty with messages := ⟨[ownPoll, boHello], by decide⟩ }
  earlyControls := [⟨"account", .direct, "+2", 400, "account", 900, .pollVote "+2" [1]⟩]
  earlyReceipts := []

/-- The vote as its live arm has it, the account's own number being `+1`. -/
def boVote : LiveControl := .pollVote ⟨"+1", "+1", []⟩ "+2" [1]

/-- Bo's message has landed, after the aged delete was buffered as one that found no conversation. -/
def agedService : Service :=
  bufferControl earlyEnv boRow agedDelete
    { store := { Store.empty with
        messages := .single (.ofText "m" "account" "conversation" .incoming "bo" 400 "hi" .delivered) }
      earlyControls := []
      earlyReceipts := [] }

/-- A failed call loses the delete to be applied and the one that waits. Without failures a flush
loses a vote where a row of the peer stands at the poll's time, and erases for an aged delete. -/
theorem flush_loses_controls :
    ((drainEarlyControls earlyEnv boRow).runFault .unavailable 0 waitingService).2.earlyControls = [] ∧
      ¬EarlyAsLate earlyEnv boRow [timelyDelete] .unavailable 0 waitingService ∧
      ((drainEarlyReceipts earlyEnv "account" 400).runFault .unavailable 0 waitingService).2.earlyReceipts = [] ∧
      ¬ReceiptsKept earlyEnv "account" 400 .unavailable 0 waitingService ∧
      ((drainEarlyControls earlyEnv ownPollRow).run votedService).2.store = votedService.store ∧
      (liveRun earlyEnv ownPollRow [boVote] votedService).store ≠ votedService.store ∧
      Waiting earlyEnv ownPollRow [boVote] votedService ∧
      ¬EarlyAsLate earlyEnv ownPollRow [boVote] .unavailable 9 votedService ∧
      (liveRun earlyEnv boRow [agedDelete] agedService).store = agedService.store ∧
      ((drainEarlyControls earlyEnv boRow).run agedService).2.store ≠ agedService.store ∧
      Waiting earlyEnv boRow [agedDelete] agedService ∧
      ¬EarlyAsLate earlyEnv boRow [agedDelete] .unavailable 9 agedService := by
  have hvote : (liveRun earlyEnv ownPollRow [boVote] votedService).store ≠ votedService.store := by decide +kernel
  have hlive : (liveRun earlyEnv boRow [agedDelete] agedService).store = agedService.store := rfl
  have haged : ((drainEarlyControls earlyEnv boRow).run agedService).2.store ≠ agedService.store := by decide +kernel
  refine ⟨by decide, fun h => ?_, by decide, fun h => ?_, by decide +kernel, hvote, ⟨by decide, by decide +kernel⟩,
    fun h => ?_, hlive, haged, ⟨by decide, by decide⟩, fun h => haged ?_⟩
  · have hlost := h.kept _ _ rfl laterDelete (by decide)
    revert hlost
    decide
  · have hlost := h _ _ rfl laterDelivered (by decide)
    revert hlost
    decide
  · exact hvote (h.late _ _ rfl).symm
  · exact (h.late _ _ rfl).trans hlive

end Ingest

end SignalConnector
