/-
# Early controls against live ones

The flush of a buffered control makes the store calls of the live arm, with one
exception: for the account's own poll the live arm looks under the legacy name
`self`, the flush under the legacy name of the peer. A fold needs exactly one
row to answer, so the two part as soon as a row of the peer shares the address.
A second exception is the age of a delete, which the live arm alone looks at
(`LiveControl.Alike`).
-/
import SignalConnector.Receive.Late

namespace SignalConnector

open List Store

namespace Ingest

variable (env : IngestEnv)

/-! ### Alone at an address -/

/-- Every live row at the target's address under one of the names is its author's. -/
def Target.OwnLive (t : Target) (names : List String) (s : Store) : Prop :=
  ∀ m ∈ s.messages.rows, m.accountId = t.accountId → m.conversationId = t.conversationId →
    m.sentAt = asI64 t.sentAt → m.isLive = true → m.senderId ∈ names → m.senderId = t.senderId

/-- Every system row of the conversation at this stamp under one of the names is the author's. -/
def Target.OwnNotices (t : Target) (names : List String) (stamp : ℕ) (s : Store) : Prop :=
  ∀ m ∈ s.messages.rows, m.accountId = t.accountId → m.conversationId = t.conversationId →
    m.sentAt = asI64 stamp → m.direction = .system → m.senderId ∈ names → m.senderId = t.senderId

/-- The flush treats it as its live arm: a delete is not aged, and what a poll control looks for is its author's own. -/
def LiveControl.Alike (t : Target) (s : Store) (control : LiveControl) : Prop :=
  match control with
  | .remoteDelete _ => ¬control.Aged t
  | .edit .. => True
  | .pollVote anchor .. => t.OwnLive (anchor.names env t) s
  | .pollTerminate anchor notice => t.OwnLive (anchor.names env t) s ∧
      ∀ stamp, notice.envelopeSentAt = some stamp → t.OwnNotices (anchor.names env t) stamp s

section Alone

variable {env} {t : Target} {names : List String} {s s' : Store} {mutate : NormalizedPoll → Option NormalizedPoll}
  {notice : PollTerminateNotice}

/-- The rows a fold looks at. -/
def pollRows (t : Target) (s : Store) (senderId legacySender : String) : List MessageRow :=
  s.messages.rows.filter fun m =>
    (m.accountId = t.accountId ∧ m.conversationId = t.conversationId ∧ m.sentAt = asI64 t.sentAt ∧
      (m.senderId = senderId ∨ m.senderId = legacySender)) && m.isLive

def setPoll (rich : NormalizedRich) (poll : NormalizedPoll) (m : MessageRow) : MessageRow :=
  { m with rich := some (.parsed { rich with poll := some poll }) }

theorem id_setPoll (rich : NormalizedRich) (poll : NormalizedPoll) (m : MessageRow) : (setPoll rich poll m).id = m.id :=
  rfl

/-- The fold on the rows it looks at. -/
def foldRows (s : Store) (mutate : NormalizedPoll → Option NormalizedPoll) (rows : List MessageRow) :
    Option MessageRecord × Store :=
  match rows with
  | [row] =>
    match row.rich.bind JsonCell.ok with
    | none => (none, s)
    | some rich =>
      match rich.poll.bind mutate with
      | none => (none, s)
      | some poll =>
        let s := s.updateMessages (fun m => m.id = row.id) (setPoll rich poll) (id_setPoll rich poll)
        ((s.messages.find? row.id).map messageRecordFromRow, s)
  | _ => (none, s)

/-- A row's rich payload is rewritten. -/
def enriched (s : Store) (row : MessageRow) (rich : Option (JsonCell NormalizedRich)) : Store :=
  s.updateMessages (fun m => m.id = row.id) (fun m => { m with rich := rich }) fun _ => rfl

/-- A fold writes nothing and answers none, or rewrites the one row it looks at and answers it. -/
theorem foldRows_cases {rows : List MessageRow} (hrows : ∀ row ∈ rows, row ∈ s.messages.rows) :
    foldRows s mutate rows = (none, s) ∨ ∃ row rich, rows = [row] ∧
        foldRows s mutate rows = (some (messageRecordFromRow { row with rich := rich }), enriched s row rich) := by
  rcases rows with _ | ⟨row, _ | ⟨_, _⟩⟩
  · exact .inl rfl
  · unfold foldRows
    dsimp only
    rcases row.rich.bind JsonCell.ok with _ | rich
    · exact .inl rfl
    · dsimp only
      rcases rich.poll.bind mutate with _ | poll
      · exact .inl rfl
      · refine .inr ⟨row, some (.parsed { rich with poll := some poll }), rfl, ?_⟩
        have hfind := Table.find?_eq_some.mpr ⟨hrows row mem_cons_self, (rfl : row.id = row.id)⟩
        dsimp only
        rw [find?_updateMessages, hfind]
        simp only [Option.map_some, decide_true, if_true]
        rfl
  · exact .inl rfl

/-- Where only the author's rows stand, the names a fold looks under make no difference as long as one is the
author's. -/
theorem Target.OwnLive.pollRows (h : t.OwnLive names s) {senderId legacySender : String} (hsender : senderId ∈ names)
    (hlegacy : legacySender ∈ names) : pollRows t s senderId legacySender =
      if t.senderId = senderId ∨ t.senderId = legacySender then Ingest.pollRows t s t.senderId t.senderId else [] := by
  have hself : ∀ m ∈ s.messages.rows, ((m.accountId = t.accountId ∧ m.conversationId = t.conversationId ∧
      m.sentAt = asI64 t.sentAt ∧ (m.senderId = senderId ∨ m.senderId = legacySender)) && m.isLive) = true →
      m.senderId = t.senderId := by
    intro m hm hat
    simp only [Bool.and_eq_true, decide_eq_true_eq] at hat
    refine h m hm hat.1.1 hat.1.2.1 hat.1.2.2.1 hat.2 ?_
    rcases hat.1.2.2.2 with hname | hname <;> rwa [hname]
  split
  · next hname =>
    refine filter_congr fun m hm => Bool.eq_iff_iff.mpr ⟨fun hat => ?_, fun hat => ?_⟩
    · have hsender := hself m hm hat
      simp only [Bool.and_eq_true, decide_eq_true_eq] at hat ⊢
      exact ⟨⟨hat.1.1, hat.1.2.1, hat.1.2.2.1, .inl hsender⟩, hat.2⟩
    · simp only [Bool.and_eq_true, decide_eq_true_eq, or_self] at hat ⊢
      exact ⟨⟨hat.1.1, hat.1.2.1, hat.1.2.2.1, hat.1.2.2.2 ▸ hname⟩, hat.2⟩
  · next hname =>
    refine filter_eq_nil_iff.mpr fun m hm hat => hname ?_
    have hsender := hself m hm hat
    simp only [Bool.and_eq_true, decide_eq_true_eq] at hat
    exact hsender ▸ hat.1.2.2.2

/-- A fold under two of the names: the author's fold if one of them is the author's, and none otherwise. -/
theorem Target.OwnLive.foldPollRow (h : t.OwnLive names s) {senderId legacySender : String}
    (hsender : senderId ∈ names) (hlegacy : legacySender ∈ names) :
    s.foldPollRow t.accountId t.conversationId t.sentAt senderId legacySender mutate =
      if t.senderId = senderId ∨ t.senderId = legacySender then
        foldRows s mutate (Ingest.pollRows t s t.senderId t.senderId)
      else (none, s) := by
  change foldRows s mutate (Ingest.pollRows t s senderId legacySender) = _
  rw [h.pollRows hsender hlegacy]
  split <;> rfl

theorem foldOwnRows_cases (t : Target) (s : Store) (mutate : NormalizedPoll → Option NormalizedPoll) :
    foldRows s mutate (pollRows t s t.senderId t.senderId) = (none, s) ∨
      ∃ row rich, row.senderId = t.senderId ∧ foldRows s mutate (pollRows t s t.senderId t.senderId) =
          (some (messageRecordFromRow { row with rich := rich }), enriched s row rich) := by
  rcases @foldRows_cases s mutate (pollRows t s t.senderId t.senderId) fun _ hrow => mem_of_mem_filter hrow with
    hnone | ⟨row, rich, hrows, hsome⟩
  · exact .inl hnone
  · have hrow : row ∈ pollRows t s t.senderId t.senderId := hrows ▸ mem_cons_self
    have hat := (mem_filter.mp hrow).2
    simp only [Bool.and_eq_true, decide_eq_true_eq, or_self] at hat
    exact .inr ⟨row, rich, hat.1.2.2.2, hsome⟩

/-- The candidates are tried in vain. -/
theorem run_foldCandidates_none (h : t.OwnLive names s)
    (hnone : foldRows s mutate (pollRows t s t.senderId t.senderId) = (none, s)) {u : Service} (hu : u.store = s) :
    ∀ candidates : List (String × String), (∀ pair ∈ candidates, pair.1 ∈ names ∧ pair.2 ∈ names) →
      (foldCandidates (fun senderId legacySender s =>
        s.foldPollRow t.accountId t.conversationId t.sentAt senderId legacySender mutate) candidates).run u =
        (.ok none, u)
  | [], _ => rfl
  | (senderId, legacySender) :: candidates, hnames => by
    obtain ⟨hsender, hlegacy⟩ := hnames _ mem_cons_self
    unfold foldCandidates
    rw [run_storeWrite, hu, h.foldPollRow hsender hlegacy, hnone, ite_self, ← hu]
    exact run_foldCandidates_none h hnone hu candidates fun pair hpair => hnames pair (mem_cons_of_mem _ hpair)

/-- One of the candidates takes the fold as the author would. -/
theorem run_foldCandidates_some (h : t.OwnLive names s) {record : MessageRecord}
    (hsome : foldRows s mutate (pollRows t s t.senderId t.senderId) = (some record, s')) {u : Service}
    (hu : u.store = s) : ∀ candidates : List (String × String), t.senderId ∈ candidates.map Prod.fst →
      (∀ pair ∈ candidates, pair.1 ∈ names ∧ pair.2 ∈ names) →
      ∃ legacySender ∈ names, (foldCandidates (fun senderId legacySender s =>
        s.foldPollRow t.accountId t.conversationId t.sentAt senderId legacySender mutate) candidates).run u =
        (.ok (some (record, legacySender)), { u with store := s' })
  | [], hmem, _ => nomatch hmem
  | (senderId, legacySender) :: candidates, hmem, hnames => by
    obtain ⟨hsender, hlegacy⟩ := hnames _ mem_cons_self
    unfold foldCandidates
    rw [run_storeWrite, hu, h.foldPollRow hsender hlegacy]
    by_cases hname : t.senderId = senderId ∨ t.senderId = legacySender
    · rw [if_pos hname, hsome]
      exact ⟨legacySender, hlegacy, rfl⟩
    · rw [if_neg hname, ← hu]
      refine run_foldCandidates_some h hsome hu candidates ?_ fun pair hpair =>
        hnames pair (mem_cons_of_mem _ hpair)
      rcases mem_cons.mp hmem with hsender | hmem
      · exact absurd (.inl hsender) hname
      · exact hmem

theorem PollAnchor.mem_names {anchor : PollAnchor} {pair : String × String} (h : pair ∈ anchor.candidates env t) :
    pair.1 ∈ anchor.names env t ∧ pair.2 ∈ anchor.names env t := by
  simp only [names, mem_cons, mem_flatMap, not_mem_nil, or_false]
  exact ⟨.inr (.inr ⟨pair, h, .inl rfl⟩), .inr (.inr ⟨pair, h, .inr rfl⟩)⟩

/-- The fold of the flush is the author's. -/
theorem Target.OwnLive.foldPollRow_own {anchor : PollAnchor} (h : t.OwnLive (anchor.names env t) s) :
    s.foldPollRow t.accountId t.conversationId t.sentAt t.senderId (t.legacySenderId env) mutate =
      foldRows s mutate (Ingest.pollRows t s t.senderId t.senderId) := by
  rw [h.foldPollRow mem_cons_self (mem_cons_of_mem _ mem_cons_self), if_pos (.inl rfl)]

/-- Where only the author's notices stand, the legacy name a notice is looked for under makes no difference. -/
theorem Target.OwnNotices.messageBySignalIdentity {stamp : ℕ} (h : t.OwnNotices names stamp s) {legacySender : String}
    (hlegacy : legacySender ∈ names) :
    s.messageBySignalIdentity t.accountId t.conversationId .system stamp t.senderId legacySender =
      s.messageBySignalIdentity t.accountId t.conversationId .system stamp t.senderId t.senderId := by
  have hrows : (s.messages.rows.filter fun m =>
      m.accountId = t.accountId ∧ m.conversationId = t.conversationId ∧ m.direction = .system ∧
        m.sentAt = asI64 stamp ∧ (m.senderId = t.senderId ∨ m.senderId = legacySender)) =
      s.messages.rows.filter fun m =>
        m.accountId = t.accountId ∧ m.conversationId = t.conversationId ∧ m.direction = .system ∧
          m.sentAt = asI64 stamp ∧ (m.senderId = t.senderId ∨ m.senderId = t.senderId) := by
    refine filter_congr fun m hm => ?_
    rw [decide_eq_decide, or_self]
    refine ⟨fun ⟨hacc, hconv, hsystem, hsent, hname⟩ => ⟨hacc, hconv, hsystem, hsent, ?_⟩,
      fun ⟨hacc, hconv, hsystem, hsent, hname⟩ => ⟨hacc, hconv, hsystem, hsent, .inl hname⟩⟩
    exact hname.elim (fun hname => hname) fun hname => h m hm hacc hconv hsent hsystem (hname ▸ hlegacy)
  unfold Store.messageBySignalIdentity
  simp only [hrows]

theorem senderId_pollFace (t : Target) (s : Store) (record : MessageRecord) :
    (pollFace t s record).senderId = record.senderId := by
  have hreactions : (s.attachReactionsTo t.accountId record.conversationId record).senderId = record.senderId := by
    unfold attachReactionsTo
    split <;> rfl
  have hedits : ∀ record, (s.attachEditsTo t.accountId record).senderId = record.senderId := by
    intro record
    unfold attachEditsTo
    split
    · split <;> rfl
    · rfl
  exact (hedits _).trans hreactions

/-- The rows are those there were, under their identities and no more alive, and rows of the author. -/
def Target.Grows (t : Target) (s s' : Store) : Prop :=
  ∀ m' ∈ s'.messages.rows,
    (∃ m ∈ s.messages.rows, m'.identity = m.identity ∧ (m'.isLive = true → m.isLive = true)) ∨
      m'.senderId = t.senderId

theorem Target.Grows.refl (t : Target) (s : Store) : t.Grows s s := fun m hm => .inl ⟨m, hm, rfl, fun h => h⟩

theorem Target.Grows.trans {u : Store} (h : t.Grows s s') (h' : t.Grows s' u) : t.Grows s u := by
  intro m'' hm''
  rcases h' m'' hm'' with ⟨m', hm', hidentity', hlive'⟩ | hsender
  · rcases h m' hm' with ⟨m, hm, hidentity, hlive⟩ | hsender
    · exact .inl ⟨m, hm, hidentity'.trans hidentity, fun h => hlive (hlive' h)⟩
    · exact .inr ((congrArg RowIdentity.senderId hidentity').trans hsender)
  · exact .inr hsender

theorem Target.Grows.updateMessages (t : Target) (s : Store) (p : MessageRow → Bool) (f : MessageRow → MessageRow)
    (hf : ∀ m, (f m).id = m.id) (hidentity : ∀ m, (f m).identity = m.identity)
    (hlive : ∀ m, (f m).isLive = true → m.isLive = true) : t.Grows s (s.updateMessages p f hf) := by
  intro m' hm'
  rw [rows_updateMessages] at hm'
  obtain ⟨m, hm, rfl⟩ := mem_map.mp hm'
  refine .inl ⟨m, hm, ?_⟩
  by_cases hp : p m = true
  · rw [if_pos hp]
    exact ⟨hidentity m, hlive m⟩
  · rw [if_neg hp]
    exact ⟨rfl, fun h => h⟩

theorem Target.Grows.ownLive (h : t.Grows s s') (hs : t.OwnLive names s) : t.OwnLive names s' := by
  intro m' hm' hacc hconv hsent hlive hname
  rcases h m' hm' with ⟨m, hm, hidentity, hwas⟩ | hsender
  · rw [MessageRow.identity, MessageRow.identity, RowIdentity.mk.injEq] at hidentity
    obtain ⟨-, h₁, h₂, -, h₃, h₄⟩ := hidentity
    rw [h₄]
    exact hs m hm (h₁ ▸ hacc) (h₂ ▸ hconv) (h₃ ▸ hsent) (hwas hlive) (h₄ ▸ hname)
  · exact hsender

theorem Target.Grows.ownNotices (h : t.Grows s s') {stamp : ℕ} (hs : t.OwnNotices names stamp s) :
    t.OwnNotices names stamp s' := by
  intro m' hm' hacc hconv hsent hsystem hname
  rcases h m' hm' with ⟨m, hm, hidentity, -⟩ | hsender
  · rw [MessageRow.identity, MessageRow.identity, RowIdentity.mk.injEq] at hidentity
    obtain ⟨-, h₁, h₂, h₅, h₃, h₄⟩ := hidentity
    rw [h₄]
    exact hs m hm (h₁ ▸ hacc) (h₂ ▸ hconv) (h₃ ▸ hsent) (h₅ ▸ hsystem) (h₄ ▸ hname)
  · exact hsender

theorem LiveControl.Alike.grows {control : LiveControl} (hs : control.Alike env t s) (h : t.Grows s s') :
    control.Alike env t s' := by
  match control with
  | .remoteDelete _ => exact hs
  | .edit .. => trivial
  | .pollVote .. => exact h.ownLive hs
  | .pollTerminate .. => exact ⟨h.ownLive hs.1, fun stamp hstamp => h.ownNotices (hs.2 stamp hstamp)⟩

theorem grows_insertNotice {sentAt : ℕ} {senderId : String}
    (hsender : senderId = t.senderId) :
    t.Grows s (s.after (s.insertMessage (pollTerminateRecord env t sentAt senderId notice) none none false env.now)) := by
  unfold Store.insertMessage
  dsimp only
  split
  · exact .refl t s
  · split
    · intro m' hm'
      rcases Table.mem_of_mem_insertOrIgnore hm' with hm | rfl
      · exact .inl ⟨m', hm, rfl, fun h => h⟩
      · exact .inr hsender
    · exact .refl t s

theorem grows_noticeStore {legacySender : String} {poll : MessageRecord}
    (hsender : poll.senderId = t.senderId) : t.Grows s (noticeStore env t legacySender poll notice s) := by
  unfold noticeStore
  split
  · split
    · exact .refl t s
    · exact grows_insertNotice hsender
  · exact .refl t s

theorem grows_enriched (t : Target) (s : Store) (row : MessageRow) (rich : Option (JsonCell NormalizedRich)) :
    t.Grows s (enriched s row rich) :=
  .updateMessages t s _ _ _ (fun _ => rfl) fun _ h => h

theorem grows_snapshot {accountId newText : String} {newBytes : ℕ} {due : MessageRow → Bool}
    {prior : Option MessageRow} (h : (s.updateMessages due (MessageRow.edited newText newBytes env.now)
      (MessageRow.id_edited newText newBytes env.now)).snapshotOf accountId prior env.now = .ok s') :
    t.Grows s s' := by
  obtain ⟨edits, rfl⟩ := snapshotOf_frame h
  exact Target.Grows.updateMessages t s due (MessageRow.edited newText newBytes env.now)
    (MessageRow.id_edited newText newBytes env.now) (fun _ => rfl) fun _ h => h

/-- **No control brings a row of somebody else to the author's addresses.** -/
theorem grows_controlStore {control : LiveControl} (halike : control.Alike env t s) :
    t.Grows s (controlStore env t s control.payload) := by
  match control with
  | .remoteDelete _ =>
    have hrows : (s.markRemoteDeleted t.accountId t.conversationId t.sentAt t.senderId).2.messages =
        (s.updateMessages (fun m => deleteTarget t.accountId t.conversationId t.sentAt t.senderId m && m.isLive)
          erasedRow fun _ => rfl).messages := by
      unfold Store.markRemoteDeleted
      dsimp only
      split <;> split <;> rfl
    intro m' hm'
    rw [LiveControl.payload, controlStore, hrows] at hm'
    refine Target.Grows.updateMessages t s _ erasedRow (fun _ => rfl) (fun _ => rfl) (fun m hlive => ?_) m' hm'
    simp [erasedRow, MessageRow.isLive] at hlive
  | .edit true newText newBytes =>
    refine after_of_ok (.refl t s) fun applied u h => ?_
    unfold Store.applyInboundEdit at h
    dsimp only at h
    split at h
    · obtain ⟨v, hv, h⟩ := exists_of_bind_ok h
      cases h
      exact grows_snapshot hv
    · cases h
      exact .refl t s
  | .edit false newText newBytes =>
    refine after_of_ok (.refl t s) fun applied u h => ?_
    unfold Store.applyOutgoingEditBySignal at h
    obtain ⟨v, hv, h⟩ := exists_of_bind_ok h
    cases h
    exact grows_snapshot hv
  | .pollVote anchor voterId optionIndexes =>
    rw [LiveControl.payload, controlStore, Store.foldPollVote, Target.OwnLive.foldPollRow_own halike]
    rcases foldOwnRows_cases t s (NormalizedPoll.vote voterId optionIndexes) with hnone | ⟨row, rich, -, hsome⟩
    · rw [hnone]
      exact .refl t s
    · rw [hsome]
      exact grows_enriched t s row rich
  | .pollTerminate anchor notice =>
    rw [LiveControl.payload, controlStore, Store.foldPollTerminate, Target.OwnLive.foldPollRow_own halike.1]
    rcases foldOwnRows_cases t s NormalizedPoll.terminate with hnone | ⟨row, rich, hsender, hsome⟩
    · rw [hnone]
      exact .refl t s
    · rw [hsome]
      refine (grows_enriched t s row rich).trans (grows_noticeStore ?_)
      rw [senderId_pollFace]
      exact hsender

theorem store_waitFor (t : Target) (control : LiveControl) (u : Service) :
    ((waitFor env t control).run u).2.store = u.store := by
  change (bufferControl env t control u).store = u.store
  unfold bufferControl
  generalize control.authors env t = authors
  induction authors generalizing u with
  | nil => rfl
  | cons author authors ih => exact ih _

/-- A notice under whatever legacy name. -/
theorem noticeStore_legacy {anchor : PollAnchor} {poll : MessageRecord}
    {legacySender : String} (hsender : poll.senderId = t.senderId)
    (hnotices : ∀ stamp, notice.envelopeSentAt = some stamp → t.OwnNotices (anchor.names env t) stamp s)
    (hlegacy : legacySender ∈ anchor.names env t) :
    noticeStore env t legacySender poll notice s = noticeStore env t (t.legacySenderId env) poll notice s := by
  unfold noticeStore
  split
  · next stamp _ hstamp _ =>
    have hown := hnotices stamp (Option.filter_eq_some_iff.mp hstamp).1
    rw [hsender, hown.messageBySignalIdentity hlegacy,
      hown.messageBySignalIdentity (mem_cons_of_mem _ mem_cons_self)]
  · rfl

/-- **A live control leaves what the early one leaves**, where what it looks at is the author's own and no delete
comes too late. -/
theorem store_liveControl {control : LiveControl} {u : Service} (hmeans : t.senderId ∈ control.authors env t)
    (halike : control.Alike env t u.store) :
    ((liveControl env t control).run u).2.store = controlStore env t u.store control.payload := by
  match control with
  | .remoteDelete envelopeAt =>
    rw [liveControl, if_neg halike]
    refine store_run_storeCall (fun changed u => ?_) u
    rcases changed with _ | ⟨record, _ | _⟩
    · exact store_waitFor t _ u
    · exact store_waitFor t _ u
    · rfl
  | .edit true newText newBytes | .edit false newText newBytes =>
    refine store_run_storeCall (fun applied u => ?_) u
    rcases applied with _ | record
    · exact store_waitFor t _ u
    · rfl
  | .pollVote anchor voterId optionIndexes =>
    have hlive : t.OwnLive (anchor.names env t) u.store := halike
    rw [liveControl, LiveControl.payload, controlStore, Store.foldPollVote, hlive.foldPollRow_own, Prog.bind_eq,
      Prog.run_bind]
    rcases foldOwnRows_cases t u.store (NormalizedPoll.vote voterId optionIndexes) with hnone | ⟨row, rich, -, hsome⟩
    · have hrun := run_foldCandidates_none hlive hnone (u := u) rfl _ fun _ => PollAnchor.mem_names
      rw [hnone]
      simp only [Store.foldPollVote, hrun]
      exact store_waitFor t _ u
    · obtain ⟨legacySender, -, hrun⟩ := run_foldCandidates_some hlive hsome (u := u) rfl _ hmeans fun _ =>
        PollAnchor.mem_names
      rw [hsome]
      simp only [Store.foldPollVote, hrun]
      rfl
  | .pollTerminate anchor notice =>
    have hlive : t.OwnLive (anchor.names env t) u.store := halike.1
    rw [liveControl, LiveControl.payload, controlStore, Store.foldPollTerminate, hlive.foldPollRow_own, Prog.bind_eq,
      Prog.run_bind]
    rcases foldOwnRows_cases t u.store NormalizedPoll.terminate with hnone | ⟨row, rich, hsender, hsome⟩
    · have hrun := run_foldCandidates_none hlive hnone (u := u) rfl _ fun _ => PollAnchor.mem_names
      rw [hnone]
      simp only [Store.foldPollTerminate, hrun]
      exact store_waitFor t _ u
    · obtain ⟨legacySender, hlegacy, hrun⟩ := run_foldCandidates_some hlive hsome (u := u) rfl _ hmeans fun _ =>
        PollAnchor.mem_names
      rw [hsome]
      simp only [Store.foldPollTerminate, hrun]
      refine (store_terminated t legacySender notice _ _).trans
        (noticeStore_legacy ?_ (fun stamp hstamp => ?_) hlegacy)
      · exact (senderId_pollFace t _ _).trans hsender
      · exact (grows_enriched t u.store row rich).ownNotices (halike.2 stamp hstamp)

/-- Controls that come one after the other. -/
theorem store_liveRun : ∀ {controls : List LiveControl} {u : Service},
    (∀ control ∈ controls, t.senderId ∈ control.authors env t) →
    (∀ control ∈ controls, control.Alike env t u.store) →
      (liveRun env t controls u).store = (controls.map LiveControl.payload).foldl (controlStore env t) u.store
  | [], _, _, _ => rfl
  | control :: controls, u, hmeans, halike => by
    have hhead := halike control mem_cons_self
    have hstore := store_liveControl (hmeans control mem_cons_self) hhead
    rw [liveRun, foldl_cons, ← liveRun, store_liveRun, hstore]
    · rfl
    · exact fun other hother => hmeans other (mem_cons_of_mem control hother)
    · intro other hother
      rw [hstore]
      exact (halike other (mem_cons_of_mem control hother)).grows (grows_controlStore hhead)

end Alone

end Ingest

end SignalConnector
