/-
# The first half of an ingest

What a landing is, written out over the store (`LandSteps`): the account is
resolved and upserted, the conversation ensured, no stored row is the
envelope's, the conversation takes what the envelope mirrors, and the insert
meets nothing. `land` lands exactly when it takes these steps
(`exists_landSteps`, `LandSteps.run`), and from every store in which it makes a call it takes them
again to the same row and the same store (`LandSteps.atCalls`).
-/
import SignalConnector.Receive.Ingest
import SignalConnector.Receive.Replay

namespace SignalConnector

open List Store

namespace NormalizedReceive

variable (r : NormalizedReceive)

/-- What the envelope mirrors into its conversation. -/
def timerMirror : ConversationMirror :=
  { ConversationMirror.none with
    timer := if r.isExpirationUpdate then some (asI64 (r.expireSeconds.getD 0)) else none }

def titleMirror (kind : ConversationKind) : ConversationMirror :=
  { ConversationMirror.none with
    title := if kind = .group then (r.groupName.map trim).filter (· ≠ "") else none }

def tokenMirror : ConversationMirror :=
  { ConversationMirror.none with token := r.reportingToken }

def mirror (kind : ConversationKind) : ConversationMirror :=
  (r.tokenMirror.atop (r.titleMirror kind)).atop r.timerMirror

/-- The title an envelope suggests for its conversation is not upgraded by itself. -/
theorem conversationOf_steady {r : NormalizedReceive} {kind : ConversationKind} {peerKey title : String}
    (h : r.conversationOf = some (kind, peerKey, title)) : SteadyTitle title := by
  have hlabel : ∀ peer, SteadyTitle (((r.peerName.map trim).filter (· ≠ "")).getD (maskAddress peer)) := by
    intro peer
    cases hname : (r.peerName.map trim).filter (· ≠ "") with
    | none => exact steadyTitle_maskAddress peer
    | some =>
      obtain ⟨hmem, -⟩ := Option.filter_eq_some_iff.mp hname
      obtain ⟨raw, -, rfl⟩ := Option.map_eq_some_iff.mp hmem
      exact steadyTitle_of_trim raw
  unfold conversationOf at h
  split at h
  · cases h
    exact fun _ => by decide
  · obtain ⟨-, hrest⟩ := Prod.mk.inj (Option.some.inj h)
    obtain ⟨-, rfl⟩ := Prod.mk.inj hrest
    exact hlabel _
  · cases h

end NormalizedReceive

namespace Ingest

variable (env : IngestEnv) (r : NormalizedReceive)

/-! ### The reads -/

/-- The number the envelope was received for, as the store has it. -/
def receivingAccountIn (s : Store) : Option String :=
  match r.account.filter (· ≠ "") with
  | some signalAccount => some signalAccount
  | none =>
    match s.listAccountsInGroup env.ownerGroup with
    | [account] => (s.accounts.find? account.id).map AccountRow.signalAccount
    | _ => none

/-- The stored row the envelope is a copy of. -/
def existingIn (direction : Direction) (sentAt : ℕ) (t : Target) (s : Store) : Option MessageRow :=
  let legacySenderId := if direction = .outgoing then "self" else t.legacySenderId env
  match s.messageBySignalIdentity t.accountId t.conversationId direction sentAt t.senderId legacySenderId,
    r.sourceUuid.filter (· ≠ "") with
  | none, some sourceUuid =>
    if direction = .incoming then
      s.messageBySignalIdentity t.accountId t.conversationId direction sentAt sourceUuid sourceUuid
    else none
  | existing, _ => existing

variable {env r} {α : Type} {P : Service → Prop}

/-- The number of the group's only account, read off the accounts' faces. -/
def soleAccount (ownerGroup : String) (faces : List AccountFace) : Option String :=
  match faces.filter fun a => a.proxyGroup = ownerGroup with
  | [a] => (faces.find? fun x => x.id = a.id).map AccountFace.signalAccount
  | _ => none

theorem soleAccount_eq (s : Store) (ownerGroup : String) :
    (match s.listAccountsInGroup ownerGroup with
      | [account] => (s.accounts.find? account.id).map AccountRow.signalAccount
      | _ => none) = soleAccount ownerGroup s.accountFaces := by
  have hlisted : s.accountFaces.filter (fun a => a.proxyGroup = ownerGroup) =
      (s.listAccountsInGroup ownerGroup).map AccountRow.face := filter_map
  unfold soleAccount
  rw [hlisted]
  rcases s.listAccountsInGroup ownerGroup with _ | ⟨account, _ | ⟨other, accounts⟩⟩
  · rfl
  · simp only [map_cons, map_nil, find?_map, Option.map_map]
    rfl
  · rfl

theorem receivingAccountIn_congr {s t : Store}
    (h : t.accountFaces = s.accountFaces) : receivingAccountIn env r t = receivingAccountIn env r s := by
  unfold receivingAccountIn
  split
  · rfl
  · rw [soleAccount_eq, soleAccount_eq, h]

theorem run_receivingAccount (k : Option String → Prog Service StoreError α) (s : Service) :
    (receivingAccount env r >>= k).run s = (k (receivingAccountIn env r s.store)).run s := by
  unfold receivingAccount receivingAccountIn
  cases r.account.filter (· ≠ "") with
  | some => rfl
  | none =>
    change ((match s.store.listAccountsInGroup env.ownerGroup with
      | [account] => _
      | _ => _) >>= k).run s = _
    split <;> rfl

theorem atCalls_receivingAccount {k : Option String → Prog Service StoreError α} {s : Service} (hs : P s)
    (hk : (k (receivingAccountIn env r s.store)).AtCalls P s) : (receivingAccount env r >>= k).AtCalls P s := by
  unfold receivingAccount
  unfold receivingAccountIn at hk
  cases haccount : r.account.filter (· ≠ "") with
  | some =>
    rw [haccount] at hk
    exact hk
  | none =>
    rw [haccount] at hk
    dsimp only
    rw [bind_assoc]
    refine atCalls_storeRead hs ?_
    rcases hlist : s.store.listAccountsInGroup env.ownerGroup with _ | ⟨account, _ | ⟨other, accounts⟩⟩
    · rw [hlist] at hk
      exact hk
    · rw [hlist] at hk
      rw [bind_assoc]
      exact atCalls_storeRead hs hk
    · rw [hlist] at hk
      exact hk

theorem run_existingRow (direction : Direction) (sentAt : ℕ) (t : Target)
    (k : Option MessageRow → Prog Service StoreError α) (s : Service) :
    (existingRow env r direction sentAt t >>= k).run s = (k (existingIn env r direction sentAt t s.store)).run s := by
  unfold existingRow existingIn
  dsimp only
  rw [bind_assoc, run_storeRead]
  cases s.store.messageBySignalIdentity t.accountId t.conversationId direction sentAt t.senderId _ with
  | some => rfl
  | none =>
    cases r.sourceUuid.filter (· ≠ "") with
    | none => rfl
    | some =>
      dsimp only
      split <;> rfl

theorem atCalls_existingRow {direction : Direction} {sentAt : ℕ} {t : Target}
    {k : Option MessageRow → Prog Service StoreError α} {s : Service} (hs : P s)
    (hk : (k (existingIn env r direction sentAt t s.store)).AtCalls P s) :
    (existingRow env r direction sentAt t >>= k).AtCalls P s := by
  unfold existingRow
  unfold existingIn at hk
  dsimp only at hk ⊢
  rw [bind_assoc]
  refine atCalls_storeRead hs ?_
  cases hfirst : s.store.messageBySignalIdentity t.accountId t.conversationId direction sentAt t.senderId
      (if direction = .outgoing then "self" else t.legacySenderId env) with
  | some existing =>
    rw [hfirst] at hk
    exact hk
  | none =>
    rw [hfirst] at hk
    cases hsource : r.sourceUuid.filter (· ≠ "") with
    | none =>
      rw [hsource] at hk
      exact hk
    | some =>
      rw [hsource] at hk
      dsimp only at hk ⊢
      split at hk
      · next hincoming =>
        rw [if_pos hincoming]
        exact atCalls_storeRead hs hk
      · next hincoming =>
        rw [if_neg hincoming]
        exact hk

theorem run_storiesOff (account : AccountRow) (k : Bool → Prog Service StoreError α) (s : Service) :
    (storiesOff env r account >>= k).run s = (k (r.storyReply && env.storiesDisabled account.id)).run s := by
  unfold storiesOff
  cases r.storyReply <;> rfl

theorem atCalls_storiesOff {account : AccountRow} {k : Bool → Prog Service StoreError α} {s : Service} (hs : P s)
    (hk : (k (r.storyReply && env.storiesDisabled account.id)).AtCalls P s) :
    (storiesOff env r account >>= k).AtCalls P s := by
  unfold storiesOff
  cases hstory : r.storyReply with
  | false =>
    rw [hstory] at hk
    exact hk
  | true =>
    rw [hstory] at hk
    exact atCalls_storeRead hs hk

/-! ### The mirrors -/

def Owned (accountId conversationId : String) (s : Store) : Prop :=
  ∀ c ∈ s.conversations.rows, c.id = conversationId → c.accountId = accountId

section Mirrors

variable {s : Service} {accountId conversationId : String}

theorem Owned.mirror {s : Store} (h : Owned accountId conversationId s) (m : ConversationMirror) :
    Owned accountId conversationId (s.mirror m conversationId) := by
  intro c hc hid
  obtain ⟨x, hx, rfl⟩ := mem_map.mp hc
  by_cases hx' : x.id = conversationId
  · simpa [hx', ConversationMirror.apply] using h x hx hx'
  · simp [hx'] at hid

/-- The program makes at most one call, which turns the store `s` into `t`. -/
def Rewrites (p : Prog Service StoreError Unit) (s t : Store) : Prop :=
  (p = pure () ∧ t = s) ∨ ∃ f : Store → Store, p = storeWrite (fun s => ((), f s)) ∧ t = f s

theorem Rewrites.run {p : Prog Service StoreError Unit} {t : Store} (h : Rewrites p s.store t)
    (k : Unit → Prog Service StoreError α) : (p >>= k).run s = (k ()).run { s with store := t } := by
  obtain ⟨rfl, rfl⟩ | ⟨f, rfl, rfl⟩ := h
  · rfl
  · rfl

theorem Rewrites.atCalls {p : Prog Service StoreError Unit} {t : Store} (h : Rewrites p s.store t)
    {k : Unit → Prog Service StoreError α} (hs : P s) (hk : (k ()).AtCalls P { s with store := t }) :
    (p >>= k).AtCalls P s := by
  obtain ⟨rfl, rfl⟩ | ⟨f, rfl, rfl⟩ := h
  · exact hk
  · exact atCalls_storeCall (f := fun s => .ok ((), f s)) rfl hs hk

theorem rewrites_mirrorTimer {s : Store} (h : Owned accountId conversationId s) :
    Rewrites (mirrorTimer r accountId conversationId) s (s.mirror r.timerMirror conversationId) := by
  unfold mirrorTimer NormalizedReceive.timerMirror
  cases r.isExpirationUpdate with
  | false => exact .inl ⟨rfl, mirror_none conversationId s⟩
  | true =>
    refine .inr ⟨fun s => s.setConversationExpireTimer accountId conversationId (r.expireSeconds.getD 0), rfl, ?_⟩
    refine updateConversations_congr fun c hc => ?_
    by_cases hid : c.id = conversationId
    · subst hid
      by_cases htimer : c.expireTimerSeconds = some (asI64 (r.expireSeconds.getD 0))
      · simp [ConversationMirror.apply, ConversationMirror.none, ← htimer]
      · simp [h c hc rfl, htimer, ConversationMirror.apply, ConversationMirror.none]
    · simp [hid]

theorem rewrites_mirrorTitle (kind : ConversationKind) (s : Store) :
    Rewrites (mirrorTitle r kind conversationId) s (s.mirror (r.titleMirror kind) conversationId) := by
  cases kind with
  | direct => exact .inl ⟨rfl, mirror_none conversationId s⟩
  | group =>
    unfold mirrorTitle NormalizedReceive.titleMirror
    cases r.groupName with
    | none => exact .inl ⟨rfl, mirror_none conversationId s⟩
    | some groupName =>
      refine .inr ⟨fun s => s.setConversationTitle conversationId groupName, rfl, ?_⟩
      unfold setConversationTitle
      dsimp only
      by_cases hblank : trim groupName = ""
      · rw [if_pos hblank, Option.map_some, hblank]
        exact mirror_none conversationId s
      · rw [if_neg hblank]
        simp only [Option.map_some, if_true, Option.filter_some, decide_eq_true hblank]
        rfl

theorem rewrites_mirrorToken {s : Store} (h : Owned accountId conversationId s) :
    Rewrites (mirrorToken r accountId conversationId) s (s.mirror r.tokenMirror conversationId) := by
  unfold mirrorToken NormalizedReceive.tokenMirror
  cases r.reportingToken with
  | none => exact .inl ⟨rfl, mirror_none conversationId s⟩
  | some token =>
    refine .inr ⟨fun s => s.storeConversationReportToken accountId conversationId token, rfl, ?_⟩
    refine updateConversations_congr fun c hc => ?_
    by_cases hid : c.id = conversationId
    · simp [hid, h c hc hid, ConversationMirror.apply, ConversationMirror.none]
    · simp [hid]

theorem run_mirrorConversation (kind : ConversationKind) (h : Owned accountId conversationId s.store)
    (k : Unit → Prog Service StoreError α) : (mirrorConversation r kind accountId conversationId >>= k).run s =
      (k ()).run { s with store := s.store.mirror (r.mirror kind) conversationId } := by
  unfold mirrorConversation
  rw [bind_assoc, (rewrites_mirrorTimer h).run, bind_assoc, (rewrites_mirrorTitle kind _).run,
    (rewrites_mirrorToken ((h.mirror _).mirror _)).run]
  dsimp only
  rw [mirror_mirror, mirror_mirror]
  rfl

theorem atCalls_mirrorConversation {kind : ConversationKind} (h : Owned accountId conversationId s.store)
    {k : Unit → Prog Service StoreError α} (hs : ∀ p : ConversationMirror, p.Part (r.mirror kind) →
      P { s with store := s.store.mirror p conversationId })
    (hk : (k ()).AtCalls P { s with store := s.store.mirror (r.mirror kind) conversationId }) :
    (mirrorConversation r kind accountId conversationId >>= k).AtCalls P s := by
  have htimer : r.timerMirror.Part (r.mirror kind) := ⟨.inr rfl, .inl rfl, .inl rfl⟩
  have htitle : ((r.titleMirror kind).atop r.timerMirror).Part (r.mirror kind) := ⟨.inr rfl, .inr rfl, .inl rfl⟩
  unfold mirrorConversation
  rw [bind_assoc]
  refine (rewrites_mirrorTimer h).atCalls ?_ ?_
  · simpa [mirror_none] using hs .none ⟨.inl rfl, .inl rfl, .inl rfl⟩
  rw [bind_assoc]
  refine (rewrites_mirrorTitle kind _).atCalls (hs _ htimer) ?_
  refine (rewrites_mirrorToken ((h.mirror _).mirror _)).atCalls ?_ ?_
  · dsimp only
    rw [mirror_mirror]
    exact hs _ htitle
  · dsimp only
    rw [mirror_mirror, mirror_mirror]
    exact hk

end Mirrors

/-! ### The steps of a landing -/

/-- The store `s` lands the envelope and becomes `s'`, by way of `opened` and `placed`. -/
structure LandSteps (env : IngestEnv) (r : NormalizedReceive) (signalAccount title : String)
    (conversation : ConversationRow) (s opened placed : Store) (landed : Landed) (s' : Store) : Prop where
  direction : r.direction = some landed.message.direction
  sentAt : r.timestamp = some landed.message.sentAt
  resolved : receivingAccountIn env r s = some signalAccount
  upserted : s.upsertAccountFromSignalWithId signalAccount none env.ownerGroup env.accountId =
    .ok (landed.account, opened)
  ungated : (r.storyReply && env.storiesDisabled landed.account.id) = false
  belongs : r.conversationOf = some (landed.kind, landed.peerKey, title)
  ensured : opened.ensureConversation env.sha256 landed.account.id landed.kind landed.peerKey title =
    .ok (conversation, placed)
  fresh : existingIn env r landed.message.direction landed.message.sentAt landed.target placed = none
  message : landed.message = r.record env.sha256 env.now landed.message.direction landed.message.sentAt
    signalAccount landed.account landed.kind landed.peerKey conversation.id
  inserted : (placed.mirror (r.mirror landed.kind) conversation.id).insertMessage landed.message none
    (landed.message.text.map fun text => String.ofList (text.toList.take 120))
    (landed.message.direction = .incoming) env.now = .ok (true, s')

theorem owned_of_ensured {accountId peerKey title : String} {kind : ConversationKind}
    {conversation : ConversationRow} {opened placed : Store} (hbelongs : r.conversationOf = some (kind, peerKey, title))
    (hensured : opened.ensureConversation env.sha256 accountId kind peerKey title = .ok (conversation, placed)) :
    Owned accountId conversation.id placed := by
  obtain ⟨-, c', hpeer, hid, -⟩ :=
    ensureConversation_spec hensured (NormalizedReceive.conversationOf_steady hbelongs)
  obtain ⟨hmem, haccount, -⟩ := conversationByPeer_spec hpeer
  intro c hc hc'
  rw [placed.conversations.row_unique hc hmem (hc'.trans hid.symm), haccount]

/-- A landing that comes as far as the conversation. -/
theorem run_land_of_placed {direction : Direction} {sentAt : ℕ} {signalAccount peerKey title : String}
    {account : AccountRow} {kind : ConversationKind} {conversation : ConversationRow} {opened placed : Store}
    {service : Service} (hdirection : r.direction = some direction) (hsentAt : r.timestamp = some sentAt)
    (hresolved : receivingAccountIn env r service.store = some signalAccount)
    (hupserted : service.store.upsertAccountFromSignalWithId signalAccount none env.ownerGroup env.accountId =
      .ok (account, opened)) (hungated : (r.storyReply && env.storiesDisabled account.id) = false)
    (hbelongs : r.conversationOf = some (kind, peerKey, title))
    (hensured : opened.ensureConversation env.sha256 account.id kind peerKey title = .ok (conversation, placed)) :
    (land env r).run service = (landIn env r direction sentAt signalAccount account kind peerKey conversation).run
        { service with store := placed } := by
  unfold land
  rw [hdirection, hsentAt]
  dsimp only
  rw [run_receivingAccount, hresolved]
  dsimp only
  unfold landFor
  rw [run_storeCall_of_ok _ _ hupserted, run_storiesOff, hungated, hbelongs]
  dsimp only [Bool.false_eq_true, if_false]
  rw [if_neg Bool.false_ne_true, run_storeCall_of_ok _ _ hensured]

theorem exists_insertMessage {landed landed' : Landed} {s after : Service}
    (h : (insertLanding env landed).run s = (.ok (some landed'), after)) :
    landed' = landed ∧ ∃ s', s.store.insertMessage landed.message none
      (landed.message.text.map fun text => String.ofList (text.toList.take 120))
      (landed.message.direction = .incoming) env.now = .ok (true, s') ∧ after = { s with store := s' } := by
  unfold insertLanding at h
  dsimp only at h
  cases hinserted : s.store.insertMessage landed.message none
      (landed.message.text.map fun text => String.ofList (text.toList.take 120))
      (landed.message.direction = .incoming) env.now with
  | error e =>
    rw [run_storeCall_of_error _ _ hinserted] at h
    cases h
  | ok answer =>
    rw [run_storeCall_of_ok _ _ hinserted] at h
    obtain ⟨inserted, s'⟩ := answer
    cases inserted with
    | false => cases h
    | true =>
      cases h
      exact ⟨rfl, s', rfl, rfl⟩

/-- A run of `land` that lands takes the steps of a landing. -/
theorem exists_landSteps {service after : Service} {landed : Landed}
    (h : (land env r).run service = (.ok (some landed), after)) :
    ∃ signalAccount title conversation opened placed s',
      LandSteps env r signalAccount title conversation service.store opened placed landed s' ∧
        after = { service with store := s' } := by
  have hno : ∀ {s : Service}, (pure none : Prog Service StoreError (Option Landed)).run s =
      (.ok (some landed), after) → False := fun h => by cases h
  unfold land at h
  split at h
  swap
  · exact (hno h).elim
  next direction sentAt hdirection hsentAt =>
  rw [run_receivingAccount] at h
  cases hresolved : receivingAccountIn env r service.store with
  | none =>
    rw [hresolved] at h
    exact (hno h).elim
  | some signalAccount =>
  rw [hresolved] at h
  dsimp only at h
  unfold landFor at h
  cases hupserted : service.store.upsertAccountFromSignalWithId signalAccount none env.ownerGroup env.accountId with
  | error =>
    rw [run_storeCall_of_error _ _ hupserted] at h
    cases h
  | ok r₁ =>
  rw [run_storeCall_of_ok _ _ hupserted, run_storiesOff] at h
  cases hungated : r.storyReply && env.storiesDisabled r₁.1.id with
  | true =>
    rw [hungated] at h
    exact (hno h).elim
  | false =>
  rw [hungated, if_neg Bool.false_ne_true] at h
  split at h
  · exact (hno h).elim
  next kind peerKey title hbelongs =>
  cases hensured : r₁.2.ensureConversation env.sha256 r₁.1.id kind peerKey title with
  | error =>
    rw [run_storeCall_of_error _ _ hensured] at h
    cases h
  | ok r₂ =>
  rw [run_storeCall_of_ok _ _ hensured] at h
  unfold landIn at h
  dsimp only at h
  rw [run_existingRow] at h
  split at h
  · exact (hno h).elim
  next hfresh =>
  rw [run_mirrorConversation _ (owned_of_ensured hbelongs hensured)] at h
  obtain ⟨rfl, s', hinserted, rfl⟩ := exists_insertMessage h
  exact ⟨signalAccount, title, r₂.1, r₁.2, r₂.2, s', ⟨hdirection, hsentAt, hresolved, hupserted, hungated, hbelongs,
    hensured, hfresh, rfl, hinserted⟩, rfl⟩

namespace LandSteps

variable {signalAccount title : String} {conversation : ConversationRow} {s opened placed s' : Store}
  {landed : Landed}

/-- The steps are a run of `land`. -/
theorem run (service : Service)
    (h : LandSteps env r signalAccount title conversation service.store opened placed landed s') :
    (land env r).run service = (.ok (some landed), { service with store := s' }) := by
  rw [run_land_of_placed h.direction h.sentAt h.resolved h.upserted h.ungated h.belongs h.ensured]
  unfold landIn
  rw [← h.message]
  rw [run_existingRow]
  dsimp only
  rw [h.fresh]
  dsimp only
  rw [run_mirrorConversation _ (owned_of_ensured h.belongs h.ensured)]
  unfold insertLanding
  rw [run_storeCall_of_ok _ _ h.inserted]
  rfl

/-! ### The steps again -/

theorem resolved_again (h : LandSteps env r signalAccount title conversation s opened placed landed s')
    {t : Store} (ht : t.accounts = opened.accounts) : receivingAccountIn env r t = some signalAccount := by
  have hresolved := h.resolved
  cases hnamed : r.account.filter (· ≠ "") with
  | some =>
    unfold receivingAccountIn at hresolved ⊢
    rw [hnamed] at hresolved ⊢
    exact hresolved
  | none =>
    -- a number that was read off the accounts is known to them
    have hknown : (s.accountBySignal signalAccount).isSome := by
      unfold receivingAccountIn at hresolved
      rw [hnamed] at hresolved
      dsimp only at hresolved
      split at hresolved
      · obtain ⟨a, ha, hsignal⟩ := Option.map_eq_some_iff.mp hresolved
        exact find?_isSome.mpr ⟨a, (Table.find?_eq_some.mp ha).1, decide_eq_true hsignal⟩
      · cases hresolved
    rw [← hresolved]
    refine receivingAccountIn_congr ?_
    rw [Store.accountFaces, ht]
    exact face_upsertAccount h.upserted hknown

theorem of_mirror (h : LandSteps env r signalAccount title conversation s opened placed landed s')
    {p : ConversationMirror} (hpart : p.Part (r.mirror landed.kind)) :
    ∃ conversation' placed', LandSteps env r signalAccount title conversation'
      (placed.mirror p conversation.id) (placed.mirror p conversation.id) placed' landed s' := by
  obtain ⟨hframe, c', hpeer, hid, hup⟩ :=
    ensureConversation_spec h.ensured (NormalizedReceive.conversationOf_steady h.belongs)
  have haccounts : (placed.mirror p conversation.id).accounts = opened.accounts := by
    change placed.accounts = opened.accounts
    rw [hframe]
  have hredirect : (placed.mirror p c'.id).memoRedirect landed.account.id landed.kind landed.peerKey =
      opened.memoRedirect landed.account.id landed.kind landed.peerKey := by
    unfold memoRedirect
    rw [show (placed.mirror p c'.id).accounts = opened.accounts from haccounts]
  obtain ⟨again, hensured, hagain, hmirror⟩ := ensureConversation_mirror hredirect hpeer hup hpart
  rw [hid] at hensured hmirror
  have hmessages : again.messages = placed.messages := by rw [hagain]
  have hsame : (p.apply c').id = conversation.id := hid
  refine ⟨p.apply c', again, h.direction, h.sentAt, h.resolved_again haccounts,
    upsertAccount_again h.upserted haccounts, h.ungated, h.belongs, hensured, ?_, ?_, ?_⟩
  · have hfresh := h.fresh
    unfold existingIn Store.messageBySignalIdentity at hfresh ⊢
    rw [hmessages]
    exact hfresh
  · rw [hsame]
    exact h.message
  · rw [hsame, hmirror]
    exact h.inserted

theorem atCalls {service : Service} {P : Service → Prop}
    (h : LandSteps env r signalAccount title conversation service.store opened placed landed s')
    (hs : P service) (hopened : P { service with store := opened })
    (hplaced : ∀ p : ConversationMirror, p.Part (r.mirror landed.kind) →
      P { service with store := placed.mirror p conversation.id }) : (land env r).AtCalls P service := by
  have hensured : P { service with store := placed } := by
    simpa [mirror_none] using hplaced .none ⟨.inl rfl, .inl rfl, .inl rfl⟩
  unfold land
  rw [h.direction, h.sentAt]
  refine atCalls_receivingAccount hs ?_
  rw [h.resolved]
  refine atCalls_storeCall h.upserted hs (atCalls_storiesOff hopened ?_)
  rw [h.ungated, if_neg Bool.false_ne_true, h.belongs]
  refine atCalls_storeCall h.ensured hopened ?_
  unfold landIn
  rw [← h.message]
  refine atCalls_existingRow hensured ?_
  dsimp only
  rw [h.fresh]
  refine atCalls_mirrorConversation (owned_of_ensured h.belongs h.ensured) hplaced ?_
  exact atCalls_storeCall h.inserted (hplaced _ ⟨.inr rfl, .inr rfl, .inr rfl⟩) trivial

end LandSteps

/-- **A landing is made again from every store in which it makes a call.** -/
theorem land_replays {service after : Service} {landed : Landed}
    (h : (land env r).run service = (.ok (some landed), after)) :
    (land env r).AtCalls (fun t => (land env r).run t = (.ok (some landed), after)) service := by
  obtain ⟨signalAccount, title, conversation, opened, placed, s', hsteps, rfl⟩ := exists_landSteps h
  refine hsteps.atCalls h (LandSteps.run { service with store := opened } { hsteps with
    resolved := hsteps.resolved_again rfl
    upserted := upsertAccount_again hsteps.upserted rfl }) ?_
  intro p hpart
  obtain ⟨conversation', placed', hagain⟩ := hsteps.of_mirror hpart
  exact LandSteps.run { service with store := placed.mirror p conversation.id } hagain

end Ingest

end SignalConnector
