/-
# What a retry of an ingest leaves out

`receive_persistence_loop` runs `ingest_receive` again after any error. Up to
and including the insert a failed call is made good by that: the landing is
made again from whatever store the failure left. Past the insert it is not. The
row is stored, the second run finds it and answers no event, and the early
controls and receipts that were taken out of their tables are gone with the
first run.
-/
import SignalConnector.Lib.Tally
import SignalConnector.Receive.Landing
import SignalConnector.Receive.Settle

namespace SignalConnector

open Store Table

namespace Store

variable {s s' : Store}

/-- The badges of all accounts together. -/
def unreadTotal (s : Store) : ℕ := tally (fun _ => ()) AccountRow.unreadCount s.accounts.rows ()

theorem SameStanding.unreadTotal (h : s.SameStanding s') : s'.unreadTotal = s.unreadTotal := by
  have hcounts : ∀ s : Store, s.unreadTotal =
      tally (fun _ => ()) (fun x : AccountFace × ℕ × String => x.2.1) (s.accounts.rows.map AccountRow.standing) () := fun s => by
    rw [tally_view]
    rfl
  rw [hcounts, hcounts, h]

theorem SameStanding.faces (h : s.SameStanding s') : s'.accountFaces = s.accountFaces := by
  have hfaces := congrArg (List.map Prod.fst) h
  rwa [List.map_map, List.map_map] at hfaces

theorem unreadTotal_upsertAccount {signalAccount proxyGroup id : String} {linkedAt : Option ℕ} {a : AccountRow}
    (h : s.upsertAccountFromSignalWithId signalAccount linkedAt proxyGroup id = .ok (a, s')) :
    s'.unreadTotal = s.unreadTotal := by
  unfold upsertAccountFromSignalWithId at h
  dsimp only at h
  split at h
  · cases h
    refine tally_map _ _ (fun x _ => ?_) ()
    split <;> exact ⟨rfl, rfl⟩
  · split at h
    · cases h
    next hfree =>
    cases h
    unfold unreadTotal
    rw [rows_insertOrIgnore_of_free (by simpa [AccountRow.ofAddress] using hfree), tally_append]
    rfl

/-- What an insert leaves of the accounts and conversations, and how it raises the badges. -/
theorem insertMessage_landed {message : MessageRecord} {clientRequestId preview : Option String}
    {incrementUnread : Bool} {storedAt : ℕ}
    (h : s.insertMessage message clientRequestId preview incrementUnread storedAt = .ok (true, s')) :
    s'.accountFaces = s.accountFaces ∧ s'.conversationKeys = s.conversationKeys ∧
      s'.unreadTotal = s.unreadTotal + if incrementUnread then 1 else 0 := by
  unfold insertMessage at h
  dsimp only at h
  split at h
  · cases h
  split at h
  · next hthere =>
    cases h
    refine ⟨view_rows_same fun _ _ _ => rfl, view_rows_same fun _ _ _ => rfl, ?_⟩
    obtain ⟨a, ha⟩ := Option.isSome_iff_exists.mp hthere.1
    obtain ⟨hmem, hid⟩ := Table.find?_eq_some.mp ha
    have hsum := s.accounts.tally_update_one (fun _ => ()) AccountRow.unreadCount
      (fun x => x.id = message.accountId)
      (fun x => { x with
        lastMessageAt := bumpStamp (asI64 message.sentAt) x.lastMessageAt
        unreadCount := x.unreadCount + if incrementUnread then 1 else 0 }) hmem (fun x _ => by simp [hid]) ()
    simp only [share, if_true] at hsum
    set landed := { s with messages := s.messages.insertOrIgnore (.ofRecord message clientRequestId storedAt) }
    have hraised : (landed.bumpSummaries message preview incrementUnread).unreadTotal + a.unreadCount =
        s.unreadTotal + (a.unreadCount + if incrementUnread then 1 else 0) := hsum
    omega
  · cases h

end Store

namespace Ingest

variable {env : IngestEnv} {r : NormalizedReceive}

namespace LandSteps

variable {signalAccount title : String} {conversation : ConversationRow} {s opened placed s' : Store}
  {landed : Landed}

theorem faces (h : LandSteps env r signalAccount title conversation s opened placed landed s') :
    s'.accountFaces = opened.accountFaces ∧ s'.conversationKeys = placed.conversationKeys := by
  obtain ⟨hframe, -⟩ :=
    ensureConversation_spec h.ensured (NormalizedReceive.conversationOf_steady h.belongs)
  obtain ⟨haccounts, hconversations, -⟩ := Store.insertMessage_landed h.inserted
  refine ⟨haccounts.trans ?_, hconversations.trans (view_rows_same fun _ _ _ => rfl)⟩
  change placed.accounts.rows.map _ = _
  rw [hframe]

/-- A landing of an incoming row raises the badges by one. -/
theorem unreadTotal (h : LandSteps env r signalAccount title conversation s opened placed landed s') :
    s'.unreadTotal = s.unreadTotal + if landed.message.direction = .incoming then 1 else 0 := by
  obtain ⟨hframe, -⟩ :=
    ensureConversation_spec h.ensured (NormalizedReceive.conversationOf_steady h.belongs)
  have hplaced : placed.unreadTotal = opened.unreadTotal := by rw [hframe]; rfl
  obtain ⟨-, -, hinserted⟩ := Store.insertMessage_landed h.inserted
  rw [hinserted, ← unreadTotal_upsertAccount h.upserted, ← hplaced]
  simp only [decide_eq_true_eq]
  rfl

theorem not_again {signalAccount' title' : String} {conversation' : ConversationRow}
    {t opened' placed' t' : Store} {landed' : Landed}
    (h : LandSteps env r signalAccount title conversation s opened placed landed s') (hkeeps : s'.Keeps t)
    (h' : LandSteps env r signalAccount' title' conversation' t opened' placed' landed' t') : False := by
  obtain ⟨haccounts, hconversations⟩ := h.faces
  have hfaces : t.accountFaces = opened.accountFaces := hkeeps.accounts.faces.trans haccounts
  have hkeys : t.conversationKeys = placed.conversationKeys := hkeeps.conversations.trans hconversations
  -- the same number, and the same account
  obtain rfl : signalAccount' = signalAccount := by
    have hagain : receivingAccountIn env r t = receivingAccountIn env r opened := receivingAccountIn_congr hfaces
    rw [h'.resolved, h.resolved_again rfl] at hagain
    exact Option.some.inj hagain
  have hfound : (t.accountBySignal signalAccount').map AccountRow.face = some landed.account.face := by
    rw [accountBySignal_congr hfaces, (upsertAccount_spec h.upserted).1]
    rfl
  have hopened' : opened'.accountFaces = t.accountFaces :=
    face_upsertAccount h'.upserted (by
      rw [← Option.isSome_map (f := AccountRow.face), hfound]
      rfl)
  have haccount : landed'.account.id = landed.account.id := by
    have hsame := accountBySignal_congr hopened' signalAccount'
    rw [hfound, (upsertAccount_spec h'.upserted).1] at hsame
    exact congrArg AccountFace.id (Option.some.inj hsame)
  -- the same conversation
  have hbelongs := h'.belongs
  rw [h.belongs] at hbelongs
  obtain ⟨hkind, hrest⟩ := Prod.mk.inj (Option.some.inj hbelongs)
  obtain ⟨hpeerKey, rfl⟩ := Prod.mk.inj hrest
  obtain ⟨-, c, hpeer, hid, -⟩ :=
    ensureConversation_spec h.ensured (NormalizedReceive.conversationOf_steady h.belongs)
  have hconversation : conversation'.id = conversation.id := by
    have hensured := h'.ensured
    rw [haccount, ← hkind, ← hpeerKey] at hensured
    have hredirect := memoRedirect_congr (hopened'.trans hfaces) landed.account.id landed.kind landed.peerKey
    have hopened'keys : opened'.conversationKeys = t.conversationKeys := by rw [upsertAccount_frame h'.upserted]
    have hlookup := conversationByPeer_congr (hopened'keys.trans hkeys) landed.account.id landed.kind
      (opened.memoRedirect landed.account.id landed.kind landed.peerKey)
    rw [hpeer, Option.map_some, Option.map_eq_some_iff] at hlookup
    obtain ⟨c', hpeer', hkey⟩ := hlookup
    rw [← hredirect] at hpeer'
    rw [ensureConversation_of_some hpeer'] at hensured
    obtain ⟨rfl, -⟩ := Prod.mk.inj (Except.ok.inj hensured)
    exact (Prod.mk.inj hkey).1.trans hid
  -- so the same message id, which is taken
  have hmessage : landed'.message.id = landed.message.id := by
    have hdirection := h'.direction
    have hsentAt := h'.sentAt
    rw [h.direction] at hdirection
    rw [h.sentAt] at hsentAt
    rw [h'.message, h.message, ← Option.some.inj hdirection, ← Option.some.inj hsentAt, ← hkind, ← hpeerKey]
    simp only [NormalizedReceive.record, NormalizedReceive.senderId, haccount, hconversation]
  obtain ⟨-, hstored⟩ := find?_insertMessage h.inserted
  obtain ⟨hfree, -⟩ := find?_insertMessage h'.inserted
  have hthere := hkeeps.messages landed.message.id (by rw [hstored]; rfl)
  obtain ⟨hframe', -⟩ :=
    ensureConversation_spec h'.ensured (NormalizedReceive.conversationOf_steady h'.belongs)
  have hmessages : (placed'.mirror (r.mirror landed'.kind) conversation'.id).messages = t.messages := by
    change placed'.messages = t.messages
    rw [hframe', upsertAccount_frame h'.upserted]
  rw [hmessages, hmessage] at hfree
  rw [hfree] at hthere
  cases hthere

end LandSteps

/-! ### The retry -/

/-- Without a failure the envelope lands a row and is settled. -/
def Lands (env : IngestEnv) (r : NormalizedReceive) (s : Service) : Prop :=
  (∃ landed, ((land env r).run s).1 = .ok (some landed)) ∧ ∃ events, ((ingestReceive env r).run s).1 = .ok events

/-- Both left the same store, the same events in some order and the same delivery receipt. -/
def SameEffect : Option Persisted → Option Persisted → Prop
  | some p, some q => p.service.store = q.service.store ∧ p.events.Perm q.events ∧ p.receipt = q.receipt
  | _, _ => False

instance : ∀ p q : Option Persisted, Decidable (SameEffect p q)
  | some p, some q =>
    inferInstanceAs (Decidable (p.service.store = q.service.store ∧ p.events.Perm q.events ∧ p.receipt = q.receipt))
  | some _, none => .isFalse id
  | none, _ => .isFalse id

/-- One failure of call number `n` makes no difference. -/
def RetrySafe (env : IngestEnv) (r : NormalizedReceive) (n : ℕ) (s : Service) : Prop :=
  SameEffect (receivePersistence env r n s) (persisted r ((ingestReceive env r).run s))
  deriving Decidable

theorem run_ingestReceive (env : IngestEnv) (r : NormalizedReceive) (s : Service) : (ingestReceive env r).run s =
      match (land env r).run s with
      | (.ok (some landed), s) => (settle env r landed).run s
      | (.ok none, s) => (.ok [], s)
      | (.error e, s) => (.error e, s) := by
  unfold ingestReceive
  rw [Prog.bind_eq, Prog.run_bind]
  rcases (land env r).run s with ⟨_ | _ | landed, s⟩ <;> rfl

theorem settle_returns (env : IngestEnv) (r : NormalizedReceive) (landed : Landed) :
    (settle env r landed).Returns (· ≠ []) := by
  unfold settle
  refine Prog.returns_bind (fun controls => ?_) _
  refine Prog.returns_bind (fun receipts => ?_) _
  refine Prog.returns_bind (fun message => ?_) _
  refine Prog.returns_bind (fun merged => ?_) _
  refine Prog.returns_bind (fun summary => ?_) _
  refine Prog.returns_bind (fun account => ?_) _
  exact List.cons_ne_nil _ _

section Retry

variable {s after : Service} {landed : Landed} {n : ℕ} {events : List HostSideEvent}

/-- A failure up to the insert is made good. -/
theorem retrySafe_of_lt (hland : (land env r).run s = (.ok (some landed), after))
    {final : Service} (hsettle : (settle env r landed).run after = (.ok events, final))
    (hn : n < (land env r).calls s) : RetrySafe env r n s := by
  obtain ⟨e, t, hfault, hagain⟩ := Prog.runFault_of_lt_calls .unavailable _ n s hn (land_replays hland)
  have hfailed : (ingestReceive env r).runFault .unavailable n s = (.error e, t) :=
    Prog.runFault_bind_of_error _ _ n s hfault
  have hclean : (ingestReceive env r).run s = (.ok events, final) := by rw [run_ingestReceive, hland, ← hsettle]
  have hretried : (ingestReceive env r).run t = (.ok events, final) := by
    rw [run_ingestReceive, hagain, ← hsettle]
  unfold RetrySafe receivePersistence
  rw [hfailed, hclean]
  dsimp only
  rw [hretried]
  exact ⟨rfl, .refl _, rfl⟩

/-- A second landing shows in the store or does not happen. -/
theorem not_sameEffect_of_landed {t t' final : Service} {landed' : Landed}
    (hland : (land env r).run s = (.ok (some landed), after))
    (hsettle : (settle env r landed).run after = (.ok events, final)) (hstanding : after.store.SameStanding t.store)
    (hkeeps : landed.message.direction ≠ .incoming → after.store.Keeps t.store)
    (hagain : (land env r).run t = (.ok (some landed'), t')) :
    ¬ SameEffect (persisted r ((settle env r landed').run t')) (persisted r (.ok events, final)) := by
  obtain ⟨signalAccount, title, conversation, opened, placed, store, hsteps, rfl⟩ := exists_landSteps hland
  obtain ⟨signalAccount', title', conversation', opened', placed', store', hsteps', rfl⟩ := exists_landSteps hagain
  by_cases hincoming : landed.message.direction = .incoming
  swap
  · exact (hsteps.not_again (hkeeps hincoming) hsteps').elim
  have hdirection : landed'.message.direction = .incoming := by
    have hsame := hsteps'.direction
    rw [hsteps.direction, hincoming] at hsame
    exact (Option.some.inj hsame).symm
  have hfinal : final.store.unreadTotal = store.unreadTotal := by
    have hkept := (settle_sameStanding env r landed store).run (s := { s with store }) rfl
    rw [hsettle] at hkept
    exact hkept.unreadTotal
  have hraised := hsteps'.unreadTotal
  rw [if_pos hdirection, hstanding.unreadTotal] at hraised
  rcases hrun : (settle env r landed').run { t with store := store' } with ⟨_ | events', final'⟩
  · exact id
  · have hkept := (settle_sameStanding env r landed' store').run (s := { t with store := store' }) rfl
    rw [hrun] at hkept
    rintro ⟨hstore, -, -⟩
    have htotal := hkept.unreadTotal
    change final'.store = final.store at hstore
    change final'.store.unreadTotal = store'.unreadTotal at htotal
    rw [hstore, hfinal] at htotal
    change store'.unreadTotal = store.unreadTotal + 1 at hraised
    omega

/-- A failure past the insert is not. -/
theorem not_retrySafe_of_le (hland : (land env r).run s = (.ok (some landed), after))
    {final : Service}
    (hsettle : (settle env r landed).run after = (.ok events, final)) (hle : (land env r).calls s ≤ n)
    (hn : n < (ingestReceive env r).calls s) : ¬ RetrySafe env r n s := by
  have hcalls : n - (land env r).calls s < (settle env r landed).calls after := by
    unfold ingestReceive at hn
    rw [Prog.bind_eq, Prog.calls_bind, hland] at hn
    dsimp only at hn
    omega
  -- the failure leaves a store that still has what the landing left
  have hkept : (settle env r landed).AtCalls (fun t => after.store.SameStanding t.store ∧
      (landed.message.direction ≠ .incoming → after.store.Keeps t.store)) after := by
    by_cases hincoming : landed.message.direction = .incoming
    · have hstanding := (settle_sameStanding env r landed after.store).atCalls (s := after) rfl
      exact hstanding.mono fun t ht => ⟨ht, fun hout => absurd hincoming hout⟩
    · have hkeeps := (settle_keeps env r hincoming after.store).atCalls (s := after) (.refl _)
      exact hkeeps.mono fun t ht => ⟨ht.accounts, fun _ => ht⟩
  obtain ⟨e, t, hfault, hstanding, hkeeps⟩ := Prog.runFault_of_lt_calls .unavailable _ _ after hcalls hkept
  have hfailed : (ingestReceive env r).runFault .unavailable n s = (.error e, t) := by
    unfold ingestReceive
    rw [Prog.bind_eq, Prog.runFault_bind_of_calls_le .unavailable _ n s hle hland]
    exact hfault
  have hclean : (ingestReceive env r).run s = (.ok events, final) := by rw [run_ingestReceive, hland, ← hsettle]
  unfold RetrySafe receivePersistence
  rw [hfailed, hclean]
  dsimp only
  rw [run_ingestReceive]
  rcases hagain : (land env r).run t with ⟨_ | _ | landed', t'⟩
  · exact id
  · rintro ⟨-, hevents, -⟩
    exact (settle_returns env r landed).of_run hsettle (List.nil_perm.mp hevents)
  · exact not_sameEffect_of_landed hland hsettle hstanding hkeeps hagain

end Retry

/-- **A failure inside an ingest that lands a row is made good by the retry iff it comes no later than
the insert.** -/
theorem receive_retry_safe_iff (env : IngestEnv) (r : NormalizedReceive) (s : Service) (n : ℕ)
    (hlands : Lands env r s) (hn : n < (ingestReceive env r).calls s) :
    RetrySafe env r n s ↔ n < (land env r).calls s := by
  obtain ⟨⟨landed, hlanded⟩, events, hevents⟩ := hlands
  have hland : (land env r).run s = (.ok (some landed), ((land env r).run s).2) := by rw [← hlanded]
  have hclean := run_ingestReceive env r s
  rw [hland] at hclean
  dsimp only at hclean
  rw [hclean] at hevents
  have hsettle : (settle env r landed).run ((land env r).run s).2 =
      (.ok events, ((settle env r landed).run ((land env r).run s).2).2) := by rw [← hevents]
  constructor
  · intro hsafe
    by_contra hle
    exact not_retrySafe_of_le hland hsettle (by omega) hn hsafe
  · exact retrySafe_of_lt hland hsettle

/-! ### An instance -/

def plainEnv : IngestEnv := ⟨id, 1000, "group", "account", fun _ => false⟩

def helloReceive : NormalizedReceive where
  timestamp := some 500
  contentKind := .dataMessage
  direction := some .incoming
  account := some "+1"
  source := some "+2"
  sourceUuid := none
  peerName := some "Bo"
  groupId := none
  text := some "hi"
  textBytes := none
  textTruncated := false
  quote := none
  attachments := []
  rich := none
  storyReply := false
  isExpirationUpdate := false
  groupName := none
  sticker := none
  expireSeconds := none
  expireStartAt := none
  serverGuid := none
  serverTimestamp := none
  reportingToken := none

def freshService : Service := ⟨.empty, [], []⟩

theorem helloReceive_lands : Lands plainEnv helloReceive freshService := ⟨⟨_, rfl⟩, _, rfl⟩

/-- A failure of the insert, the fourth call, is made good. -/
theorem receive_retry_safe_insert :
    Lands plainEnv helloReceive freshService ∧ 3 < (ingestReceive plainEnv helloReceive).calls freshService ∧
      (RetrySafe plainEnv helloReceive 3 freshService ↔ 3 < (land plainEnv helloReceive).calls freshService) :=
  ⟨helloReceive_lands, by decide,
    receive_retry_safe_iff plainEnv helloReceive freshService 3 helloReceive_lands (by decide)⟩

/-- The summary fails once: the row is stored without an event or a receipt; undisturbed, with three and one. -/
theorem failed_summary_silences_row :
    Lands plainEnv helloReceive freshService ∧ ¬ RetrySafe plainEnv helloReceive 4 freshService ∧
      ((receivePersistence plainEnv helloReceive 4 freshService).map fun p =>
        (p.service.store.messages.rows.length, p.events.length, p.receipt)) = some (1, 0, none) ∧
      ((persisted helloReceive ((ingestReceive plainEnv helloReceive).run freshService)).map fun p =>
        (p.service.store.messages.rows.length, p.events.length, p.receipt)) = some (1, 3, some ⟨"+1", "+2", 500⟩) :=
  ⟨helloReceive_lands, by decide, by decide, by decide⟩

end Ingest

end SignalConnector
