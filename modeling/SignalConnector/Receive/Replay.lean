/-
# Landing the same envelope again

The writes `ingest_receive` makes before its insert may be made a second time.
An account that was upserted is found again and answered as it was. A
conversation that was ensured is found under its key, and its title upgrade
has nothing left to do, unless the group title of the envelope was written in
between; that title then comes back with the other columns the envelope
mirrors into its conversation.
-/
import SignalConnector.Lib.Fold
import SignalConnector.Store.Conversations

namespace SignalConnector

open List Table

/-! ### Titles -/

theorem dropWhile_eq_self_of_start {α : Type} {p : α → Bool} {l l' : List α} (hl : l.dropWhile p = l)
    (hle : l' <+: l) : l'.dropWhile p = l' := by
  cases l' with
  | nil => rfl
  | cons a l' =>
    obtain ⟨rest, rfl⟩ := hle
    have ha : p a = false := by
      by_contra ha
      rw [cons_append, dropWhile_cons_of_pos (by simpa using ha)] at hl
      have hlen := congrArg List.length hl
      have hdrop := (dropWhile_suffix (l := l' ++ rest) p).length_le
      rw [length_cons] at hlen
      omega
    rw [dropWhile_cons_of_neg (by simp [ha])]

variable (title raw text : String)

theorem toList_trim : (trim text).toList = (text.toList.dropWhile isWhiteSpace).rdropWhile isWhiteSpace := by
  simp [trim, List.rdropWhile]

theorem trim_trim : trim (trim text) = trim text := by
  refine String.toList_inj.mp ?_
  rw [toList_trim (trim text), toList_trim, dropWhile_eq_self_of_start (dropWhile_idempotent _ _)
    ( rdropWhile_prefix _ _), rdropWhile_idempotent]

theorem mem_toList_trim {text : String} {c : Char} (hc : c ∈ text.toList) (hspace : isWhiteSpace c = false) :
    c ∈ (trim text).toList := by
  have hdrop : ∀ {l : List Char}, c ∈ l → c ∈ l.dropWhile isWhiteSpace := by
    intro l hl
    rw [← takeWhile_append_dropWhile (p := isWhiteSpace) (l := l)] at hl
    rcases mem_append.mp hl with hl | hl
    · have := mem_takeWhile_imp hl
      simp [hspace] at this
    · exact hl
  rw [toList_trim, List.rdropWhile, mem_reverse]
  exact hdrop (mem_reverse.mpr (hdrop hc))

variable (c : ConversationRow)

/-- A title that is upgraded by itself stays what it is. -/
def SteadyTitle : Prop := titleShouldUpgrade title title = true → trim title = title

theorem steadyTitle_of_trim : SteadyTitle (trim text) := fun _ => trim_trim text

theorem star_mem_maskAddress : '*' ∈ (maskAddress raw).toList := by
  unfold maskAddress
  dsimp only
  split
  · have hpos : max raw.toList.length 1 ≠ 0 := by omega
    simp [mem_replicate]
  · simp

theorem steadyTitle_maskAddress : SteadyTitle (maskAddress raw) := by
  intro h
  have hstar := mem_toList_trim (star_mem_maskAddress raw) (by decide)
  rcases titleShouldUpgrade_self h with hplace | hplace
  all_goals
    rw [hplace] at hstar
    exact absurd hstar (by decide)

/-- What an upgrade to `title` makes of a conversation. -/
def ConversationRow.upgraded : ConversationRow :=
  { c with title := if titleShouldUpgrade c.title title then trim title else c.title }

theorem ConversationRow.id_upgraded : (c.upgraded title).id = c.id := rfl

theorem trim_ne_of_titleShouldUpgrade {current title : String} (h : titleShouldUpgrade current title = true) :
    trim title ≠ "" := by
  intro hblank
  simp [titleShouldUpgrade, hblank] at h

/-- The columns an account is found by. -/
structure AccountFace where
  id : String
  signalAccount : String
  proxyGroup : String
  aci : Option String

def AccountRow.face (a : AccountRow) : AccountFace := ⟨a.id, a.signalAccount, a.proxyGroup, a.aci⟩

abbrev Store.accountFaces (s : Store) : List AccountFace := s.accounts.rows.map AccountRow.face

/-! ### What an envelope mirrors into its conversation -/

/-- The columns of a conversation that are overwritten, if the envelope states them. -/
structure ConversationMirror where
  timer : Option ℤ
  title : Option String
  token : Option String

namespace ConversationMirror

variable {m p : ConversationMirror}

def apply (m : ConversationMirror) (c : ConversationRow) : ConversationRow :=
  { c with
    expireTimerSeconds := m.timer.or c.expireTimerSeconds
    title := m.title.getD c.title
    reportSpamToken := m.token.or c.reportSpamToken }

theorem id_apply (m : ConversationMirror) (c : ConversationRow) : (m.apply c).id = c.id := rfl

/-- Nothing is overwritten. -/
def none : ConversationMirror := ⟨.none, .none, .none⟩

/-- One mirror after another. -/
def atop (m p : ConversationMirror) : ConversationMirror :=
  ⟨m.timer.or p.timer, m.title.or p.title, m.token.or p.token⟩

theorem apply_none : none.apply c = c := by simp [apply, none]

theorem apply_apply (m p : ConversationMirror) (c : ConversationRow) : m.apply (p.apply c) = (m.atop p).apply c := by
  cases hm : m.title <;> simp [apply, atop, Option.or_assoc, hm]

/-- Some of the columns of `m` are those of `p`, and `p` has no others. -/
structure Part (p m : ConversationMirror) : Prop where
  timer : p.timer = .none ∨ p.timer = m.timer
  title : p.title = .none ∨ p.title = m.title
  token : p.token = .none ∨ p.token = m.token

theorem or_part {α : Type} {o q : Option α} (h : q = .none ∨ q = o) (x : Option α) : o.or (q.or x) = o.or x := by
  rcases h with rfl | rfl
  · rw [Option.none_or]
  · cases q <;> rfl

/-- A mirror written again, after part of it and the title upgrade, is as if written once. -/
theorem apply_upgraded {title : String} {c : ConversationRow} (hpart : p.Part m) (hsteady : c.upgraded title = c) :
    m.apply ((p.apply c).upgraded title) = m.apply c := by
  have htitle : m.title.getD ((p.apply c).upgraded title).title = m.title.getD c.title := by
    cases hm : m.title with
    | some => rfl
    | none =>
      have hp : p.title = .none := by
        rcases hpart.title with h | h
        · exact h
        · rw [h, hm]
      have hsame : ((p.apply c).upgraded title).title = (c.upgraded title).title := by
        simp [ConversationRow.upgraded, apply, hp]
      rw [hsame, hsteady]
  unfold apply at htitle ⊢
  dsimp only [ConversationRow.upgraded] at htitle ⊢
  rw [htitle, or_part hpart.timer, or_part hpart.token]

end ConversationMirror

namespace Store

variable {s s' t : Store}

variable (m p : ConversationMirror) (conversationId : String)

/-- The mirror of one conversation. -/
def mirror (s : Store) : Store :=
  s.updateConversations (fun c => c.id = conversationId) m.apply m.id_apply

theorem updateConversations_congr {p q : ConversationRow → Bool} {f g : ConversationRow → ConversationRow}
    {hf : ∀ c, (f c).id = c.id} {hg : ∀ c, (g c).id = c.id}
    (h : ∀ c ∈ s.conversations.rows, (if p c then f c else c) = if q c then g c else c) :
    s.updateConversations p f hf = s.updateConversations q g hg := by
  unfold updateConversations
  rw [show s.conversations.update p f hf = s.conversations.update q g hg from
    eq_of_rows (map_congr_left h)]

theorem updateConversations_updateConversations {conversationId : String}
    {f g h : ConversationRow → ConversationRow} {hf : ∀ c, (f c).id = c.id} {hg : ∀ c, (g c).id = c.id}
    {hh : ∀ c, (h c).id = c.id} (heq : ∀ c ∈ s.conversations.rows, c.id = conversationId → g (f c) = h c) :
    (s.updateConversations (fun c => c.id = conversationId) f hf).updateConversations
        (fun c => c.id = conversationId) g hg = s.updateConversations (fun c => c.id = conversationId) h hh := by
  unfold updateConversations
  refine congrArg (fun conversations => { s with conversations }) (eq_of_rows ?_)
  change (s.conversations.rows.map _).map _ = s.conversations.rows.map _
  rw [map_map]
  refine map_congr_left fun c hc => ?_
  simp only [Function.comp_apply, decide_eq_true_eq]
  by_cases hid : c.id = conversationId
  · rw [if_pos hid, if_pos ((hf c).trans hid), if_pos hid, heq c hc hid]
  · rw [if_neg hid, if_neg hid, if_neg hid]

theorem mirror_none (s : Store) : s.mirror .none conversationId = s := by
  refine congrArg (fun conversations => { s with conversations }) (eq_of_rows ?_)
  refine (map_congr_left fun c _ => ?_).trans (map_id _)
  rw [ConversationMirror.apply_none, ite_self]
  rfl

theorem mirror_mirror (s : Store) :
    (s.mirror p conversationId).mirror m conversationId = s.mirror (m.atop p) conversationId :=
  updateConversations_updateConversations fun c _ _ => m.apply_apply p c

/-! ### Accounts -/

/-- What an upsert without a link time does to the account it finds. -/
def revived (a : AccountRow) : AccountRow := { a with state := "ready", linkedAt := a.linkedAt.or none }

theorem id_revived (a : AccountRow) : (revived a).id = a.id := rfl

variable {signalAccount proxyGroup id : String} {linkedAt : Option ℕ} {a : AccountRow}

/-- An upserted account is found under its number, and there is nothing left to revive. -/
theorem upsertAccount_spec (h : s.upsertAccountFromSignalWithId signalAccount none proxyGroup id = .ok (a, s')) :
    s'.accountBySignal signalAccount = some a ∧ revived a = a ∧
      s'.accounts.update (fun x => x.id = a.id) revived id_revived = s'.accounts := by
  unfold upsertAccountFromSignalWithId at h
  dsimp only [Option.map_none] at h
  split at h
  · next existing hfind =>
    obtain ⟨rfl, rfl⟩ := Prod.mk.inj (Except.ok.inj h)
    have hkeep : ∀ x : AccountRow, (if x.id = existing.id then revived x else x).signalAccount = x.signalAccount :=
      fun x => by split <;> rfl
    have htwice : ∀ x, revived (revived x) = revived x := fun x => by simp [revived]
    refine ⟨?_, htwice existing, eq_of_rows ?_⟩
    · unfold accountBySignal at hfind ⊢
      change (s.accounts.rows.map fun x => if decide (x.id = existing.id) then revived x else x).find? _ = _
      rw [find?_map]
      simp only [Function.comp_def, decide_eq_true_eq, hkeep, hfind]
      simp [revived]
    · change (s.accounts.rows.map fun x => if decide (x.id = existing.id) then revived x else x).map
        (fun x => if decide (x.id = existing.id) then revived x else x) =
          s.accounts.rows.map fun x => if decide (x.id = existing.id) then revived x else x
      rw [map_map]
      refine map_congr_left fun x _ => ?_
      by_cases hx : x.id = existing.id
      · simp [hx, revived]
      · simp [hx]
  · next hnone =>
    split at h
    · cases h
    next hfree =>
    obtain ⟨rfl, rfl⟩ := Prod.mk.inj (Except.ok.inj h)
    set row := AccountRow.ofAddress id signalAccount (maskAddress signalAccount) proxyGroup with hrow
    have hfree : s.accounts.find? row.id = none := by simpa [hrow, AccountRow.ofAddress] using hfree
    have hrows : (s.accounts.insertOrIgnore row).rows = s.accounts.rows ++ [row] :=
      rows_insertOrIgnore_of_free hfree
    have hsame : revived row = row := rfl
    refine ⟨?_, hsame, eq_of_rows ?_⟩
    · unfold accountBySignal at hnone ⊢
      change (s.accounts.insertOrIgnore row).rows.find? _ = _
      rw [hrows, find?_append, hnone]
      simp [hrow, AccountRow.ofAddress]
    · change ((s.accounts.insertOrIgnore row).update (fun x => x.id = row.id) revived _).rows =
        (s.accounts.insertOrIgnore row).rows
      rw [rows_update, hrows]
      refine (map_congr_left fun x hx => ?_).trans (map_id _)
      rcases mem_append.mp hx with hx | hx
      · have hne : x.id ≠ row.id := Table.find?_eq_none.mp hfree x hx
        simp [hne]
      · rw [mem_singleton.mp hx]
        simp [hsame]

/-- An upsert that was made answers the same account again, and writes nothing more. -/
theorem upsertAccount_again (h : s.upsertAccountFromSignalWithId signalAccount none proxyGroup id = .ok (a, s'))
    (ht : t.accounts = s'.accounts) :
    t.upsertAccountFromSignalWithId signalAccount none proxyGroup id = .ok (a, t) := by
  obtain ⟨hfind, hsame, haccounts⟩ := upsertAccount_spec h
  have hfind : t.accountBySignal signalAccount = some a := by
    unfold accountBySignal at hfind ⊢
    rw [ht, hfind]
  rw [← ht] at haccounts
  unfold upsertAccountFromSignalWithId
  rw [hfind]
  change Except.ok (revived a, { t with accounts := t.accounts.update (fun x => x.id = a.id) revived _ }) = _
  rw [hsame, haccounts]

/-- A known number keeps every account's identity. -/
theorem face_upsertAccount (h : s.upsertAccountFromSignalWithId signalAccount linkedAt proxyGroup id = .ok (a, s'))
    (hknown : (s.accountBySignal signalAccount).isSome) : s'.accountFaces = s.accountFaces := by
  obtain ⟨existing, hfind⟩ := Option.isSome_iff_exists.mp hknown
  unfold upsertAccountFromSignalWithId at h
  rw [hfind] at h
  cases h
  exact view_rows_same fun _ _ _ => rfl

theorem upsertAccount_frame
    (h : s.upsertAccountFromSignalWithId signalAccount linkedAt proxyGroup id = .ok (a, s')) :
    s' = { s with accounts := s'.accounts } := by
  unfold upsertAccountFromSignalWithId at h
  dsimp only at h
  split at h
  · cases h
    rfl
  · split at h
    · cases h
    · cases h
      rfl

/-- Accounts are found by their faces. -/
theorem accountBySignal_congr (h : t.accountFaces = s.accountFaces) (signalAccount : String) :
    (t.accountBySignal signalAccount).map AccountRow.face = (s.accountBySignal signalAccount).map AccountRow.face := by
  have hfaces : ∀ s : Store, (s.accountBySignal signalAccount).map AccountRow.face =
      s.accountFaces.find? fun a => a.signalAccount = signalAccount := fun s => by
    rw [find?_map]
    rfl
  rw [hfaces, hfaces, h]

/-- Where an account's own number leads is read off the accounts' faces. -/
theorem find?_face_congr (h : t.accountFaces = s.accountFaces) (accountId : String) :
    (t.accounts.find? accountId).map AccountRow.face = (s.accounts.find? accountId).map AccountRow.face := by
  have hfaces : ∀ s : Store, (s.accounts.find? accountId).map AccountRow.face =
      s.accountFaces.find? fun a => a.id = accountId := fun s => by
    rw [find?_map]
    rfl
  rw [hfaces, hfaces, h]

theorem memoRedirect_congr (h : t.accountFaces = s.accountFaces)
    (accountId : String) (kind : ConversationKind) (peerKey : String) :
    t.memoRedirect accountId kind peerKey = s.memoRedirect accountId kind peerKey := by
  have hfind := find?_face_congr h accountId
  unfold memoRedirect
  cases kind with
  | group => rfl
  | direct =>
    cases ht : t.accounts.find? accountId with
    | none =>
      rw [ht, Option.map_none, eq_comm, Option.map_eq_none_iff] at hfind
      rw [hfind]
    | some =>
      rw [ht, Option.map_some, eq_comm, Option.map_eq_some_iff] at hfind
      obtain ⟨b, hb, hface⟩ := hfind
      obtain ⟨-, hsignal, -, haci⟩ := AccountFace.mk.inj hface
      rw [hb]
      dsimp only
      rw [hsignal, haci]

/-! ### Conversations -/

variable {sha256 : String → String} {accountId peerKey title : String} {kind : ConversationKind}
  {c : ConversationRow}

theorem setConversationTitle_of_upgrade (hup : titleShouldUpgrade c.title title = true)
    (hc : c ∈ s.conversations.rows) : s.setConversationTitle c.id title =
      s.updateConversations (fun x => x.id = c.id) (ConversationRow.upgraded title)
        (ConversationRow.id_upgraded title) := by
  unfold setConversationTitle
  dsimp only
  rw [if_neg (trim_ne_of_titleShouldUpgrade hup)]
  refine updateConversations_congr fun x hx => ?_
  by_cases hid : x.id = c.id
  · cases s.conversations.row_unique hx hc hid
    simp [ConversationRow.upgraded, hup]
  · simp [hid]

theorem ensureConversation_of_some
    (hpeer : s.conversationByPeer accountId kind (s.memoRedirect accountId kind peerKey) = some c) :
    s.ensureConversation sha256 accountId kind peerKey title =
      .ok (c, s.updateConversations (fun x => x.id = c.id) (ConversationRow.upgraded title)
        (ConversationRow.id_upgraded title)) := by
  have hc := (conversationByPeer_spec hpeer).1
  unfold ensureConversation
  dsimp only
  rw [hpeer]
  dsimp only
  split
  · next hup => rw [setConversationTitle_of_upgrade hup hc]
  · next hup =>
    congr 2
    refine (congrArg (fun conversations => { s with conversations }) (eq_of_rows ?_)).symm
    refine (map_congr_left fun x hx => ?_).trans (map_id _)
    by_cases hid : x.id = c.id
    · cases s.conversations.row_unique hx hc hid
      simp [ConversationRow.upgraded, hup]
    · simp [hid]

theorem upgraded_upgraded (title : String) (c : ConversationRow) :
    (c.upgraded title).upgraded title = c.upgraded title := by
  unfold ConversationRow.upgraded
  dsimp only
  split
  · simp
  · simp

/-- The lookup by peer only reads the columns of its key. -/
theorem conversationByPeer_updateConversations {p : ConversationRow → Bool}
    {f : ConversationRow → ConversationRow} (hf : ∀ c, (f c).id = c.id) (hkey : ∀ c, (f c).key = c.key)
    (accountId peerKey : String) (kind : ConversationKind) :
    (s.updateConversations p f hf).conversationByPeer accountId kind peerKey =
      (s.conversationByPeer accountId kind peerKey).map fun c => if p c then f c else c := by
  unfold conversationByPeer updateConversations
  rw [rows_update, find?_map]
  congr 2
  funext c
  simp only [Function.comp_apply]
  split
  · obtain ⟨-, hrest⟩ := Prod.mk.inj (hkey c)
    obtain ⟨haccount, hrest⟩ := Prod.mk.inj hrest
    obtain ⟨hkind, hpeer⟩ := Prod.mk.inj hrest
    rw [haccount, hkind, hpeer]
  · rfl

/-- An ensured conversation is found, its title has nothing to gain, and nothing else was written. -/
theorem ensureConversation_spec (h : s.ensureConversation sha256 accountId kind peerKey title = .ok (c, s'))
    (hsteady : SteadyTitle title) :
    s' = { s with conversations := s'.conversations } ∧
      ∃ c', s'.conversationByPeer accountId kind (s.memoRedirect accountId kind peerKey) = some c' ∧
        c'.id = c.id ∧ c'.upgraded title = c' := by
  cases hpeer : s.conversationByPeer accountId kind (s.memoRedirect accountId kind peerKey) with
  | some existing =>
    rw [ensureConversation_of_some hpeer] at h
    obtain ⟨rfl, rfl⟩ := Prod.mk.inj (Except.ok.inj h)
    refine ⟨rfl, existing.upgraded title, ?_, rfl, upgraded_upgraded title existing⟩
    rw [conversationByPeer_updateConversations (ConversationRow.id_upgraded title) (fun _ => rfl), hpeer]
    simp
  | none =>
    unfold ensureConversation at h
    dsimp only at h
    rw [hpeer] at h
    obtain ⟨t, ht, hrow⟩ := exists_of_map_ok h
    obtain ⟨rfl, rfl⟩ := Prod.mk.inj hrow
    unfold insertConversation at ht
    split at ht
    · cases ht
    next hfree =>
    cases ht
    set row := ConversationRow.ofPeer
      (stableHashId sha256 [accountId, kind.asStr, s.memoRedirect accountId kind peerKey]) accountId kind
      (s.memoRedirect accountId kind peerKey) title with hrow
    have hrows : (s.conversations.insertOrIgnore row).rows = s.conversations.rows ++ [row] := by
      refine rows_insertOrIgnore_of_free ?_
      simpa using (not_or.mp hfree).1
    refine ⟨rfl, row, ?_, rfl, ?_⟩
    · unfold conversationByPeer at hpeer ⊢
      rw [hrows, find?_append, hpeer]
      simp [hrow, ConversationRow.ofPeer]
    · have htitle : (if titleShouldUpgrade title title then trim title else title) = title := by
        split
        · next hup => exact hsteady hup
        · rfl
      rw [ConversationRow.upgraded, show row.title = title from rfl, htitle]
      rfl

theorem ensureConversation_mirror {c' : ConversationRow} {m p : ConversationMirror} {redirected : String}
    (hredirect : (s.mirror p c'.id).memoRedirect accountId kind peerKey = redirected)
    (hpeer : s.conversationByPeer accountId kind redirected = some c') (hup : c'.upgraded title = c')
    (hpart : p.Part m) :
    ∃ again, (s.mirror p c'.id).ensureConversation sha256 accountId kind peerKey title = .ok (p.apply c', again) ∧
      again = { s with conversations := again.conversations } ∧ again.mirror m c'.id = s.mirror m c'.id := by
  have hmirror : (s.mirror p c'.id).conversationByPeer accountId kind
      ((s.mirror p c'.id).memoRedirect accountId kind peerKey) = some (p.apply c') := by
    unfold mirror
    rw [conversationByPeer_updateConversations p.id_apply (fun _ => rfl)]
    change (s.conversationByPeer accountId kind ((s.mirror p c'.id).memoRedirect accountId kind peerKey)).map _ = _
    rw [hredirect, hpeer]
    simp
  refine ⟨_, ensureConversation_of_some hmirror, rfl, ?_⟩
  have htwice : (s.mirror p c'.id).updateConversations (fun x => x.id = c'.id) (ConversationRow.upgraded title)
      (ConversationRow.id_upgraded title) = s.updateConversations (fun x => x.id = c'.id) (fun x => (p.apply x).upgraded title)
        fun _ => rfl :=
    updateConversations_updateConversations fun _ _ _ => rfl
  change ((s.mirror p c'.id).updateConversations (fun x => x.id = c'.id) _ _).mirror m c'.id = _
  rw [htwice]
  refine updateConversations_updateConversations fun x hx hid => ?_
  cases s.conversations.row_unique hx (conversationByPeer_spec hpeer).1 hid
  exact ConversationMirror.apply_upgraded hpart hup

end Store

end SignalConnector
