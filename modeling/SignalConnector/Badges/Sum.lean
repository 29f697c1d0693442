/-
# The account's badge is the sum

`accounts.unread_count` is meant to be the sum of `conversations.unread_count`
over the account's conversations. Every operation keeps it so but for the two
identity folds, which rewrite one conversation and delete another without
touching the account: they keep it exactly when the count they leave is the
sum of the two they found.
-/
import SignalConnector.Badges.Run
import SignalConnector.Lib.Run

namespace SignalConnector

open List Store

namespace Store

/-- Every account shows the sum over its conversations. -/
def BadgesSum (s : Store) : Prop :=
  ∀ a ∈ s.accounts.rows, a.unreadCount =
    tally ConversationRow.accountId ConversationRow.unreadCount s.conversations.rows a.id
  deriving Decidable

/-- Every conversation's account is there: the foreign key of `conversations`. -/
def AccountsExist (s : Store) : Prop := ∀ c ∈ s.conversations.rows, (s.accounts.find? c.accountId).isSome

variable {s : Store}

theorem badgesSum_iff : s.BadgesSum ↔ s.counters.Balanced := by
  have howed : ∀ id, s.counters.owed id =
      tally ConversationRow.accountId ConversationRow.unreadCount s.conversations.rows id := fun id =>
    tally_view Badge.accountId Badge.unread ConversationRow.badge s.conversations.rows id
  constructor
  · intro h t ht
    obtain ⟨a, ha, rfl⟩ := mem_map.mp ht
    exact (h a ha).trans (howed a.id).symm
  · intro h a ha
    exact (h a.total (mem_map_of_mem ha)).trans (howed a.id)

theorem total_of_find? {accountId : String} (h : (s.accounts.find? accountId).isSome) :
    ∃ t ∈ s.counters.totals.rows, t.accountId = accountId := by
  obtain ⟨a, ha⟩ := Option.isSome_iff_exists.mp h
  obtain ⟨hmem, hid⟩ := Table.find?_eq_some.mp ha
  exact ⟨a.total, mem_map_of_mem hmem, hid⟩

theorem accountsExist_iff : s.AccountsExist ↔ s.counters.Homed := by
  constructor
  · intro h b hb
    obtain ⟨c, hc, rfl⟩ := mem_map.mp hb
    exact total_of_find? (h c hc)
  · intro h c hc
    obtain ⟨t, ht, hid⟩ := h c.badge (badge_mem hc)
    obtain ⟨a, ha, rfl⟩ := mem_map.mp ht
    have hfind : s.accounts.find? c.accountId = some a := Table.find?_eq_some.mpr ⟨ha, hid⟩
    simp [hfind]

end Store

namespace BadgeOp

variable {s : Store} {op : BadgeOp} {c : Counters}

/-- A message is inserted into a conversation of its own account. -/
def InOwnAccount (s : Store) : BadgeOp → Prop
  | .insertMessage message _ _ _ _ =>
    ∀ c ∈ s.conversations.rows, c.id = message.conversationId → c.accountId = message.accountId
  | _ => True

/-- A fold leaves the sum of the two badges it found. -/
def Conserves (s : Store) (op : BadgeOp) : Prop :=
  ∀ shell canonical unread mentions, op.pair s = some ((shell, canonical), unread, mentions) →
    unread = shell.unreadCount + canonical.unreadCount

instance (s : Store) (op : BadgeOp) : Decidable (op.InOwnAccount s) := by
  cases op <;> unfold InOwnAccount <;> infer_instance

instance (s : Store) (op : BadgeOp) : Decidable (op.Conserves s) :=
  decidable_of_iff (∀ p ∈ op.pair s, p.2.1 = p.1.1.unreadCount + p.1.2.unreadCount)
    ⟨fun h _ _ _ _ hpair => h _ hpair, fun h _ hpair => h _ _ _ _ hpair⟩

theorem conserves_of_none (h : op.pair s = none) : op.Conserves s := by
  intro shell canonical unread mentions hpair
  rw [h] at hpair
  cases hpair

theorem Moves.homed (h : Moves s op c) (hhome : s.counters.Homed) : c.Homed := by
  cases h with
  | stay => exact hhome
  | openAccount => exact hhome.openAccount _
  | openConversation haccount => exact hhome.openConversation _ (Store.total_of_find? haccount)
  | land => exact hhome.land _ _ _ _
  | read => exact hhome.read _ _ _
  | repair => exact (hhome.clamp _).recount
  | drop => exact (hhome.drop _ _).recount
  | foldNew _ haccount => exact (hhome.openConversation _ (Store.total_of_find? haccount)).fold _ _ _ _
  | fold => exact hhome.fold _ _ _ _

/-- **One operation keeps the sum iff it conserves what it folds.** -/
theorem Moves.balanced_iff (h : Moves s op c) (hhome : s.counters.Homed) (hsum : s.counters.Balanced)
    (hown : op.InOwnAccount s) : c.Balanced ↔ op.Conserves s := by
  cases h with
  | stay hpair => exact iff_of_true hsum (conserves_of_none hpair)
  | openAccount hfree =>
    refine iff_of_true (hsum.openAccount fun b hb heq => ?_) (conserves_of_none rfl)
    obtain ⟨t, ht, hid⟩ := hhome b hb
    obtain ⟨a, ha, rfl⟩ := mem_map.mp ht
    exact Table.find?_eq_none.mp hfree a ha (hid.trans heq)
  | openConversation => exact iff_of_true (hsum.openConversation _ _) (conserves_of_none rfl)
  | land hthere =>
    obtain ⟨row, hrow⟩ := Option.isSome_iff_exists.mp hthere
    obtain ⟨hmem, hid⟩ := Table.find?_eq_some.mp hrow
    rw [← hown row hmem hid, ← hid]
    exact iff_of_true (hsum.land (Store.badge_mem hmem) _ _) (conserves_of_none rfl)
  | read hc => exact iff_of_true (hsum.read (Store.badge_mem hc)) (conserves_of_none rfl)
  | repair hpair => exact iff_of_true (Counters.balanced_recount _) (conserves_of_none hpair)
  | drop => exact iff_of_true (Counters.balanced_recount _) (conserves_of_none rfl)
  | @foldNew accountId id shell hpair haccount hshell howner hfree =>
    have hhome' := hhome.openConversation id (Store.total_of_find? haccount)
    have hrows : (s.counters.openConversation id accountId).badges.rows =
        s.counters.badges.rows ++ [⟨id, accountId, 0, 0⟩] := by
      refine Table.rows_insertOrIgnore_of_free ?_
      rw [show Badge.id ⟨id, accountId, 0, 0⟩ = id from rfl, find?_badges, hfree]
      rfl
    have hold : shell.badge ∈ (s.counters.openConversation id accountId).badges.rows := by
      rw [hrows]
      exact mem_append_left _ (Store.badge_mem hshell)
    have hnew : (⟨id, accountId, 0, 0⟩ : Badge) ∈ (s.counters.openConversation id accountId).badges.rows := by
      simp [hrows]
    have hne : shell.badge.id ≠ id := fun heq => Table.find?_eq_none.mp hfree shell hshell heq
    have hiff := (hsum.openConversation id accountId).fold_iff hhome' hold hnew hne howner shell.unreadCount
      shell.unreadMentions
    exact iff_of_true (hiff.mpr rfl) (conserves_of_none (by simp [BadgeOp.pair, hpair]))
  | @fold _ shell canonical unread mentions hpair hshell hcanonical hne haccount =>
    have hiff := hsum.fold_iff hhome (Store.badge_mem hshell) (Store.badge_mem hcanonical) hne haccount
      unread mentions
    refine hiff.trans ⟨fun h shell' canonical' unread' mentions' hpair' => ?_, fun h => h _ _ _ _ hpair⟩
    cases hpair.symm.trans hpair'
    exact h

theorem accountsExist_apply {sha256 : String → String} (op : BadgeOp) (h : s.AccountsExist) :
    (op.apply sha256 s).AccountsExist :=
  accountsExist_iff.mpr ((moves_apply s op).homed (accountsExist_iff.mp h))

end BadgeOp

variable (sha256 : String → String)

/-- **The account's badge is the sum** iff a fold leaves the sum of two counts; so in every run whose
messages land in their own account. -/
theorem badges_sum_iff (s : Store) : (s.AccountsExist → s.BadgesSum → ∀ op : BadgeOp, op.InOwnAccount s →
      ((op.apply sha256 s).BadgesSum ↔ op.Conserves s)) ∧ (s.AccountsExist → s.BadgesSum → ∀ ops : List BadgeOp,
      Along (BadgeOp.apply sha256) (fun s op => op.InOwnAccount s ∧ op.Conserves s) s ops →
      Along (BadgeOp.apply sha256) (fun s op => (op.apply sha256 s).BadgesSum) s ops) := by
  have hstep : ∀ (s : Store) (op : BadgeOp), s.AccountsExist → s.BadgesSum → op.InOwnAccount s →
      ((op.apply sha256 s).BadgesSum ↔ op.Conserves s) := by
    intro s op hexist hsum hown
    rw [badgesSum_iff]
    exact (BadgeOp.moves_apply s op).balanced_iff (accountsExist_iff.mp hexist)
      (badgesSum_iff.mp hsum) hown
  refine ⟨fun h hsum op hown => hstep s op h hsum hown, fun h hsum ops halong => ?_⟩
  exact halong.imp (fun s => s.AccountsExist ∧ s.BadgesSum)
    (fun s op hop hs => ⟨BadgeOp.accountsExist_apply op hs.1, (hstep s op hs.1 hs.2 hop.1).mpr hop.2⟩)
    (fun s op hop hs => (hstep s op hs.1 hs.2 hop.1).mpr hop.2) ops s ⟨h, hsum⟩

def incomingText (id conversationId senderId : String) (sentAt : ℕ) : BadgeOp :=
  .insertMessage (messageRecordFromRow (.ofText id "a" conversationId .incoming senderId sentAt "hi" .delivered))
    none none true sentAt

def splitNotes : List BadgeOp :=
  [.upsertAccount "+15550100" none "default" "a",
    .ensureConversation "a" .direct "+15550100" "notes",
    incomingText "m1" "a\x00direct\x00+15550100" "x" 1000,
    .setAccountAci "a" (some "aci-1"),
    .ensureConversation "a" .direct "aci-1" "notes",
    incomingText "m2" "a\x00direct\x00aci-1" "x" 2000,
    .normalizeMemoIdentity "a"]

def splitPeer : List BadgeOp :=
  [.upsertAccount "+15550100" none "default" "a",
    .ensureConversation "a" .direct "+15550101" "peer",
    incomingText "m1" "a\x00direct\x00+15550101" "x" 1000,
    .ensureConversation "a" .direct "aci-2" "peer",
    incomingText "m2" "a\x00direct\x00aci-2" "x" 1000,
    .mergePeerIdentity "a" "aci-2" "+15550101" 3000]

/-- The messages of the peer's two conversations are of different times: their fold has two unread ones. -/
theorem splitPeer_summed :
    let ops := splitPeer.set 4 (incomingText "m2" "a\x00direct\x00aci-2" "x" 2000)
    (ops.foldl (BadgeOp.apply id) Store.empty).counters.badges.rows = [⟨"a\x00direct\x00aci-2", "a", 2, 0⟩] ∧
      Along (BadgeOp.apply id) (fun s op => (op.apply id s).BadgesSum) Store.empty ops :=
  ⟨by decide, (badges_sum_iff id Store.empty).2 (fun _ h => absurd h not_mem_nil) (by decide) _
    (by decide +kernel)⟩

/-- Both folds leave the account with two unread messages over one conversation with one. -/
theorem folds_drift : (splitNotes.foldl (BadgeOp.apply id) Store.empty).counters.totals.rows = [⟨"a", 2⟩] ∧
      (splitNotes.foldl (BadgeOp.apply id) Store.empty).counters.badges.rows =
        [⟨"a\x00direct\x00aci-1", "a", 1, 0⟩] ∧
      (splitPeer.foldl (BadgeOp.apply id) Store.empty).counters.totals.rows = [⟨"a", 2⟩] ∧
      (splitPeer.foldl (BadgeOp.apply id) Store.empty).counters.badges.rows =
        [⟨"a\x00direct\x00aci-2", "a", 1, 0⟩] ∧ ¬(splitNotes.foldl (BadgeOp.apply id) Store.empty).BadgesSum ∧
      ¬(splitPeer.foldl (BadgeOp.apply id) Store.empty).BadgesSum := by
  decide

end SignalConnector
