/-
# The badges, abstractly

What the badges are for, without the rest of the store: every conversation
shows how many messages are unread and how many of them mention the account,
and every account shows the sum over its conversations. The moves are the ways
the store's operations change these numbers. Two properties are followed: the
account's number is the sum (`Balanced`), and a conversation never shows more
mentions than unread messages (`Paired`).
-/
import SignalConnector.Lib.Tally

namespace SignalConnector

open List Table

structure Badge where
  id : String
  accountId : String
  unread : ℕ
  mentions : ℕ
  deriving DecidableEq

structure Total where
  accountId : String
  unread : ℕ
  deriving DecidableEq

/-- The badges of the conversations and the totals of the accounts. -/
structure Counters where
  badges : Table Badge.id
  totals : Table Total.accountId

namespace Counters

variable (c : Counters)

/-- The sum an account should show. -/
def owed (accountId : String) : ℕ :=
  tally Badge.accountId Badge.unread c.badges.rows accountId

/-- Every account shows the sum over its conversations. -/
def Balanced : Prop := ∀ t ∈ c.totals.rows, t.unread = c.owed t.accountId

/-- Every conversation's account is there. -/
def Homed : Prop := ∀ b ∈ c.badges.rows, ∃ t ∈ c.totals.rows, t.accountId = b.accountId

/-- No conversation shows more mentions than unread messages. -/
def Paired : Prop := ∀ b ∈ c.badges.rows, b.mentions ≤ b.unread

/-! ### The moves -/

def openAccount (accountId : String) : Counters :=
  { c with totals := c.totals.insertOrIgnore ⟨accountId, 0⟩ }

def openConversation (id accountId : String) : Counters :=
  { c with badges := c.badges.insertOrIgnore ⟨id, accountId, 0, 0⟩ }

/-- A message lands in the conversation. -/
def land (accountId conversationId : String) (unread mentions : ℕ) : Counters where
  badges := c.badges.update (fun b => b.id = conversationId)
    (fun b => { b with unread := b.unread + unread, mentions := b.mentions + mentions }) fun _ => rfl
  totals := c.totals.update (fun t => t.accountId = accountId)
    (fun t => { t with unread := t.unread + unread }) fun _ => rfl

/-- The conversation is read: its `prev` unread messages leave both badges. -/
def read (accountId conversationId : String) (prev : ℕ) : Counters where
  badges := c.badges.update (fun b => b.id = conversationId ∧ b.accountId = accountId)
    (fun b => { b with unread := 0, mentions := 0 }) fun _ => rfl
  totals := c.totals.update (fun t => t.accountId = accountId)
    (fun t => { t with unread := t.unread - prev }) fun _ => rfl

/-- Every total is computed anew. -/
def recount : Counters :=
  { c with
    totals := c.totals.update (fun _ => true) (fun t => { t with unread := c.owed t.accountId }) fun _ => rfl }

/-- The named conversations show at most as many unread messages as they still hold. -/
def clamp (held : String → Option ℕ) : Counters :=
  { c with
    badges := c.badges.update (fun b => (held b.id).isSome)
      (fun b => { b with unread := min b.unread ((held b.id).getD 0) }) fun _ => rfl }

def drop (accountId conversationId : String) : Counters :=
  { c with badges := c.badges.delete fun b => b.id = conversationId ∧ b.accountId = accountId }

/-- One conversation takes new counts and the other goes. -/
def fold (shell canonical : String) (unread mentions : ℕ) : Counters :=
  let merged := c.badges.update (fun b => b.id = canonical)
    (fun b => { b with unread := unread, mentions := mentions }) fun _ => rfl
  { c with badges := merged.delete fun b => b.id = shell }

/-! ### Homes -/

variable {c : Counters}

theorem Homed.of_accounts {c' : Counters} (h : c.Homed)
    (hbadges : ∀ b' ∈ c'.badges.rows, ∃ b ∈ c.badges.rows, b'.accountId = b.accountId)
    (htotals : ∀ t ∈ c.totals.rows, ∃ t' ∈ c'.totals.rows, t'.accountId = t.accountId) : c'.Homed := by
  intro b' hb'
  obtain ⟨b, hb, haccount⟩ := hbadges b' hb'
  obtain ⟨t, ht, htid⟩ := h b hb
  obtain ⟨t', ht', hkeep⟩ := htotals t ht
  exact ⟨t', ht', by rw [hkeep, htid, haccount]⟩

theorem accounts_map {rows : List Badge} {p : Badge → Bool} {f : Badge → Badge} {b' : Badge}
    (h : b' ∈ rows.map fun b => if p b then f b else b) (hkeep : ∀ b, (f b).accountId = b.accountId) :
    ∃ b ∈ rows, b'.accountId = b.accountId := by
  obtain ⟨b, hb, rfl⟩ := mem_map.mp h
  refine ⟨b, hb, ?_⟩
  split
  · exact hkeep b
  · rfl

theorem totals_map {rows : List Total} (p : Total → Bool) {f : Total → Total} {t : Total} (h : t ∈ rows)
    (hkeep : ∀ t, (f t).accountId = t.accountId) :
    ∃ t' ∈ rows.map fun t => if p t then f t else t, t'.accountId = t.accountId := by
  refine ⟨_, mem_map_of_mem h, ?_⟩
  split
  · exact hkeep t
  · rfl

theorem Homed.openAccount (h : c.Homed) (accountId : String) : (c.openAccount accountId).Homed := by
  refine h.of_accounts (fun b hb => ⟨b, hb, rfl⟩) fun t ht => ⟨t, ?_, rfl⟩
  unfold Counters.openAccount
  rw [mem_iff_find?, find?_insertOrIgnore, mem_iff_find?.mp ht]
  simp

theorem Homed.openConversation (h : c.Homed) (id : String) {accountId : String}
    (hhome : ∃ t ∈ c.totals.rows, t.accountId = accountId) : (c.openConversation id accountId).Homed := by
  intro b hb
  cases hfind : c.badges.find? id with
  | some old =>
    rw [Counters.openConversation,
      insertOrIgnore_of_taken (show c.badges.find? (Badge.id ⟨id, accountId, 0, 0⟩) = some old from hfind)]
      at hb
    exact h b hb
  | none =>
    rw [Counters.openConversation, rows_insertOrIgnore_of_free
      (show c.badges.find? (Badge.id ⟨id, accountId, 0, 0⟩) = none from hfind)] at hb
    rcases mem_append.mp hb with hb | hb
    · exact h b hb
    · rw [mem_singleton.mp hb]
      exact hhome

theorem Homed.land (h : c.Homed) (accountId conversationId : String) (unread mentions : ℕ) :
    (c.land accountId conversationId unread mentions).Homed :=
  h.of_accounts (fun _ hb => accounts_map hb fun _ => rfl) fun _ ht => totals_map _ ht fun _ => rfl

theorem Homed.read (h : c.Homed) (accountId conversationId : String) (prev : ℕ) :
    (c.read accountId conversationId prev).Homed :=
  h.of_accounts (fun _ hb => accounts_map hb fun _ => rfl) fun _ ht => totals_map _ ht fun _ => rfl

theorem Homed.recount (h : c.Homed) : c.recount.Homed :=
  h.of_accounts (fun b hb => ⟨b, hb, rfl⟩) fun _ ht => totals_map _ ht fun _ => rfl

theorem Homed.clamp (h : c.Homed) (held : String → Option ℕ) : (c.clamp held).Homed :=
  h.of_accounts (fun _ hb => accounts_map hb fun _ => rfl) fun t ht => ⟨t, ht, rfl⟩

theorem Homed.drop (h : c.Homed) (accountId conversationId : String) : (c.drop accountId conversationId).Homed :=
  h.of_accounts (fun b hb => ⟨b, (mem_delete.mp hb).1, rfl⟩) fun t ht => ⟨t, ht, rfl⟩

theorem Homed.fold (h : c.Homed) (shell canonical : String) (unread mentions : ℕ) :
    (c.fold shell canonical unread mentions).Homed :=
  h.of_accounts (fun _ hb => accounts_map (mem_delete.mp hb).1 fun _ => rfl) fun t ht => ⟨t, ht, rfl⟩

/-! ### Sums -/

theorem balanced_recount (c : Counters) : c.recount.Balanced := by
  intro t ht
  obtain ⟨t₀, -, rfl⟩ := mem_map.mp ht
  rfl

theorem Balanced.openAccount (h : c.Balanced) {accountId : String}
    (hfree : ∀ b ∈ c.badges.rows, b.accountId ≠ accountId) : (c.openAccount accountId).Balanced := by
  intro t ht
  cases hfind : c.totals.find? accountId with
  | some old =>
    rw [Counters.openAccount, insertOrIgnore_of_taken
      (show c.totals.find? (Total.accountId ⟨accountId, 0⟩) = some old from hfind)] at ht
    exact h t ht
  | none =>
    rw [Counters.openAccount, rows_insertOrIgnore_of_free
      (show c.totals.find? (Total.accountId ⟨accountId, 0⟩) = none from hfind)] at ht
    rcases mem_append.mp ht with ht | ht
    · exact h t ht
    · have hnone : c.badges.rows.filter (fun b => b.accountId = accountId) = [] :=
        filter_eq_nil_iff.mpr fun b hb => by simpa using hfree b hb
      rw [mem_singleton.mp ht]
      simp [owed, tally, Counters.openAccount, hnone]

theorem Balanced.openConversation (h : c.Balanced) (id accountId : String) :
    (c.openConversation id accountId).Balanced := by
  have howed : ∀ g, (c.openConversation id accountId).owed g = c.owed g := by
    intro g
    unfold owed Counters.openConversation
    cases hfind : c.badges.find? id with
    | some old =>
      rw [insertOrIgnore_of_taken
        (show c.badges.find? (Badge.id ⟨id, accountId, 0, 0⟩) = some old from hfind)]
    | none =>
      rw [rows_insertOrIgnore_of_free
        (show c.badges.find? (Badge.id ⟨id, accountId, 0, 0⟩) = none from hfind), tally_append, tally_cons]
      simp [share, tally]
  intro t ht
  rw [howed]
  exact h t ht

/-- The two numbers a landed message raises stay equal. -/
theorem Balanced.land (h : c.Balanced) {b : Badge} (hb : b ∈ c.badges.rows) (unread mentions : ℕ) :
    (c.land b.accountId b.id unread mentions).Balanced := by
  intro t ht
  obtain ⟨t₀, ht₀, rfl⟩ := mem_map.mp ht
  have howed : (c.land b.accountId b.id unread mentions).owed t₀.accountId +
      share Badge.accountId Badge.unread b t₀.accountId = c.owed t₀.accountId +
        share Badge.accountId Badge.unread
          { b with unread := b.unread + unread, mentions := b.mentions + mentions } t₀.accountId :=
    c.badges.tally_update_one Badge.accountId Badge.unread _ _ hb (fun x _ => by simp)
      t₀.accountId
  have hold := h t₀ ht₀
  unfold share at howed
  dsimp only at howed
  by_cases haccount : b.accountId = t₀.accountId
  · simp only [haccount, if_true, decide_true] at howed ⊢
    omega
  · rw [if_neg haccount, if_neg haccount] at howed
    simp only [Ne.symm haccount, decide_false, Bool.false_eq_true, if_false]
    omega

/-- What a badge shows is part of its account's sum. -/
theorem unread_le_owed {b : Badge} (hb : b ∈ c.badges.rows) : b.unread ≤ c.owed b.accountId := by
  have hdelete := c.badges.tally_delete_one Badge.accountId Badge.unread (fun x => x.id = b.id) hb
    (fun x _ => by simp) b.accountId
  have hshare : share Badge.accountId Badge.unread b b.accountId = b.unread := if_pos rfl
  unfold owed
  omega

theorem Balanced.read (h : c.Balanced) {b : Badge} (hb : b ∈ c.badges.rows) :
    (c.read b.accountId b.id b.unread).Balanced := by
  intro t ht
  obtain ⟨t₀, ht₀, rfl⟩ := mem_map.mp ht
  have howed : (c.read b.accountId b.id b.unread).owed t₀.accountId +
      share Badge.accountId Badge.unread b t₀.accountId = c.owed t₀.accountId +
        share Badge.accountId Badge.unread { b with unread := 0, mentions := 0 } t₀.accountId := by
    refine c.badges.tally_update_one Badge.accountId Badge.unread _ _ hb (fun x hx => ?_)
      t₀.accountId
    rw [decide_eq_true_eq]
    exact ⟨fun hid => hid.1, fun hid => ⟨hid, congrArg Badge.accountId (c.badges.row_unique hx hb hid)⟩⟩
  have hold := h t₀ ht₀
  have hle := unread_le_owed hb
  unfold share at howed
  dsimp only at howed
  by_cases haccount : b.accountId = t₀.accountId
  · simp only [haccount, if_true, decide_true] at howed hle ⊢
    omega
  · rw [if_neg haccount, if_neg haccount] at howed
    simp only [Ne.symm haccount, decide_false, Bool.false_eq_true, if_false]
    omega

/-- **A fold keeps the sum iff it adds the two badges.** -/
theorem Balanced.fold_iff (h : c.Balanced) (hhome : c.Homed) {shell canonical : Badge}
    (hshell : shell ∈ c.badges.rows) (hcanonical : canonical ∈ c.badges.rows)
    (hne : shell.id ≠ canonical.id) (haccount : shell.accountId = canonical.accountId) (unread mentions : ℕ) :
    (c.fold shell.id canonical.id unread mentions).Balanced ↔ unread = shell.unread + canonical.unread := by
  set folded : Badge := { canonical with unread := unread, mentions := mentions }
  set merged := c.badges.update (fun b => b.id = canonical.id)
    (fun b => { b with unread := unread, mentions := mentions }) fun _ => rfl
  have hstays : shell ∈ merged.rows :=
    mem_map.mpr ⟨shell, hshell, if_neg (by simpa using hne)⟩
  have howed : ∀ g, (c.fold shell.id canonical.id unread mentions).owed g +
      share Badge.accountId Badge.unread shell g + share Badge.accountId Badge.unread canonical g =
        c.owed g + share Badge.accountId Badge.unread folded g := by
    intro g
    have hdelete := merged.tally_delete_one Badge.accountId Badge.unread (fun b => b.id = shell.id) hstays
      (fun x _ => by simp) g
    have hupdate := c.badges.tally_update_one Badge.accountId Badge.unread (fun b => b.id = canonical.id)
      (fun b => { b with unread := unread, mentions := mentions }) hcanonical
      (fun x _ => by simp) g
    change tally Badge.accountId Badge.unread (merged.delete fun b => b.id = shell.id).rows g + _ + _ =
      tally Badge.accountId Badge.unread c.badges.rows g + _
    rw [hdelete]
    exact hupdate
  constructor
  · intro hbalanced
    obtain ⟨t, htmem, htid⟩ := hhome canonical hcanonical
    have hbefore := h t htmem
    have hafter := hbalanced t htmem
    have hsum := howed t.accountId
    rw [htid] at hbefore hafter hsum
    simp only [share, haccount, if_true, folded] at hsum
    omega
  · intro hunread t ht
    have hbefore := h t ht
    have hsum := howed t.accountId
    by_cases hown : canonical.accountId = t.accountId
    · simp only [share, haccount, hown, if_true, folded] at hsum
      omega
    · simp only [share, haccount, hown, if_false, folded] at hsum
      omega

/-! ### Mentions -/

theorem Paired.update (h : c.Paired) {p : Badge → Bool} {f : Badge → Badge} {hf : ∀ b, (f b).id = b.id}
    {totals : Table Total.accountId} (hpair : ∀ b ∈ c.badges.rows, p b → (f b).mentions ≤ (f b).unread) :
    Paired ⟨c.badges.update p f hf, totals⟩ := by
  intro b' hb'
  obtain ⟨b, hb, rfl⟩ := mem_map.mp hb'
  split
  · next hp => exact hpair b hb hp
  · exact h b hb

theorem Paired.openConversation (h : c.Paired) (id accountId : String) :
    (c.openConversation id accountId).Paired := by
  intro b hb
  have hfind := mem_iff_find?.mp hb
  rw [Counters.openConversation, find?_insertOrIgnore] at hfind
  split at hfind
  · cases hold : c.badges.find? b.id with
    | some old =>
      rw [hold] at hfind
      exact Option.some.inj hfind ▸ h old (Table.find?_eq_some.mp hold).1
    | none =>
      rw [hold] at hfind
      rw [← Option.some.inj hfind]
      exact Nat.le_refl 0
  · exact h b (mem_iff_find?.mpr hfind)

theorem Paired.land (h : c.Paired) (accountId conversationId : String) {unread mentions : ℕ}
    (hle : mentions ≤ unread) : (c.land accountId conversationId unread mentions).Paired :=
  h.update fun b hb _ => Nat.add_le_add (h b hb) hle

theorem Paired.read (h : c.Paired) (accountId conversationId : String) (prev : ℕ) :
    (c.read accountId conversationId prev).Paired :=
  h.update fun _ _ _ => Nat.le_refl 0

theorem Paired.drop (h : c.Paired) (accountId conversationId : String) :
    (c.drop accountId conversationId).Paired := fun b hb => h b (mem_delete.mp hb).1

theorem Paired.fold (h : c.Paired) (shell canonical : String) {unread mentions : ℕ}
    (hle : mentions ≤ unread) : (c.fold shell canonical unread mentions).Paired := by
  have hmerged : Paired ⟨c.badges.update (fun b => b.id = canonical)
      (fun b => { b with unread := unread, mentions := mentions }) fun _ => rfl, c.totals⟩ :=
    h.update fun _ _ _ => hle
  exact fun b hb => hmerged b (mem_delete.mp hb).1

/-- **A repair keeps the pairing iff every named conversation still holds as many rows as it
shows mentions.** -/
theorem Paired.clamp_iff (h : c.Paired) (held : String → Option ℕ) :
    (c.clamp held).Paired ↔ ∀ b ∈ c.badges.rows, ∀ n, held b.id = some n → b.mentions ≤ n := by
  constructor
  · intro hpaired b hb n hn
    have hclamped : { b with unread := min b.unread n } ∈ (c.clamp held).badges.rows :=
      mem_map.mpr ⟨b, hb, by simp [hn]⟩
    exact (hpaired _ hclamped).trans (Nat.min_le_right _ _)
  · intro hheld
    refine h.update fun b hb hp => ?_
    obtain ⟨n, hn⟩ := Option.isSome_iff_exists.mp hp
    rw [hn]
    exact Nat.le_min.mpr ⟨h b hb, hheld b hb n hn⟩

end Counters

end SignalConnector
