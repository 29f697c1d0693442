/-
# What a contacts sync does to the conversations

A sync makes a conversation only of a group or of the account itself, and gives
a title only to a conversation whose title is no useful one. Done again it
should do nothing. It does nothing exactly when every title an entry offers is
covered by what its conversation has heard.
-/
import SignalConnector.Lib.Fold
import SignalConnector.Store.Contacts

namespace SignalConnector

open List Table

/-! ### Titles -/

/-- What a title becomes of an offer. -/
def settleTitle (current candidate : String) : String :=
  if titleShouldUpgrade current candidate then candidate else current

variable {current candidate : String} {titles : List String} {title : String}

theorem titleShouldUpgrade_of_useful (h : titleIsUseful current) (candidate : String) :
    titleShouldUpgrade current candidate = false := by
  simp only [titleIsUseful, Bool.and_eq_true, decide_eq_true_eq, Bool.not_eq_true'] at h
  obtain ⟨⟨⟨hblank, hmask⟩, hgroup⟩, hcontact⟩ := h
  simp [titleShouldUpgrade, hblank, hgroup, hcontact, hmask]

/-- A word without a mask replaces every title but a useful one. -/
theorem titleShouldUpgrade_iff_of_plain (hword : trim candidate ≠ "") (hplain : isMasked (trim candidate) = false) :
    titleShouldUpgrade current candidate = true ↔ titleIsUseful current = false := by
  unfold titleShouldUpgrade titleIsUseful
  dsimp only
  rw [if_neg hword, hplain]
  by_cases hblank : trim current = "" <;> by_cases hgroup : trim current = "group" <;>
    by_cases hcontact : trim current = "contact" <;> simp_all

theorem titleShouldUpgrade_of_usefulCandidate (h : titleIsUseful candidate) :
    titleShouldUpgrade current candidate = true ↔ titleIsUseful current = false := by
  simp only [titleIsUseful, Bool.and_eq_true, decide_eq_true_eq, Bool.not_eq_true'] at h
  exact titleShouldUpgrade_iff_of_plain h.1.1.1 h.1.1.2

theorem useful_settleTitle (current candidate : String) : titleIsUseful (settleTitle current candidate) = true ↔
      titleIsUseful current = true ∨ titleIsUseful candidate = true := by
  unfold settleTitle
  by_cases hcurrent : titleIsUseful current
  · simp [titleShouldUpgrade_of_useful hcurrent, hcurrent]
  · by_cases hcandidate : titleIsUseful candidate
    · rw [if_pos ((titleShouldUpgrade_of_usefulCandidate hcandidate).mpr (Bool.eq_false_iff.mpr hcurrent))]
      simp [hcandidate]
    · split <;> simp [hcurrent, hcandidate]

/-- What the titles a conversation has heard make of its title: the first, and each later one offered to it. -/
def settleTitles : List String → Option String
  | [] => none
  | title :: offers => some (offers.foldl settleTitle title)

/-- The offer is blank, or a useful title was heard, or the offer is a mask as the last word heard is. -/
def Covered (titles : List String) (candidate : String) : Prop :=
  trim candidate = "" ∨ (∃ title ∈ titles, titleIsUseful title) ∨
    isMasked (trim candidate) ∧ ∃ word ∈ (titles.filter (trim · ≠ "")).getLast?, isMasked (trim word)

theorem useful_settleTitles (h : settleTitles titles = some title) :
    titleIsUseful title = true ↔ ∃ t ∈ titles, titleIsUseful t = true := by
  rcases titles with _ | ⟨first, offers⟩
  · cases h
  · obtain rfl := Option.some.inj h
    induction offers generalizing first with
    | nil => simp
    | cons offer offers ih =>
      rw [foldl_cons, ih _ rfl]
      simp only [exists_mem_cons_iff, useful_settleTitle, or_assoc]

theorem settleTitles_of_useful {title : String} (h : titleIsUseful title = true) :
    ∀ offers : List String, settleTitles (title :: offers) = some title
  | [] => rfl
  | offer :: offers => by
    have hstays : settleTitle title offer = title := by
      rw [settleTitle, titleShouldUpgrade_of_useful h]
      rfl
    rw [settleTitles, foldl_cons, hstays]
    exact settleTitles_of_useful h offers

theorem isMasked_settleTitle (hcurrent : titleIsUseful current = false) (candidate : String) :
    isMasked (trim (settleTitle current candidate)) =
      if trim candidate = "" then isMasked (trim current) else isMasked (trim candidate) := by
  unfold settleTitle titleShouldUpgrade
  unfold titleIsUseful at hcurrent
  dsimp only at hcurrent ⊢
  by_cases hword : trim candidate = ""
  · simp [hword]
  · rw [if_neg hword, if_neg hword]
    by_cases hplace : trim current = "" ∨ trim current = "group" ∨ trim current = "contact"
    · simp [hplace]
    · rw [if_neg hplace]
      rw [not_or, not_or] at hplace
      have hmask : isMasked (trim current) = true := by
        simpa [hplace.1, hplace.2.1, hplace.2.2] using hcurrent
      by_cases hmask' : isMasked (trim candidate) = true <;> simp [hmask, hmask']

theorem isMasked_settleTitles (h : settleTitles titles = some title)
    (hnone : ∀ t ∈ titles, titleIsUseful t = false) : isMasked (trim title) = true ↔
      ∃ word ∈ (titles.filter (trim · ≠ "")).getLast?, isMasked (trim word) = true := by
  rcases titles with _ | ⟨first, offers⟩
  · cases h
  obtain rfl := Option.some.inj h
  induction offers using List.reverseRecOn with
  | nil =>
    have hblank : isMasked "" = false := by decide
    by_cases hfirst : trim first = "" <;> simp [hfirst, hblank]
  | append_singleton offers offer ih =>
    have hbefore : ∀ t ∈ first :: offers, titleIsUseful t = false := fun t ht =>
      hnone t (mem_append_left [offer] ht)
    have hcurrent : titleIsUseful (offers.foldl settleTitle first) = false := by
      rw [← Bool.not_eq_true]
      intro huseful
      have hheard : settleTitles (first :: offers) = some (offers.foldl settleTitle first) := rfl
      obtain ⟨t, ht, huseful⟩ := (useful_settleTitles hheard).mp huseful
      rw [hbefore t ht] at huseful
      cases huseful
    rw [foldl_append, foldl_cons, foldl_nil, isMasked_settleTitle hcurrent, ← cons_append,
      filter_append]
    by_cases hoffer : trim offer = ""
    · simpa [hoffer] using ih hbefore rfl
    · simp [hoffer]

/-- When an offer is not taken. -/
theorem titleShouldUpgrade_settleTitles (h : settleTitles titles = some title) (candidate : String) :
    titleShouldUpgrade title candidate = false ↔ Covered titles candidate := by
  unfold Covered
  rw [← useful_settleTitles h]
  by_cases hword : trim candidate = ""
  · simp [titleShouldUpgrade, hword]
  by_cases huseful : titleIsUseful title = true
  · simp [titleShouldUpgrade_of_useful huseful, huseful]
  have huseful := Bool.eq_false_iff.mpr huseful
  by_cases hmask : isMasked (trim candidate) = true
  · have hnone : ∀ t ∈ titles, titleIsUseful t = false := fun t ht =>
      Bool.eq_false_iff.mpr fun hgood => Bool.eq_false_iff.mp huseful ((useful_settleTitles h).mpr ⟨t, ht, hgood⟩)
    rw [← isMasked_settleTitles h hnone]
    -- a mask replaces a title that is blank or a bare placeholder, and those are no masks
    by_cases hplace : trim title = "" ∨ trim title = "group" ∨ trim title = "contact"
    · have hplain : isMasked (trim title) = false := by
        rcases hplace with hplace | hplace | hplace <;> rw [hplace] <;> decide
      simp [titleShouldUpgrade, hword, hplace, huseful, hplain]
    · have hmasked : isMasked (trim title) = true := by
        obtain ⟨hblank, hgroup, hcontact⟩ := by simpa only [not_or] using hplace
        simpa [titleIsUseful, hblank, hgroup, hcontact] using huseful
      simp [titleShouldUpgrade, hplace, hmask, hmasked]
  · rw [← Bool.not_eq_true, titleShouldUpgrade_iff_of_plain hword (Bool.eq_false_iff.mpr hmask)]
    simp [hword, huseful, hmask]

/-- A conversation without its title. -/
def ConversationRow.untitled (c : ConversationRow) : ConversationRow := { c with title := "" }

theorem ConversationRow.eq_of_untitled {c c' : ConversationRow} (h : c'.untitled = c.untitled) :
    { c with title := c'.title } = c' := by
  cases c
  cases c'
  simp only [untitled, ConversationRow.mk.injEq] at h ⊢
  simp [h]

namespace Store

variable {sha256 : String → String} {accountId : String} {s t u : Store}

/-! ### Skeletons -/

/-- The store with the entry's row. -/
def skeleton (sha256 : String → String) (accountId : String) (s : Store) (entry : SyncedContact) : Store :=
  if s.creates sha256 accountId entry then
    { s with conversations := s.conversations.insertOrIgnore (s.skeletonRow sha256 accountId entry) }
  else s

/-- The store with the rows the entries make. -/
def skeletons (sha256 : String → String) (s : Store) (accountId : String) (entries : List SyncedContact) : Store :=
  entries.foldl (skeleton sha256 accountId) s

/-- The conversation the entry's title is offered to. -/
def target (sha256 : String → String) (s : Store) (accountId : String) (entry : SyncedContact) : Option String :=
  (s.offered sha256 accountId entry).map ConversationRow.id

theorem target_eq (entry : SyncedContact) : s.target sha256 accountId entry =
    if (s.conversations.find? (s.skeletonId sha256 accountId entry)).isSome then
      some (s.skeletonId sha256 accountId entry)
    else if entry.conversationKind = .direct then
      (s.bridgedConversation accountId (s.skeletonPeerKey accountId entry)).map ConversationRow.id
    else none := by
  unfold target offered
  rcases hfind : s.conversations.find? (s.skeletonId sha256 accountId entry) with _ | row
  · simp only [Option.isSome_none, Bool.false_eq_true, if_false]
    split <;> rfl
  · simp only [Option.map_some, Option.isSome_some, if_true, key_of_find? hfind]

def titleOf (s : Store) (id : String) : Option String := (s.conversations.find? id).map ConversationRow.title

/-- The stores' conversations differ in titles alone. -/
structure UpToTitles (s t : Store) : Prop where
  accounts : t.accounts = s.accounts
  peerIdentities : t.peerIdentities = s.peerIdentities
  rows : t.conversations.rows.map ConversationRow.untitled = s.conversations.rows.map ConversationRow.untitled

/-! What an entry names is read off the accounts. -/

theorem skeletonPeerKey_congr (h : t.accounts = s.accounts) (entry : SyncedContact) :
    t.skeletonPeerKey accountId entry = s.skeletonPeerKey accountId entry := by
  unfold skeletonPeerKey memoSkeletonIdentity
  rw [h]

theorem skeletonId_congr (h : t.accounts = s.accounts) (entry : SyncedContact) :
    t.skeletonId sha256 accountId entry = s.skeletonId sha256 accountId entry := by
  unfold skeletonId
  rw [skeletonPeerKey_congr h]

theorem structural_congr (h : t.accounts = s.accounts) (entry : SyncedContact) :
    t.structural accountId entry = s.structural accountId entry := by
  unfold structural
  rw [skeletonPeerKey_congr h]
  unfold memoSkeletonIdentity
  rw [h]

namespace UpToTitles

theorem refl (s : Store) : s.UpToTitles s := ⟨rfl, rfl, rfl⟩

theorem trans (h : s.UpToTitles t) (h' : t.UpToTitles u) : s.UpToTitles u :=
  ⟨h'.accounts.trans h.accounts, h'.peerIdentities.trans h.peerIdentities, h'.rows.trans h.rows⟩

theorem keys (h : s.UpToTitles t) : t.conversationKeys = s.conversationKeys := by
  have hread : ∀ s : Store, s.conversationKeys =
      (s.conversations.rows.map ConversationRow.untitled).map ConversationRow.key := fun s => by
    rw [map_map]
    rfl
  rw [hread, hread, h.rows]

theorem find? (h : s.UpToTitles t) (id : String) : (t.conversations.find? id).map ConversationRow.untitled =
      (s.conversations.find? id).map ConversationRow.untitled := by
  have hview : (t.conversations.view ConversationRow.untitled fun _ => rfl : Table ConversationRow.id) =
      s.conversations.view ConversationRow.untitled fun _ => rfl := eq_of_rows h.rows
  have hfind := congrArg (fun rows : Table ConversationRow.id => rows.find? id) hview
  exact (find?_view t.conversations id).symm.trans (hfind.trans (find?_view s.conversations id))

theorem isSome_find? (h : s.UpToTitles t) (id : String) :
    (t.conversations.find? id).isSome = (s.conversations.find? id).isSome := by
  rw [← Option.isSome_map (f := ConversationRow.untitled), h.find?, Option.isSome_map]

theorem target (h : s.UpToTitles t) (entry : SyncedContact) :
    t.target sha256 accountId entry = s.target sha256 accountId entry := by
  have hidentities : ∀ peerKey, t.peerIdentitySet accountId peerKey = s.peerIdentitySet accountId peerKey :=
    peerIdentitySet_of_mem_iff (fun _ => by rw [h.peerIdentities]) accountId
  have hpeer : ∀ peerKey, (t.conversationByPeer accountId .direct peerKey).map ConversationRow.id =
      (s.conversationByPeer accountId .direct peerKey).map ConversationRow.id := fun peerKey => by
    have hkey := congrArg (Option.map Prod.fst) (conversationByPeer_congr h.keys accountId .direct peerKey)
    rwa [Option.map_map, Option.map_map] at hkey
  rw [target_eq, target_eq, skeletonId_congr h.accounts, skeletonPeerKey_congr h.accounts, h.isSome_find?]
  unfold bridgedConversation
  dsimp only
  rw [hidentities, map_findSome?, map_findSome?, Function.comp_def, Function.comp_def]
  simp only [hpeer]

end UpToTitles

/-! ### One entry -/

variable {changed : List String} {entry : SyncedContact} {r : List String × Store}

theorem offered_mem {row : ConversationRow}
    (h : s.offered sha256 accountId entry = some row) : row ∈ s.conversations.rows := by
  unfold offered at h
  split at h
  · next hfind =>
    cases h
    exact (Table.find?_eq_some.mp hfind).1
  · split at h
    · obtain ⟨key, -, hpeer⟩ := exists_of_findSome?_eq_some h
      exact (conversationByPeer_spec hpeer).1
    · cases h

theorem syncEntry_ok (h : syncEntry sha256 accountId (changed, s) entry = .ok r) :
    (s.creates sha256 accountId entry = true ∧
        r = (changed ++ [s.skeletonId sha256 accountId entry], s.skeleton sha256 accountId entry)) ∨
      s.creates sha256 accountId entry = false ∧
        ((∃ row, s.offered sha256 accountId entry = some row ∧ titleShouldUpgrade row.title entry.title = true ∧
            r = (changed ++ [row.id], s.retitle row.id entry.title)) ∨
          (∀ row ∈ s.offered sha256 accountId entry, titleShouldUpgrade row.title entry.title = false) ∧
            r = (changed, s)) := by
  unfold syncEntry at h
  dsimp only at h
  split at h
  · next hcreates =>
    obtain ⟨s', hinsert, rfl⟩ := exists_of_map_ok h
    unfold insertConversation at hinsert
    split at hinsert
    · cases hinsert
    · cases hinsert
      refine .inl ⟨hcreates, ?_⟩
      rw [skeleton, if_pos hcreates]
      rfl
  · next hcreates =>
    refine .inr ⟨Bool.eq_false_iff.mpr hcreates, ?_⟩
    split at h
    · next row hoffered =>
      split at h
      · next hup =>
        cases h
        exact .inl ⟨row, hoffered, hup, rfl⟩
      · next hup =>
        cases h
        refine .inr ⟨fun row' hrow' => ?_, rfl⟩
        rw [hoffered] at hrow'
        cases hrow'
        exact Bool.eq_false_iff.mpr hup
    · next hnone =>
      cases h
      refine .inr ⟨fun row hrow => ?_, rfl⟩
      rw [hnone] at hrow
      cases hrow

theorem titleOf_retitle (id title id' : String) : (s.retitle id title).titleOf id' =
    (s.titleOf id').map fun current => if id' = id then title else current := by
  unfold titleOf retitle updateConversations
  rw [find?_update]
  rcases hfind : s.conversations.find? id' with _ | c
  · rfl
  · obtain rfl : c.id = id' := key_of_find? hfind
    by_cases hid : c.id = id <;> simp [hid]

theorem upToTitles_retitle (id title : String) : s.UpToTitles (s.retitle id title) :=
  ⟨rfl, rfl, view_rows_same fun _ _ _ => by rfl⟩

/-- An entry that makes no row settles the title of the conversation it is offered to. -/
theorem titleOf_syncEntry
    (h : syncEntry sha256 accountId (changed, s) entry = .ok r) (hcreates : s.creates sha256 accountId entry = false)
    (id : String) : r.2.titleOf id = (s.titleOf id).map fun current =>
      if s.target sha256 accountId entry = some id then settleTitle current entry.title else current := by
  have htitle : ∀ row, s.offered sha256 accountId entry = some row → s.titleOf row.id = some row.title := fun row hrow => by
    unfold titleOf
    rw [mem_iff_find?.mp (offered_mem hrow)]
    rfl
  rcases syncEntry_ok h with ⟨hnot, -⟩ | ⟨-, ⟨row, hoffered, hup, rfl⟩ | ⟨hquiet, rfl⟩⟩
  · rw [hcreates] at hnot
    cases hnot
  · have htarget : s.target sha256 accountId entry = some row.id := by rw [target, hoffered]; rfl
    rw [titleOf_retitle, htarget]
    by_cases hid : id = row.id
    · subst hid
      simp [htitle row hoffered, settleTitle, hup]
    · simp [hid, Ne.symm hid]
  · rcases hoffered : s.offered sha256 accountId entry with _ | row
    · have htarget : s.target sha256 accountId entry = none := by rw [target, hoffered]; rfl
      simp [htarget]
    · have htarget : s.target sha256 accountId entry = some row.id := by rw [target, hoffered]; rfl
      rw [htarget]
      by_cases hid : id = row.id
      · subst hid
        simp [htitle row hoffered, settleTitle, hquiet row hoffered]
      · simp [Ne.symm hid]

/-! ### The rows the entries make -/

theorem creates_congr (h : s.UpToTitles t) (entry : SyncedContact) :
    t.creates sha256 accountId entry = s.creates sha256 accountId entry := by
  unfold creates
  rw [structural_congr h.accounts, skeletonId_congr h.accounts, ← Option.not_isSome, ← Option.not_isSome, h.isSome_find?]

theorem skeleton_of_creates (h : s.creates sha256 accountId entry = true) : s.skeleton sha256 accountId entry =
      { s with conversations := s.conversations.insertOrIgnore (s.skeletonRow sha256 accountId entry) } := if_pos h

theorem skeleton_of_not_creates (h : s.creates sha256 accountId entry = false) :
    s.skeleton sha256 accountId entry = s := if_neg (by rw [h]; exact Bool.false_ne_true)

theorem free_of_creates (h : s.creates sha256 accountId entry = true) :
    s.structural accountId entry = true ∧ s.conversations.find? (s.skeletonId sha256 accountId entry) = none := by
  unfold creates at h
  rwa [Bool.and_eq_true, Option.isNone_iff_eq_none] at h

theorem accounts_skeleton (entry : SyncedContact) : (s.skeleton sha256 accountId entry).accounts = s.accounts := by
  unfold skeleton
  split <;> rfl

theorem UpToTitles.skeleton (h : s.UpToTitles t) (entry : SyncedContact) :
    (s.skeleton sha256 accountId entry).UpToTitles (t.skeleton sha256 accountId entry) := by
  by_cases hcreates : s.creates sha256 accountId entry = true
  · have hfree := (free_of_creates hcreates).2
    have hcreates' : t.creates sha256 accountId entry = true := by rw [creates_congr h, hcreates]
    have hrow : t.skeletonRow sha256 accountId entry = s.skeletonRow sha256 accountId entry := by
      unfold skeletonRow
      rw [skeletonId_congr h.accounts, skeletonPeerKey_congr h.accounts]
    rw [skeleton_of_creates hcreates, skeleton_of_creates hcreates']
    refine ⟨h.accounts, h.peerIdentities, ?_⟩
    dsimp only
    rw [rows_insertOrIgnore_of_free (free_of_creates hcreates').2, rows_insertOrIgnore_of_free hfree,
      map_append, map_append, h.rows, hrow]
  · have hcreates := Bool.eq_false_iff.mpr hcreates
    rwa [skeleton_of_not_creates hcreates, skeleton_of_not_creates (by rw [creates_congr h, hcreates])]

theorem find?_skeleton_of_some {id : String} {c : ConversationRow} (h : s.conversations.find? id = some c)
    (entry : SyncedContact) : (s.skeleton sha256 accountId entry).conversations.find? id = some c := by
  unfold skeleton
  split
  · exact find?_insertOrIgnore_of_some h _
  · exact h

theorem titleOf_skeleton_of_creates (h : s.creates sha256 accountId entry = true)
    (id : String) : (s.skeleton sha256 accountId entry).titleOf id =
      if s.skeletonId sha256 accountId entry = id then some entry.title else s.titleOf id := by
  rw [skeleton_of_creates h]
  unfold titleOf
  rw [find?_insertOrIgnore]
  change Option.map _ (if s.skeletonId sha256 accountId entry = id then _ else _) = _
  split
  · next hid =>
    rw [← hid, (free_of_creates h).2]
    rfl
  · rfl

/-- After its turn an entry of a group, or of the account itself, has its row. -/
theorem isSome_find?_skeleton (h : s.structural accountId entry = true) :
    ((s.skeleton sha256 accountId entry).conversations.find? (s.skeletonId sha256 accountId entry)).isSome := by
  by_cases hcreates : s.creates sha256 accountId entry = true
  · rw [skeleton_of_creates hcreates]
    dsimp only
    rw [find?_insertOrIgnore]
    exact (if_pos rfl).symm ▸ rfl
  · rw [skeleton_of_not_creates (Bool.eq_false_iff.mpr hcreates)]
    simpa [creates, h, Option.isSome_iff_ne_none] using hcreates

section Skeletons

variable (entries : List SyncedContact)

theorem accounts_skeletons : (s.skeletons sha256 accountId entries).accounts = s.accounts := by
  unfold skeletons
  induction entries generalizing s with
  | nil => rfl
  | cons entry entries ih => exact ih.trans (accounts_skeleton entry)

theorem UpToTitles.skeletons (h : s.UpToTitles t) :
    (s.skeletons sha256 accountId entries).UpToTitles (t.skeletons sha256 accountId entries) := by
  unfold Store.skeletons
  induction entries generalizing s t with
  | nil => exact h
  | cons entry entries ih => exact ih (h.skeleton entry)

theorem find?_skeletons_of_some {id : String} {c : ConversationRow} (h : s.conversations.find? id = some c) :
    (s.skeletons sha256 accountId entries).conversations.find? id = some c := by
  unfold skeletons
  induction entries generalizing s with
  | nil => exact h
  | cons entry entries ih => exact ih (find?_skeleton_of_some h entry)

theorem skeletons_append (before after : List SyncedContact) : s.skeletons sha256 accountId (before ++ after) =
      (s.skeletons sha256 accountId before).skeletons sha256 accountId after := foldl_append

end Skeletons

/-! ### The loop -/

section Loop

variable {entries : List SyncedContact}

/-- What holds after the entries `before` have had their turn, titles apart. -/
theorem upToTitles_syncEntry (h : syncEntry sha256 accountId (changed, t) entry = .ok r) (hkeys : s.UpToTitles t) :
    (s.skeleton sha256 accountId entry).UpToTitles r.2 := by
  rcases syncEntry_ok h with ⟨-, rfl⟩ | ⟨hcreates, ⟨row, -, -, rfl⟩ | ⟨-, rfl⟩⟩
  · exact hkeys.skeleton entry
  · rw [skeleton_of_not_creates (by rw [← creates_congr hkeys, hcreates])]
    exact hkeys.trans (upToTitles_retitle row.id entry.title)
  · rwa [skeleton_of_not_creates (by rw [← creates_congr hkeys, hcreates])]

/-- The loop makes the rows of its entries and changes titles alone. -/
theorem upToTitles_foldlM {acc r : List String × Store}
    (h : entries.foldlM (syncEntry sha256 accountId) acc = .ok r) :
    (acc.2.skeletons sha256 accountId entries).UpToTitles r.2 := by
  refine foldlM_invariant (s := acc) (fun before (r : List String × Store) =>
    (acc.2.skeletons sha256 accountId before).UpToTitles r.2) (.refl acc.2) ?_ h
  rintro before entry after ⟨changed, t⟩ r - hkeys hstep
  rw [skeletons_append]
  exact upToTitles_syncEntry hstep hkeys

/-- At the end an entry of a group, or of the account itself, has its row. -/
theorem isSome_find?_skeletons (h : s.structural accountId entry = true)
    (hentry : entry ∈ entries) : ((s.skeletons sha256 accountId entries).conversations.find?
      (s.skeletonId sha256 accountId entry)).isSome := by
  obtain ⟨before, after, rfl⟩ := append_of_mem hentry
  have hthere : ((s.skeletons sha256 accountId before).skeleton sha256 accountId entry).conversations.find?
      (s.skeletonId sha256 accountId entry) |>.isSome := by
    rw [← skeletonId_congr (accounts_skeletons before)]
    exact isSome_find?_skeleton (by rw [structural_congr (accounts_skeletons before), h])
  obtain ⟨c, hc⟩ := Option.isSome_iff_exists.mp hthere
  rw [Option.isSome_iff_exists, append_cons, skeletons_append, skeletons_append]
  exact ⟨c, find?_skeletons_of_some after hc⟩

theorem isSome_of_target {id : String} (h : s.target sha256 accountId entry = some id) : (s.titleOf id).isSome := by
  obtain ⟨row, hoffered, rfl⟩ := Option.map_eq_some_iff.mp h
  unfold titleOf
  rw [mem_iff_find?.mp (offered_mem hoffered)]
  rfl

/-- The titles the entries offer to the conversation, in the order of their turns. -/
def offers (sha256 : String → String) (s : Store) (accountId : String) (id : String) :
    List SyncedContact → List String
  | [] => []
  | entry :: entries =>
    (if (s.skeleton sha256 accountId entry).target sha256 accountId entry = some id then [entry.title] else []) ++
      (s.skeleton sha256 accountId entry).offers sha256 accountId id entries

/-- The titles the conversation has heard by the end of the sync. -/
def heard (sha256 : String → String) (s : Store) (accountId : String) (entries : List SyncedContact)
    (id : String) : List String := (s.titleOf id).toList ++ s.offers sha256 accountId id entries

theorem offers_congr (h : s.UpToTitles t) (id : String) (entries : List SyncedContact) :
    t.offers sha256 accountId id entries = s.offers sha256 accountId id entries := by
  induction entries generalizing s t with
  | nil => rfl
  | cons entry entries ih =>
    unfold offers
    rw [(h.skeleton entry).target, ih (h.skeleton entry)]

/-- One turn, as its conversations hear it. -/
theorem settleTitles_syncEntry
    (h : syncEntry sha256 accountId (changed, s) entry = .ok r) (id : String) (later : List String) :
    settleTitles ((r.2.titleOf id).toList ++ later) = settleTitles ((s.titleOf id).toList ++
      ((if (s.skeleton sha256 accountId entry).target sha256 accountId entry = some id then [entry.title] else []) ++
        later)) := by
  by_cases hcreates : s.creates sha256 accountId entry = true
  · obtain ⟨hstructural, hfree⟩ := free_of_creates hcreates
    have htarget : (s.skeleton sha256 accountId entry).target sha256 accountId entry =
        some (s.skeletonId sha256 accountId entry) := by
      rw [target_eq, skeletonId_congr (accounts_skeleton entry), if_pos (isSome_find?_skeleton hstructural)]
    rcases syncEntry_ok h with ⟨-, rfl⟩ | ⟨hnot, -⟩
    · rw [titleOf_skeleton_of_creates hcreates, htarget]
      by_cases hid : s.skeletonId sha256 accountId entry = id
      · have hnone : s.titleOf id = none := by rw [← hid, titleOf, hfree]; rfl
        simp [hid, hnone]
      · simp [hid]
    · rw [hcreates] at hnot
      cases hnot
  · have hcreates := Bool.eq_false_iff.mpr hcreates
    rw [titleOf_syncEntry h hcreates, skeleton_of_not_creates hcreates]
    by_cases hid : s.target sha256 accountId entry = some id
    · obtain ⟨current, hcurrent⟩ := Option.isSome_iff_exists.mp (isSome_of_target hid)
      rw [hcurrent, if_pos hid]
      simp [hid, settleTitles]
    · rw [if_neg hid]
      simp [hid]

theorem titleOf_foldlM {acc r : List String × Store}
    (h : entries.foldlM (syncEntry sha256 accountId) acc = .ok r) (id : String) :
    r.2.titleOf id = settleTitles (acc.2.heard sha256 accountId entries id) := by
  unfold heard
  induction entries generalizing acc with
  | nil =>
    obtain rfl := Except.ok.inj h
    unfold offers
    rcases hcurrent : acc.2.titleOf id with _ | current <;> simp [settleTitles]
  | cons entry entries ih =>
    obtain ⟨changed, s⟩ := acc
    rw [foldlM_cons] at h
    obtain ⟨q, hstep, hrest⟩ := exists_of_bind_ok h
    rw [ih hrest, offers_congr (upToTitles_syncEntry hstep (.refl s)), settleTitles_syncEntry hstep]
    rfl

end Loop

/-! ### Doing it again -/

/-- The entry's turn would do nothing. -/
def Rests (sha256 : String → String) (s : Store) (accountId : String) (entry : SyncedContact) : Prop :=
  s.creates sha256 accountId entry = false ∧
    ∀ row ∈ s.offered sha256 accountId entry, titleShouldUpgrade row.title entry.title = false

variable {syncedAt : ℕ} {entries : List SyncedContact}

theorem syncEntry_of_rests (h : s.Rests sha256 accountId entry) :
    syncEntry sha256 accountId (changed, s) entry = .ok (changed, s) := by
  obtain ⟨hcreates, hquiet⟩ := h
  unfold syncEntry
  dsimp only
  rw [if_neg (Bool.eq_false_iff.mp hcreates)]
  split
  · next row hoffered => rw [if_neg (by rw [hquiet row hoffered]; exact Bool.false_ne_true)]
  · rfl

theorem foldlM_of_rests (h : ∀ entry ∈ entries, s.Rests sha256 accountId entry) :
    entries.foldlM (syncEntry sha256 accountId) ([], s) = .ok ([], s) := by
  induction entries with
  | nil => rfl
  | cons entry entries ih =>
    rw [foldlM_cons, syncEntry_of_rests (h entry mem_cons_self)]
    exact ih fun e he => h e (mem_cons_of_mem _ he)

theorem answer_foldlM {acc r : List String × Store}
    (h : entries.foldlM (syncEntry sha256 accountId) acc = .ok r) : acc.1 <+: r.1 := by
  refine foldlM_preserves (fun r : List String × Store => acc.1 <+: r.1) (fun q entry r hq hstep => ?_) entries acc r
    prefix_rfl h
  rcases syncEntry_ok hstep with ⟨-, rfl⟩ | ⟨-, ⟨row, -, -, rfl⟩ | ⟨-, rfl⟩⟩
  · exact hq.trans (prefix_append _ _)
  · exact hq.trans (prefix_append _ _)
  · exact hq

/-- An empty answer is one of entries that did nothing. -/
theorem rests_of_foldlM (h : entries.foldlM (syncEntry sha256 accountId) ([], s) = .ok ([], t)) :
    ∀ entry ∈ entries, s.Rests sha256 accountId entry := by
  induction entries with
  | nil => exact nofun
  | cons entry entries ih =>
    rw [foldlM_cons] at h
    obtain ⟨r, hstep, hrest⟩ := exists_of_bind_ok h
    have hnil : r.1 = [] := prefix_nil.mp (answer_foldlM hrest)
    rcases syncEntry_ok hstep with ⟨-, rfl⟩ | ⟨hcreates, ⟨row, -, -, rfl⟩ | ⟨hquiet, rfl⟩⟩
    · simp at hnil
    · simp at hnil
    · intro e he
      rcases mem_cons.mp he with rfl | he
      · exact ⟨hcreates, hquiet⟩
      · exact ih hrest e he

/-! ### The contacts cache -/

/-- The entry's contact is cached. -/
def Cached (s : Store) (accountId : String) (entry : SyncedContact) : Prop :=
  ∃ kind, ContactKind.ofStr? entry.kind = some kind ∧
    ∃ r ∈ s.contacts.rows, r.accountId = accountId ∧ r.kind = kind ∧ r.peerKey = entry.peerKey

theorem Cached.mono (h : s.Cached accountId entry) (hkeep : ∀ r ∈ s.contacts.rows, ∃ r' ∈ t.contacts.rows,
      r'.accountId = r.accountId ∧ r'.kind = r.kind ∧ r'.peerKey = r.peerKey) : t.Cached accountId entry := by
  obtain ⟨kind, hkind, r, hr, haccount, hkind', hpeer⟩ := h
  obtain ⟨r', hr', haccount', hkind'', hpeer'⟩ := hkeep r hr
  exact ⟨kind, hkind, r', hr', haccount'.trans haccount, hkind''.trans hkind', hpeer'.trans hpeer⟩

theorem exists_upsertContact (h : s.Cached accountId entry) (syncedAt : ℕ) :
    ∃ t, upsertContact sha256 accountId syncedAt s entry = .ok t := by
  obtain ⟨kind, hkind, r, hr, hkey⟩ := h
  unfold upsertContact
  rw [hkind]
  dsimp only
  rw [if_pos (any_eq_true.mpr ⟨r, hr, by simpa using hkey⟩)]
  exact ⟨_, rfl⟩

theorem upsertContact_ok (h : upsertContact sha256 accountId syncedAt s entry = .ok t) :
    (∃ contacts, t = { s with contacts }) ∧ t.Cached accountId entry ∧
      ∀ e, s.Cached accountId e → t.Cached accountId e := by
  unfold upsertContact at h
  split at h
  · cases h
  next kind hkind =>
  dsimp only at h
  split at h
  · next hsame =>
    obtain ⟨r, hr, hkey⟩ := any_eq_true.mp hsame
    have ht := (Except.ok.inj h).symm
    have hkeep : ∀ r ∈ s.contacts.rows, ∃ r' ∈ t.contacts.rows,
        r'.accountId = r.accountId ∧ r'.kind = r.kind ∧ r'.peerKey = r.peerKey := by
      intro r hr
      rw [ht]
      refine ⟨_, mem_map_of_mem hr, ?_⟩
      split <;> exact ⟨rfl, rfl, rfl⟩
    have hcached : s.Cached accountId entry := ⟨kind, hkind, r, hr, by simpa using hkey⟩
    exact ⟨⟨_, ht⟩, hcached.mono hkeep, fun e he => he.mono hkeep⟩
  · split at h
    · cases h
    · next hfree =>
      have hfree := Option.not_isSome_iff_eq_none.mp (not_or.mp hfree).1
      have ht := (Except.ok.inj h).symm
      have hkeep : ∀ r ∈ s.contacts.rows, r ∈ t.contacts.rows := by
        rw [ht]
        exact fun r hr => mem_insertOrIgnore_of_mem hr
      have hfresh : ⟨stableHashId sha256 [accountId, entry.kind, entry.peerKey], accountId, kind, entry.peerKey,
          entry.title, entry.extra, asI64 syncedAt⟩ ∈ t.contacts.rows := by
        rw [ht, rows_insertOrIgnore_of_free hfree]
        exact mem_append_right _ (mem_singleton_self _)
      exact ⟨⟨_, ht⟩, ⟨kind, hkind, _, hfresh, rfl, rfl, rfl⟩, fun e he => he.mono fun r hr =>
        ⟨r, hkeep r hr, rfl, rfl, rfl⟩⟩

/-- The first loop caches every entry and changes the cache alone. -/
theorem foldlM_upsertContact (h : entries.foldlM (upsertContact sha256 accountId syncedAt) s = .ok t) :
    (∃ contacts, t = { s with contacts }) ∧ ∀ entry ∈ entries, t.Cached accountId entry := by
  refine foldlM_invariant (s := s) (fun before (t : Store) => (∃ contacts, t = { s with contacts }) ∧
    ∀ entry ∈ before, t.Cached accountId entry) ⟨⟨_, rfl⟩, nofun⟩ ?_ h
  rintro before entry after t u - ⟨⟨contacts, rfl⟩, hcached⟩ hstep
  obtain ⟨⟨contacts', rfl⟩, hentry, hkeep⟩ := upsertContact_ok hstep
  refine ⟨⟨contacts', rfl⟩, fun e he => ?_⟩
  rcases mem_append.mp he with he | he
  · exact hkeep e (hcached e he)
  · rw [mem_singleton.mp he]
    exact hentry

theorem exists_foldlM_upsertContact (syncedAt : ℕ) :
    ∀ {entries : List SyncedContact} {s : Store}, (∀ entry ∈ entries, s.Cached accountId entry) →
      ∃ t, entries.foldlM (upsertContact sha256 accountId syncedAt) s = .ok t
  | [], s, _ => ⟨s, rfl⟩
  | entry :: entries, s, h => by
    obtain ⟨t, ht⟩ : ∃ t, upsertContact sha256 accountId syncedAt s entry = .ok t :=
      exists_upsertContact (h entry mem_cons_self) syncedAt
    obtain ⟨u, hu⟩ := exists_foldlM_upsertContact syncedAt fun e he =>
      (upsertContact_ok ht).2.2 e (h e (mem_cons_of_mem _ he))
    exact ⟨u, by rw [foldlM_cons, ht]; exact hu⟩

theorem contacts_foldlM {acc r : List String × Store}
    (h : entries.foldlM (syncEntry sha256 accountId) acc = .ok r) : r.2.contacts = acc.2.contacts := by
  refine foldlM_preserves (fun r : List String × Store => r.2.contacts = acc.2.contacts)
    (fun q entry r hq hstep => ?_) entries acc r rfl h
  rcases syncEntry_ok hstep with ⟨-, rfl⟩ | ⟨-, ⟨row, -, -, rfl⟩ | ⟨-, rfl⟩⟩
  · unfold skeleton
    split <;> exact hq
  · exact hq
  · exact hq

/-- What a sync that succeeds consists of. -/
theorem syncContacts_ok (h : s.syncContacts sha256 accountId entries syncedAt = .ok (changed, t)) :
    ∃ contacts, entries.foldlM (syncEntry sha256 accountId) ([], { s with contacts }) = .ok (changed, t) ∧
      ∀ entry ∈ entries, t.Cached accountId entry := by
  obtain ⟨u, hcache, hloop⟩ := exists_of_bind_ok h
  obtain ⟨⟨contacts, rfl⟩, hcached⟩ := foldlM_upsertContact hcache
  refine ⟨contacts, hloop, fun entry hentry => (hcached entry hentry).mono ?_⟩
  rw [contacts_foldlM hloop]
  exact fun r hr => ⟨r, hr, rfl, rfl, rfl⟩

theorem syncContacts_silent_iff (hcached : ∀ entry ∈ entries, s.Cached accountId entry) (syncedAt : ℕ) :
    (∃ t, s.syncContacts sha256 accountId entries syncedAt = .ok ([], t) ∧ t.conversations = s.conversations) ↔
      ∀ entry ∈ entries, s.Rests sha256 accountId entry := by
  constructor
  · rintro ⟨t, h, -⟩
    obtain ⟨contacts, hloop, -⟩ := syncContacts_ok h
    exact fun entry hentry => rests_of_foldlM (s := { s with contacts }) hloop entry hentry
  · intro h
    obtain ⟨u, hcache⟩ : ∃ u, entries.foldlM (upsertContact sha256 accountId syncedAt) s = .ok u :=
      exists_foldlM_upsertContact syncedAt hcached
    obtain ⟨⟨contacts, rfl⟩, -⟩ := foldlM_upsertContact hcache
    refine ⟨{ s with contacts }, ?_, rfl⟩
    unfold syncContacts
    rw [hcache]
    exact foldlM_of_rests (s := { s with contacts }) h

end Store

/-! ### The sync -/

/-- A pull of the whole list, or a passive batch. -/
inductive SyncPath
  | pulled | passive
  deriving DecidableEq

variable (sha256 : String → String)

variable (path : SyncPath) (db : Database) (accountId : String) (entries : List SyncedContact)

def Database.upsertContacts (syncedAt : ℕ) : Except StoreError (List String × Database) :=
  match path with
  | .pulled => db.upsertSyncedContacts sha256 accountId entries syncedAt
  | .passive => db.upsertPassiveContacts sha256 accountId entries syncedAt

/-- Both answer the same conversations, or both fail. -/
def SameAnswer : Except StoreError (List String × Database) → Except StoreError (List String × Database) → Prop
  | .ok (changed, db), .ok (changed', db') => (∀ id, id ∈ changed ↔ id ∈ changed') ∧ db.store = db'.store
  | .error e, .error e' => e = e'
  | _, _ => False

/-- A row that is new has the key of a group entry, or of an entry under the account's own number or ACI. -/
def InventsNoChat (s t : Store) : Prop :=
  ∀ c ∈ t.conversations.rows, s.conversations.find? c.id = none →
    ∃ entry ∈ entries, c.accountId = accountId ∧ c.kind = entry.conversationKind ∧
      c.peerKey = s.skeletonPeerKey accountId entry ∧ (entry.kind = "group" ∨
        ∃ a ∈ s.accounts.find? accountId, entry.peerKey = a.signalAccount ∨ a.aci = some entry.peerKey)

/-- A row that was there keeps its columns but for its title, and its title if that is a useful one. -/
def KeepsTitles (s t : Store) : Prop :=
  ∀ c ∈ s.conversations.rows, ∃ title, { c with title } ∈ t.conversations.rows ∧
    (title ≠ c.title → titleIsUseful c.title = false)

/-- The sync changes no conversation and answers none. -/
def Silent (syncedAt : ℕ) : Prop :=
  ∃ db', db.upsertContacts sha256 path accountId entries syncedAt = .ok ([], db') ∧
    db'.store.conversations = db.store.conversations

/-- Every title the entries offer is covered by what its conversation has heard by the end of the sync. -/
def Titled (s : Store) (accountId : String) (entries : List SyncedContact) : Prop :=
  ∀ entry ∈ entries, ∀ id ∈ (s.skeletons sha256 accountId entries).target sha256 accountId entry,
    Covered (s.heard sha256 accountId entries id) entry.title

theorem upsertContacts_ok {sha256 : String → String} {path : SyncPath} {db db' : Database} {accountId : String}
    {entries : List SyncedContact} {syncedAt : ℕ} {changed : List String}
    (h : db.upsertContacts sha256 path accountId entries syncedAt = .ok (changed, db')) :
    ∃ changed', db.store.syncContacts sha256 accountId entries syncedAt = .ok (changed', db'.store) ∧
      (changed = [] ↔ changed' = []) := by
  cases path with
  | pulled =>
    obtain ⟨⟨changed', store⟩, hsync, heq⟩ := exists_of_map_ok h
    cases heq
    exact ⟨_, hsync, Iff.rfl⟩
  | passive =>
    obtain ⟨⟨changed', store⟩, hsync, heq⟩ := exists_of_map_ok h
    cases heq
    refine ⟨changed', hsync, ?_⟩
    simp only [eq_nil_iff_forall_not_mem, mem_insertionSort, mem_dedup]

/-- Whichever way the sync is done, it is silent when its loops are. -/
theorem silent_iff {sha256 : String → String} {path : SyncPath} {db : Database} {accountId : String}
    {entries : List SyncedContact} {syncedAt : ℕ} : Silent sha256 path db accountId entries syncedAt ↔ ∃ t,
      db.store.syncContacts sha256 accountId entries syncedAt = .ok ([], t) ∧
        t.conversations = db.store.conversations := by
  constructor
  · rintro ⟨db', h, hsame⟩
    obtain ⟨changed', hsync, hnil⟩ := upsertContacts_ok h
    rw [hnil.mp rfl] at hsync
    exact ⟨db'.store, hsync, hsame⟩
  · rintro ⟨t, h, hsame⟩
    cases path with
    | pulled =>
      refine ⟨{ db with
        store := t
        metaKeys := (db.metaKeys.delete fun r => r.key = contactsSyncedAtKey accountId).insertOrIgnore
          ⟨contactsSyncedAtKey accountId, toString syncedAt⟩ }, ?_, hsame⟩
      simp only [Database.upsertContacts, Database.upsertSyncedContacts, h]
      rfl
    | passive =>
      refine ⟨{ db with store := t }, ?_, hsame⟩
      simp only [Database.upsertContacts, Database.upsertPassiveContacts, h]
      rfl

theorem sameAnswer_upsertContacts (syncedAt : ℕ) :
    SameAnswer (db.upsertSyncedContacts sha256 accountId entries syncedAt)
      (db.upsertPassiveContacts sha256 accountId entries syncedAt) := by
  unfold Database.upsertSyncedContacts Database.upsertPassiveContacts
  cases db.store.syncContacts sha256 accountId entries syncedAt with
  | error => exact rfl
  | ok =>
    refine ⟨fun id => ?_, rfl⟩
    rw [mem_insertionSort, mem_dedup]

namespace Store

variable {sha256 : String → String} {accountId : String} {s t : Store} {entries : List SyncedContact}

theorem of_mem_skeletons {c : ConversationRow} (h : c ∈ (s.skeletons sha256 accountId entries).conversations.rows) :
    c ∈ s.conversations.rows ∨ ∃ entry ∈ entries, s.structural accountId entry = true ∧
      c = s.skeletonRow sha256 accountId entry := by
  unfold skeletons at h
  induction entries generalizing s with
  | nil => exact .inl h
  | cons entry entries ih =>
    have hrow : ∀ e, (s.skeleton sha256 accountId entry).skeletonRow sha256 accountId e =
        s.skeletonRow sha256 accountId e := fun e => by
      unfold skeletonRow
      rw [skeletonId_congr (accounts_skeleton entry), skeletonPeerKey_congr (accounts_skeleton entry)]
    rcases ih h with h | ⟨e, he, hstructural, hc⟩
    · by_cases hcreates : s.creates sha256 accountId entry = true
      · obtain ⟨hstructural, hfree⟩ := free_of_creates hcreates
        rw [skeleton_of_creates hcreates, rows_insertOrIgnore_of_free hfree] at h
        rcases mem_append.mp h with h | h
        · exact .inl h
        · exact .inr ⟨entry, mem_cons_self, hstructural, mem_singleton.mp h⟩
      · rw [skeleton_of_not_creates (Bool.eq_false_iff.mpr hcreates)] at h
        exact .inl h
    · rw [structural_congr (accounts_skeleton entry)] at hstructural
      exact .inr ⟨e, mem_cons_of_mem _ he, hstructural, hc.trans (hrow e)⟩

theorem own_of_structural {entry : SyncedContact} (h : s.structural accountId entry = true)
    (hkind : entry.conversationKind = .direct) :
    ∃ a ∈ s.accounts.find? accountId, entry.peerKey = a.signalAccount ∨ a.aci = some entry.peerKey := by
  unfold structural skeletonPeerKey memoSkeletonIdentity at h
  rcases hfind : s.accounts.find? accountId with _ | a
  · simp [hfind, hkind] at h
  · refine ⟨a, rfl, ?_⟩
    rw [hfind] at h
    rcases haci : a.aci with _ | aci
    · simpa [hkind, haci, skeletonConversationPeerKey] using h
    · by_cases hown : entry.peerKey = a.signalAccount
      · exact .inl hown
      · simpa [hkind, haci, skeletonConversationPeerKey, hown, eq_comm] using h

variable {acc r : List String × Store}

/-- The entries of a sync rest after it iff all they offer is covered. -/
theorem rests_iff_titled (h : entries.foldlM (syncEntry sha256 accountId) acc = .ok r) :
    (∀ entry ∈ entries, r.2.Rests sha256 accountId entry) ↔ Titled sha256 acc.2 accountId entries := by
  have hkeys := upToTitles_foldlM h
  have haccounts : r.2.accounts = acc.2.accounts := hkeys.accounts.trans (accounts_skeletons entries)
  refine forall₂_congr fun entry hentry => ?_
  have hthere : r.2.creates sha256 accountId entry = false := by
    by_cases hstructural : acc.2.structural accountId entry = true
    · have hrow : (r.2.conversations.find? (r.2.skeletonId sha256 accountId entry)).isSome := by
        rw [hkeys.isSome_find?, skeletonId_congr haccounts]
        exact isSome_find?_skeletons hstructural hentry
      simp [creates, hrow]
    · simp [creates, structural_congr haccounts, hstructural]
  have hoffered : ∀ row, r.2.offered sha256 accountId entry = some row → r.2.titleOf row.id = some row.title :=
    fun row hrow => by rw [titleOf, mem_iff_find?.mp (offered_mem hrow)]; rfl
  constructor
  · rintro ⟨-, hquiet⟩ id hid
    rw [Option.mem_def, ← hkeys.target] at hid
    obtain ⟨row, hrow, rfl⟩ := Option.map_eq_some_iff.mp hid
    have hheard := (titleOf_foldlM h row.id).symm.trans (hoffered row hrow)
    exact (titleShouldUpgrade_settleTitles hheard entry.title).mp (hquiet row hrow)
  · intro hcovered
    refine ⟨hthere, fun row hrow => ?_⟩
    have hid : (acc.2.skeletons sha256 accountId entries).target sha256 accountId entry = some row.id := by
      rw [← hkeys.target, target, hrow]
      rfl
    have hheard := (titleOf_foldlM h row.id).symm.trans (hoffered row hrow)
    exact (titleShouldUpgrade_settleTitles hheard entry.title).mpr (hcovered row.id hid)

/-- What a sync leaves of the rows: those that were there, and those of its structural entries. -/
theorem inventsNoChat_foldlM (h : entries.foldlM (syncEntry sha256 accountId) acc = .ok r)
    (hkinds : ∀ entry ∈ entries, (ContactKind.ofStr? entry.kind).isSome) :
    InventsNoChat accountId entries acc.2 r.2 := by
  intro c hc hnew
  have hkeys := upToTitles_foldlM h
  have huntitled : c.untitled ∈ (acc.2.skeletons sha256 accountId entries).conversations.rows.map
      ConversationRow.untitled := hkeys.rows ▸ mem_map_of_mem hc
  obtain ⟨c', hc', heq⟩ := mem_map.mp huntitled
  have hrow : { c with title := c'.title } = c' := ConversationRow.eq_of_untitled heq
  rcases of_mem_skeletons hc' with hold | ⟨entry, hentry, hstructural, rfl⟩
  · have hid : c.id = c'.id := by rw [← hrow]
    rw [hid, mem_iff_find?.mp hold] at hnew
    cases hnew
  · rw [ConversationRow.mk.injEq] at hrow
    refine ⟨entry, hentry, hrow.2.1, hrow.2.2.1, hrow.2.2.2.1, ?_⟩
    by_cases hkind : entry.kind = "contact"
    · exact .inr (own_of_structural hstructural (if_pos hkind))
    · left
      by_contra hgroup
      simpa [ContactKind.ofStr?, hkind, hgroup] using hkinds entry hentry

theorem keepsTitles_foldlM
    (h : entries.foldlM (syncEntry sha256 accountId) acc = .ok r) : KeepsTitles acc.2 r.2 := by
  intro c hc
  have hkeys := upToTitles_foldlM h
  have hfind : acc.2.conversations.find? c.id = some c := mem_iff_find?.mp hc
  have hsame := hkeys.find? c.id
  rw [find?_skeletons_of_some entries hfind, Option.map_some, Option.map_eq_some_iff] at hsame
  obtain ⟨c', hc', heq⟩ := hsame
  refine ⟨c'.title, ConversationRow.eq_of_untitled heq ▸ (Table.find?_eq_some.mp hc').1, fun hchanged => ?_⟩
  refine Bool.eq_false_iff.mpr fun huseful => hchanged ?_
  have hheard : some c'.title = settleTitles (c.title :: acc.2.offers sha256 accountId c.id entries) := by
    have htitle := titleOf_foldlM h c.id
    rwa [heard, titleOf, titleOf, hc', hfind] at htitle
  exact Option.some.inj (hheard.trans (settleTitles_of_useful huseful _))

/-- A loop that runs on other contacts runs on the same conversations. -/
theorem titled_contacts (contacts : Table ContactRow.id) :
    Titled sha256 { s with contacts } accountId entries ↔ Titled sha256 s accountId entries := by
  have hkeys : s.UpToTitles { s with contacts } := ⟨rfl, rfl, rfl⟩
  refine forall₂_congr fun entry _ => ?_
  unfold heard
  rw [(hkeys.skeletons entries).target]
  simp only [offers_congr hkeys]
  rfl

end Store

/-- **When a contacts sync is silent on replay.** Pull and passive batch answer the same and replace no useful title;
a second sync is silent iff every title offered is covered. -/
theorem contacts_sync_iff : (∀ syncedAt, SameAnswer (db.upsertSyncedContacts sha256 accountId entries syncedAt)
      (db.upsertPassiveContacts sha256 accountId entries syncedAt)) ∧
    ∀ path syncedAt changed db', db.upsertContacts sha256 path accountId entries syncedAt = .ok (changed, db') →
      InventsNoChat accountId entries db.store db'.store ∧ KeepsTitles db.store db'.store ∧
        ∀ path' syncedAt', Silent sha256 path' db' accountId entries syncedAt' ↔
          Titled sha256 db.store accountId entries := by
  refine ⟨sameAnswer_upsertContacts sha256 db accountId entries, fun path syncedAt changed db' h => ?_⟩
  obtain ⟨changed', hsync, -⟩ := upsertContacts_ok h
  obtain ⟨contacts, hloop, hcached⟩ := Store.syncContacts_ok hsync
  refine ⟨Store.inventsNoChat_foldlM hloop fun entry hentry => ?_, Store.keepsTitles_foldlM hloop,
    fun path' syncedAt' => ?_⟩
  · obtain ⟨kind, hkind, -⟩ := hcached entry hentry
    rw [hkind]
    rfl
  · rw [silent_iff, Store.syncContacts_silent_iff hcached, ← Store.titled_contacts contacts]
    exact Store.rests_iff_titled hloop

def freshAccount : Database :=
  { Database.empty with
    store := { Store.empty with accounts := .single (.ofAddress "account" "+1" "+***1" "fresh") } }

/-- A group that comes without a name: its row is titled by the placeholder, and gains it again on every sync. -/
theorem unnamed_group_changes_on_replay :
    ∃ db' db'', freshAccount.upsertSyncedContacts id "account" [⟨"group", "group-1", "group", none⟩] 1 =
        .ok (["account\x00group\x00group-1"], db') ∧
      db'.upsertSyncedContacts id "account" [⟨"group", "group-1", "group", none⟩] 2 =
        .ok (["account\x00group\x00group-1"], db'') :=
  ⟨_, _, rfl, rfl⟩

end SignalConnector
