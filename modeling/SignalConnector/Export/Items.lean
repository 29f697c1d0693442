/-
# The chat items of an artifact

An incoming row carries its author as a sender id. The export knows the hashes of
the spellings its sources gave of a person, under both conversation kinds, and no
other form: neither a spelling the sources did not use nor the bare ACI that a
history import stores. A row whose sender id it does not know is counted as skipped,
so the counts add up for every store.
-/
import SignalConnector.Export.People

namespace SignalConnector

open List

namespace Export

/-! ### Who wrote a row -/

/-- The spelling names the person with this ACI or this number, at first hand or over the bridge. -/
def Names (s : Store) (accountId : String) (entry : ContactEntry) (source : String) : Prop :=
  (∃ aci, parseAci source = some aci ∧ (entry.aci = some aci ∨
      ∃ number, Binds s accountId aci number ∧ entry.e164.bind e164Number = some number)) ∨
    ∃ number, (parseE164 source).bind e164Number = some number ∧ (entry.e164.bind e164Number = some number ∨
      ∃ aci, Binds s accountId aci number ∧ entry.aci = some aci)

variable (sha256 : String → String)

variable (s : Store) (accountId : String) (ms : List Mention)

/-- The sender id is a hash of a spelling of the person, or the ACI itself. -/
def AuthoredBy (entry : ContactEntry) (senderId : String) : Prop :=
  ∃ source, Names s accountId entry source ∧
    ((∃ kind : ConversationKind, senderId = stableHashId sha256 [accountId, kind.asStr, source]) ∨
      (parseAci source).isSome ∧ senderId = source)

/-- A source gave a spelling of the contact that hashes to the sender id. -/
def Spelt (senderId key : String) : Prop :=
  ∃ m ∈ ms, m.key = some key ∧ ∃ form ∈ m.spellings, form ≠ "" ∧
    ∃ kind : ConversationKind, stableHashId sha256 [accountId, kind.asStr, form] = senderId

/-- A source gave such a spelling of the contact, and of no contact behind it in key order. -/
def KnownLast (senderId key : String) : Prop :=
  Spelt sha256 accountId ms senderId key ∧ ∀ key', key < key' → ¬Spelt sha256 accountId ms senderId key'

def contactId (signalAccount key : String) : Option ℕ :=
  ((allocate (people s accountId signalAccount)).find? key).map ContactEntry.id

/-! ### The sender reverse map -/

theorem mem_addForms {forms more : List String} {form : String} :
    form ∈ addForms forms more ↔ form ∈ forms ∨ form ∈ more ∧ form ≠ "" := by
  unfold addForms
  induction more generalizing forms with
  | nil => simp
  | cons f more ih =>
    rw [foldl_cons, ih]
    by_cases hadd : f ≠ "" ∧ f ∉ forms
    · rw [if_pos hadd, mem_append, mem_singleton, mem_cons]
      constructor
      · rintro ((h | rfl) | h)
        · exact .inl h
        · exact .inr ⟨.inl rfl, hadd.1⟩
        · exact .inr ⟨.inr h.1, h.2⟩
      · rintro (h | ⟨rfl | h, hne⟩)
        · exact .inl (.inl h)
        · exact .inl (.inr rfl)
        · exact .inr ⟨h, hne⟩
    · rw [if_neg hadd, mem_cons]
      constructor
      · rintro (h | h)
        · exact .inl h
        · exact .inr ⟨.inr h.1, h.2⟩
      · rintro (h | ⟨rfl | h, hne⟩)
        · exact .inl h
        · by_contra hnot
          exact hadd ⟨hne, fun hmem => hnot (.inl hmem)⟩
        · exact .inr ⟨h, hne⟩

theorem mem_forms_foldl_hear {ms : List Mention} {entry : ContactEntry} {form : String} :
    form ∈ (ms.foldl ContactEntry.hear entry).forms ↔
      form ∈ entry.forms ∨ ∃ m ∈ ms, form ∈ m.spellings ∧ form ≠ "" := by
  induction ms generalizing entry with
  | nil => simp
  | cons m ms ih =>
    rw [foldl_cons, ih]
    change form ∈ addForms entry.forms m.spellings ∨ _ ↔ _
    rw [mem_addForms, exists_mem_cons_iff, or_assoc]

theorem lookupLast_append {α : Type} (xs ys : List (String × α)) (key : String) :
    lookupLast (xs ++ ys) key = (lookupLast ys key).or (lookupLast xs key) := by
  unfold lookupLast
  rw [reverse_append, find?_append, Option.map_or]

theorem lookupLast_flatMap {α β : Type} (block : α → List (String × β)) (value : α → β)
    (h : ∀ a, ∀ pair ∈ block a, pair.2 = value a) (l : List α) (key : String) : lookupLast (l.flatMap block) key =
      (l.reverse.find? fun a => (block a).any fun pair => pair.1 = key).map value := by
  induction l with
  | nil => rfl
  | cons a l ih =>
    rw [flatMap_cons, lookupLast_append, ih, reverse_cons, find?_append, Option.map_or]
    congr 1
    by_cases hany : (block a).any (fun pair => pair.1 = key) = true
    · obtain ⟨pair, hpair, hkey⟩ := any_eq_true.mp hany
      have hsome : ((block a).reverse.find? fun pair => pair.1 = key).isSome :=
        find?_isSome.mpr ⟨pair, mem_reverse.mpr hpair, hkey⟩
      obtain ⟨last, hlast⟩ := Option.isSome_iff_exists.mp hsome
      rw [lookupLast, hlast, find?_singleton, if_pos hany, Option.map_some, Option.map_some,
        h a last (mem_reverse.mp (mem_of_find?_eq_some hlast))]
    · have hnone : ((block a).reverse.find? fun pair => pair.1 = key) = none := by
        refine List.find?_eq_none.mpr fun pair hpair hkey => hany ?_
        exact any_eq_true.mpr ⟨pair, mem_reverse.mp hpair, hkey⟩
      rw [lookupLast, hnone, find?_singleton, if_neg hany]
      rfl

section Known

variable {sha256 : String → String} {s : Store} {accountId signalAccount : String}

variable {e e' : String × ContactEntry}

/-- The contacts with ids, as the sender map walks them. -/
theorem mem_allocated : e ∈ (allocate (people s accountId signalAccount)).entries ↔
      ∃ i, (people s accountId signalAccount).entries[i]? =
          some (e.1, contactOf (mentions s accountId signalAccount) e.1) ∧
        own (mentions s accountId signalAccount) e.1 ≠ [] ∧
        e.2 = { contactOf (mentions s accountId signalAccount) e.1 with id := 1 + i } := by
  unfold allocate
  rw [SortedMap.mem_mapIdx]
  constructor
  · rintro ⟨i, a, hget, he⟩
    obtain ⟨hown, ha⟩ := mem_people.mp (mem_of_getElem? hget)
    exact ⟨i, ha ▸ hget, hown, ha ▸ he⟩
  · rintro ⟨i, hget, -, he⟩
    exact ⟨i, _, hget, he⟩

def senderBlock (sha256 : String → String) (accountId : String) (e : String × ContactEntry) : List (String × ℕ) :=
  e.2.forms.flatMap fun form => [ConversationKind.direct, .group].map fun kind =>
    (stableHashId sha256 [accountId, kind.asStr, form], e.2.id)

theorem mem_senderBlock {pair : String × ℕ} :
    pair ∈ senderBlock sha256 accountId e ↔ ∃ form ∈ e.2.forms, ∃ kind : ConversationKind,
      pair = (stableHashId sha256 [accountId, kind.asStr, form], e.2.id) := by
  unfold senderBlock
  rw [mem_flatMap]
  refine exists_congr fun form => and_congr_right fun _ => ?_
  rw [mem_map]
  constructor
  · rintro ⟨kind, -, rfl⟩
    exact ⟨kind, rfl⟩
  · rintro ⟨kind, rfl⟩
    exact ⟨kind, by cases kind <;> simp, rfl⟩

theorem any_senderBlock (he : e ∈ (allocate (people s accountId signalAccount)).entries) (senderId : String) :
    ((senderBlock sha256 accountId e).any fun pair => pair.1 = senderId) = true ↔
      Spelt sha256 accountId (mentions s accountId signalAccount) senderId e.1 := by
  obtain ⟨i, -, -, hentry⟩ := mem_allocated.mp he
  have hforms : ∀ form, form ∈ e.2.forms ↔
      ∃ m ∈ mentions s accountId signalAccount, m.key = some e.1 ∧ form ∈ m.spellings ∧ form ≠ "" := fun form => by
    rw [hentry]
    change form ∈ ((own (mentions s accountId signalAccount) e.1).foldl ContactEntry.hear .blank).forms ↔ _
    rw [mem_forms_foldl_hear]
    simp only [ContactEntry.blank, not_mem_nil, false_or, mem_own, and_assoc]
  rw [any_eq_true]
  constructor
  · rintro ⟨pair, hpair, hid⟩
    obtain ⟨form, hform, kind, rfl⟩ := mem_senderBlock.mp hpair
    obtain ⟨m, hm, hkey, hspelling, hne⟩ := (hforms form).mp hform
    exact ⟨m, hm, hkey, form, hspelling, hne, kind, by simpa using hid⟩
  · rintro ⟨m, hm, hkey, form, hspelling, hne, kind, rfl⟩
    exact ⟨_, mem_senderBlock.mpr ⟨form, (hforms form).mpr ⟨m, hm, hkey, hspelling, hne⟩, kind, rfl⟩, by simp⟩

theorem exists_of_spelt {senderId key : String}
    (h : Spelt sha256 accountId (mentions s accountId signalAccount) senderId key) :
    ∃ entry, (key, entry) ∈ (allocate (people s accountId signalAccount)).entries := by
  obtain ⟨m, hm, hkey, -⟩ := h
  obtain ⟨i, hi, hget⟩ := mem_iff_getElem.mp
    (mem_people.mpr ⟨ne_nil_of_mem (mem_own.mpr ⟨hm, hkey⟩), rfl⟩)
  exact ⟨{ contactOf (mentions s accountId signalAccount) key with id := 1 + i }, mem_allocated.mpr
    ⟨i, by rw [getElem?_eq_getElem hi, hget], ne_nil_of_mem (mem_own.mpr ⟨hm, hkey⟩), rfl⟩⟩

/-- Contacts have distinct ids. -/
theorem eq_of_id (he : e ∈ (allocate (people s accountId signalAccount)).entries)
    (he' : e' ∈ (allocate (people s accountId signalAccount)).entries) (h : e.2.id = e'.2.id) : e = e' := by
  obtain ⟨i, hget, -, hentry⟩ := mem_allocated.mp he
  obtain ⟨i', hget', -, hentry'⟩ := mem_allocated.mp he'
  have hplace : i = i' := by
    rw [hentry, hentry'] at h
    exact Nat.add_left_cancel h
  subst hplace
  have hkey : e.1 = e'.1 := (Prod.mk.inj (Option.some.inj (hget.symm.trans hget'))).1
  refine Prod.ext hkey ?_
  rw [hentry, hentry', hkey]

theorem lookupLast_senderIds {senderId key : String} {id : ℕ}
    (hid : contactId s accountId signalAccount key = some id) :
    lookupLast (senderIds sha256 accountId (allocate (people s accountId signalAccount))) senderId = some id ↔
      KnownLast sha256 accountId (mentions s accountId signalAccount) senderId key := by
  obtain ⟨entry, hentry, rfl⟩ := Option.map_eq_some_iff.mp hid
  have hmem := SortedMap.find?_eq_some.mp hentry
  have hlast := lookupLast_flatMap (senderBlock sha256 accountId) (fun e => e.2.id)
    (fun e pair hpair => by obtain ⟨_, -, _, rfl⟩ := mem_senderBlock.mp hpair; rfl)
    (allocate (people s accountId signalAccount)).entries senderId
  have hblocks : senderIds sha256 accountId (allocate (people s accountId signalAccount)) =
    (allocate (people s accountId signalAccount)).entries.flatMap (senderBlock sha256 accountId) := rfl
  rw [hblocks, hlast, Option.map_eq_some_iff]
  constructor
  · rintro ⟨e, hfind, hid⟩
    obtain ⟨he, hspelt, hnone⟩ := SortedMap.find?_reverse_eq_some.mp hfind
    obtain rfl := eq_of_id he hmem hid
    refine ⟨(any_senderBlock he senderId).mp hspelt, fun key' hlt hspelt' => ?_⟩
    obtain ⟨entry', hentry'⟩ := exists_of_spelt hspelt'
    have hfalse := hnone _ hentry' hlt
    rw [(any_senderBlock hentry' senderId).mpr hspelt'] at hfalse
    cases hfalse
  · rintro ⟨hspelt, hnone⟩
    refine ⟨(key, entry), SortedMap.find?_reverse_eq_some.mpr ⟨hmem, (any_senderBlock hmem senderId).mpr hspelt,
      fun e' he' hlt => ?_⟩, rfl⟩
    rw [← Bool.not_eq_true, any_senderBlock he' senderId]
    exact hnone e'.1 hlt

/-! ### The items -/

def ArtifactLine.isItem : ArtifactLine → Bool
  | .chatItem _ _ _ _ _ _ _ => true
  | _ => false

end Known

/-- **Which rows an artifact carries**: those `rowLine` writes, in order; the others are counted. An incoming row has
its author iff its sender id is the hash of a spelling of that person only. -/
theorem chat_items_iff (encode : ArtifactLine → String) (sha256 : String → String) (accountDir : Option String)
    (s : Store) (accountId signalAccount : String) (lines : List ArtifactLine) (counters : SkipCounters)
    (h : buildArtifact encode sha256 accountDir s accountId signalAccount = .ok (lines, counters)) :
    let chats := exportedChats s accountId signalAccount
    let ids := senderIds sha256 accountId (allocate (people s accountId signalAccount))
    lines.filter ArtifactLine.isItem = (chats.zipIdx.flatMap fun chat =>
        (chatRows s accountId chat.1).filterMap (rowLine ids (chat.2 + 1))) ∧
      (lines.filter ArtifactLine.isItem).length + counters.skippedRows + counters.skippedBodyTruncated =
        (chats.map fun chat => (chatRows s accountId chat).length).sum ∧
      ∀ key id, contactId s accountId signalAccount key = some id →
        placedLine (id - 1) (contactOf (mentions s accountId signalAccount) key) ∈ lines ∧
        ∀ chat index, (chat, index) ∈ chats.zipIdx → ∀ row ∈ chatRows s accountId chat,
          row.direction = .incoming → rowPasses row →
          AuthoredBy sha256 s accountId (contactOf (mentions s accountId signalAccount) key) row.senderId →
          (rowLine ids (index + 1) row = some (itemLine (index + 1) id row) ↔
            KnownLast sha256 accountId (mentions s accountId signalAccount) row.senderId key) := by
  obtain ⟨profileKey, givenName, chatL, hchats, hlines, hcount⟩ := buildArtifact_ok h
  obtain ⟨hcontacts, -, hexported⟩ := project_eq s accountId signalAccount
  have hpeople : (project s accountId signalAccount).contacts = people s accountId signalAccount := hcontacts
  rw [hpeople, hexported] at hlines hcount
  have hitems : lines.filter ArtifactLine.isItem = itemLines s accountId
      (senderIds sha256 accountId (allocate (people s accountId signalAccount)))
      (exportedChats s accountId signalAccount).zipIdx := by
    have hidentities : (identityLines (project s accountId signalAccount)).filter ArtifactLine.isItem = [] :=
      filter_eq_nil_iff.mpr fun line hline => by
        rcases mem_identityLines_cases hline with ⟨_, _, _, _, rfl⟩ | ⟨_, _, rfl⟩ <;> exact Bool.false_ne_true
    have hchatL : chatL.filter ArtifactLine.isItem = [] := filter_eq_nil_iff.mpr fun line hline => by
      obtain ⟨_, _, -, _, -, rfl⟩ := (mem_chatLines hchats).1 line hline
      exact Bool.false_ne_true
    rw [hlines, filter_append, filter_append, filter_append, filter_cons, hidentities, hchatL,
      filter_eq_self.mpr fun line hline => by obtain ⟨_, _, _, _, -, -, rfl⟩ := mem_itemLines hline; rfl]
    exact append_nil _
  refine ⟨hitems, ?_, fun key id hid => ⟨?_, fun chat index hchat row hrow hincoming hpasses _ => ?_⟩⟩
  · rw [hitems, Nat.add_assoc]
    exact hcount
  · obtain ⟨entry, hentry, rfl⟩ := Option.map_eq_some_iff.mp hid
    have hmem := SortedMap.find?_eq_some.mp hentry
    obtain ⟨i, hget, hown, heq⟩ := mem_allocated.mp hmem
    have hline : contactLine entry = placedLine (entry.id - 1)
        (contactOf (mentions s accountId signalAccount) key) := by
      rw [show entry = _ from heq]
      simp [contactLine, placedLine]
    rw [hlines, ← hline]
    have hcontact : contactLine entry ∈ identityLines (project s accountId signalAccount) := by
      unfold identityLines
      rw [hpeople]
      exact mem_append_left _ (mem_map_of_mem (f := fun e => contactLine e.2) hmem)
    simp [hcontact]
  · rw [← lookupLast_senderIds hid]
    unfold rowLine rowAuthor
    rw [if_pos hpasses, hincoming, if_neg (by decide)]
    constructor
    · intro hline
      obtain ⟨author, hauthor, heq⟩ := Option.map_eq_some_iff.mp hline
      rw [hauthor]
      unfold itemLine at heq
      injection heq with _ hsame
      rw [hsame]
    · intro hauthor
      rw [hauthor]
      rfl

def oneText (senderId : String) : Store :=
  { Store.empty with
    accounts := .single (.ofAddress "account" "+1" "+***1" "export")
    conversations := .single (.ofPeer "c" "account" .direct "b0b0b0b0-0000-4000-8000-000000000001" "Bo")
    messages := .single (.ofText "m" "account" "c" .incoming senderId 500 "hi" .delivered) }

def oneTextHead : List ArtifactLine :=
  [.account "kt-signal-connector/backup-export/account-profile-key\x00+1" none,
    .contact 1 (some "b0b0b0b0000040008000000000000001") none (some "Bo"), .chat 1 1]

/-- The sender id a received text has in the conversation. -/
def hashedSender : String := "account\x00direct\x00b0b0b0b0-0000-4000-8000-000000000001"

def oneTextArtifact : List ArtifactLine :=
  oneTextHead ++ [.chatItem 1 1 500 .incoming 500 "hi" [], .allChatFolder]

/-- The hash of the conversation's own spelling is known. -/
theorem hashed_sender_counts :
    buildArtifact (fun _ => "") id (some "accounts/a") (oneText hashedSender) "account" "+1" =
        .ok (oneTextArtifact, ⟨0, 0, 0, 0, 0, 0, 0, 0, 0⟩) ∧
    (oneTextArtifact.filter ArtifactLine.isItem).length + 0 + 0 =
      ((exportedChats (oneText hashedSender) "account" "+1").map fun chat =>
        (chatRows (oneText hashedSender) "account" chat).length).sum ∧
    KnownLast id "account" (mentions (oneText hashedSender) "account" "+1") hashedSender
      "aci:b0b0b0b0000040008000000000000001" := by
  have hbuilt : buildArtifact (fun _ => "") id (some "accounts/a") (oneText hashedSender) "account" "+1" =
      .ok (oneTextArtifact, ⟨0, 0, 0, 0, 0, 0, 0, 0, 0⟩) := by decide +kernel
  obtain ⟨-, hcount, hauthors⟩ := chat_items_iff (fun _ => "") id (some "accounts/a") (oneText hashedSender) "account"
    "+1" oneTextArtifact _ hbuilt
  have hauthor := (hauthors "aci:b0b0b0b0000040008000000000000001" 1 (by decide +kernel)).2 _ 0
    (by exact mem_cons_self) _ (by exact mem_cons_self) rfl
  refine ⟨hbuilt, hcount, (hauthor (by decide +kernel) ⟨"b0b0b0b0-0000-4000-8000-000000000001", ?_, ?_⟩).mp ?_⟩
  · exact .inl ⟨"b0b0b0b0000040008000000000000001", by decide +kernel, .inl (by decide +kernel)⟩
  · exact .inl ⟨.direct, rfl⟩
  · decide +kernel

/-- The author has a contact line, but a row with the bare ACI is left out. -/
theorem imported_row_left_out : AuthoredBy id (oneText "b0b0b0b0-0000-4000-8000-000000000001") "account"
      ⟨1, some "b0b0b0b0000040008000000000000001", none, some "Bo", []⟩ "b0b0b0b0-0000-4000-8000-000000000001" ∧
    buildArtifact (fun _ => "") id (some "accounts/a") (oneText "b0b0b0b0-0000-4000-8000-000000000001")
      "account" "+1" = .ok (oneTextHead ++ [.allChatFolder], ⟨0, 0, 0, 0, 0, 0, 0, 0, 1⟩) :=
  ⟨⟨"b0b0b0b0-0000-4000-8000-000000000001", .inl ⟨"b0b0b0b0000040008000000000000001", by decide +kernel, .inl rfl⟩,
    .inr ⟨by decide +kernel, rfl⟩⟩, by decide +kernel⟩

end Export

end SignalConnector
