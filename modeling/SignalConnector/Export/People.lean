/-
# The people of an artifact

The contacts of an artifact are the people its sources name: rows of the contacts
cache, members of rosters and direct conversations, each a mention of a person under
an ACI, a number or both. Mentions with one canonical key are one contact. The bridge
between numbers and ACIs is read the wrong way round, so a number is not completed by
its ACI; and contacts and groups are numbered by two counters that start at 1.
-/
import SignalConnector.Export.Artifact
import SignalConnector.Lib.Run

namespace SignalConnector

open List

namespace Export

/-! ### Mentions -/

/-- What a source says of a person. -/
structure Mention where
  identity : PeerIdentity
  name : Option String
  forms : List String
  deriving DecidableEq

namespace Mention

/-- The contact the mention is of. -/
def key (m : Mention) : Option String := canonicalContactKey m.identity

/-- Every spelling of the person the mention gives. -/
def spellings (m : Mention) : List String := m.identity.aci.toList ++ m.identity.e164.toList ++ m.forms

end Mention

section Sources

variable (aciByPeer : List (String × String)) (signalAccount : String)

/-- A peer key that is not the account's own. -/
def peerMention (peerKey title : String) : List Mention :=
  if peerKey = signalAccount then [] else [⟨peerIdentity peerKey aciByPeer, some title, [peerKey]⟩]

/-- The people a row of the contacts cache names. -/
def contactMentions (row : ContactRow) : List Mention :=
  match row.kind with
  | .contact => peerMention aciByPeer signalAccount row.peerKey row.title
  | .group =>
    if (parseGroupMasterKey row.peerKey).isSome then
      ((rosterMembers row.extra).filter (memberIsPeer signalAccount)).map fun member =>
        ⟨memberIdentity member aciByPeer, none, memberForms member⟩
    else []

variable (conversation : ConversationRow)

def conversationMentions : List Mention :=
  match conversation.kind with
  | .direct => peerMention aciByPeer signalAccount conversation.peerKey conversation.title
  | .group => []

/-- The group a row of the contacts cache names. -/
def contactMasterKey (row : ContactRow) : Option String :=
  match row.kind with
  | .contact => none
  | .group => parseGroupMasterKey row.peerKey

def conversationMasterKey : Option String :=
  match conversation.kind with
  | .direct => none
  | .group => parseGroupMasterKey conversation.peerKey

def chatOf : Option PendingChat :=
  match conversation.kind with
  | .direct =>
    if conversation.peerKey = signalAccount then some ⟨conversation.id, .noteToSelf⟩
    else (canonicalContactKey (peerIdentity conversation.peerKey aciByPeer)).map fun key =>
      ⟨conversation.id, .contact key⟩
  | .group => (parseGroupMasterKey conversation.peerKey).map fun masterKey => ⟨conversation.id, .group masterKey⟩

end Sources

/-- The people the account's rows name, in the order they are read. -/
def mentions (s : Store) (accountId signalAccount : String) : List Mention :=
  let aciByPeer := s.backupPeerIdentityRows accountId
  (s.backupContactRows accountId).flatMap (contactMentions aciByPeer signalAccount) ++
    (s.backupConversationRows accountId).flatMap (conversationMentions aciByPeer signalAccount)

def masterKeys (s : Store) (accountId : String) : List String :=
  (s.backupContactRows accountId).filterMap contactMasterKey ++
    (s.backupConversationRows accountId).filterMap conversationMasterKey

/-! ### The projection collects the mentions -/

def record (contacts : Contacts) (m : Mention) : Contacts := (recordContact contacts m.identity m.name m.forms).2

def addKey (groups : SortedMap String Unit) (masterKey : String) : SortedMap String Unit :=
  groups.alter masterKey fun _ => ()

section Project

variable (aciByPeer : List (String × String)) (signalAccount : String)

/-- A turn gathers these people, this group and this chat. -/
def Gathers (people : List Mention) (group : Option String) (chat : Option PendingChat) (p p' : Projection) : Prop :=
  p'.contacts = people.foldl record p.contacts ∧ p'.groups = group.toList.foldl addKey p.groups ∧
    p'.chats = p.chats ++ chat.toList

theorem gathers_addContactRow (p : Projection) (row : ContactRow) :
    Gathers (contactMentions aciByPeer signalAccount row) (contactMasterKey row) none p
      (p.addContactRow aciByPeer signalAccount row) := by
  unfold Projection.addContactRow contactMentions contactMasterKey
  cases row.kind with
  | contact =>
    dsimp only
    unfold peerMention
    split
    · exact ⟨rfl, rfl, (append_nil _).symm⟩
    · unfold recordContact
      cases hkey : canonicalContactKey (peerIdentity row.peerKey aciByPeer) <;>
        exact ⟨by simp [record, recordContact, hkey, Projection.skipSkeleton], rfl, (append_nil _).symm⟩
  | group =>
    dsimp only
    cases parseGroupMasterKey row.peerKey with
    | none => exact ⟨rfl, rfl, (append_nil _).symm⟩
    | some =>
      refine ⟨?_, rfl, (append_nil _).symm⟩
      rw [Option.isSome_some, if_pos rfl, foldl_map, foldl_filter]
      rfl

theorem gathers_addConversation (p : Projection) (conversation : ConversationRow) :
    Gathers (conversationMentions aciByPeer signalAccount conversation) (conversationMasterKey conversation)
      (chatOf aciByPeer signalAccount conversation) p (p.addConversation aciByPeer signalAccount conversation) := by
  unfold Projection.addConversation conversationMentions conversationMasterKey chatOf
  cases conversation.kind with
  | direct =>
    dsimp only
    unfold peerMention
    split
    · exact ⟨rfl, rfl, rfl⟩
    · unfold recordContact
      cases hkey : canonicalContactKey (peerIdentity conversation.peerKey aciByPeer) with
      | none => exact ⟨by simp [record, recordContact, hkey, Projection.skipSkeleton], rfl, (append_nil _).symm⟩
      | some => exact ⟨by simp [record, recordContact, hkey, Projection.addChat], rfl, rfl⟩
  | group =>
    dsimp only
    cases parseGroupMasterKey conversation.peerKey with
    | none => exact ⟨rfl, rfl, (append_nil _).symm⟩
    | some => exact ⟨rfl, rfl, rfl⟩

theorem gathers_foldl {ρ : Type} {step : Projection → ρ → Projection} {people : ρ → List Mention}
    {group : ρ → Option String} {chat : ρ → Option PendingChat}
    (h : ∀ p row, Gathers (people row) (group row) (chat row) p (step p row)) (rows : List ρ) (p : Projection) :
    (rows.foldl step p).contacts = (rows.flatMap people).foldl record p.contacts ∧
      (rows.foldl step p).groups = (rows.filterMap group).foldl addKey p.groups ∧
      (rows.foldl step p).chats = p.chats ++ rows.filterMap chat := by
  induction rows generalizing p with
  | nil => exact ⟨rfl, rfl, (append_nil _).symm⟩
  | cons row rows ih =>
    obtain ⟨hcontacts, hgroups, hchats⟩ := h p row
    obtain ⟨hcontacts', hgroups', hchats'⟩ := ih (step p row)
    refine ⟨?_, ?_, ?_⟩
    · rw [foldl_cons, hcontacts', hcontacts, flatMap_cons, foldl_append]
    · rw [foldl_cons, hgroups', hgroups]
      cases hgroup : group row <;> simp [hgroup]
    · rw [foldl_cons, hchats', hchats]
      cases hchat : chat row <;> simp [hchat]

end Project

/-- The exported chats, in the order of their conversations. -/
def exportedChats (s : Store) (accountId signalAccount : String) : List PendingChat :=
  (s.backupConversationRows accountId).filterMap (chatOf (s.backupPeerIdentityRows accountId) signalAccount)

theorem project_eq (s : Store) (accountId signalAccount : String) :
    (project s accountId signalAccount).contacts = (mentions s accountId signalAccount).foldl record .empty ∧
      (project s accountId signalAccount).groups = (masterKeys s accountId).foldl addKey .empty ∧
      (project s accountId signalAccount).chats = exportedChats s accountId signalAccount := by
  obtain ⟨hcontacts, hgroups, hchats⟩ := gathers_foldl
    (gathers_addContactRow (s.backupPeerIdentityRows accountId) signalAccount) (s.backupContactRows accountId) .empty
  unfold project
  dsimp only
  obtain ⟨hcontacts', hgroups', hchats'⟩ := gathers_foldl
    (gathers_addConversation (s.backupPeerIdentityRows accountId) signalAccount) (s.backupConversationRows accountId)
    ((s.backupContactRows accountId).foldl
      (Projection.addContactRow (s.backupPeerIdentityRows accountId) signalAccount) .empty)
  refine ⟨?_, ?_, ?_⟩
  · rw [hcontacts', hcontacts, ← foldl_append]
    rfl
  · rw [hgroups', hgroups, ← foldl_append]
    rfl
  · rw [hchats', hchats]
    simp [exportedChats, Projection.empty]

/-! ### Contacts -/

/-- The mentions of one contact. -/
def own (ms : List Mention) (key : String) : List Mention := ms.filter fun m => m.key = some key

def ContactEntry.hear (entry : ContactEntry) (m : Mention) : ContactEntry := entry.merge m.identity m.name m.forms

/-- The contact its mentions make. -/
def contactOf (ms : List Mention) (key : String) : ContactEntry := (own ms key).foldl ContactEntry.hear .blank

variable {m : Mention} (ms : List Mention) (contacts : Contacts) (key : String) (entry : ContactEntry)

theorem find?_record (m : Mention) (key : String) : (record contacts m).find? key =
      if m.key = some key then some (((contacts.find? key).getD .blank).hear m) else contacts.find? key := by
  unfold record recordContact Mention.key
  cases canonicalContactKey m.identity with
  | none => simp
  | some key' =>
    dsimp only
    rw [SortedMap.find?_alter]
    by_cases h : key = key'
    · subst h
      simp [ContactEntry.hear]
    · rw [if_neg h, if_neg (by simpa using Ne.symm h)]

theorem find?_foldl_record : (ms.foldl record contacts).find? key = if own ms key = [] then contacts.find? key
      else some ((own ms key).foldl ContactEntry.hear ((contacts.find? key).getD .blank)) := by
  induction ms generalizing contacts with
  | nil => rfl
  | cons m ms ih =>
    rw [foldl_cons, ih, find?_record]
    unfold own
    by_cases h : m.key = some key
    · simp only [h, if_true, Option.getD_some, filter_cons, decide_true, foldl_cons]
      split
      · next hnil => simp [hnil]
      · simp
    · simp [h]

theorem aci_foldl_hear :
    (ms.foldl ContactEntry.hear entry).aci = entry.aci.or (ms.findSome? fun m => m.identity.aci) := by
  induction ms generalizing entry with
  | nil => simp
  | cons m ms ih =>
    rw [foldl_cons, ih]
    change (entry.aci.or m.identity.aci).or _ = _
    cases haci : m.identity.aci <;> simp [haci]

theorem e164_foldl_hear :
    (ms.foldl ContactEntry.hear entry).e164 = entry.e164.or (ms.findSome? fun m => m.identity.e164) := by
  induction ms generalizing entry with
  | nil => simp
  | cons m ms ih =>
    rw [foldl_cons, ih]
    change (entry.e164.or m.identity.e164).or _ = _
    cases he164 : m.identity.e164 <;> simp [he164]

/-! ### The two kinds of contact -/

variable (aci : String)

theorem aci_ne_e164 (e164 : String) : "aci:" ++ aci ≠ "e164:" ++ e164 := fun h => by
  have hchars := congrArg String.toList h
  simp at hchars

theorem key_eq_aci {aci : String} : m.key = some ("aci:" ++ aci) ↔ m.identity.aci = some aci := by
  unfold Mention.key canonicalContactKey
  cases m.identity.aci with
  | some => simp
  | none =>
    cases m.identity.e164 with
    | none => simp
    | some e164 => simpa using (aci_ne_e164 aci e164).symm

theorem key_eq_e164 {e164 : String} :
    m.key = some ("e164:" ++ e164) ↔ m.identity.aci = none ∧ m.identity.e164 = some e164 := by
  unfold Mention.key canonicalContactKey
  cases m.identity.aci with
  | some x => simpa using aci_ne_e164 x e164
  | none => simp

/-- Every contact is known by its ACI or by its number alone. -/
theorem of_key {key : String} (h : m.key = some key) : (∃ aci, key = "aci:" ++ aci ∧ m.identity.aci = some aci) ∨
      ∃ e164, key = "e164:" ++ e164 ∧ m.identity.aci = none ∧ m.identity.e164 = some e164 := by
  unfold Mention.key canonicalContactKey at h
  cases haci : m.identity.aci with
  | some aci =>
    rw [haci] at h
    exact .inl ⟨aci, (Option.some.inj h).symm, rfl⟩
  | none =>
    rw [haci] at h
    obtain ⟨e164, he164, rfl⟩ := Option.map_eq_some_iff.mp h
    exact .inr ⟨e164, rfl, rfl, he164⟩

/-- The spelling of the first number a person is mentioned under together with this ACI. -/
def firstE164 : Option String :=
  ms.findSome? fun m => if m.identity.aci = some aci then m.identity.e164 else none

/-- The first number a person is mentioned under together with this ACI. -/
def firstNumber : Option ℕ := (firstE164 ms aci).bind e164Number

theorem mem_own {ms : List Mention} {m : Mention} {key : String} : m ∈ own ms key ↔ m ∈ ms ∧ m.key = some key := by
  simp [own]

theorem contactOf_aci {ms : List Mention} {aci : String} (h : own ms ("aci:" ++ aci) ≠ []) :
    (contactOf ms ("aci:" ++ aci)).aci = some aci ∧ (contactOf ms ("aci:" ++ aci)).e164 = firstE164 ms aci := by
  unfold contactOf
  rw [aci_foldl_hear, e164_foldl_hear]
  refine ⟨?_, ?_⟩
  · obtain ⟨m, rest, hown⟩ := exists_cons_of_ne_nil h
    have hm : m ∈ own ms ("aci:" ++ aci) := hown ▸ mem_cons_self
    rw [hown, findSome?_cons, key_eq_aci.mp (mem_own.mp hm).2]
    rfl
  · unfold own firstE164
    rw [findSome?_filter]
    simp only [key_eq_aci, decide_eq_true_eq]
    rfl

/-- A contact known by its number alone has no ACI. -/
theorem contactOf_e164 {ms : List Mention} {e164 : String} (h : own ms ("e164:" ++ e164) ≠ []) :
    (contactOf ms ("e164:" ++ e164)).aci = none ∧ (contactOf ms ("e164:" ++ e164)).e164 = some e164 := by
  unfold contactOf
  rw [aci_foldl_hear, e164_foldl_hear]
  refine ⟨?_, ?_⟩
  · change (own ms ("e164:" ++ e164)).findSome? _ = none
    rw [findSome?_eq_none_iff]
    exact fun m hm => (key_eq_e164.mp (mem_own.mp hm).2).1
  · obtain ⟨m, rest, hown⟩ := exists_cons_of_ne_nil h
    have hm : m ∈ own ms ("e164:" ++ e164) := hown ▸ mem_cons_self
    rw [hown, findSome?_cons, (key_eq_e164.mp (mem_own.mp hm).2).2]
    rfl

/-! ### Lines -/

def people (s : Store) (accountId signalAccount : String) : Contacts :=
  (mentions s accountId signalAccount).foldl record .empty

def ArtifactLine.identityId : ArtifactLine → Option ℕ
  | .contact id _ _ _ => some id
  | .group id _ => some id
  | _ => none

/-- The line is of a contact with this ACI or this number. -/
def ArtifactLine.mentions (number : ℕ) : ArtifactLine → Bool
  | .contact _ aci' e164 _ => aci' = some aci || e164 = some number
  | _ => false

/-- The line is of a contact with this ACI and this number. -/
def ArtifactLine.carries (number : ℕ) : ArtifactLine → Bool
  | .contact _ aci' e164 _ => aci' = some aci && e164 = some number
  | _ => false

/-- The canonical form of an ACI: 32 hexadecimal digits in lower case. -/
def isCanonicalAci : Bool :=
  aci.toList.length = 32 && aci.toList.all fun c => c.isDigit || ('a' ≤ c && c ≤ 'f')

/-- What the line refers to is among those before it. -/
def Refers (before : List ArtifactLine) : ArtifactLine → Prop
  | .chat _ recipient => recipient = 0 ∨ (before.filter fun line => line.identityId = some recipient).length = 1
  | .chatItem chat author _ _ _ _ _ =>
    (∃ recipient, .chat chat recipient ∈ before) ∧
      ((author = 0 ∧ ∃ profileKey givenName, .account profileKey givenName ∈ before) ∨
        ∃ aci e164 givenName, .contact author aci e164 givenName ∈ before)
  | _ => True

/-- `peer_identities` binds the ACI to the number. -/
def Binds (s : Store) (accountId aci : String) (number : ℕ) : Prop :=
  ∃ r ∈ s.peerIdentities.rows, r.accountId = accountId ∧ parseAci r.aci = some aci ∧
    (parseE164 r.peerKey).bind e164Number = some number

/-- The artifact projects each person once, and its references are unambiguous. -/
structure Unambiguous (s : Store) (accountId : String) (lines : List ArtifactLine) : Prop where
  canonical : ∀ id aci e164 givenName, .contact id (some aci) e164 givenName ∈ lines → isCanonicalAci aci
  once : ∀ aci number, Binds s accountId aci number →
    (lines.filter (ArtifactLine.mentions aci number)).length ≤ 1 ∧
      ∀ line ∈ lines, line.mentions aci number → line.carries aci number
  ids : (lines.filterMap ArtifactLine.identityId).Nodup ∧ 0 ∉ lines.filterMap ArtifactLine.identityId
  refers : Along (fun before line => before ++ [line]) Refers [] lines

/-- The number is given to nobody alone, and comes first with an ACI iff this is the binding's. -/
def BoundOnce (number : ℕ) : Prop :=
  ∀ m ∈ ms, match m.identity.aci with
    | none => m.identity.e164.bind e164Number ≠ some number
    | some aci' => firstNumber ms aci' = some number ↔ aci' = aci

/-- The sources name no person or no group, and canonical ACIs only; and a binding's number is given to nobody alone,
and comes first with an ACI iff it is the binding's. -/
structure NamesPeopleOnce (s : Store) (accountId signalAccount : String) : Prop where
  apart : (∀ m ∈ mentions s accountId signalAccount, m.key = none) ∨ masterKeys s accountId = []
  canonical : ∀ m ∈ mentions s accountId signalAccount, ∀ aci ∈ m.identity.aci, isCanonicalAci aci
  bound : ∀ aci number, Binds s accountId aci number → BoundOnce (mentions s accountId signalAccount) aci number

section Lines

variable {s : Store} {accountId signalAccount : String}

theorem contacts_project : (project s accountId signalAccount).contacts = people s accountId signalAccount :=
  (project_eq s accountId signalAccount).1

theorem mem_people {key : String} {entry : ContactEntry} :
    (key, entry) ∈ (people s accountId signalAccount).entries ↔ own (mentions s accountId signalAccount) key ≠ [] ∧
        entry = contactOf (mentions s accountId signalAccount) key := by
  rw [← SortedMap.find?_eq_some, people, find?_foldl_record]
  change (if _ then none else some (contactOf _ key)) = _ ↔ _
  split
  · next h => simp [h]
  · next h => simp [h, eq_comm]

theorem contactOf_cases {ms : List Mention} {key : String} (h : own ms key ≠ []) :
    (∃ m ∈ ms, ∃ aci, m.identity.aci = some aci ∧ key = "aci:" ++ aci ∧ (contactOf ms key).aci = some aci ∧
        (contactOf ms key).e164.bind e164Number = firstNumber ms aci) ∨
      ∃ m ∈ ms, m.identity.aci = none ∧ (contactOf ms key).aci = none ∧
        (contactOf ms key).e164.bind e164Number = m.identity.e164.bind e164Number := by
  obtain ⟨m, hmem⟩ := exists_mem_of_ne_nil _ h
  obtain ⟨hm, hkey⟩ := mem_own.mp hmem
  rcases of_key hkey with ⟨aci, rfl, haci⟩ | ⟨e164, rfl, haci, he164⟩
  · obtain ⟨hcard, hnumber⟩ := contactOf_aci h
    exact .inl ⟨m, hm, aci, haci, rfl, hcard, by rw [hnumber]; rfl⟩
  · obtain ⟨hcard, hnumber⟩ := contactOf_e164 h
    exact .inr ⟨m, hm, haci, hcard, by rw [hnumber, he164]⟩

def placedLine (i : ℕ) (entry : ContactEntry) : ArtifactLine :=
  .contact (1 + i) entry.aci (entry.e164.bind e164Number) entry.givenName

def contactLines (s : Store) (accountId signalAccount : String) : List ArtifactLine :=
  (allocate (people s accountId signalAccount)).entries.map fun e => contactLine e.2

theorem mem_contactLines {line : ArtifactLine} : line ∈ contactLines s accountId signalAccount ↔
      ∃ i key, own (mentions s accountId signalAccount) key ≠ [] ∧ (people s accountId signalAccount).entries[i]? =
          some (key, contactOf (mentions s accountId signalAccount) key) ∧
        line = placedLine i (contactOf (mentions s accountId signalAccount) key) := by
  unfold contactLines
  rw [mem_map]
  constructor
  · rintro ⟨e, he, rfl⟩
    obtain ⟨i, a, hget, he⟩ := SortedMap.mem_mapIdx.mp he
    obtain ⟨hown, ha⟩ := mem_people.mp (mem_of_getElem? hget)
    exact ⟨i, e.1, hown, by rw [hget, ha], by rw [he, ← ha]; rfl⟩
  · rintro ⟨i, key, hown, hget, rfl⟩
    exact ⟨(key, _), SortedMap.mem_mapIdx.mpr ⟨i, _, hget, rfl⟩, rfl⟩

theorem exists_contactLine {key : String} (h : own (mentions s accountId signalAccount) key ≠ []) :
    ∃ i, placedLine i (contactOf (mentions s accountId signalAccount) key) ∈
      contactLines s accountId signalAccount := by
  obtain ⟨i, hi, hget⟩ := mem_iff_getElem.mp (mem_people.mpr ⟨h, rfl⟩)
  exact ⟨i, mem_contactLines.mpr ⟨i, key, h, by rw [getElem?_eq_getElem hi, hget], rfl⟩⟩

def ArtifactLine.isContact : ArtifactLine → Bool
  | .contact _ _ _ _ => true
  | _ => false

/-- The contacts' lines are those of the contacts that were collected. -/
def ListsPeople (s : Store) (accountId signalAccount : String) (lines : List ArtifactLine) : Prop :=
  lines.filter ArtifactLine.isContact = contactLines s accountId signalAccount

variable {lines : List ArtifactLine}

theorem ListsPeople.mem_iff (h : ListsPeople s accountId signalAccount lines) {id : ℕ}
    {aci givenName : Option String} {e164 : Option ℕ} : .contact id aci e164 givenName ∈ lines ↔
      .contact id aci e164 givenName ∈ contactLines s accountId signalAccount := by
  rw [← h, mem_filter]
  exact (and_iff_left rfl).symm

theorem canonical_iff (h : ListsPeople s accountId signalAccount lines) :
    (∀ id aci e164 givenName, .contact id (some aci) e164 givenName ∈ lines → isCanonicalAci aci) ↔
      ∀ m ∈ mentions s accountId signalAccount, ∀ aci ∈ m.identity.aci, isCanonicalAci aci := by
  constructor
  · intro hlines m hm aci haci
    have hown : own (mentions s accountId signalAccount) ("aci:" ++ aci) ≠ [] :=
      ne_nil_of_mem (mem_own.mpr ⟨hm, key_eq_aci.mpr haci⟩)
    obtain ⟨i, hline⟩ := exists_contactLine hown
    unfold placedLine at hline
    rw [(contactOf_aci hown).1] at hline
    exact hlines _ _ _ _ (h.mem_iff.mpr hline)
  · intro hmentions id aci e164 givenName hline
    obtain ⟨i, key, hown, -, heq⟩ := mem_contactLines.mp (h.mem_iff.mp hline)
    unfold placedLine at heq
    injection heq with _ haci _ _
    rcases contactOf_cases hown with ⟨m, hm, aci', hm', -, hcard, -⟩ | ⟨m, hm, -, hcard, -⟩
    · rw [hcard] at haci
      rw [Option.some.inj haci]
      exact hmentions m hm aci' hm'
    · rw [hcard] at haci
      cases haci

theorem placedLine_mentions (i : ℕ) (entry : ContactEntry) (aci : String) (number : ℕ) :
    (placedLine i entry).mentions aci number = true ↔
      entry.aci = some aci ∨ entry.e164.bind e164Number = some number := by
  simp [placedLine, ArtifactLine.mentions]

theorem placedLine_carries (i : ℕ) (entry : ContactEntry) (aci : String) (number : ℕ) :
    (placedLine i entry).carries aci number = true ↔
      entry.aci = some aci ∧ entry.e164.bind e164Number = some number := by
  simp [placedLine, ArtifactLine.carries]

theorem isContact_of_mentions {line : ArtifactLine} {aci : String} {number : ℕ}
    (h : line.mentions aci number = true) : line.isContact = true := by
  cases line <;> first | rfl | cases h

theorem carries_iff (h : ListsPeople s accountId signalAccount lines) (aci : String) (number : ℕ) :
    (∀ line ∈ lines, line.mentions aci number → line.carries aci number) ↔
      BoundOnce (mentions s accountId signalAccount) aci number := by
  constructor
  · intro hlines m hm
    -- every mention is of somebody with a line
    have hline : ∀ key, own (mentions s accountId signalAccount) key ≠ [] → ∀ entry,
        entry = contactOf (mentions s accountId signalAccount) key →
        entry.aci = some aci ∨ entry.e164.bind e164Number = some number →
        entry.aci = some aci ∧ entry.e164.bind e164Number = some number := by
      rintro key hown _ rfl hmention
      obtain ⟨i, hplaced⟩ := exists_contactLine hown
      have hmem := (mem_filter.mp (h.symm ▸ hplaced)).1
      exact (placedLine_carries i _ aci number).mp
        (hlines _ hmem ((placedLine_mentions i _ aci number).mpr hmention))
    cases haci : m.identity.aci with
    | some aci' =>
      have hown : own (mentions s accountId signalAccount) ("aci:" ++ aci') ≠ [] :=
        ne_nil_of_mem (mem_own.mpr ⟨hm, key_eq_aci.mpr haci⟩)
      obtain ⟨hcard, hnumber⟩ := contactOf_aci hown
      have hboth := hline _ hown _ rfl
      rw [hcard, hnumber] at hboth
      constructor
      · intro hfirst
        exact Option.some.inj (hboth (.inr hfirst)).1
      · rintro rfl
        exact (hboth (.inl rfl)).2
    | none =>
      dsimp only
      intro hnumber
      obtain ⟨e164, he164, -⟩ := Option.bind_eq_some_iff.mp hnumber
      have hown : own (mentions s accountId signalAccount) ("e164:" ++ e164) ≠ [] :=
        ne_nil_of_mem (mem_own.mpr ⟨hm, key_eq_e164.mpr ⟨haci, he164⟩⟩)
      obtain ⟨hcard, hcard'⟩ := contactOf_e164 hown
      have hboth := hline _ hown _ rfl
      rw [hcard, hcard', ← he164] at hboth
      cases (hboth (.inr hnumber)).1
  · intro hbound line hline hmention
    have hplaced : line ∈ contactLines s accountId signalAccount :=
      h ▸ mem_filter.mpr ⟨hline, isContact_of_mentions hmention⟩
    obtain ⟨i, key, hown, -, rfl⟩ := mem_contactLines.mp hplaced
    rw [placedLine_mentions] at hmention
    rw [placedLine_carries]
    rcases contactOf_cases hown with ⟨m, hm, aci', haci, -, hcard, hnumber⟩ | ⟨m, hm, haci, hcard, hnumber⟩
    · have hm := hbound m hm
      rw [haci] at hm
      rw [hcard, hnumber] at hmention ⊢
      rcases hmention with hsame | hfirst
      · exact ⟨hsame, hm.mpr (Option.some.inj hsame)⟩
      · exact ⟨congrArg some (hm.mp hfirst), hfirst⟩
    · have hm := hbound m hm
      rw [haci] at hm
      rw [hcard, hnumber] at hmention
      rcases hmention with hsame | hnumber'
      · cases hsame
      · exact absurd hnumber' hm

theorem once_of_carries (h : ListsPeople s accountId signalAccount lines) {aci : String} {number : ℕ}
    (hbound : BoundOnce (mentions s accountId signalAccount) aci number) :
    (lines.filter (ArtifactLine.mentions aci number)).length ≤ 1 := by
  have hlines : lines.filter (ArtifactLine.mentions aci number) =
      (contactLines s accountId signalAccount).filter (ArtifactLine.mentions aci number) := by
    rw [← h, filter_filter]
    refine filter_congr fun line _ => ?_
    cases hmention : line.mentions aci number with
    | false => rfl
    | true => rw [isContact_of_mentions hmention]; rfl
  rw [hlines, contactLines, filter_map, length_map]
  refine SortedMap.length_filter_le_one (k := "aci:" ++ aci) _ fun e he hmention => ?_
  obtain ⟨i, a, hget, he⟩ := SortedMap.mem_mapIdx.mp he
  obtain ⟨hown, ha⟩ := mem_people.mp (mem_of_getElem? hget)
  have hmention : (placedLine i (contactOf (mentions s accountId signalAccount) e.1)).mentions aci number = true := by
    rw [Function.comp_apply, he, ha] at hmention
    exact hmention
  rw [placedLine_mentions] at hmention
  rcases contactOf_cases hown with ⟨m, hm, aci', haci, hkey, hcard, hnumber⟩ | ⟨m, hm, haci, hcard, hnumber⟩
  · have hm := hbound m hm
    rw [haci] at hm
    rw [hcard, hnumber] at hmention
    rw [hkey]
    rcases hmention with hsame | hfirst
    · rw [Option.some.inj hsame]
    · rw [hm.mp hfirst]
  · have hm := hbound m hm
    rw [haci] at hm
    rw [hcard, hnumber] at hmention
    rcases hmention with hsame | hnumber'
    · cases hsame
    · exact absurd hnumber' hm

end Lines

/-! ### Ids and references -/

section References

variable {s : Store} {accountId signalAccount : String}

variable {α : Type} {sha256 : String → String} {p : Projection}

theorem mapIdx_eq_range (l : List α) : l.mapIdx (fun i _ => 1 + i) = List.range' 1 l.length := by
  refine ext_getElem (by simp) fun i _ _ => ?_
  simp

theorem identityIds (p : Projection) : (identityLines p).filterMap ArtifactLine.identityId =
    List.range' 1 p.contacts.entries.length ++ List.range' 1 p.groups.entries.length := by
  unfold identityLines
  rw [filterMap_append, filterMap_map, filterMap_map, ← mapIdx_eq_range, ← mapIdx_eq_range]
  congr 1
  · change (allocate p.contacts).entries.filterMap (some ∘ fun e => e.2.id) = _
    rw [filterMap_eq_map]
    exact ext_getElem (by simp [allocate, SortedMap.mapIdx]) fun i _ _ => by simp [allocate, SortedMap.mapIdx]
  · change (groupIds p.groups).entries.filterMap (some ∘ fun e => e.2) = _
    rw [filterMap_eq_map]
    exact ext_getElem (by simp [groupIds, SortedMap.mapIdx]) fun i _ _ => by simp [groupIds, SortedMap.mapIdx]

theorem nodup_ranges (n m : ℕ) : (List.range' 1 n ++ List.range' 1 m).Nodup ↔ n = 0 ∨ m = 0 := by
  rw [nodup_append]
  constructor
  · rintro ⟨-, -, hdisjoint⟩
    by_contra hnone
    rw [not_or] at hnone
    refine hdisjoint 1 ?_ 1 ?_ rfl <;> rw [mem_range'_1] <;> omega
  · rintro (rfl | rfl) <;> simp [nodup_range']

/-- No contact is collected when nobody is mentioned. -/
theorem length_people : (people s accountId signalAccount).entries.length = 0 ↔
    ∀ m ∈ mentions s accountId signalAccount, m.key = none := by
  rw [length_eq_zero_iff, eq_nil_iff_forall_not_mem]
  constructor
  · intro hnone m hm
    by_contra hkey
    obtain ⟨key, hkey⟩ := Option.ne_none_iff_exists'.mp hkey
    exact hnone (key, _) (mem_people.mpr ⟨ne_nil_of_mem (mem_own.mpr ⟨hm, hkey⟩), rfl⟩)
  · rintro hnone ⟨key, entry⟩ he
    obtain ⟨m, hm⟩ := exists_mem_of_ne_nil _ (mem_people.mp he).1
    obtain ⟨hm, hkey⟩ := mem_own.mp hm
    rw [hnone m hm] at hkey
    cases hkey

theorem find?_foldl_addKey (keys : List String) (groups : SortedMap String Unit) (key : String) :
    (keys.foldl addKey groups).find? key = if key ∈ keys then some () else groups.find? key := by
  induction keys generalizing groups with
  | nil => rfl
  | cons k keys ih =>
    rw [foldl_cons, ih, addKey, SortedMap.find?_alter]
    by_cases h : key ∈ keys <;> by_cases hk : key = k <;> simp [h, hk]

theorem length_groups : ((masterKeys s accountId).foldl addKey .empty).entries.length = 0 ↔
    masterKeys s accountId = [] := by
  rw [length_eq_zero_iff, eq_nil_iff_forall_not_mem, eq_nil_iff_forall_not_mem]
  have hmem : ∀ key, (key, ()) ∈ ((masterKeys s accountId).foldl addKey .empty).entries ↔
      key ∈ masterKeys s accountId := fun key => by
    rw [← SortedMap.find?_eq_some, find?_foldl_addKey]
    simp
  exact ⟨fun h key hkey => h (key, ()) ((hmem key).mpr hkey), fun h e he => h e.1 ((hmem e.1).mp he)⟩

theorem chatLine_ok {contacts : Contacts} {groups : SortedMap String ℕ} {chat : PendingChat} {index : ℕ}
    {line : ArtifactLine} (h : (match recipientId contacts groups chat.recipient with
      | some recipient => .ok (.chat (index + 1) recipient)
      | none => .error .missing : Except BuildError ArtifactLine) = .ok line) :
    ∃ recipient, recipientId contacts groups chat.recipient = some recipient ∧ line = .chat (index + 1) recipient := by
  split at h
  · next recipient hrecipient =>
    cases h
    exact ⟨recipient, hrecipient, rfl⟩
  · cases h

theorem mem_chatLines {contacts : Contacts} {groups : SortedMap String ℕ} {chats : List PendingChat}
    {lines : List ArtifactLine} (h : chatLines contacts groups chats = .ok lines) :
    (∀ line ∈ lines, ∃ index, ∃ chat ∈ chats, ∃ recipient, recipientId contacts groups chat.recipient = some recipient ∧
        line = .chat (index + 1) recipient) ∧
      ∀ chat index, (chat, index) ∈ chats.zipIdx → ∃ recipient, .chat (index + 1) recipient ∈ lines := by
  obtain ⟨hback, hforth⟩ := mem_of_mapM_ok h
  refine ⟨fun line hline => ?_, fun chat index hchat => ?_⟩
  · obtain ⟨⟨chat, index⟩, hchat, hline⟩ := hback line hline
    obtain ⟨recipient, hrecipient, rfl⟩ := chatLine_ok hline
    exact ⟨index, chat, fst_mem_of_mem_zipIdx hchat, recipient, hrecipient, rfl⟩
  · obtain ⟨line, hmem, hline⟩ := hforth (chat, index) hchat
    obtain ⟨recipient, -, rfl⟩ := chatLine_ok hline
    exact ⟨recipient, hmem⟩

theorem recipientId_mem {recipient : ChatRecipient} {id : ℕ}
    (h : recipientId (allocate p.contacts) (groupIds p.groups) recipient = some id) :
    id = 0 ∨ id ∈ (identityLines p).filterMap ArtifactLine.identityId := by
  unfold identityLines
  rw [filterMap_append, mem_append, mem_filterMap, mem_filterMap]
  cases recipient with
  | noteToSelf => exact .inl (Option.some.inj h).symm
  | contact =>
    obtain ⟨entry, hentry, rfl⟩ := Option.map_eq_some_iff.mp h
    exact .inr (.inl ⟨_, mem_map_of_mem (SortedMap.find?_eq_some.mp hentry), rfl⟩)
  | group =>
    exact .inr (.inr ⟨_, mem_map_of_mem (SortedMap.find?_eq_some.mp h), rfl⟩)

theorem length_filter_identityId (lines : List ArtifactLine) (id : ℕ) :
    (lines.filter fun line => line.identityId = some id).length =
      (lines.filterMap ArtifactLine.identityId).count id := by
  induction lines with
  | nil => rfl
  | cons line lines ih =>
    cases hid : line.identityId with
    | none => simp [hid, ih]
    | some id' => by_cases h : id' = id <;> simp [hid, ih, h]

theorem mem_of_lookupLast {pairs : List (String × α)} {key : String} {value : α}
    (h : lookupLast pairs key = some value) : (key, value) ∈ pairs := by
  obtain ⟨pair, hpair, rfl⟩ := Option.map_eq_some_iff.mp h
  have hkey : pair.1 = key := by simpa using find?_some hpair
  rw [← hkey]
  exact mem_reverse.mp (mem_of_find?_eq_some hpair)

theorem rowAuthor_mem {row : MessageRow} {author : ℕ}
    (h : rowAuthor (senderIds sha256 accountId (allocate p.contacts)) row = some author) :
    author = 0 ∨ ∃ aci e164 givenName, .contact author aci e164 givenName ∈ identityLines p := by
  unfold rowAuthor at h
  split at h
  · exact .inl (Option.some.inj h).symm
  · obtain ⟨e, he, hform⟩ := mem_flatMap.mp (mem_of_lookupLast h)
    obtain ⟨form, -, hkind⟩ := mem_flatMap.mp hform
    obtain ⟨kind, -, heq⟩ := mem_map.mp hkind
    rw [← (Prod.mk.inj heq).2]
    exact .inr ⟨_, _, _, mem_append_left _ (mem_map_of_mem he)⟩

theorem mem_itemLines {ids : List (String × ℕ)} {chats : List (PendingChat × ℕ)} {line : ArtifactLine}
    (h : line ∈ itemLines s accountId ids chats) :
    ∃ chat index row author, (chat, index) ∈ chats ∧ rowAuthor ids row = some author ∧
      line = itemLine (index + 1) author row := by
  obtain ⟨⟨chat, index⟩, hchat, hline⟩ := mem_flatMap.mp h
  obtain ⟨row, -, hrow⟩ := mem_filterMap.mp hline
  unfold rowLine at hrow
  split at hrow
  · obtain ⟨author, hauthor, heq⟩ := Option.map_eq_some_iff.mp hrow
    exact ⟨chat, index, row, author, hchat, hauthor, heq.symm⟩
  · cases hrow

theorem foldl_snoc (l s : List α) : l.foldl (fun before a => before ++ [a]) s = s ++ l := by
  induction l generalizing s with
  | nil => exact (append_nil s).symm
  | cons a l ih => rw [foldl_cons, ih, append_assoc, singleton_append]

/-- Lines that refer to nothing. -/
theorem along_of_forall {l s : List ArtifactLine} (h : ∀ line ∈ l, ∀ before, Refers before line) :
    Along (fun before line => before ++ [line]) Refers s l := by
  rw [Along.iff_splits]
  rintro before line after rfl
  exact h line (mem_append_right _ mem_cons_self) _

theorem mem_identityLines_cases {line : ArtifactLine} (h : line ∈ identityLines p) :
    (∃ id aci e164 givenName, line = .contact id aci e164 givenName) ∨ ∃ id masterKey, line = .group id masterKey := by
  rcases mem_append.mp h with h | h
  · obtain ⟨e, -, rfl⟩ := mem_map.mp h
    exact .inl ⟨_, _, _, _, rfl⟩
  · obtain ⟨e, -, rfl⟩ := mem_map.mp h
    exact .inr ⟨_, _, rfl⟩

theorem refers_of_nodup {profileKey : String} {givenName : Option String}
    {chats : List ArtifactLine} (hnodup : ((identityLines p).filterMap ArtifactLine.identityId).Nodup)
    (hchats : chatLines (allocate p.contacts) (groupIds p.groups) p.chats = .ok chats) :
    Along (fun before line => before ++ [line]) Refers []
      (.account profileKey givenName :: identityLines p ++ chats ++
        itemLines s accountId (senderIds sha256 accountId (allocate p.contacts)) p.chats.zipIdx ++
          [.allChatFolder]) := by
  obtain ⟨hback, hforth⟩ := mem_chatLines hchats
  rw [Along.append_iff, Along.append_iff, Along.append_iff, foldl_snoc, foldl_snoc, foldl_snoc, nil_append]
  refine ⟨⟨⟨along_of_forall fun line hline before => ?_, ?_⟩, ?_⟩, along_of_forall fun line hline before => ?_⟩
  · rcases mem_cons.mp hline with rfl | hline
    · trivial
    · rcases mem_identityLines_cases hline with ⟨_, _, _, _, rfl⟩ | ⟨_, _, rfl⟩ <;> trivial
  · rw [Along.iff_splits]
    intro before line after hsplit
    obtain ⟨index, chat, -, recipient, hrecipient, rfl⟩ :=
      hback line (hsplit ▸ mem_append_right _ mem_cons_self)
    rcases recipientId_mem hrecipient with rfl | hmem
    · exact .inl rfl
    · -- the chats before name nobody, so the one line is among contacts and groups
      right
      have hnone : before.filterMap ArtifactLine.identityId = [] := by
        rw [filterMap_eq_nil_iff]
        intro line hline
        obtain ⟨_, _, -, _, -, rfl⟩ := hback line (hsplit ▸ mem_append_left _ hline)
        rfl
      rw [length_filter_identityId, filterMap_append, hnone, append_nil, filterMap_cons]
      exact count_eq_one_of_mem hnodup hmem
  · rw [Along.iff_splits]
    intro before line after hsplit
    obtain ⟨chat, index, row, author, hchat, hauthor, rfl⟩ :=
      mem_itemLines (hsplit ▸ mem_append_right _ mem_cons_self)
    obtain ⟨recipient, hline⟩ := hforth chat index hchat
    refine ⟨⟨recipient, by simp [hline]⟩, ?_⟩
    rcases rowAuthor_mem hauthor with rfl | ⟨aci, e164, name, hcontact⟩
    · exact .inl ⟨rfl, profileKey, givenName, by simp⟩
    · exact .inr ⟨aci, e164, name, by simp [hcontact]⟩
  · rw [mem_singleton.mp hline]
    trivial

end References

/-- **When an artifact projects each person once**: the sources name people once. -/
theorem artifact_unambiguous_iff (encode : ArtifactLine → String) (sha256 : String → String)
    (accountDir : Option String) (s : Store) (accountId signalAccount : String) (lines : List ArtifactLine)
    (counters : SkipCounters)
    (h : buildArtifact encode sha256 accountDir s accountId signalAccount = .ok (lines, counters)) :
    Unambiguous s accountId lines ↔ NamesPeopleOnce s accountId signalAccount := by
  obtain ⟨profileKey, givenName, chats, hchats, hlines, -⟩ := buildArtifact_ok h
  obtain ⟨hcontacts, hgroups, -⟩ := project_eq s accountId signalAccount
  set p := project s accountId signalAccount
  set items := itemLines s accountId (senderIds sha256 accountId (allocate p.contacts)) p.chats.zipIdx with hitems
  have hother : ∀ line ∈ chats ++ items, line.isContact = false ∧ line.identityId = none := by
    intro line hline
    rcases mem_append.mp hline with hline | hline
    · obtain ⟨_, _, -, _, -, rfl⟩ := (mem_chatLines hchats).1 line hline
      exact ⟨rfl, rfl⟩
    · obtain ⟨_, _, _, _, -, -, rfl⟩ := mem_itemLines hline
      exact ⟨rfl, rfl⟩
  have hpeople : ListsPeople s accountId signalAccount lines := by
    have hnone : (chats ++ items).filter ArtifactLine.isContact = [] :=
      filter_eq_nil_iff.mpr fun line hline => by simp [(hother line hline).1]
    have hgroups : ((groupIds p.groups).entries.map fun e => ArtifactLine.group e.2 e.1).filter
        ArtifactLine.isContact = [] := filter_eq_nil_iff.mpr fun line hline => by
      obtain ⟨_, -, rfl⟩ := mem_map.mp hline
      exact Bool.false_ne_true
    have hall : ((allocate p.contacts).entries.map fun e => contactLine e.2).filter ArtifactLine.isContact =
        (allocate p.contacts).entries.map fun e => contactLine e.2 := filter_eq_self.mpr fun line hline => by
      obtain ⟨_, -, rfl⟩ := mem_map.mp hline
      rfl
    unfold ListsPeople contactLines
    rw [hlines, append_assoc _ chats, filter_append, filter_append, hnone, append_nil,
      filter_cons, identityLines, filter_append, hgroups, hall, ← contacts_project]
    exact (append_nil _).trans (append_nil _)
  have hids : lines.filterMap ArtifactLine.identityId = (identityLines p).filterMap ArtifactLine.identityId := by
    have hnone : (chats ++ items).filterMap ArtifactLine.identityId = [] :=
      filterMap_eq_nil_iff.mpr fun line hline => (hother line hline).2
    rw [hlines, append_assoc _ chats, filterMap_append, filterMap_append, hnone, append_nil]
    exact append_nil _
  have hapart : ((identityLines p).filterMap ArtifactLine.identityId).Nodup ↔
      (∀ m ∈ mentions s accountId signalAccount, m.key = none) ∨ masterKeys s accountId = [] := by
    rw [identityIds, nodup_ranges, hcontacts, hgroups, length_groups]
    exact or_congr_left length_people
  constructor
  · rintro ⟨hcanonical, honce, hnodup, -⟩
    refine ⟨hapart.mp (hids ▸ hnodup.1), (canonical_iff hpeople).mp hcanonical, fun aci number hbinds => ?_⟩
    exact (carries_iff hpeople aci number).mp (honce aci number hbinds).2
  · rintro ⟨hnames, hcanonical, hbound⟩
    refine ⟨(canonical_iff hpeople).mpr hcanonical, fun aci number hbinds => ?_, ?_, ?_⟩
    · exact ⟨once_of_carries hpeople (hbound aci number hbinds),
        (carries_iff hpeople aci number).mpr (hbound aci number hbinds)⟩
    · rw [hids]
      refine ⟨hapart.mpr hnames, ?_⟩
      rw [identityIds]
      simp
    · rw [hlines]
      exact refers_of_nodup (hapart.mpr hnames) hchats

def oneContact (conversations : Table ConversationRow.id) : Store :=
  { Store.empty with
    accounts := .single (.ofAddress "account" "+1" "+***1" "export")
    contacts := .single ⟨"c", "account", .contact, "+2", "Bo", none, 0⟩
    conversations }

def contactArtifact : List ArtifactLine :=
  [.account "kt-signal-connector/backup-export/account-profile-key\x00+1" none, .contact 1 none (some 2) (some "Bo"),
    .allChatFolder]

theorem contact_artifact_unambiguous :
    buildArtifact (fun _ => "") id (some "accounts/a") (oneContact .empty) "account" "+1" =
      .ok (contactArtifact, ⟨0, 0, 0, 0, 0, 0, 0, 0, 0⟩) ∧
    Unambiguous (oneContact .empty) "account" contactArtifact := by
  refine ⟨rfl, (artifact_unambiguous_iff (fun _ => "") id (some "accounts/a") (oneContact .empty) "account" "+1"
    contactArtifact ⟨0, 0, 0, 0, 0, 0, 0, 0, 0⟩ rfl).mpr ⟨.inr (by decide +kernel), by decide +kernel, ?_⟩⟩
  rintro aci number ⟨_, ⟨⟩, -⟩

/-- A contact and a group, both with the id 1. -/
theorem contact_and_group_share_id : ∃ lines counters, buildArtifact (fun _ => "") id (some "accounts/a")
      (oneContact ⟨[.ofPeer "g" "account" .group "AAAAAAAAAAAAAAAAAAAAAAAAAAAAAAAAAAAAAAAAAAA=" "Team"], by simp⟩)
      "account" "+1" = .ok (lines, counters) ∧ lines.filterMap ArtifactLine.identityId = [1, 1] :=
  ⟨_, _, rfl, by decide +kernel⟩

end Export

end SignalConnector
