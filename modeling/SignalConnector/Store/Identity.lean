/-
# Who a peer key names

The store knows one person under several spellings: a phone number with and
without its `+`, and the ACI the identity bridge (`peer_identities`) maps it
to. `peerIdentitySet` collects the spellings of one key, and a receipt's
sender qualifies for a conversation through that set: a direct conversation
by a common spelling, a group by its captured roster.
-/
import SignalConnector.Store.Schema

namespace SignalConnector

open List Table

/-- `alternate_phone_spelling`: `+`-prefixed against bare digits. -/
def alternatePhoneSpelling (peerKey : String) : Option String :=
  match peerKey.toList with
  | '+' :: c :: rest => some (String.ofList (c :: rest))
  | [] => none
  | chars => if chars.all Char.isDigit then some (String.ofList ('+' :: chars)) else none

/-- The byte test of `is_uuid_shaped` at one position. -/
def uuidByteOk (index : ℕ) (c : Char) : Bool :=
  if index = 8 ∨ index = 13 ∨ index = 18 ∨ index = 23 then c = '-'
  else c.isDigit || ('a' ≤ c && c ≤ 'f') || ('A' ≤ c && c ≤ 'F')

/-- `is_uuid_shaped`: the 8-4-4-4-12 hexadecimal grammar. -/
def isUuidShaped (value : String) : Bool :=
  value.toList.length = 36 && (value.toList.zipIdx.all fun (c, index) => uuidByteOk index c)

/-- `canonical_aci`: the dashed lowercase form of a dashed or bare ACI; `none` where a fifth dash makes it panic. -/
def canonicalAci (raw : String) : Option String :=
  let chars := raw.toList
  let hex :=
    if chars.length = 36 ∧ [8, 13, 18, 23].all fun index => chars[index]? = some '-' then
      chars.filter (· ≠ '-')
    else chars
  if hex.length = 32 ∧ hex.all fun c => c.isDigit || ('a' ≤ c && c ≤ 'f') || ('A' ≤ c && c ≤ 'F') then
    let lower := hex.map Char.toLower
    some ("-".intercalate [String.ofList (lower.take 8), String.ofList ((lower.drop 8).take 4),
      String.ofList ((lower.drop 12).take 4), String.ofList ((lower.drop 16).take 4),
      String.ofList (lower.drop 20)])
  else none

/-- The roster bound of a captured group (`MAX_GROUP_MEMBERS`). -/
def maxGroupMembers : ℕ := 1001

namespace Store

variable (s : Store)

variable (accountId recipient groupKey : String)

/-- One peer key for an ACI. -/
def upsertPeerIdentity (aci peerKey : String) : Store :=
  let row : PeerIdentityRow := ⟨accountId, aci, peerKey⟩
  { s with peerIdentities := (s.peerIdentities.delete fun r => r.key = row.key).insertOrIgnore row }

/-- `aci_for_peer_key_on`: the first ACI of the account's bridge with this peer key, in primary-key order. -/
def aciForPeerKeyOn (peerKey : String) : Option String :=
  let rows := s.peerIdentities.rows.filter fun r => r.accountId = accountId ∧ r.peerKey = peerKey
  ((rows.map PeerIdentityRow.aci).insertionSort (· ≤ ·)).head?

/-- `aci_for_phone_key_on`: the exact spelling first, the alternate one on a miss. -/
def aciForPhoneKeyOn (peerKey : String) : Option String :=
  match s.aciForPeerKeyOn accountId peerKey with
  | some aci => some aci
  | none => (alternatePhoneSpelling peerKey).bind (s.aciForPeerKeyOn accountId)

/-- `peer_identity_set`: every spelling the store knows one peer key under. -/
def peerIdentitySet (peerKey : String) : List String :=
  let spellings := peerKey :: (alternatePhoneSpelling peerKey).toList
  let acis := spellings.filterMap (s.aciForPhoneKeyOn accountId)
  let observed :=
    if isUuidShaped peerKey then
      (s.peerIdentities.rows.filter fun r => r.accountId = accountId ∧ r.aci = peerKey).map
        PeerIdentityRow.peerKey
    else []
  spellings ++ acis ++ observed

/-- `group_roster_carries`: an absent, malformed or empty roster accepts everyone. -/
def groupRosterCarries (recipientIdentities : List String) : Bool :=
  let contact := s.contacts.rows.find? fun r =>
    r.accountId = accountId ∧ r.kind = .group ∧ r.peerKey = groupKey
  match ((contact.bind ContactRow.extra).bind JsonCell.ok).bind ContactExtra.members with
  | none => true
  | some [] => true
  | some members =>
    (members.take maxGroupMembers).any fun entry =>
      (entry.id.toList ++ entry.uuid.toList).any fun value => recipientIdentities.contains value

/-- Does this conversation take a receipt from `recipient`? A direct one when the two identity sets
meet, any other by its roster. -/
def qualifies (c : ConversationRow) : Bool :=
  let recipientIdentities := s.peerIdentitySet accountId recipient
  if c.kind = .direct then
    (s.peerIdentitySet accountId c.peerKey).any fun value => recipientIdentities.contains value
  else s.groupRosterCarries accountId c.peerKey recipientIdentities

theorem mem_upsertPeerIdentity {s : Store} {accountId aci peerKey : String} {row : PeerIdentityRow} :
    row ∈ (s.upsertPeerIdentity accountId aci peerKey).peerIdentities.rows ↔
      row = ⟨accountId, aci, peerKey⟩ ∨ (row ∈ s.peerIdentities.rows ∧ row.key ≠ (accountId, aci)) := by
  have hfree : (s.peerIdentities.delete fun r => r.key = (accountId, aci)).find?
      (PeerIdentityRow.key ⟨accountId, aci, peerKey⟩) = none := by
    refine Table.find?_eq_none.mpr fun r hr => ?_
    exact of_decide_eq_false (mem_delete.mp hr).2
  change row ∈ ((s.peerIdentities.delete fun r => r.key = (accountId, aci)).insertOrIgnore
    ⟨accountId, aci, peerKey⟩).rows ↔ _
  rw [rows_insertOrIgnore_of_free hfree, mem_append, mem_singleton, mem_delete,
    decide_eq_false_iff_not]
  exact or_comm

/-- The spellings of a key are read off the bridge, in whatever order its rows are. -/
theorem peerIdentitySet_of_mem_iff {s s' : Store}
    (h : ∀ row, row ∈ s'.peerIdentities.rows ↔ row ∈ s.peerIdentities.rows) (accountId peerKey : String) :
    s'.peerIdentitySet accountId peerKey = s.peerIdentitySet accountId peerKey := by
  have hnodup : ∀ s : Store, s.peerIdentities.rows.Nodup := fun s => .of_map _ s.peerIdentities.nodup
  have hperm : s'.peerIdentities.rows.Perm s.peerIdentities.rows :=
    (perm_ext_iff_of_nodup (hnodup s') (hnodup s)).mpr h
  have hexact : s'.aciForPeerKeyOn accountId = s.aciForPeerKeyOn accountId := by
    funext key
    unfold aciForPeerKeyOn
    refine congrArg List.head? (List.Perm.eq_of_sortedLE (sortedLE_insertionSort) (sortedLE_insertionSort) ?_)
    exact (perm_insertionSort _ _).trans
      (((hperm.filter _).map _).trans (perm_insertionSort _ _).symm)
  have hphone : s'.aciForPhoneKeyOn accountId = s.aciForPhoneKeyOn accountId := by
    funext key
    simp only [aciForPhoneKeyOn, hexact]
  have hobserved : ∀ aci, (s'.peerIdentities.rows.filter fun r => r.accountId = accountId ∧ r.aci = aci) =
      s.peerIdentities.rows.filter fun r => r.accountId = accountId ∧ r.aci = aci := by
    intro aci
    have hkey : ∀ s : Store, (s.peerIdentities.rows.filter fun r => r.accountId = accountId ∧ r.aci = aci) =
        (s.peerIdentities.find? (accountId, aci)).toList := fun s => by
      rw [← filter_key]
      simp only [PeerIdentityRow.key, Prod.mk.injEq]
    rw [hkey, hkey, find?_of_mem_iff h]
  simp only [peerIdentitySet, hphone, hobserved]

/-- Who qualifies is read off the bridge and the contacts alone. -/
theorem qualifies_congr {s s' : Store} (hb : s'.peerIdentities = s.peerIdentities)
    (hc : s'.contacts = s.contacts) (accountId recipient : String) (c : ConversationRow) :
    s'.qualifies accountId recipient c = s.qualifies accountId recipient c := by
  have hexact : s'.aciForPeerKeyOn accountId = s.aciForPeerKeyOn accountId := by
    funext key
    simp only [aciForPeerKeyOn, hb]
  have hphone : s'.aciForPhoneKeyOn accountId = s.aciForPhoneKeyOn accountId := by
    funext key
    simp only [aciForPhoneKeyOn, hexact]
  have hset : ∀ key, s'.peerIdentitySet accountId key = s.peerIdentitySet accountId key := by
    intro key
    simp only [peerIdentitySet, hphone, hb]
  simp only [qualifies, groupRosterCarries, hset, hc]

end Store

end SignalConnector
