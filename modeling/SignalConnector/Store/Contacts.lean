/-
# Contacts syncs

A contacts sync caches its entries and then goes over the conversations they
name: a group, and the account's own chat, gets a row if it has none; a
conversation that is there, found by the entry's id or over the identity bridge,
may gain a title. The pull (`upsert_synced_contacts`) and the passive batch
(`upsert_passive_contacts`) run the same two loops; the pull also moves the
sync's mark, and the passive batch sorts its answer.
-/
import SignalConnector.Store.AccountDelete
import SignalConnector.Store.Conversations
import SignalConnector.Store.Identity

namespace SignalConnector

/-- An entry of a sync. -/
structure SyncedContact where
  kind : String
  peerKey : String
  title : String
  extra : Option (JsonCell ContactExtra)
  deriving DecidableEq

/-- `CHECK(kind IN ('contact', 'group'))`. -/
def ContactKind.ofStr? (kind : String) : Option ContactKind :=
  if kind = "contact" then some .contact else if kind = "group" then some .group else none

/-- The kind of conversation the entry names; a kind the contacts table refuses does not get here. -/
def SyncedContact.conversationKind (entry : SyncedContact) : ConversationKind :=
  if entry.kind = "contact" then .direct else .group

/-- The own number stands for its ACI. -/
def skeletonConversationPeerKey (memo : Option (String × Option String)) (kind : ConversationKind)
    (peerKey : String) : String :=
  match memo with
  | some (signalAccount, some aci) =>
    if kind = .direct ∧ peerKey = signalAccount ∧ aci ≠ peerKey then aci else peerKey
  | _ => peerKey

namespace Store

variable (sha256 : String → String)

/-- The `INSERT … ON CONFLICT(account_id, kind, peer_key) DO UPDATE` of one entry. -/
def upsertContact (accountId : String) (syncedAt : ℕ) (s : Store) (entry : SyncedContact) :
    Except StoreError Store :=
  match ContactKind.ofStr? entry.kind with
  | none => .error .unavailable
  | some kind =>
    let id := stableHashId sha256 [accountId, entry.kind, entry.peerKey]
    let same : ContactRow → Bool := fun r => r.accountId = accountId ∧ r.kind = kind ∧ r.peerKey = entry.peerKey
    if s.contacts.rows.any same then
      .ok { s with
        contacts := s.contacts.update same
          (fun r => { r with title := entry.title, extra := entry.extra, syncedAt := asI64 syncedAt }) fun _ => rfl }
    else if (s.contacts.find? id).isSome ∨ (s.accounts.find? accountId).isNone then .error .unavailable
    else .ok { s with
      contacts := s.contacts.insertOrIgnore
        ⟨id, accountId, kind, entry.peerKey, entry.title, entry.extra, asI64 syncedAt⟩ }

variable (s : Store)

/-- The own number and ACI. -/
def memoSkeletonIdentity (accountId : String) : Option (String × Option String) :=
  (s.accounts.find? accountId).map fun a => (a.signalAccount, a.aci)

variable (accountId : String)

/-- The key of the conversation the entry names. -/
def skeletonPeerKey (entry : SyncedContact) : String :=
  skeletonConversationPeerKey (s.memoSkeletonIdentity accountId) entry.conversationKind entry.peerKey

/-- The id of the conversation the entry names. -/
def skeletonId (entry : SyncedContact) : String :=
  stableHashId sha256 [accountId, entry.conversationKind.asStr, s.skeletonPeerKey accountId entry]

/-- The entry names a group, or the account's own chat. -/
def structural (entry : SyncedContact) : Bool :=
  entry.conversationKind ≠ .direct || (s.memoSkeletonIdentity accountId).any fun memo =>
    s.skeletonPeerKey accountId entry = memo.1 || memo.2 = some (s.skeletonPeerKey accountId entry)

/-- The direct conversation with the peer under another key, the first in order. -/
def bridgedConversation (peerKey : String) : Option ConversationRow :=
  let identities := (s.peerIdentitySet accountId peerKey).dedup.insertionSort (· ≤ ·)
  (identities.filter (· ≠ peerKey)).findSome? (s.conversationByPeer accountId .direct)

/-- The entry's `INSERT … ON CONFLICT(id) DO NOTHING` is made, and writes a row. -/
def creates (entry : SyncedContact) : Bool :=
  s.structural accountId entry && (s.conversations.find? (s.skeletonId sha256 accountId entry)).isNone

/-- The conversation the entry's title is offered to. -/
def offered (entry : SyncedContact) : Option ConversationRow :=
  match s.conversations.find? (s.skeletonId sha256 accountId entry) with
  | some existing => some existing
  | none =>
    if entry.conversationKind = .direct then s.bridgedConversation accountId (s.skeletonPeerKey accountId entry)
    else none

/-- The row an entry of a group or of the account itself stands for. -/
def skeletonRow (entry : SyncedContact) : ConversationRow :=
  .ofPeer (s.skeletonId sha256 accountId entry) accountId entry.conversationKind
    (s.skeletonPeerKey accountId entry) entry.title

/-- `UPDATE conversations SET title = … WHERE id = …`. -/
def retitle (id title : String) : Store :=
  s.updateConversations (fun c => c.id = id) (fun c => { c with title }) fun _ => rfl

def syncEntry (acc : List String × Store) (entry : SyncedContact) : Except StoreError (List String × Store) :=
  let (changed, s) := acc
  if s.creates sha256 accountId entry then
    let row := s.skeletonRow sha256 accountId entry
    (s.insertConversation row).map fun s => (changed ++ [row.id], s)
  else
    match s.offered sha256 accountId entry with
    | some row =>
      if titleShouldUpgrade row.title entry.title then .ok (changed ++ [row.id], s.retitle row.id entry.title)
      else .ok (changed, s)
    | none => .ok (changed, s)

/-- The two loops every contacts sync runs. -/
def syncContacts (entries : List SyncedContact) (syncedAt : ℕ) : Except StoreError (List String × Store) := do
  let s ← entries.foldlM (upsertContact sha256 accountId syncedAt) s
  entries.foldlM (syncEntry sha256 accountId) ([], s)

end Store

namespace Database

variable (sha256 : String → String)

variable (db : Database) (accountId : String) (entries : List SyncedContact)

/-- A pull, which stamps the time. -/
def upsertSyncedContacts (syncedAt : ℕ) : Except StoreError (List String × Database) :=
  (db.store.syncContacts sha256 accountId entries syncedAt).map fun (changed, store) =>
    (changed, { db with
      store
      metaKeys := (db.metaKeys.delete fun r => r.key = contactsSyncedAtKey accountId).insertOrIgnore
        ⟨contactsSyncedAtKey accountId, toString syncedAt⟩ })

/-- A batch received unasked. -/
def upsertPassiveContacts (syncedAt : ℕ) : Except StoreError (List String × Database) :=
  (db.store.syncContacts sha256 accountId entries syncedAt).map fun (changed, store) =>
    (changed.dedup.insertionSort (· ≤ ·), { db with store })

end Database

end SignalConnector
