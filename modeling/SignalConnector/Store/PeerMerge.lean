/-
# The peer fold over the whole database

`merge_peer_identity` is one transaction over more than the store's tables.
Besides messages and reactions the shell's pins, drafts and avatar move to a
canonical conversation that has none, and a snapshot of the shell goes into the
ledger `conversation_identity_merges`, under the account and the number the
call was made with. What is left of the shell's pins and drafts goes with its
row.
-/
import SignalConnector.Lib.Fold
import SignalConnector.Store.Database
import SignalConnector.Store.IdentityFold

namespace SignalConnector

/-- What the ledger keeps of a folded shell. -/
structure ShellSnapshot where
  id : String
  peerKey : String
  canonicalAci : String
  title : String
  unreadCount : ℕ
  unreadMentions : ℕ
  muted : Bool
  pinned : Bool
  expireTimerSeconds : Option ℤ
  mrrFactors : Option String
  lastMessageAt : Option ℤ
  lastMessagePreview : Option String
  droppedMessageIds : List String
  droppedEventIds : List String
  noticeMinted : Bool
  deriving DecidableEq

namespace Store

/-- The snapshot of a shell, with the rows the fold will drop. -/
def shellSnapshot (s : Store) (shell canonical : ConversationRow) (aci : String) (noticeMinted : Bool) :
    ShellSnapshot where
  id := shell.id
  peerKey := shell.peerKey
  canonicalAci := aci
  title := shell.title
  unreadCount := shell.unreadCount
  unreadMentions := shell.unreadMentions
  muted := shell.muted
  pinned := shell.pinned
  expireTimerSeconds := shell.expireTimerSeconds
  mrrFactors := shell.mrrFactors
  lastMessageAt := shell.lastMessageAt
  lastMessagePreview := shell.lastMessagePreview
  droppedMessageIds := (s.messages.rows.filter fun m =>
    m.conversationId = shell.id && !s.unmatched canonical.id m).map MessageRow.id
  droppedEventIds := (s.messageEvents.rows.filter fun e =>
    e.conversationId = shell.id && !s.eventUnmatched canonical.id e).map MessageEventRow.id
  noticeMinted := noticeMinted

end Store

namespace Database

/-- A constraint that fails rolls the transaction back. -/
def constrained {α : Type} : Option α → Except StoreError α
  | some a => .ok a
  | none => .error .unavailable

/-- The shell's pins move to a conversation of the account that has none; the rest goes with the shell. -/
def movePins (db : Database) (shellId canonicalId : String) : Except StoreError (Table ConversationPinRow.key) :=
  let free : ConversationPinRow → Bool := fun r =>
    !db.conversationPins.rows.any fun other => other.accountId = r.accountId ∧ other.conversationId = canonicalId
  (constrained (db.conversationPins.rekey (fun r => r.conversationId = shellId && free r)
    fun r => { r with conversationId := canonicalId })).map fun pins => pins.delete fun r => r.conversationId = shellId

/-- The shell's draft moves to a conversation that has none; else it goes with the shell. -/
def moveDrafts (db : Database) (shellId canonicalId : String) :
    Except StoreError (Table ConversationDraftRow.key) :=
  let free : ConversationDraftRow → Bool := fun r =>
    !db.conversationDrafts.rows.any fun other => other.accountId = r.accountId ∧ other.conversationId = canonicalId
  (constrained (db.conversationDrafts.rekey (fun r => r.conversationId = shellId && free r)
    fun r => { r with conversationId := canonicalId })).map fun drafts =>
      drafts.delete fun r => r.conversationId = shellId

/-- The shell's avatar moves to a conversation that has none; else it stays. -/
def moveAvatars (db : Database) (shellId canonicalId : String) : Except StoreError (Table AvatarRow.conversationId) :=
  let free : AvatarRow → Bool := fun r =>
    !db.conversationAvatars.rows.any fun other => other.accountId = r.accountId ∧ other.conversationId = canonicalId
  constrained (db.conversationAvatars.rekey (fun r => r.conversationId = shellId && free r)
    fun r => { r with conversationId := canonicalId })

/-- The snapshot is filed under the account and the number; one that is there is written over. -/
def fileSnapshot (db : Database) (row : IdentityMergeRow) : Table IdentityMergeRow.key :=
  (db.conversationIdentityMerges.delete fun r => r.key = row.key).insertOrIgnore row

section

variable (sha256 : String → String) (snapshotJson : ShellSnapshot → String)

/-- The fold of a shell into its canonical row. -/
def foldPeer (db : Database) (accountId aci numberPeerKey : String) (shell canonical : ConversationRow) (now : ℕ) :
    Except StoreError (Option PeerIdentityMergeOutcome × Database) := do
  let notice := db.store.noticeOf sha256 accountId shell canonical now
  let store := db.store.foldPeer shell canonical notice
  let conversationPins ← db.movePins shell.id canonical.id
  let conversationDrafts ← db.moveDrafts shell.id canonical.id
  let conversationAvatars ← db.moveAvatars shell.id canonical.id
  let snapshot := db.store.shellSnapshot shell canonical aci notice.isSome
  let conversationIdentityMerges := db.fileSnapshot
    ⟨accountId, numberPeerKey, aci, snapshotJson snapshot, asI64 now⟩
  match store.conversations.find? canonical.id with
  | some summary => .ok (some ⟨summary, shell.id, notice⟩,
      { db with store, conversationPins, conversationDrafts, conversationAvatars, conversationIdentityMerges })
  | none => .error .accountNotFound

/-- `merge_peer_identity`; the text of a snapshot is a parameter. -/
def mergePeerIdentity (db : Database) (accountId aci numberPeerKey : String) (now : ℕ) :
    Except StoreError (Option PeerIdentityMergeOutcome × Database) :=
  if aci = numberPeerKey then .ok (none, db)
  else
    match db.store.accounts.find? accountId with
    | none => .error .accountNotFound
    | some account =>
      match db.store.peerPair account aci numberPeerKey with
      | none => .ok (none, db)
      | some (shell, canonical) => db.foldPeer sha256 snapshotJson accountId aci numberPeerKey shell canonical now

variable {sha256 snapshotJson} {db db' : Database} {accountId aci numberPeerKey : String} {now : ℕ}

end

end Database

end SignalConnector
