/-
# Folding two conversations of one person

A person known by number and by ACI may have two direct conversations. Two
operations fold the number's row, the shell, into the ACI's, the canonical one:
`normalize_memo_identity` for the account's own notes and `merge_peer_identity`
for a peer. Both move the shell's messages and reactions unless the canonical
conversation already holds them, merge the state columns, and delete the shell.
They part ways at the badges: the first takes the larger of the two counts, the
second counts the moved rows past the canonical watermark.
-/
import SignalConnector.Store.Conversations
import SignalConnector.Store.Identity
import SignalConnector.Store.Messages

namespace SignalConnector

/-- `CASE WHEN a IS NULL THEN b WHEN b IS NULL THEN a ELSE f(a, b) END`. -/
def combine {α : Type} (f : α → α → α) : Option α → Option α → Option α
  | none, b => b
  | some a, none => some a
  | some a, some b => some (f a b)

/-- The preview of the later of two endings, the canonical one's on a tie. -/
def laterPreview (canonical shell : ConversationRow) : Option String :=
  match canonical.lastMessageAt, shell.lastMessageAt with
  | _, none => canonical.lastMessagePreview
  | none, some _ => shell.lastMessagePreview
  | some at_, some shellAt => if at_ < shellAt then shell.lastMessagePreview else canonical.lastMessagePreview

/-- The number as the wire spells it. -/
def wireNumber (shellKey : String) : String :=
  let chars := shellKey.toList
  if chars.head? ≠ some '+' ∧ chars ≠ [] ∧ chars.all Char.isDigit then "+" ++ shellKey else shellKey

namespace MessageRow

/-- The two rows are one Signal message. -/
def sameIdentity (m other : MessageRow) : Bool :=
  other.accountId = m.accountId ∧ other.direction = m.direction ∧ other.sentAt = m.sentAt ∧
    other.senderId = m.senderId

end MessageRow

/-- What a fold did. -/
structure PeerIdentityMergeOutcome where
  canonicalSummary : ConversationRow
  obsoleteConversationId : String
  mergeNotice : Option MessageRow
  deriving DecidableEq

namespace Store

variable (sha256 : String → String)

/-! ### Moving rows -/

variable (s : Store)

variable (canonicalId accountId : String) (shell canonical : ConversationRow)

/-- The canonical conversation does not hold this row's message yet. -/
def unmatched (m : MessageRow) : Bool :=
  !s.messages.rows.any fun other => other.conversationId = canonicalId && m.sameIdentity other

/-- The shell's rows move, and those that would be duplicates are deleted. -/
def moveMessages (shellId canonicalId : String) : Store :=
  let moved := s.updateMessages (fun m => m.conversationId = shellId && s.unmatched canonicalId m)
    (fun m => { m with conversationId := canonicalId }) fun _ => rfl
  moved.deleteMessages fun m => m.conversationId = shellId

/-- The canonical conversation does not hold this reaction yet. -/
def eventUnmatched (e : MessageEventRow) : Bool :=
  !s.messageEvents.rows.any fun other => other.conversationId = canonicalId ∧
    other.accountId = e.accountId ∧ other.targetTimestamp = e.targetTimestamp ∧ other.actorId = e.actorId

/-- The shell's reactions move, and those that would be duplicates are deleted. -/
def moveEvents (shellId canonicalId : String) : Store :=
  let moved := s.messageEvents.update (fun e => e.conversationId = shellId && s.eventUnmatched canonicalId e)
    (fun e => { e with conversationId := canonicalId }) fun _ => rfl
  { s with messageEvents := moved.delete fun e => e.conversationId = shellId }

/-- `DELETE FROM conversations WHERE id`. -/
def deleteShell (shellId : String) : Store :=
  { s with conversations := s.conversations.delete fun c => c.id = shellId }

/-! ### The account's own notes -/

/-- The canonical row of the fold, created if it is not there. -/
def ensureCanonical (aci title : String) : Except StoreError (ConversationRow × Store) :=
  match s.conversationByPeer accountId .direct aci with
  | some canonical => .ok (canonical, s)
  | none =>
    let row := ConversationRow.ofPeer (stableHashId sha256 [accountId, "direct", aci]) accountId .direct aci
      title
    (s.insertConversation row).map fun s => (row, s)

/-- The state `UPDATE` of the memo fold: the larger badge, not the sum. -/
def memoState (c : ConversationRow) : ConversationRow :=
  { c with
    unreadCount := max c.unreadCount shell.unreadCount
    unreadMentions := max c.unreadMentions shell.unreadMentions
    muted := c.muted || shell.muted
    pinned := c.pinned || shell.pinned
    expireTimerSeconds := c.expireTimerSeconds.or shell.expireTimerSeconds
    mrrFactors := c.mrrFactors.or shell.mrrFactors
    lastMessageAt := combine max c.lastMessageAt shell.lastMessageAt
    lastMessagePreview := laterPreview c shell }

theorem id_memoState (c : ConversationRow) : (memoState shell c).id = c.id := rfl

/-- The ACI and the shell of the account's notes, when there is something to fold. -/
def memoShell (account : AccountRow) : Option (String × ConversationRow) :=
  (account.aci.filter (· ≠ account.signalAccount)).bind fun aci =>
    (s.conversationByPeer account.id .direct account.signalAccount).map fun shell => (aci, shell)

/-- The memo fold of a shell into its canonical row. -/
def foldMemo (canonical : ConversationRow) : Store :=
  let titled := if titleShouldUpgrade canonical.title shell.title then
      s.updateConversations (fun c => c.id = canonical.id) (fun c => { c with title := shell.title })
        fun _ => rfl
    else s
  let moved := (titled.moveMessages shell.id canonical.id).moveEvents shell.id canonical.id
  let merged := moved.updateConversations (fun c => c.id = canonical.id) (memoState shell)
    (id_memoState shell)
  merged.deleteShell shell.id

/-- `normalize_memo_identity`: the refreshed canonical row if a shell was folded. -/
def normalizeMemoIdentity (accountId : String) : Except StoreError (Option ConversationRow × Store) :=
  match s.accounts.find? accountId with
  | none => .error .accountNotFound
  | some account =>
    match s.memoShell account with
    | none => .ok (none, s)
    | some (aci, shell) => do
      let (canonical, s) ← s.ensureCanonical sha256 accountId aci shell.title
      let s := s.foldMemo shell canonical
      .ok (s.conversations.find? canonical.id, s)

/-! ### A peer -/

/-- The shell of a number under either spelling, the exact one first. -/
def shellOf (numberPeerKey : String) : Option ConversationRow :=
  (s.conversationByPeer accountId .direct numberPeerKey).or
    ((alternatePhoneSpelling numberPeerKey).bind (s.conversationByPeer accountId .direct))

/-- The conversation's incoming rows past its read watermark. -/
def unreadRows (c : ConversationRow) : List MessageRow :=
  s.messages.rows.filter fun m =>
    m.conversationId = c.id ∧ m.accountId = c.accountId ∧ m.direction = .incoming ∧
      c.readWatermarkMs.getD 0 < m.sentAt

/-- The state `UPDATE` of the peer fold: the badges are recounted over the moved rows. -/
def peerState (c : ConversationRow) : ConversationRow :=
  { c with
    muted := c.muted || shell.muted
    pinned := c.pinned || shell.pinned
    expireTimerSeconds := combine min c.expireTimerSeconds shell.expireTimerSeconds
    mrrFactors := c.mrrFactors.or shell.mrrFactors
    conversationColor := c.conversationColor.or shell.conversationColor
    customColor := c.customColor.or shell.customColor
    customColorId := c.customColorId.or shell.customColorId
    lastMessageAt := combine max c.lastMessageAt shell.lastMessageAt
    lastMessagePreview := laterPreview c shell
    unreadCount := (s.unreadRows c).length
    unreadMentions := (s.unreadRows c).countP MessageRow.mentionsSelf }

theorem id_peerState (c : ConversationRow) : (s.peerState shell c).id = c.id := rfl

/-- The notice of a merge, a system row that is born read. -/
def mergeNotice (shell : ConversationRow) (now : ℕ) : MessageRow :=
  let number := wireNumber shell.peerKey
  let text := "已合并与 " ++ number ++ " 的会话记录"
  let id := stableHashId sha256 ["signal-message-v2", accountId, canonical.id, "threadMerge", toString now]
  { MessageRow.ofText id accountId canonical.id .system canonical.id (asI64 now) text .system with
    receivedAt := some (asI64 now)
    storedAt := some (asI64 now)
    bodyBytes := some (min text.utf8ByteSize u32Max : ℕ)
    rich := some (.parsed { NormalizedRich.default with
      conversationMerge := some ⟨some shell.title, some number⟩ }) }

/-- The two rows of a peer, when there is something to fold. -/
def peerPair (account : AccountRow) (aci numberPeerKey : String) : Option (ConversationRow × ConversationRow) :=
  if numberPeerKey = account.signalAccount then none
  else
    match s.shellOf account.id numberPeerKey, s.conversationByPeer account.id .direct aci with
    | some shell, some canonical => if shell.id = canonical.id then none else some (shell, canonical)
    | _, _ => none

theorem peerPair_spec {s : Store} {account : AccountRow} {aci numberPeerKey : String}
    {shell canonical : ConversationRow} (h : s.peerPair account aci numberPeerKey = some (shell, canonical)) :
    shell ∈ s.conversations.rows ∧ canonical ∈ s.conversations.rows ∧ shell.id ≠ canonical.id ∧
      shell.accountId = canonical.accountId := by
  unfold peerPair at h
  split at h
  · cases h
  split at h
  · next shell' canonical' hshell hcanonical =>
    split at h
    · cases h
    · next hne =>
      cases h
      obtain ⟨hmem, haccount, -⟩ := conversationByPeer_spec hcanonical
      have hspec : shell ∈ s.conversations.rows ∧ shell.accountId = account.id := by
        rcases Option.or_eq_some_iff.mp hshell with h | ⟨-, h⟩
        · exact ⟨(conversationByPeer_spec h).1, (conversationByPeer_spec h).2.1⟩
        · obtain ⟨key, -, h⟩ := Option.bind_eq_some_iff.mp h
          exact ⟨(conversationByPeer_spec h).1, (conversationByPeer_spec h).2.1⟩
      exact ⟨hspec.1, hmem, hne, hspec.2.trans haccount.symm⟩
  · cases h

theorem peerPair_shell {s : Store} {account : AccountRow} {aci numberPeerKey : String}
    {shell canonical : ConversationRow} (h : s.peerPair account aci numberPeerKey = some (shell, canonical)) :
    shell.accountId = account.id ∧ shell.kind = .direct ∧
      (shell.peerKey = numberPeerKey ∨ alternatePhoneSpelling numberPeerKey = some shell.peerKey) := by
  unfold peerPair at h
  split at h
  · cases h
  split at h
  · next shell' canonical' hshell hcanonical =>
    split at h
    · cases h
    · cases h
      rcases Option.or_eq_some_iff.mp hshell with h | ⟨-, h⟩
      · obtain ⟨-, haccount, hkey⟩ := conversationByPeer_spec h
        exact ⟨haccount, conversationByPeer_kind h, .inl hkey⟩
      · obtain ⟨key, halternate, h⟩ := Option.bind_eq_some_iff.mp h
        obtain ⟨-, haccount, hkey⟩ := conversationByPeer_spec h
        exact ⟨haccount, conversationByPeer_kind h, .inr (hkey ▸ halternate)⟩
  · cases h

/-- The notice the fold mints: both conversations held messages and the shell's title is useful. -/
def noticeOf (now : ℕ) : Option MessageRow :=
  let held : String → Bool := fun id => s.messages.rows.any fun m => m.conversationId = id
  if held shell.id && held canonical.id && titleIsUseful shell.title then
    some (mergeNotice sha256 accountId canonical shell now)
  else none

/-- The peer fold of a shell into its canonical row. -/
def foldPeer (notice : Option MessageRow) : Store :=
  let moved := (s.moveMessages shell.id canonical.id).moveEvents shell.id canonical.id
  let merged := moved.updateConversations (fun c => c.id = canonical.id) (moved.peerState shell)
    (moved.id_peerState shell)
  let noticed := match notice with
    | some row => { merged with messages := merged.messages.insertOrIgnore row }
    | none => merged
  noticed.deleteShell shell.id

/-- `merge_peer_identity`: what was folded, if anything. -/
def mergePeerIdentity (aci numberPeerKey : String) (now : ℕ) :
    Except StoreError (Option PeerIdentityMergeOutcome × Store) :=
  if aci = numberPeerKey then .ok (none, s)
  else
    match s.accounts.find? accountId with
    | none => .error .accountNotFound
    | some account =>
      match s.peerPair account aci numberPeerKey with
      | none => .ok (none, s)
      | some (shell, canonical) =>
        let notice := s.noticeOf sha256 accountId shell canonical now
        let s := s.foldPeer shell canonical notice
        match s.conversations.find? canonical.id with
        | some summary => .ok (some ⟨summary, shell.id, notice⟩, s)
        | none => .error .accountNotFound

end Store

end SignalConnector
