/-
# Accounts and conversations

The rows everything else hangs from: `upsert_account_from_signal_with_id`,
`ensure_conversation` with its redirect of the account's own number to its
ACI, the titles, the read watermark, and `clear_conversation_unread`, the
one operation that takes a badge back without deleting a message. Ids are
SHA-256 digests of NUL-separated parts; the digest is a parameter.
-/
import SignalConnector.Store.Schema

namespace SignalConnector

/-! ### Ids and titles -/

/-- `stable_hash_id`: the digest of the parts with a NUL between them. -/
def stableHashId (sha256 : String → String) (parts : List String) : String :=
  sha256 ("\x00".intercalate parts)

/-- The ends of an address. -/
def maskAddress (raw : String) : String :=
  let chars := raw.toList
  if chars.length ≤ 6 then String.ofList (List.replicate (max chars.length 1) '*')
  else String.ofList (chars.take 3) ++ "***" ++ String.ofList (chars.drop (chars.length - 2))

/-- Unicode's `White_Space`, which Rust's `trim` goes by. -/
def isWhiteSpace (c : Char) : Bool :=
  let n := c.toNat
  (9 ≤ n && n ≤ 13) || n = 32 || n = 0x85 || n = 0xA0 || n = 0x1680 || (0x2000 ≤ n && n ≤ 0x200A) ||
    n = 0x2028 || n = 0x2029 || n = 0x202F || n = 0x205F || n = 0x3000

/-- Rust's `str::trim`. -/
def trim (text : String) : String :=
  String.ofList ((text.toList.dropWhile isWhiteSpace).reverse.dropWhile isWhiteSpace).reverse

/-- The text holds the mark `mask_address` leaves. -/
def isMasked (text : String) : Bool := ['*', '*', '*'] <:+: text.toList

/-- No placeholder and no mask. -/
def titleIsUseful (title : String) : Bool :=
  let trimmed := trim title
  trimmed ≠ "" && !isMasked trimmed && trimmed ≠ "group" && trimmed ≠ "contact"

/-- `title_should_upgrade`: real display names win over masked peer ids and placeholders. -/
def titleShouldUpgrade (current candidate : String) : Bool :=
  let cand := trim candidate
  let cur := trim current
  if cand = "" then false
  else if cur = "" ∨ cur = "group" ∨ cur = "contact" then true
  else isMasked cur && !isMasked cand

theorem titleShouldUpgrade_self {title : String} (h : titleShouldUpgrade title title = true) :
    trim title = "group" ∨ trim title = "contact" := by
  unfold titleShouldUpgrade at h
  dsimp only at h
  split at h
  · cases h
  next hne =>
  split at h
  · next hplace => exact hplace.resolve_left hne
  · simp at h

/-- The columns a conversation is found by. -/
def ConversationRow.key (c : ConversationRow) : String × String × ConversationKind × String :=
  (c.id, c.accountId, c.kind, c.peerKey)

/-- The keys, in order. -/
abbrev Store.conversationKeys (s : Store) : List (String × String × ConversationKind × String) :=
  s.conversations.rows.map ConversationRow.key

namespace Store

variable (sha256 : String → String)

/-! ### Accounts -/

variable (s : Store)

/-- By number. -/
def accountBySignal (signalAccount : String) : Option AccountRow :=
  s.accounts.rows.find? fun a => a.signalAccount = signalAccount

variable (signalAccount accountId conversationId : String) (kind : ConversationKind)

/-- `upsert_account_from_signal_with_id`: a known number keeps its row and is ready again; a new one takes `id`. -/
def upsertAccountFromSignalWithId (linkedAt : Option ℕ)
    (proxyGroup id : String) : Except StoreError (AccountRow × Store) :=
  let linkedAt := linkedAt.map asI64
  match s.accountBySignal signalAccount with
  | some existing =>
    let revive : AccountRow → AccountRow := fun a =>
      { a with state := "ready", linkedAt := a.linkedAt.or linkedAt }
    let accounts := s.accounts.update (fun a => a.id = existing.id) revive fun _ => rfl
    .ok (revive existing, { s with accounts })
  | none =>
    let row := { AccountRow.ofAddress id signalAccount (maskAddress signalAccount) proxyGroup with linkedAt }
    if (s.accounts.find? id).isSome then .error .unavailable
    else .ok (row, { s with accounts := s.accounts.insertOrIgnore row })

/-- `mark_account_device_unlinked`: a logout in flight keeps its state. -/
def markAccountDeviceUnlinked (signalAccount : String) : Option AccountRow × Store :=
  match s.accountBySignal signalAccount with
  | none => (none, s)
  | some existing =>
    let accounts := s.accounts.update (fun a => a.id = existing.id ∧ a.state ≠ "unlinking")
      (fun a => { a with state := "device_unlinked" }) fun _ => rfl
    (accounts.find? existing.id, { s with accounts })

/-- `set_account_aci`: an absent identity writes nothing. -/
def setAccountAci (aci : Option String) : Store :=
  match aci with
  | none => s
  | some aci =>
    { s with
      accounts := s.accounts.update (fun a => a.id = accountId) (fun a => { a with aci := some aci })
        fun _ => rfl }

/-- `list_accounts_in_group`, in the order of the table: its callers only ask whether it is one account. -/
def listAccountsInGroup (proxyGroup : String) : List AccountRow :=
  s.accounts.rows.filter fun a => a.proxyGroup = proxyGroup

/-! ### Conversations -/

/-- The account's own only. -/
def conversationById (conversationId : String) : Option ConversationRow :=
  (s.conversations.find? conversationId).filter fun c => c.accountId = accountId

/-- The account's conversation of a key. -/
def conversationByPeer (peerKey : String) : Option ConversationRow :=
  s.conversations.rows.find? fun c => c.accountId = accountId ∧ c.kind = kind ∧ c.peerKey = peerKey

theorem conversationByPeer_spec {s : Store} {accountId peerKey : String} {kind : ConversationKind} {c : ConversationRow}
    (h : s.conversationByPeer accountId kind peerKey = some c) :
    c ∈ s.conversations.rows ∧ c.accountId = accountId ∧ c.peerKey = peerKey := by
  have hc := List.find?_some h
  rw [decide_eq_true_eq] at hc
  exact ⟨List.mem_of_find?_eq_some h, hc.1, hc.2.2⟩

theorem conversationByPeer_kind {s : Store} {accountId peerKey : String} {kind : ConversationKind}
    {c : ConversationRow} (h : s.conversationByPeer accountId kind peerKey = some c) : c.kind = kind := by
  have hc := List.find?_some h
  rw [decide_eq_true_eq] at hc
  exact hc.2.1

theorem conversationByPeer_congr {s t : Store} (h : t.conversationKeys = s.conversationKeys)
    (accountId : String) (kind : ConversationKind) (peerKey : String) :
    (t.conversationByPeer accountId kind peerKey).map ConversationRow.key =
      (s.conversationByPeer accountId kind peerKey).map ConversationRow.key := by
  have hkeys : ∀ s : Store, (s.conversationByPeer accountId kind peerKey).map ConversationRow.key =
      s.conversationKeys.find? fun key => key.2 = (accountId, kind, peerKey) := fun s => by
    unfold conversationByPeer
    rw [List.find?_map]
    congr 2
    funext c
    simp [ConversationRow.key]
  rw [hkeys, hkeys, h]

/-- `UPDATE conversations SET f WHERE p`. -/
def updateConversations (p : ConversationRow → Bool) (f : ConversationRow → ConversationRow)
    (hf : ∀ c, (f c).id = c.id) : Store :=
  { s with conversations := s.conversations.update p f hf }

/-- `set_conversation_title`: a blank title writes nothing. -/
def setConversationTitle (title : String) : Store :=
  let trimmed := trim title
  if trimmed = "" then s
  else s.updateConversations (fun c => c.id = conversationId) (fun c => { c with title := trimmed })
    fun _ => rfl

/-- Written if it differs. -/
def setConversationExpireTimer (seconds : ℕ) : Store :=
  s.updateConversations
    (fun c => c.id = conversationId ∧ c.accountId = accountId ∧ c.expireTimerSeconds ≠ some (asI64 seconds))
    (fun c => { c with expireTimerSeconds := some (asI64 seconds) }) fun _ => rfl

/-- The newest token stays. -/
def storeConversationReportToken (token : String) : Store :=
  s.updateConversations (fun c => c.id = conversationId ∧ c.accountId = accountId)
    (fun c => { c with reportSpamToken := some token }) fun _ => rfl

/-- The key a conversation is stored under: the account's own number redirects to its ACI. -/
def memoRedirect (peerKey : String) : String :=
  match kind, s.accounts.find? accountId with
  | .direct, some a =>
    if peerKey = a.signalAccount then (a.aci.filter (· ≠ peerKey)).getD peerKey else peerKey
  | _, _ => peerKey

/-- The `INSERT` of a conversation: its id and its account's peer key must be free, its account there. -/
def insertConversation (row : ConversationRow) : Except StoreError Store :=
  if (s.conversations.find? row.id).isSome ∨ (s.conversationByPeer row.accountId row.kind row.peerKey).isSome ∨
      (s.accounts.find? row.accountId).isNone then .error .unavailable
  else .ok { s with conversations := s.conversations.insertOrIgnore row }

/-- Found, its title upgraded; or made. -/
def ensureConversation (peerKey title : String) : Except StoreError (ConversationRow × Store) :=
  let peerKey := s.memoRedirect accountId kind peerKey
  match s.conversationByPeer accountId kind peerKey with
  | some existing =>
    if titleShouldUpgrade existing.title title then .ok (existing, s.setConversationTitle existing.id title)
    else .ok (existing, s)
  | none =>
    let row := ConversationRow.ofPeer (stableHashId sha256 [accountId, kind.asStr, peerKey]) accountId kind
      peerKey title
    (s.insertConversation row).map fun s => (row, s)

/-! ### Read state -/

/-- The fold every watermark write makes: the position never goes back. -/
def raiseWatermark (sentAt : ℤ) : Store :=
  s.updateConversations (fun c => c.id = conversationId ∧ c.accountId = accountId)
    (fun c => { c with readWatermarkMs := some (max (c.readWatermarkMs.getD 0) sentAt) }) fun _ => rfl

/-- `advance_read_watermark_to`: a stamp past `i64::MAX` does not convert. -/
def advanceReadWatermarkTo (sentAt : ℕ) : Except StoreError Store :=
  if sentAt < 2 ^ 63 then .ok (s.raiseWatermark accountId conversationId sentAt) else .error .unavailable

/-- `advance_read_watermark_latest`: to the newest incoming row, if there is one. -/
def advanceReadWatermarkLatest (conversationId : String) : Store :=
  let incoming := s.messages.rows.filter fun m =>
    m.accountId = accountId ∧ m.conversationId = conversationId ∧ m.direction = .incoming
  match (incoming.map MessageRow.sentAt).max?.filter (0 < ·) with
  | some newest => s.raiseWatermark accountId conversationId newest
  | none => s

/-- `clear_conversation_unread`: a conversation without unread messages is left as it is. -/
def clearConversationUnread (conversationId : String) : Except StoreError (ℕ × Store) :=
  let named : ConversationRow → Bool := fun c => c.id = conversationId ∧ c.accountId = accountId
  let prev := ((s.conversations.rows.find? named).map ConversationRow.unreadCount).getD 0
  if prev = 0 then .ok (0, s)
  else if (s.accounts.find? accountId).isNone then .error .accountNotFound
  else
    .ok (prev % 2 ^ 32,
      { s with
        conversations := s.conversations.update named
          (fun c => { c with unreadCount := 0, unreadMentions := 0 }) fun _ => rfl
        accounts := s.accounts.update (fun a => a.id = accountId)
          (fun a => { a with unreadCount := a.unreadCount - prev }) fun _ => rfl })

end Store

end SignalConnector
