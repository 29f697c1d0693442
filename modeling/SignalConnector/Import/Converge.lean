/-
# Live copies and imported copies of one message

A message may reach the store several times: as a live envelope, whose author
is spelt by number or by ACI, and as a row of an imported archive, whose
author's record has a number, an ACI or both. Each copy is stored under an
author key of its own spelling and looks, before it lands, for a row under some
of the other spellings. The copies converge on one row when each of them opens
no conversation, folds none and looks for the spelling the row is stored under.
-/
import SignalConnector.Lib.Run
import SignalConnector.Receive.Frame
import SignalConnector.Receive.Retry
import SignalConnector.Store.Database
import SignalConnector.Store.History

namespace SignalConnector

open List Store Table

/-! ### The author of an imported row -/

def senderNameChars : ℕ := 64

/-- The spelling the archive names. -/
def recipientSource (recipient : StageRecipientRow) (signalAccount : String) : Option String :=
  if recipient.kind = "self" then some signalAccount else recipient.e164.or recipient.aci

/-- What the importer makes of a row's author. -/
structure ImportSender where
  senderId : String
  altSenderIds : List String
  senderName : Option String
  authorSource : Option String
  authorAci : Option String
  deriving DecidableEq

/-- The author of an archive row that is no notice; without an author that can be named the row is skipped. -/
def importSender (sha256 : String → String) (accountId signalAccount : String) (kind : ConversationKind)
    (direction : Direction) (author : Option StageRecipientRow) : Option ImportSender :=
  if direction = .outgoing then some ⟨accountId, [], none, none, none⟩
  else
    author.bind fun author => (recipientSource author signalAccount).map fun source =>
      let hash : String → String := fun peer => stableHashId sha256 [accountId, kind.asStr, peer]
      let name := (some (trim author.name)).filter (· ≠ "") |>.map (truncateUtf8Bytes · senderNameChars)
      match author.aci with
      | some aci => ⟨aci, (author.e164.map hash).toList ++ [hash aci], name, some source, some aci⟩
      | none => ⟨hash source, [], name, some source, none⟩

/-! ### Copies -/

/-- A person, known by number, by ACI or by both. -/
structure Person where
  number : Option String
  aci : Option String
  deriving DecidableEq

/-- A message by its Signal identity; its conversation is known by `keys`: a group's id, or a peer's number and ACI. -/
structure SignalMessage where
  accountId : String
  kind : ConversationKind
  keys : List String
  direction : Direction
  sentAt : ℕ
  author : Person
  deriving DecidableEq

namespace SignalMessage

variable (sha256 : String → String) (M : SignalMessage)

/-- The author keys of a row of the message: the account's own, or those of the author's spellings and of the
conversation. -/
def senderIds : List String :=
  if M.direction = .outgoing then [M.accountId, "self"]
  else
    let spellings := M.author.number.toList ++ M.author.aci.toList
    M.author.aci.toList ++
      (spellings ++ M.keys).map fun source => stableHashId sha256 [M.accountId, M.kind.asStr, source]

/-- The conversation is one of the message's. -/
def inConversation (s : Store) (id : String) : Bool :=
  s.conversationKeys.any fun key =>
    key.1 = id ∧ key.2.1 = M.accountId ∧ key.2.2.1 = M.kind ∧ key.2.2.2 ∈ M.keys

def isRow (s : Store) (m : RowIdentity) : Bool :=
  m.accountId = M.accountId ∧ M.inConversation s m.conversationId ∧ m.direction = M.direction ∧
    m.sentAt = asI64 M.sentAt ∧ m.senderId ∈ M.senderIds sha256

/-- The row a copy of the message is stored as. -/
def row (conversationId senderId : String) : RowIdentity where
  id := signalMessageId sha256 M.accountId conversationId M.direction M.sentAt senderId
  accountId := M.accountId
  conversationId
  direction := M.direction
  sentAt := asI64 M.sentAt
  senderId

end SignalMessage

/-- The rows of the message. -/
def Store.copies (s : Store) (sha256 : String → String) (M : SignalMessage) : List RowIdentity :=
  s.spoken.filter (M.isRow sha256 s)

inductive Copy
  | received (env : IngestEnv) (r : NormalizedReceive)
  | imported (row : HistoryImportInsert) (storedAt : ℕ)

namespace Copy

/-- The service after the copy; where a call fails, with what was written before it. -/
def step (s : Service) : Copy → Service
  | .received env r => ((Ingest.ingestReceive env r).run s).2
  | .imported row storedAt =>
    match s.store.insertHistoryRow storedAt row with
    | .ok store => { s with store }
    | .error _ => s

variable (sha256 : String → String) (M : SignalMessage)

/-- The author key the copy would be stored under. -/
def senderId : Copy → String
  | .received env r => r.senderId env.sha256 M.direction M.accountId M.kind ((r.conversationOf.map (·.2.1)).getD "")
  | .imported row _ => row.record.senderId

/-- The author keys the copy looks for. -/
def candidates : Copy → List String
  | .received env r =>
    let legacy := if M.direction = .outgoing then "self" else
      stableHashId env.sha256 [M.accountId, M.kind.asStr, (r.conversationOf.map (·.2.1)).getD ""]
    let aci := if M.direction = .incoming then (r.sourceUuid.filter (· ≠ "")).toList else []
    (received env r).senderId M :: legacy :: aci
  | .imported row _ => row.record.senderId :: row.altSenderIds.take 2

/-- The conversation the copy is looked for in. -/
def conversation (s : Store) : Copy → Option String
  | .received _ r => r.conversationOf.bind fun belongs => (s.conversationByPeer M.accountId belongs.1
      (s.memoRedirect M.accountId belongs.1 belongs.2.1)).map ConversationRow.id
  | .imported row _ => some row.record.conversationId

/-- An envelope that is a copy: for the account, under a key of the conversation and a spelling of the author, and
let through by the stories gate. -/
structure IsReceived (env : IngestEnv) (r : NormalizedReceive) (s : Store) : Prop where
  direction : r.direction = some M.direction
  sentAt : r.timestamp = some M.sentAt
  account : ∃ signalAccount account, Ingest.receivingAccountIn env r s = some signalAccount ∧
    s.accountBySignal signalAccount = some account ∧ account.id = M.accountId
  ungated : (r.storyReply && env.storiesDisabled M.accountId) = false
  belongs : ∃ key ∈ M.keys, ∃ title, r.conversationOf = some (M.kind, key, title)

/-- What makes a row of a batch a copy of the message: the importer's author and id, in a conversation of the
message. -/
structure IsImported (row : HistoryImportInsert) (s : Store) : Prop where
  accountId : row.record.accountId = M.accountId
  direction : row.record.direction = M.direction
  sentAt : row.record.sentAt = M.sentAt
  sender : ∃ signalAccount author, (importSender sha256 M.accountId signalAccount M.kind M.direction author).map
    (fun sender => (sender.senderId, sender.altSenderIds)) = some (row.record.senderId, row.altSenderIds)
  id : row.record.id = (M.row sha256 row.record.conversationId row.record.senderId).id
  account : (s.accounts.find? M.accountId).isSome
  belongs : M.inConversation s row.record.conversationId

/-- The arrival is a copy of the message, and names its author by keys of the author. -/
def IsOf (s : Service) (copy : Copy) : Prop :=
  (match copy with
    | .received env r => env.sha256 = sha256 ∧ IsReceived M env r s.store
    | .imported row _ => IsImported sha256 M row s.store) ∧
  ∀ key ∈ copy.candidates M, key ∈ M.senderIds sha256

/-! ### Convergence -/

/-- The row is as it was, or its empty attachment list has been filled. -/
def Filled (m m' : MessageRow) : Prop :=
  m' = m ∨ attachmentsJsonIsEmpty m.attachments ∧ ∃ attachments attachmentLocators,
    m' = { m with attachments, attachmentLocators }

/-- An imported copy changes no row that was there but for its empty attachment list. -/
def LeavesRows (s : Service) : Copy → Prop
  | .received _ _ => True
  | .imported row storedAt =>
    ∀ m ∈ s.store.messages.rows, ∃ m' ∈ ((imported row storedAt).step s).store.messages.rows, Filled m m'

/-- There is one row of the message, and an imported copy has changed none that was there. -/
def Converges (s : Service) (copy : Copy) : Prop :=
  ((copy.step s).store.copies sha256 M).length = 1 ∧ copy.LeavesRows s

/-- The copy looks for the author key the row of the message has, in the conversation it is in; or its own id is
taken. -/
def Found (s : Store) (id : String) (copy : Copy) : Prop :=
  (∃ m ∈ s.copies sha256 M, m.conversationId = id ∧ m.senderId ∈ copy.candidates M) ∨
    (s.messages.find? (M.row sha256 id (copy.senderId M)).id).isSome
  deriving Decidable

/-- The envelope folds no two conversations. -/
def Unfolded (s : Store) : Copy → Prop
  | .received _ r => ∀ aci ∈ r.sourceUuid, ∀ account ∈ s.accounts.find? M.accountId,
      s.peerPair account aci ((r.conversationOf.map (·.2.1)).getD "") = none
  | .imported _ _ => True

/-- The copy resolves to a conversation of the message, folds none, and finds the row there, or its id free. -/
def Covered (s : Service) (copy : Copy) : Prop :=
  copy.Unfolded M s.store ∧ ∃ id ∈ copy.conversation M s.store, M.inConversation s.store id ∧
    if s.store.copies sha256 M = [] then s.store.messages.find? (M.row sha256 id (copy.senderId M)).id = none
    else copy.Found sha256 M s.store id

end Copy

/-! ### The rows of the message -/

namespace Store

variable {s t : Store} {sha256 : String → String} {M : SignalMessage} {conversationId : String}

/-- A look-up in a conversation of the message under keys of its author finds rows of the message. -/
theorem map_identity_filter (hspoken : M.direction ≠ .system) (hin : M.inConversation s conversationId)
    (p : String → Bool) (hp : ∀ key, p key = true → key ∈ M.senderIds sha256) :
    (s.messages.rows.filter fun m => m.accountId = M.accountId ∧ m.conversationId = conversationId ∧
        m.direction = M.direction ∧ m.sentAt = asI64 M.sentAt ∧ p m.senderId).map MessageRow.identity =
      (s.copies sha256 M).filter fun m => m.conversationId = conversationId ∧ p m.senderId := by
  unfold copies spoken
  rw [filter_filter, filter_map, filter_filter]
  refine congrArg (List.map _) (filter_congr fun m _ => Bool.eq_iff_iff.mpr ?_)
  simp only [Function.comp_apply, Bool.and_eq_true, decide_eq_true_eq]
  constructor
  · rintro ⟨haccount, rfl, hdirection, hsentAt, hkey⟩
    exact ⟨⟨⟨rfl, hkey⟩, decide_eq_true ⟨haccount, hin, hdirection, hsentAt, hp _ hkey⟩⟩,
      hdirection ▸ hspoken⟩
  · rintro ⟨⟨⟨hconversation, hkey⟩, hrow⟩, -⟩
    obtain ⟨haccount, -, hdirection, hsentAt, -⟩ := of_decide_eq_true hrow
    exact ⟨haccount, hconversation, hdirection, hsentAt, hkey⟩

/-- With one row of the message at most the look-up misses only what is not there. -/
theorem messageBySignalIdentity_eq_none_iff (hspoken : M.direction ≠ .system)
    (hin : M.inConversation s conversationId)
    (hone : (s.copies sha256 M).length ≤ 1) {a b : String} (ha : a ∈ M.senderIds sha256)
    (hb : b ∈ M.senderIds sha256) :
    s.messageBySignalIdentity M.accountId conversationId M.direction M.sentAt a b = none ↔
      ∀ m ∈ s.copies sha256 M, m.conversationId = conversationId → m.senderId ≠ a ∧ m.senderId ≠ b := by
  have hkeys : ∀ key, decide (key = a ∨ key = b) = true → key ∈ M.senderIds sha256 := by
    simp only [decide_eq_true_eq]
    rintro key (rfl | rfl)
    · exact ha
    · exact hb
  have hrows := map_identity_filter hspoken hin (fun key => decide (key = a ∨ key = b)) hkeys
  simp only [decide_eq_true_eq] at hrows
  unfold messageBySignalIdentity
  dsimp only
  set rows := s.messages.rows.filter fun m => m.accountId = M.accountId ∧ m.conversationId = conversationId ∧
    m.direction = M.direction ∧ m.sentAt = asI64 M.sentAt ∧ (m.senderId = a ∨ m.senderId = b)
  have hlength : rows.length ≤ 1 := by
    rw [← length_map MessageRow.identity, hrows]
    exact (length_filter_le _ _).trans hone
  have hnil : rows = [] ↔ ∀ m ∈ s.copies sha256 M, m.conversationId = conversationId →
      m.senderId ≠ a ∧ m.senderId ≠ b := by
    rw [← map_eq_nil_iff, hrows, filter_eq_nil_iff]
    simp only [decide_eq_true_eq, not_and, not_or]
  rw [← hnil]
  rcases rows with _ | ⟨m, _ | ⟨m', rows⟩⟩
  · exact iff_of_true rfl rfl
  · exact iff_of_false nofun nofun
  · simp at hlength

theorem find?_of_inConversation (h : M.inConversation s conversationId) :
    (s.conversations.find? conversationId).isSome := by
  obtain ⟨key, hkey, hcolumns⟩ := any_eq_true.mp h
  obtain ⟨c, hc, rfl⟩ := mem_map.mp hkey
  exact Option.isSome_iff_exists.mpr ⟨c, Table.find?_eq_some.mpr ⟨hc, (of_decide_eq_true hcolumns).1⟩⟩

/-- A row that lands is one more row that somebody has sent. -/
theorem spoken_insertOrIgnore_of_free (row : MessageRow) (hspoken : row.direction ≠ .system)
    (hfree : s.messages.find? row.id = none) :
    { s with messages := s.messages.insertOrIgnore row }.spoken = s.spoken ++ [row.identity] := by
  unfold spoken
  dsimp only
  rw [rows_insertOrIgnore_of_free hfree, filter_append, map_append]
  simp [hspoken]

variable {row : HistoryImportInsert} {message : MessageRecord}

variable {clientRequestId preview : Option String} {incrementUnread landed : Bool}

theorem spoken_insertMessage {storedAt : ℕ} (hspoken : message.direction ≠ .system)
    (h : s.insertMessage message none preview incrementUnread storedAt = .ok (landed, t)) :
    t.spoken = if (s.messages.find? message.id).isSome then s.spoken
      else s.spoken ++ [⟨message.id, message.accountId, message.conversationId, message.direction,
        asI64 message.sentAt, message.senderId⟩] := by
  have hignored : s.insertIgnored (.ofRecord message none storedAt) = (s.messages.find? message.id).isSome := by
    simp [insertIgnored, MessageRow.ofRecord]
  unfold insertMessage at h
  dsimp only at h
  rw [hignored] at h
  split at h
  · next htaken =>
    cases h
    rw [if_pos htaken]
    exact (keeps_mergeAttachmentFacesIn s _ _ _).spoken
  · next hfree =>
    rw [if_neg hfree]
    split at h
    · cases h
      exact spoken_insertOrIgnore_of_free (.ofRecord message none storedAt) hspoken
        (by simpa [MessageRow.ofRecord] using hfree)
    · cases h

theorem keys_insertMessage {storedAt : ℕ}
    (h : s.insertMessage message clientRequestId preview incrementUnread storedAt = .ok (landed, t)) :
    t.conversationKeys = s.conversationKeys := by
  cases landed with
  | true => exact (insertMessage_landed h).2.1
  | false =>
    unfold insertMessage at h
    dsimp only at h
    split at h
    · cases h
      exact (keeps_mergeAttachmentFacesIn s _ _ _).conversations
    · split at h <;> cases h

theorem exists_insertMessage_ok {storedAt : ℕ} (haccount : (s.accounts.find? message.accountId).isSome)
    (hconversation : (s.conversations.find? message.conversationId).isSome) :
    ∃ p, s.insertMessage message clientRequestId preview incrementUnread storedAt = .ok p := by
  unfold insertMessage
  dsimp only
  split
  · exact ⟨_, rfl⟩
  · rw [if_pos ⟨haccount, hconversation⟩]
    exact ⟨_, rfl⟩

/-! ### An imported copy -/

theorem historyTwin_eq_none_iff (hspoken : M.direction ≠ .system) (hof : Copy.IsImported sha256 M row s)
    (hkeys : ∀ key ∈ row.record.senderId :: row.altSenderIds.take 2, key ∈ M.senderIds sha256) :
    s.historyTwin row = none ↔ ∀ m ∈ s.copies sha256 M, m.conversationId = row.record.conversationId →
      m.senderId ∉ row.record.senderId :: row.altSenderIds.take 2 := by
  have hrows := map_identity_filter hspoken hof.belongs
    (fun key => decide (key ∈ row.record.senderId :: row.altSenderIds.take 2))
    fun key h => hkeys key (of_decide_eq_true h)
  simp only [decide_eq_true_eq] at hrows
  unfold historyTwin
  dsimp only
  rw [hof.accountId, hof.direction, hof.sentAt, head?_eq_none_iff, ← length_eq_zero_iff, length_insertionSort,
    length_eq_zero_iff, ← map_eq_nil_iff, hrows, filter_eq_nil_iff]
  simp only [decide_eq_true_eq, not_and]

theorem historyTwin_mem {m : MessageRow} (h : s.historyTwin row = some m) : m ∈ s.messages.rows := by
  unfold historyTwin at h
  have hmem := (perm_insertionSort _ _).mem_iff.mp (mem_of_mem_head? h)
  exact (mem_filter.mp hmem).1

/-- An imported copy that finds a row leaves every row but for an empty attachment list; else it lands or its id is
taken. -/
theorem importRow_spec (row : HistoryImportInsert) (storedAt : ℕ) (outcome : HistoryBatchOutcome)
    (hspoken : row.record.direction ≠ .system) (haccount : (s.accounts.find? row.record.accountId).isSome)
    (hconversation : (s.conversations.find? row.record.conversationId).isSome) :
    ∃ outcome' t, importRow storedAt (outcome, s) row = .ok (outcome', t) ∧
      (∀ m ∈ s.messages.rows, ∃ m' ∈ t.messages.rows, Copy.Filled m m') ∧
      t.conversationKeys = s.conversationKeys ∧
      t.spoken = if (s.historyTwin row).isSome ∨ (s.messages.find? row.record.id).isSome then s.spoken
        else s.spoken ++ [⟨row.record.id, row.record.accountId, row.record.conversationId, row.record.direction,
          asI64 row.record.sentAt, row.record.senderId⟩] := by
  have hignored : s.insertIgnored (.ofHistory row storedAt) = (s.messages.find? row.record.id).isSome := by
    simp [insertIgnored, MessageRow.ofHistory, MessageRow.ofRecord]
  have hsame : ∀ m ∈ s.messages.rows, ∃ m' ∈ s.messages.rows, Copy.Filled m m' := fun m hm => ⟨m, hm, .inl rfl⟩
  unfold importRow
  dsimp only
  cases htwin : s.historyTwin row with
  | some existing =>
    refine ⟨_, _, rfl, ?_, ?_, ?_⟩
    · unfold refillAttachments
      split
      · next hempty =>
        intro m hm
        refine ⟨_, mem_map_of_mem hm, ?_⟩
        by_cases hid : m.id = existing.id
        · have hexisting : existing ∈ s.messages.rows := historyTwin_mem htwin
          obtain rfl : m = existing := s.messages.row_unique hm hexisting hid
          rw [if_pos (by simp)]
          exact .inr ⟨(Bool.and_eq_true_iff.mp hempty).2, _, _, rfl⟩
        · rw [if_neg (by simpa using hid)]
          exact .inl rfl
      · exact hsame
    · unfold refillAttachments
      split <;> rfl
    · rw [if_pos (.inl rfl)]
      unfold refillAttachments
      split
      · exact spoken_updateMessages s _ _ _ fun _ => rfl
      · rfl
  | none =>
    dsimp only
    rw [hignored]
    by_cases htaken : (s.messages.find? row.record.id).isSome
    · rw [if_pos htaken, if_pos (.inr htaken)]
      exact ⟨_, _, rfl, hsame, rfl, rfl⟩
    · rw [if_neg htaken, if_pos ⟨haccount, hconversation⟩, if_neg (by simp [htaken])]
      refine ⟨_, _, rfl, fun m hm => ⟨m, mem_insertOrIgnore_of_mem hm, .inl rfl⟩, view_rows_same fun _ _ _ => rfl, ?_⟩
      exact spoken_insertOrIgnore_of_free (.ofHistory row storedAt) hspoken
        (by simpa [MessageRow.ofHistory, MessageRow.ofRecord] using htaken)

/-! ### Folds that are not due -/

/-- Whether a pair is to be folded is read off the keys of the conversations. -/
theorem peerPair_eq_none_congr {account account' : AccountRow} {aci number : String}
    (hkeys : t.conversationKeys = s.conversationKeys)
    (hface : account'.face = account.face) (h : s.peerPair account aci number = none) :
    t.peerPair account' aci number = none := by
  obtain ⟨hid, hnumber, -, -⟩ := AccountFace.mk.inj hface
  have hpeer := conversationByPeer_congr hkeys account.id .direct
  have hshell : (t.shellOf account.id number).map ConversationRow.key =
      (s.shellOf account.id number).map ConversationRow.key := by
    unfold shellOf
    rw [Option.map_or, Option.map_or, hpeer, Option.map_bind, Option.map_bind]
    congr 2
    funext key
    exact hpeer key
  unfold peerPair at h ⊢
  rw [hid, hnumber]
  split at h
  · next hown => rw [if_pos hown]
  · next hown =>
    rw [if_neg hown]
    have hcanonical := hpeer aci
    rcases hs : s.shellOf account.id number with _ | shell
    · rw [hs, Option.map_none, Option.map_eq_none_iff] at hshell
      rw [hshell]
    · rcases hc : s.conversationByPeer account.id .direct aci with _ | canonical
      · rw [hc, Option.map_none, Option.map_eq_none_iff] at hcanonical
        rw [hcanonical]
        split <;> simp_all
      · rw [hs] at hshell
        rw [hc] at hcanonical
        obtain ⟨shell', hs', hkey⟩ := Option.map_eq_some_iff.mp hshell
        obtain ⟨canonical', hc', hkey'⟩ := Option.map_eq_some_iff.mp hcanonical
        rw [hs, hc] at h
        rw [hs', hc']
        have hsame : shell.id = canonical.id := by
          by_contra hne
          simp [hne] at h
        have hshellId : shell'.id = shell.id := (Prod.mk.inj hkey).1
        have hcanonicalId : canonical'.id = canonical.id := (Prod.mk.inj hkey').1
        simp [hshellId, hcanonicalId, hsame]

/-- Where no fold is due, none is due in a store with the same accounts and conversations. -/
theorem unfolded_congr {accountId aci key : String}
    (hfaces : t.accountFaces = s.accountFaces) (hkeys : t.conversationKeys = s.conversationKeys)
    (h : ∀ account ∈ s.accounts.find? accountId, s.peerPair account aci key = none) :
    ∀ account ∈ t.accounts.find? accountId, t.peerPair account aci key = none := by
  intro account haccount
  have hface := find?_face_congr hfaces accountId
  rw [Option.mem_def.mp haccount] at hface
  obtain ⟨account', haccount', hface'⟩ := Option.map_eq_some_iff.mp hface.symm
  exact peerPair_eq_none_congr hkeys hface'.symm (h account' haccount')

theorem mergePeerIdentity_of_unfolded {sha256 : String → String} {accountId aci number : String} {now : ℕ}
    {outcome : Option PeerIdentityMergeOutcome}
    (hunfolded : ∀ account ∈ s.accounts.find? accountId, s.peerPair account aci number = none)
    (h : s.mergePeerIdentity sha256 accountId aci number now = .ok (outcome, t)) : t = s := by
  unfold mergePeerIdentity at h
  split at h
  · cases h
    rfl
  split at h
  · cases h
  next account haccount =>
  rw [hunfolded account haccount] at h
  cases h
  rfl

end Store

/-! ### A live copy -/

namespace Ingest

variable {env : IngestEnv} {r : NormalizedReceive} {M : SignalMessage}

theorem existingIn_congr {s t : Store} (h : t.messages = s.messages) (direction : Direction) (sentAt : ℕ)
    (target : Target) : existingIn env r direction sentAt target t = existingIn env r direction sentAt target s := by
  simp only [existingIn, Store.messageBySignalIdentity, h]

/-- Settling leaves the rows somebody has sent as they are, where no fold is due. -/
theorem storePreserves_spoken {landed : Landed} {s : Store}
    (hunfolded : ∀ aci ∈ r.sourceUuid, ∀ account ∈ s.accounts.find? landed.account.id,
      s.peerPair account aci landed.peerKey = none) : StorePreserves (fun t => t.spoken = s.spoken ∧
        t.accountFaces = s.accountFaces ∧ t.conversationKeys = s.conversationKeys)
      (settle env r landed) := by
  refine storePreserves_settle (fun t u ht hkeeps => ⟨hkeeps.spoken.trans ht.1,
    hkeeps.accounts.faces.trans ht.2.1, hkeeps.conversations.trans ht.2.2⟩) fun message => ?_
  unfold revealIdentity
  split
  · exact storePreserves_return _
  next aci haci =>
  split
  · refine (storePreserves_storeWrite fun t ht => ht).bind fun _ =>
      (storePreserves_storeCall fun t _ u ht hmerge => ?_).bind fun outcome => ?_
    · rwa [mergePeerIdentity_of_unfolded (unfolded_congr ht.2.1 ht.2.2 (hunfolded aci haci)) hmerge]
    · split <;> exact storePreserves_return _
  · exact storePreserves_return _

section Received

variable {sha256 : String → String} {s : Service} {key title : String} {conversation : ConversationRow}

/-- A live copy comes as far as its conversation, and has written no message yet. -/
theorem exists_placed (hof : Copy.IsReceived M env r s.store)
    (hbelongs : r.conversationOf = some (M.kind, key, title))
    (hpeer : s.store.conversationByPeer M.accountId M.kind (s.store.memoRedirect M.accountId M.kind key) =
      some conversation) : ∃ signalAccount account placed, account.id = M.accountId ∧
      (land env r).run s = (landIn env r M.direction M.sentAt signalAccount account M.kind key conversation).run
        { s with store := placed } ∧ Owned M.accountId conversation.id placed ∧ placed.messages = s.store.messages ∧
      placed.accountFaces = s.store.accountFaces ∧ placed.conversationKeys = s.store.conversationKeys := by
  obtain ⟨signalAccount, account, hresolved, haccount, hid⟩ := hof.account
  obtain ⟨⟨account', opened⟩, hupserted⟩ : ∃ p, s.store.upsertAccountFromSignalWithId signalAccount none
      env.ownerGroup env.accountId = .ok p := by
    cases hupsert : s.store.upsertAccountFromSignalWithId signalAccount none env.ownerGroup env.accountId with
    | ok p => exact ⟨p, rfl⟩
    | error =>
      unfold upsertAccountFromSignalWithId at hupsert
      rw [haccount] at hupsert
      cases hupsert
  have hid' : account'.id = M.accountId := by
    rw [id_upsertAccount hupserted, haccount]
    exact hid
  have hframe := upsertAccount_frame hupserted
  have hfaces := face_upsertAccount hupserted (by rw [haccount]; rfl)
  have hpeer' : opened.conversationByPeer M.accountId M.kind (opened.memoRedirect M.accountId M.kind key) =
      some conversation := by
    rw [memoRedirect_congr hfaces, hframe]
    exact hpeer
  have hensured : opened.ensureConversation env.sha256 M.accountId M.kind key title = _ :=
    ensureConversation_of_some hpeer'
  rw [← hid'] at hensured
  refine ⟨signalAccount, account', _, hid', run_land_of_placed hof.direction hof.sentAt hresolved hupserted
    (by rw [hid', hof.ungated]) hbelongs hensured, hid' ▸ owned_of_ensured hbelongs hensured, ?_, hfaces, ?_⟩
  · rw [hframe]
    rfl
  · rw [hframe]
    exact view_rows_same fun _ _ _ => by rfl

/-- A live copy found under its author, or its id taken, leaves the rows somebody has sent; else it lands beside
them. -/
theorem spoken_received (hspoken : M.direction ≠ .system) (hof : Copy.IsReceived M env r s.store)
    (hbelongs : r.conversationOf = some (M.kind, key, title))
    (hpeer : s.store.conversationByPeer M.accountId M.kind (s.store.memoRedirect M.accountId M.kind key) =
      some conversation)
    (hunfolded : ∀ aci ∈ r.sourceUuid, ∀ account ∈ s.store.accounts.find? M.accountId,
      s.store.peerPair account aci key = none) :
    let senderId := r.senderId env.sha256 M.direction M.accountId M.kind key
    let fresh := M.row env.sha256 conversation.id senderId
    let final := ((ingestReceive env r).run s).2.store
    final.conversationKeys = s.store.conversationKeys ∧
      final.spoken = if (existingIn env r M.direction M.sentAt
          ⟨M.accountId, conversation.id, M.kind, key, M.sentAt, senderId⟩ s.store).isSome ∨
          (s.store.messages.find? fresh.id).isSome then s.store.spoken else s.store.spoken ++ [fresh] := by
  intro senderId fresh final
  obtain ⟨signalAccount, account, placed, hid, hland, howned, hmessages, hfaces, hkeys⟩ :=
    exists_placed hof hbelongs hpeer
  have hold : placed.spoken = s.store.spoken := by
    unfold Store.spoken
    rw [hmessages]
  set landed : Landed := ⟨account, M.kind, key, r.record env.sha256 env.now M.direction M.sentAt signalAccount account
    M.kind key conversation.id⟩ with hlanded
  have hrow : landed.message.id = fresh.id ∧ landed.message.accountId = M.accountId ∧
      landed.message.senderId = senderId := by
    change signalMessageId env.sha256 account.id conversation.id M.direction M.sentAt
      (r.senderId env.sha256 M.direction account.id M.kind key) = _ ∧ account.id = _ ∧
        r.senderId env.sha256 M.direction account.id M.kind key = _
    rw [hid]
    exact ⟨rfl, rfl, rfl⟩
  have htarget : landed.target = ⟨M.accountId, conversation.id, M.kind, key, M.sentAt, senderId⟩ := by
    change Target.mk account.id conversation.id M.kind key M.sentAt landed.message.senderId = _
    rw [hid, hrow.2.2]
  have hfinal : final = ((ingestReceive env r).run s).2.store := rfl
  rw [run_ingestReceive, hland] at hfinal
  unfold landIn at hfinal
  rw [run_existingRow, existingIn_congr hmessages] at hfinal
  dsimp only at hfinal
  rw [← hlanded, htarget] at hfinal
  cases hexisting : existingIn env r M.direction M.sentAt
      ⟨M.accountId, conversation.id, M.kind, key, M.sentAt, senderId⟩ s.store with
  | some existing =>
    rw [hexisting] at hfinal
    have hmerged := Store.keeps_mergeAttachmentFacesIn placed account.id existing.id
      (fillMissingAttachmentIds env.sha256 existing.id r.attachments)
    rw [if_pos (.inl rfl), hfinal]
    exact ⟨hmerged.conversations.trans hkeys, hmerged.spoken.trans hold⟩
  | none =>
    rw [hexisting] at hfinal
    dsimp only at hfinal
    rw [hid, run_mirrorConversation M.kind howned] at hfinal
    set mirrored := placed.mirror (r.mirror M.kind) conversation.id with hmirrored
    have hkeys' : mirrored.conversationKeys = s.store.conversationKeys :=
      (view_rows_same fun _ _ _ => by rfl : _ = placed.conversationKeys).trans hkeys
    -- the account and the conversation are there for the insert
    obtain ⟨⟨inserted, after⟩, hinserted⟩ : ∃ p, mirrored.insertMessage landed.message none
        (landed.message.text.map fun text => String.ofList (text.toList.take 120))
        (landed.message.direction = .incoming) env.now = .ok p := by
      refine exists_insertMessage_ok ?_ ?_
      · obtain ⟨_, account₀, -, haccount, hid₀⟩ := hof.account
        have hthere : s.store.accounts.find? M.accountId = some account₀ :=
          Table.find?_eq_some.mpr ⟨mem_of_find?_eq_some haccount, hid₀⟩
        rw [hrow.2.1, ← Option.isSome_map (f := AccountRow.face)]
        change ((placed.accounts.find? M.accountId).map AccountRow.face).isSome = true
        rw [find?_face_congr hfaces, hthere]
        rfl
      · have hthere : conversation.key ∈ mirrored.conversationKeys :=
          hkeys' ▸ mem_map_of_mem (conversationByPeer_spec hpeer).1
        obtain ⟨c, hc, hkey⟩ := mem_map.mp hthere
        exact Option.isSome_iff_exists.mpr ⟨c, Table.find?_eq_some.mpr ⟨hc, congrArg Prod.fst hkey⟩⟩
    have hafter : after.spoken = if (none : Option MessageRow).isSome = true ∨
        (s.store.messages.find? fresh.id).isSome = true then s.store.spoken else s.store.spoken ++ [fresh] := by
      have hspoken' : mirrored.spoken = s.store.spoken := hold
      have hfind : mirrored.messages.find? fresh.id = s.store.messages.find? fresh.id := by
        change placed.messages.find? fresh.id = _
        rw [hmessages]
      rw [spoken_insertMessage hspoken hinserted, hspoken', hrow.1, hrow.2.1, hrow.2.2, hfind]
      simp only [Option.isSome_none, Bool.false_eq_true, false_or]
      rfl
    unfold insertLanding at hfinal
    dsimp only at hfinal
    rw [run_storeCall_of_ok _ _ hinserted] at hfinal
    cases inserted with
    | false =>
      rw [hfinal]
      exact ⟨(keys_insertMessage hinserted).trans hkeys', hafter⟩
    | true =>
      obtain ⟨hfaces', hkeys'', -⟩ := insertMessage_landed hinserted
      have hunfolded' : ∀ aci ∈ r.sourceUuid, ∀ account ∈ after.accounts.find? landed.account.id,
          after.peerPair account aci landed.peerKey = none := fun aci haci =>
        unfolded_congr (hfaces'.trans hfaces) (hkeys''.trans hkeys') (hid ▸ hunfolded aci haci)
      have hkept : StorePreserves _ (settle env r landed) := storePreserves_spoken hunfolded'
      have hsettled := Prog.Preserves.run hkept (s := { s with store := after }) ⟨rfl, rfl, rfl⟩
      rw [hfinal]
      exact ⟨hsettled.2.2.trans (hkeys''.trans hkeys'), hsettled.1.trans hafter⟩

/-- With one row of the message at most, the envelope misses only the author keys it does not look for. -/
theorem existingIn_eq_none_iff {s : Store} {conversationId : String} (hspoken : M.direction ≠ .system)
    (hin : M.inConversation s conversationId) (hone : (s.copies sha256 M).length ≤ 1)
    (hbelongs : r.conversationOf = some (M.kind, key, title))
    (hkeys : ∀ id ∈ (Copy.received env r).candidates M, id ∈ M.senderIds sha256) :
    existingIn env r M.direction M.sentAt ⟨M.accountId, conversationId, M.kind, key, M.sentAt,
        r.senderId env.sha256 M.direction M.accountId M.kind key⟩ s = none ↔ ∀ m ∈ s.copies sha256 M,
      m.conversationId = conversationId → m.senderId ∉ (Copy.received env r).candidates M := by
  simp only [Copy.candidates, Copy.senderId, hbelongs, Option.map_some, Option.getD_some] at hkeys ⊢
  unfold existingIn Target.legacySenderId
  dsimp only
  set senderId := r.senderId env.sha256 M.direction M.accountId M.kind key
  set legacy := if M.direction = .outgoing then "self" else stableHashId env.sha256 [M.accountId, M.kind.asStr, key]
  have hfirst := Store.messageBySignalIdentity_eq_none_iff hspoken hin hone (hkeys senderId mem_cons_self)
    (hkeys legacy (mem_cons_of_mem _ mem_cons_self))
  simp only [mem_cons, not_or]
  cases hmatch : s.messageBySignalIdentity M.accountId conversationId M.direction M.sentAt senderId legacy with
  | some =>
    rw [hmatch] at hfirst
    exact iff_of_false nofun fun h => nomatch hfirst.mpr fun m hm hconv => ⟨(h m hm hconv).1, (h m hm hconv).2.1⟩
  | none =>
    have hmissed := hfirst.mp hmatch
    cases haci : r.sourceUuid.filter (· ≠ "") with
    | none => exact iff_of_true rfl fun m hm hconv => ⟨(hmissed m hm hconv).1, (hmissed m hm hconv).2, by simp⟩
    | some aci =>
      by_cases hincoming : M.direction = .incoming
      · have haci : aci ∈ M.senderIds sha256 := hkeys aci (by rw [haci, if_pos hincoming]; simp)
        rw [if_pos hincoming]
        simp only [if_pos hincoming, Store.messageBySignalIdentity_eq_none_iff hspoken hin hone haci haci,
          Option.toList_some, mem_singleton]
        exact forall₃_congr fun m hm hconv => by simp [hmissed m hm hconv]
      · simp only [if_neg hincoming]
        exact iff_of_true trivial fun m hm hconv => ⟨(hmissed m hm hconv).1, (hmissed m hm hconv).2, by simp⟩

end Received

end Ingest

/-! ### Runs of copies -/

namespace Copy

variable {M : SignalMessage} {sha256 : String → String} {s : Service} {copy : Copy} {id : String}

theorem exists_step_imported {row : HistoryImportInsert} (hspoken : M.direction ≠ .system)
    (hof : IsImported sha256 M row s.store) (storedAt : ℕ) :
    ∃ store, (imported row storedAt).step s = { s with store } ∧
      (∀ m ∈ s.store.messages.rows, ∃ m' ∈ store.messages.rows, Filled m m') ∧
      store.conversationKeys = s.store.conversationKeys ∧
      store.spoken = if (s.store.historyTwin row).isSome ∨ (s.store.messages.find? row.record.id).isSome
        then s.store.spoken
        else s.store.spoken ++ [M.row sha256 row.record.conversationId row.record.senderId] := by
  obtain ⟨outcome, t, hrow, hfilled, hkeys, hlands⟩ := Store.importRow_spec row storedAt ⟨0, 0⟩
    (by rwa [hof.direction]) (by rw [hof.accountId]; exact hof.account) (find?_of_inConversation hof.belongs)
  refine ⟨t.refreshEnding row.record.accountId, ?_, hfilled, hkeys, hlands.trans ?_⟩
  · simp only [step, insertHistoryRow_eq, hrow, Except.map]
  · rw [hof.id, hof.accountId, hof.direction, hof.sentAt]
    rfl

/-- A copy that finds nothing lands, and one that finds something leaves the rows; the conversations keep their
keys. -/
theorem spoken_step (hspoken : M.direction ≠ .system) (hfew : (s.store.copies sha256 M).length ≤ 1)
    (hof : copy.IsOf sha256 M s) (hunfolded : copy.Unfolded M s.store) (hid : copy.conversation M s.store = some id)
    (hin : M.inConversation s.store id) : (copy.step s).store.conversationKeys =
        s.store.conversationKeys ∧
      (copy.step s).store.spoken = if copy.Found sha256 M s.store id then s.store.spoken
        else s.store.spoken ++ [M.row sha256 id (copy.senderId M)] := by
  obtain ⟨hof, hauthor⟩ := hof
  cases copy with
  | received env r =>
    obtain ⟨rfl, hof⟩ := hof
    obtain ⟨key, -, title, hbelongs⟩ := hof.belongs
    simp only [conversation, hbelongs, Option.bind_some, Option.map_eq_some_iff] at hid
    obtain ⟨conversation, hpeer, rfl⟩ := hid
    have hkey : (r.conversationOf.map (·.2.1)).getD "" = key := by rw [hbelongs]; rfl
    have hsender : (received env r).senderId M = r.senderId env.sha256 M.direction M.accountId M.kind key := by
      rw [← hkey]
      rfl
    obtain ⟨hkeys, hstep⟩ := Ingest.spoken_received hspoken hof hbelongs hpeer (by rw [← hkey]; exact hunfolded)
    refine ⟨hkeys, hstep.trans ?_⟩
    rw [hsender]
    refine if_congr (or_congr ?_ (by rw [hsender])) rfl rfl
    rw [← not_iff_not, Option.not_isSome_iff_eq_none, Ingest.existingIn_eq_none_iff hspoken hin hfew hbelongs hauthor]
    push Not
    rfl
  | imported row storedAt =>
    have hof : IsImported sha256 M row s.store := hof
    obtain rfl : row.record.conversationId = id := Option.some.inj hid
    obtain ⟨store, hstep, -, hkeys, hlands⟩ := exists_step_imported hspoken hof storedAt
    rw [hstep]
    refine ⟨hkeys, hlands.trans (if_congr (or_congr ?_ (by rw [hof.id]; rfl)) rfl rfl)⟩
    rw [← not_iff_not, Option.not_isSome_iff_eq_none, historyTwin_eq_none_iff hspoken hof hauthor]
    push Not
    rfl

/-- A covered copy leaves one row of the message. -/
theorem converges_of_covered (hspoken : M.direction ≠ .system) (hfew : (s.store.copies sha256 M).length ≤ 1)
    (hof : copy.IsOf sha256 M s) (hcovered : copy.Covered sha256 M s) : copy.Converges sha256 M s := by
  obtain ⟨hunfolded, id, hid, hin, hfound⟩ := hcovered
  obtain ⟨hkeys, hstep⟩ := spoken_step hspoken hfew hof hunfolded hid hin
  have hrows : (copy.step s).store.copies sha256 M = ((copy.step s).store.spoken).filter (M.isRow sha256 s.store) := by
    unfold Store.copies SignalMessage.isRow SignalMessage.inConversation
    rw [hkeys]
  refine ⟨?_, ?_⟩
  · rw [hrows, hstep]
    split at hfound
    · next hnone =>
      have hmissed : ¬copy.Found sha256 M s.store id := by
        rintro (⟨m, hm, -⟩ | htaken)
        · rw [hnone] at hm
          exact not_mem_nil hm
        · rw [hfound] at htaken
          cases htaken
      have hfresh : M.isRow sha256 s.store (M.row sha256 id (copy.senderId M)) = true :=
        decide_eq_true ⟨rfl, hin, rfl, rfl, hof.2 _ (by cases copy <;> exact mem_cons_self)⟩
      rw [if_neg hmissed, filter_append, show s.store.spoken.filter _ = [] from hnone]
      simp [hfresh]
    · next hsome =>
      rw [if_pos hfound]
      have hpos := length_pos_of_ne_nil hsome
      exact le_antisymm hfew hpos
  · cases copy with
    | received => trivial
    | imported row storedAt =>
      obtain ⟨store, hstep, hfilled, -⟩ := exists_step_imported hspoken hof.1 storedAt
      dsimp only [LeavesRows]
      rwa [hstep]

end Copy

/-- **Live copies and imported copies converge on one row**, in any order, in every run in which each looks for the
author key the row has, in the conversation it is in. -/
theorem copies_converge {sha256 : String → String} (M : SignalMessage) (hspoken : M.direction ≠ .system)
    (s : Service) (hfew : (s.store.copies sha256 M).length ≤ 1) (l : List Copy)
    (hcopies : Along Copy.step (fun s copy => copy.IsOf sha256 M s) s l)
    (hcovered : Along Copy.step (fun s copy => copy.Covered sha256 M s) s l) :
    Along Copy.step (fun s copy => copy.Converges sha256 M s) s l :=
  Along.imp (fun s => (s.store.copies sha256 M).length ≤ 1)
    (fun _ _ hcopy hfew => (Copy.converges_of_covered hspoken hfew hcopy.1 hcopy.2).1.le)
    (fun _ _ hcopy hfew => Copy.converges_of_covered hspoken hfew hcopy.1 hcopy.2) l s
    (Along.and l s hcopies hcovered) hfew

namespace Copy

def chatAccount : AccountRow := .ofAddress "account" "+1" "+***1" "group"

def bo : Person := ⟨some "+2", some "b0b0b0b0-0000-4000-8000-000000000001"⟩

/-- A group and a chat with Bo, whose number and ACI are known to be one person's. -/
def chatService : Service where
  store := { Store.empty with
    accounts := .single chatAccount
    conversations := ⟨[.ofPeer "team" "account" .group "group-1" "Team", .ofPeer "bo" "account" .direct "+2" "Bo"],
      by decide⟩
    peerIdentities := .single ⟨"account", "b0b0b0b0-0000-4000-8000-000000000001", "+2"⟩ }
  earlyControls := []
  earlyReceipts := []

def groupMessage : SignalMessage := ⟨"account", .group, ["group-1"], .incoming, 500, bo⟩

def directMessage : SignalMessage :=
  ⟨"account", .direct, ["+2", "b0b0b0b0-0000-4000-8000-000000000001"], .incoming, 500, bo⟩

/-- The text, received under a spelling of its author. -/
def liveCopy (groupId : Option String) (source : String) : Copy :=
  .received Ingest.plainEnv { Ingest.helloReceive with groupId, source := some source }

/-- Bo's text to the group in an archive whose record of Bo has this number. -/
def archiveCopy (e164 : Option String) : Copy :=
  let author : StageRecipientRow := ⟨"account", 7, "contact", "Bo", bo.aci, e164, none⟩
  let sender := (importSender id "account" "+1" .group .incoming (some author)).getD ⟨"", [], none, none, none⟩
  let record := Ingest.helloReceive.record id 1000 .incoming 500 "+1" chatAccount .group "group-1" "team"
  .imported ⟨{ record with
    senderId := sender.senderId
    id := signalMessageId id "account" "team" .incoming 500 sender.senderId }, none, sender.altSenderIds, []⟩ 1000

theorem groupCopy_isOf : (liveCopy (some "group-1") "+2").IsOf id groupMessage chatService :=
  ⟨⟨rfl, rfl, rfl, ⟨"+1", chatAccount, rfl, rfl, rfl⟩, rfl, ⟨"group-1", mem_cons_self, "group", rfl⟩⟩, by decide⟩

theorem directCopy_isOf : (liveCopy none "+2").IsOf id directMessage chatService ∧
    (liveCopy none "b0b0b0b0-0000-4000-8000-000000000001").IsOf id directMessage
      ((liveCopy none "+2").step chatService) :=
  ⟨⟨⟨rfl, rfl, rfl, ⟨"+1", chatAccount, rfl, rfl, rfl⟩, rfl, ⟨"+2", by decide, "Bo", rfl⟩⟩, by decide⟩,
    ⟨rfl, rfl, rfl, ⟨"+1", _, rfl, rfl, rfl⟩, rfl, ⟨_, by decide, "Bo", rfl⟩⟩, by decide⟩

theorem archiveCopy_isOf (e164 : Option String) (h : e164 = none ∨ e164 = some "+2") :
    (archiveCopy e164).IsOf id groupMessage ((liveCopy (some "group-1") "+2").step chatService) := by
  refine ⟨⟨rfl, rfl, rfl, ⟨"+1", some ⟨"account", 7, "contact", "Bo", bo.aci, e164, none⟩, ?_⟩, rfl, ?_, ?_⟩, ?_⟩
  · cases e164 <;> rfl
  · decide +kernel
  · rcases h with rfl | rfl <;> decide +kernel
  · rcases h with rfl | rfl <;> decide +kernel

end Copy

/-- The archive knows the author's number too. -/
theorem copies_converge_group : Along Copy.step (fun s copy => copy.Converges id Copy.groupMessage s) Copy.chatService
    [Copy.liveCopy (some "group-1") "+2", Copy.archiveCopy (some "+2")] := by
  refine copies_converge Copy.groupMessage (by decide) Copy.chatService (by decide) _
    ⟨Copy.groupCopy_isOf, Copy.archiveCopy_isOf (some "+2") (.inr rfl), trivial⟩
    ⟨⟨nofun, "team", rfl, by decide, ?_⟩, ⟨trivial, "team", rfl, by decide +kernel, ?_⟩, trivial⟩
  · decide +kernel
  · decide +kernel

/-- An archive row by ACI alone stands beside the one received under the number. A direct text received under the
number and again under the ACI opens a second conversation and has a row in each. -/
theorem archive_by_aci_duplicates_message :
    (Copy.liveCopy (some "group-1") "+2").IsOf id Copy.groupMessage Copy.chatService ∧
    (Copy.archiveCopy none).IsOf id Copy.groupMessage ((Copy.liveCopy (some "group-1") "+2").step Copy.chatService) ∧
    (((Copy.archiveCopy none).step ((Copy.liveCopy (some "group-1") "+2").step Copy.chatService)).store.copies id
      Copy.groupMessage).length = 2 ∧
    (Copy.liveCopy none "+2").IsOf id Copy.directMessage Copy.chatService ∧
    (Copy.liveCopy none "b0b0b0b0-0000-4000-8000-000000000001").IsOf id Copy.directMessage
      ((Copy.liveCopy none "+2").step Copy.chatService) ∧
    (([Copy.liveCopy none "+2", Copy.liveCopy none "b0b0b0b0-0000-4000-8000-000000000001"].foldl Copy.step
      Copy.chatService).store.copies id Copy.directMessage).length = 2 := by
  refine ⟨Copy.groupCopy_isOf, Copy.archiveCopy_isOf none (.inl rfl), ?_,
    Copy.directCopy_isOf.1, Copy.directCopy_isOf.2, ?_⟩
  · decide +kernel
  · decide +kernel

end SignalConnector
