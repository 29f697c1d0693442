/-
# Ingesting a received message

`ingest_receive` as a program over the service: each call of the store may
fail, a failed call ends it, and what was written before stays written. The
program has two halves. `land` resolves the account and the conversation and
inserts the row; `settle` runs when the row is new, applies what arrived before
it and says what happened.
-/
import SignalConnector.Lib.Fault
import SignalConnector.Receive.Service

namespace SignalConnector

/-- What an ingest reads besides the service; `storiesDisabled`: which accounts keep stories off. -/
structure IngestEnv where
  sha256 : String → String
  now : ℕ
  ownerGroup : String
  accountId : String
  storiesDisabled : String → Bool

/-! ### Calls -/

section Calls

variable {α β : Type} {f : Store → Except StoreError (α × Store)}

/-- A call of a store operation. -/
def storeCall (f : Store → Except StoreError (α × Store)) : Prog Service StoreError α :=
  .call (fun s => (f s.store).map fun r => (r.1, { s with store := r.2 })) .done

/-- A call that cannot fail on its own. -/
def storeWrite (f : Store → α × Store) : Prog Service StoreError α := storeCall fun s => .ok (f s)

/-- A call that writes nothing. -/
def storeRead (f : Store → α) : Prog Service StoreError α := storeWrite fun s => (f s, s)

variable (k : α → Prog Service StoreError β) (s : Service)

theorem run_storeCall_of_ok {a : α} {t : Store}
    (h : f s.store = .ok (a, t)) : (storeCall f >>= k).run s = (k a).run { s with store := t } := by
  simp only [storeCall, Prog.bind_eq, Prog.bind, Prog.run, h]
  rfl

theorem run_storeCall_of_error {e : StoreError}
    (h : f s.store = .error e) : (storeCall f >>= k).run s = (.error e, s) := by
  simp only [storeCall, Prog.bind_eq, Prog.bind, Prog.run, h]
  rfl

@[simp] theorem run_storeWrite (f : Store → α × Store) :
    (storeWrite f >>= k).run s = (k (f s.store).1).run { s with store := (f s.store).2 } := rfl

@[simp] theorem run_storeRead (f : Store → α) : (storeRead f >>= k).run s = (k (f s.store)).run s := rfl

@[simp] theorem run_return (a : α) : (pure a >>= k).run s = (k a).run s := rfl

variable {P : Service → Prop} {k s}

theorem atCalls_storeCall {a : α} {t : Store}
    (h : f s.store = .ok (a, t)) (hs : P s) (hk : (k a).AtCalls P { s with store := t }) :
    (storeCall f >>= k).AtCalls P s := by
  refine ⟨hs, fun b s' hcall => ?_⟩
  simp only [h, Except.map] at hcall
  obtain ⟨rfl, rfl⟩ := Prod.mk.inj (Except.ok.inj hcall)
  exact hk

theorem atCalls_storeRead {f : Store → α} (hs : P s) (hk : (k (f s.store)).AtCalls P s) :
    (storeRead f >>= k).AtCalls P s :=
  atCalls_storeCall (f := fun s => .ok (f s, s)) rfl hs hk

end Calls

namespace Ingest

variable (env : IngestEnv)

/-! ### Early controls -/

/-- The identity an early control is matched against. -/
structure Target where
  accountId : String
  conversationId : String
  kind : ConversationKind
  peerKey : String
  sentAt : ℕ
  senderId : String

variable (t : Target)

/-- The peer's old author key. -/
def Target.legacySenderId : String := stableHashId env.sha256 [t.accountId, t.kind.asStr, t.peerKey]

def Target.isOf (entry : EarlyControlEntry) : Bool :=
  isFresh env.now entry.bufferedAt && entry.accountId = t.accountId && entry.kind = t.kind &&
    entry.peerKey = t.peerKey && entry.targetSentAt = t.sentAt && entry.authorSenderId = t.senderId

/-- A store function over a page of records, run on one record. -/
def attachTo (f : Store → List MessageRecord → List MessageRecord) (record : MessageRecord) :
    Prog Service StoreError MessageRecord :=
  storeRead fun s => (f s [record]).headD record

variable (accountId : String) (sentAt : ℕ)

/-- The record of a poll's termination notice. -/
def pollTerminateRecord (senderId : String) (notice : PollTerminateNotice) : MessageRecord where
  id := signalMessageId env.sha256 t.accountId t.conversationId .system sentAt senderId
  isErased := false
  deleteFailed := false
  accountId := t.accountId
  conversationId := t.conversationId
  direction := .system
  senderId := senderId
  senderName := none
  mentionsSelf := false
  sentAt := sentAt
  receivedAt := some env.now
  text := none
  textBytes := none
  textTruncated := false
  textRetrievable := true
  status := .system
  clientRequestId := none
  quoteMessageId := none
  quoteSnapshot := none
  quote := none
  attachments := []
  rich := some .default
  editedAt := none
  reactions := []
  edits := []
  deliveredAt := none
  readAt := none
  viewedAt := none
  sendOutcomes := none
  adminDeleted := false
  sticker := none
  expireSeconds := notice.expireSeconds
  expireStartAt := notice.expireStartAt
  serverGuid := none
  serverTimestamp := none
  authorAci := none

/-- `conversation_summary`, as the event it becomes. -/
def conversationSummary (conversationId : String) : Prog Service StoreError (List HostSideEvent) :=
  storeRead fun s => ((s.conversationById accountId conversationId).map HostSideEvent.conversationChanged).toList

/-- `land_poll_terminate_notice`: an envelope without stamp and a row without poll leave no notice. -/
def landPollTerminateNotice (legacySender : String) (poll : MessageRecord) (notice : PollTerminateNotice) :
    Prog Service StoreError (List HostSideEvent) :=
  match notice.envelopeSentAt.filter (0 < ·), poll.rich.bind NormalizedRich.poll with
  | some sentAt, some _ => do
    let existing ← storeRead fun s => s.messageBySignalIdentity t.accountId t.conversationId .system sentAt
      poll.senderId legacySender
    if existing.isSome then return []
    let record := pollTerminateRecord env t sentAt poll.senderId notice
    let inserted ← storeCall fun s => s.insertMessage record none none false env.now
    if !inserted then return []
    let summary ← conversationSummary t.accountId t.conversationId
    return .messageUpserted (projectMessageForHost record) :: summary
  | _, _ => return []

/-- An edited record as it is reported. -/
def reportEdit (applied : Option MessageRecord) : Prog Service StoreError (List HostSideEvent) :=
  match applied with
  | none => return []
  | some record => do
    let record ← attachTo (fun s => s.attachReactions t.accountId) record
    let record ← attachTo (fun s => s.attachEdits t.accountId) record
    let record ← attachTo (fun s => s.attachOutgoingQuotes t.accountId) record
    return [.messageUpserted record]

/-- A poll as it is reported after a fold. -/
def reportPoll (record : MessageRecord) : Prog Service StoreError MessageRecord := do
  let record ← attachTo (fun s => s.attachReactions t.accountId) record
  attachTo (fun s => s.attachEdits t.accountId) record

/-- What one early control does to the row it waited for. -/
def applyEarlyControl : EarlyControlPayload → Prog Service StoreError (List HostSideEvent)
  | .remoteDelete => do
    match ← storeWrite fun s => s.markRemoteDeleted t.accountId t.conversationId t.sentAt t.senderId with
    | some (record, true) => return [.messageStatusChanged record.accountId record.id record.status none none none]
    | _ => return []
  | .edit incoming newText newBytes => do
    let applied ← storeCall fun s =>
      if incoming then
        s.applyInboundEdit t.accountId t.conversationId t.sentAt t.senderId (t.legacySenderId env) newText
          newBytes env.now
      else s.applyOutgoingEditBySignal t.accountId t.conversationId t.sentAt newText newBytes env.now
    reportEdit t applied
  | .pollVote voterId optionIndexes => do
    match ← storeWrite fun s => s.foldPollVote t.accountId t.conversationId t.sentAt t.senderId
        (t.legacySenderId env) voterId optionIndexes with
    | none => return []
    | some record => return [.messageUpserted (← reportPoll t record)]
  | .pollTerminate notice => do
    match ← storeWrite fun s => s.foldPollTerminate t.accountId t.conversationId t.sentAt t.senderId
        (t.legacySenderId env) with
    | none => return []
    | some record => do
      let record ← reportPoll t record
      return .messageUpserted record :: (← landPollTerminateNotice env t (t.legacySenderId env) record notice)

/-- The loop of `drain_early_controls`: the events, and the entries that stay. -/
def drainControls (t : Target) :
    List EarlyControlEntry → Prog Service StoreError (List HostSideEvent × List EarlyControlEntry)
  | [] => return ([], [])
  | entry :: table =>
    if t.isOf env entry then do
      let events ← applyEarlyControl env t entry.payload
      let (rest, remaining) ← drainControls t table
      return (events ++ rest, remaining)
    else do
      let (rest, remaining) ← drainControls t table
      return (rest, if isFresh env.now entry.bufferedAt then entry :: remaining else remaining)

/-- `drain_early_controls`: the table is taken, and what stays is put back at the end. -/
def drainEarlyControls : Prog Service StoreError (List HostSideEvent) := do
  let table ← .act (fun s => (s.earlyControls, { s with earlyControls := [] })) .done
  if table.isEmpty then return []
  let (events, remaining) ← drainControls env t table
  .act (fun s => ((), { s with earlyControls := remaining })) .done
  return events

/-! ### Early receipts -/

/-- The events of a receipt's outcome that need no further reading. -/
def statusEvents (outcome : PeerReceiptOutcome) : List HostSideEvent :=
  (outcome.moved ++ outcome.viewedConfirmed).map fun record =>
    .messageStatusChanged record.accountId record.id record.status record.deliveredAt record.readAt record.viewedAt

/-- One ledger event per changed message, each with the whole ledger. -/
def ledgerEvents (accountId : String) : List String → Prog Service StoreError (List HostSideEvent)
  | [] => return []
  | messageId :: rest => do
    let receipts ← storeRead fun s => s.messageReceiptsFor accountId messageId
    return .messageReceiptsChanged accountId messageId receipts :: (← ledgerEvents accountId rest)

/-- The timestamps that matched nothing wait for their row. -/
def bufferUnseen (r : PeerReceipt) (outcome : PeerReceiptOutcome) (s : Service) : Service :=
  let unseen := (r.targetSentAt.filter fun timestamp =>
    timestamp ∉ outcome.matchedTimestamps ∧ timestamp ∉ outcome.blockedTimestamps).take 256
  unseen.foldl (fun s timestamp =>
    s.bufferEarlyReceipt env.now ⟨r.accountId, timestamp, r.recipient, r.receipt, r.when, env.now⟩) s

/-- What finds no row waits. -/
def applyReceiptBatch (r : PeerReceipt) : Prog Service StoreError (List HostSideEvent) := do
  let outcome ← storeCall fun s => s.applyPeerReceipt r
  let ledger ← ledgerEvents r.accountId (outcome.receiptsChanged.map Prod.fst)
  .act (fun s => ((), bufferUnseen env r outcome s)) .done
  return statusEvents outcome ++ ledger

/-- The entry is for the outgoing row that just landed. -/
def isReceiptOf (entry : EarlyReceiptEntry) : Bool :=
  isFresh env.now entry.bufferedAt && entry.accountId = accountId && entry.targetSentAt = sentAt

/-- The receipt an early entry replays. -/
def receiptOf (entry : EarlyReceiptEntry) : PeerReceipt :=
  ⟨accountId, entry.recipient, [entry.targetSentAt], entry.kind, entry.when⟩

/-- The loop of `drain_early_receipts`. -/
def drainReceipts (accountId : String) (sentAt : ℕ) :
    List EarlyReceiptEntry → Prog Service StoreError (List HostSideEvent × List EarlyReceiptEntry)
  | [] => return ([], [])
  | entry :: table =>
    if isReceiptOf env accountId sentAt entry then do
      let events ← applyReceiptBatch env (receiptOf accountId entry)
      let (rest, remaining) ← drainReceipts accountId sentAt table
      return (events ++ rest, remaining)
    else do
      let (rest, remaining) ← drainReceipts accountId sentAt table
      return (rest, if isFresh env.now entry.bufferedAt then entry :: remaining else remaining)

/-- The receipts that waited for the row. -/
def drainEarlyReceipts (sentAt : ℕ) : Prog Service StoreError (List HostSideEvent) := do
  let table ← .act (fun s => (s.earlyReceipts, { s with earlyReceipts := [] })) .done
  if table.isEmpty then return []
  let (events, remaining) ← drainReceipts env accountId sentAt table
  .act (fun s => ((), { s with earlyReceipts := remaining })) .done
  return events

/-! ### Landing -/

/-- What the second half of an ingest needs to know of the row that landed. -/
structure Landed where
  account : AccountRow
  kind : ConversationKind
  peerKey : String
  message : MessageRecord
  deriving DecidableEq

def Landed.target (landed : Landed) : Target :=
  ⟨landed.account.id, landed.message.conversationId, landed.kind, landed.peerKey, landed.message.sentAt,
    landed.message.senderId⟩

variable (r : NormalizedReceive)

/-- The number the envelope was received for: the one it names, or that of the only account of the group. -/
def receivingAccount : Prog Service StoreError (Option String) :=
  match r.account.filter (· ≠ "") with
  | some signalAccount => return some signalAccount
  | none => do
    match ← storeRead fun s => s.listAccountsInGroup env.ownerGroup with
    | [account] => do
      let row ← storeRead fun s => s.accounts.find? account.id
      return row.map AccountRow.signalAccount
    | _ => return none

/-- The stored row the envelope is a copy of, looked up under the spellings of its author in turn. -/
def existingRow (direction : Direction) (sentAt : ℕ) (t : Target) : Prog Service StoreError (Option MessageRow) := do
  let legacySenderId := if direction = .outgoing then "self" else t.legacySenderId env
  let existing ← storeRead fun s =>
    s.messageBySignalIdentity t.accountId t.conversationId direction sentAt t.senderId legacySenderId
  match existing, r.sourceUuid.filter (· ≠ "") with
  | none, some sourceUuid =>
    if direction = .incoming then
      storeRead fun s =>
        s.messageBySignalIdentity t.accountId t.conversationId direction sentAt sourceUuid sourceUuid
    else return none
  | existing, _ => return existing

/-- A timer notice sets the conversation's timer; without a stated value it is off. -/
def mirrorTimer (accountId conversationId : String) : Prog Service StoreError Unit :=
  if r.isExpirationUpdate then
    storeWrite fun s => ((), s.setConversationExpireTimer accountId conversationId (r.expireSeconds.getD 0))
  else return ()

/-- A group update states the group's title. -/
def mirrorTitle (kind : ConversationKind) (conversationId : String) : Prog Service StoreError Unit :=
  match kind, r.groupName with
  | .group, some groupName => storeWrite fun s => ((), s.setConversationTitle conversationId groupName)
  | _, _ => return ()

/-- The token of a spam report: the latest one stays. -/
def mirrorToken (accountId conversationId : String) : Prog Service StoreError Unit :=
  match r.reportingToken with
  | some token => storeWrite fun s => ((), s.storeConversationReportToken accountId conversationId token)
  | none => return ()

/-- The state of the conversation that the envelope carries along. -/
def mirrorConversation (kind : ConversationKind) (accountId conversationId : String) :
    Prog Service StoreError Unit := do
  mirrorTimer r accountId conversationId
  mirrorTitle r kind conversationId
  mirrorToken r accountId conversationId

variable (landed : Landed)

/-- The insert, once no stored row is the envelope's. -/
def insertLanding : Prog Service StoreError (Option Landed) := do
  let preview := landed.message.text.map fun text => String.ofList (text.toList.take 120)
  let inserted ← storeCall fun s =>
    s.insertMessage landed.message none preview (landed.message.direction = .incoming) env.now
  return if inserted then some landed else none

/-- The part of `ingest_receive` after the conversation is there. -/
def landIn (direction : Direction) (sentAt : ℕ) (signalAccount : String) (account : AccountRow)
    (kind : ConversationKind) (peerKey : String) (conversation : ConversationRow) :
    Prog Service StoreError (Option Landed) := do
  let message := r.record env.sha256 env.now direction sentAt signalAccount account kind peerKey conversation.id
  let landed : Landed := ⟨account, kind, peerKey, message⟩
  match ← existingRow env r direction sentAt landed.target with
  | some existing => do
    let attachments := fillMissingAttachmentIds env.sha256 existing.id r.attachments
    let _ ← storeWrite fun s => s.mergeLiveAttachmentFaces account.id existing.id attachments
    return none
  | none => do
    mirrorConversation r kind account.id conversation.id
    insertLanding env landed

/-- The gate of a story reply: its account keeps stories off. -/
def storiesOff (account : AccountRow) : Prog Service StoreError Bool :=
  if r.storyReply then storeRead fun _ => env.storiesDisabled account.id else return false

/-- The part of `ingest_receive` after the account is known. -/
def landFor (direction : Direction) (sentAt : ℕ) (signalAccount : String) :
    Prog Service StoreError (Option Landed) := do
  let account ← storeCall fun s =>
    s.upsertAccountFromSignalWithId signalAccount none env.ownerGroup env.accountId
  if ← storiesOff env r account then return none
  match r.conversationOf with
  | none => return none
  | some (kind, peerKey, title) => do
    let conversation ← storeCall fun s => s.ensureConversation env.sha256 account.id kind peerKey title
    landIn env r direction sentAt signalAccount account kind peerKey conversation

/-- `ingest_receive` up to the insert: the row, if it is new. -/
def land : Prog Service StoreError (Option Landed) :=
  match r.direction, r.timestamp with
  | some direction, some sentAt => do
    match ← receivingAccount env r with
    | none => return none
    | some signalAccount => landFor env r direction sentAt signalAccount
  | _, _ => return none

/-! ### Settling -/

/-- The identity an incoming envelope reveals, and the fold it may set off: the row as it is reported, and the
events of the fold. -/
def revealIdentity (message : MessageRecord) : Prog Service StoreError (MessageRecord × List HostSideEvent) :=
  match r.sourceUuid with
  | none => return (message, [])
  | some aci =>
    if landed.message.direction = .incoming ∧ aci ≠ landed.peerKey then do
      storeWrite fun s => ((), s.upsertPeerIdentity landed.account.id aci landed.peerKey)
      let outcome ← storeCall fun s =>
        s.mergePeerIdentity env.sha256 landed.account.id aci landed.peerKey env.now
      match outcome with
      | none => return (message, [])
      | some outcome =>
        let message := if message.conversationId = outcome.obsoleteConversationId then
            { message with conversationId := outcome.canonicalSummary.id }
          else message
        let notice := (outcome.mergeNotice.map fun row =>
          HostSideEvent.messageUpserted (projectMessageForHost (messageRecordFromRow row))).toList
        return (message, notice ++
          [.conversationMerged landed.account.id outcome.obsoleteConversationId outcome.canonicalSummary])
    else return (message, [])

/-- The receipts that waited for an outgoing row. -/
def settleReceipts : Prog Service StoreError (List HostSideEvent) :=
  if landed.message.direction = .outgoing then
    drainEarlyReceipts env landed.account.id landed.message.sentAt
  else return []

/-- The landed row with the row its quote names. -/
def settleQuote : Prog Service StoreError MessageRecord :=
  if landed.message.quoteMessageId.isNone ∧ landed.message.quoteSnapshot.isSome then
    attachTo (fun s => s.attachQuoteSnapshotIds env.sha256 landed.account.id) landed.message
  else return landed.message

/-- `ingest_receive` past the insert: the events of a landed row. -/
def settle : Prog Service StoreError (List HostSideEvent) := do
  let controls ← drainEarlyControls env landed.target
  let receipts ← settleReceipts env landed
  let message ← settleQuote env landed
  let (message, merged) ← revealIdentity env r landed message
  let summary ← conversationSummary landed.account.id landed.message.conversationId
  let account ← storeRead fun s => s.accounts.find? landed.account.id
  return .messageUpserted (projectMessageForHost message) :: (controls ++ receipts ++ merged ++ summary ++
    (account.map HostSideEvent.accountChanged).toList)

/-- `ingest_receive`, for an envelope without control payload. -/
def ingestReceive : Prog Service StoreError (List HostSideEvent) := do
  match ← land env r with
  | none => return []
  | some landed => settle env r landed

/-! ### The loop -/

/-- What the loop has sent and queued for an envelope, and the service it leaves. -/
structure Persisted where
  events : List HostSideEvent
  receipt : Option DeliveryReceiptJob
  service : Service

/-- The loop on a successful attempt. -/
def persisted : Except StoreError (List HostSideEvent) × Service → Option Persisted
  | (.ok events, s) => some ⟨events, deliveryReceiptJob r events, s⟩
  | (.error _, _) => none

/-- `receive_persistence_loop` for one envelope whose call number `n` fails once. -/
def receivePersistence (n : ℕ) (s : Service) : Option Persisted :=
  match (ingestReceive env r).runFault .unavailable n s with
  | (.ok events, s) => persisted r (.ok events, s)
  | (.error _, s) => persisted r ((ingestReceive env r).run s)

end Ingest

end SignalConnector
