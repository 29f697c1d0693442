/-
# Peer receipts

`apply_peer_receipt` folds one receipt envelope into the store in one
transaction. For each timestamp of the envelope it selects up to eight
outgoing rows, keeps those whose conversation qualifies for the sender, stamps
the per-recipient ledger and moves the row up the ladder `pending, sent →
delivered → read`. The decision is taken on the selected row; the `UPDATE`
that carries it out names the account, the conversation and the timestamp.
-/
import SignalConnector.Lib.Fold
import SignalConnector.Store.Identity
import SignalConnector.Store.Record

namespace SignalConnector

/-- The three tiers. -/
inductive ReceiptKind
  | delivered | read | viewed
  deriving DecidableEq

namespace ReceiptKind

/-- `ReceiptKind::as_str`: the rung of the ladder a receipt asks for. -/
def asStr : ReceiptKind → MessageStatus
  | delivered => .delivered
  | read => .read
  | viewed => .read

end ReceiptKind

/-- `RecipientReceiptRow`: the ledger row's face. -/
structure RecipientReceiptRow where
  recipient : String
  sentAt : Option ℕ
  failedAt : Option ℕ
  deliveredAt : Option ℕ
  readAt : Option ℕ
  viewedAt : Option ℕ
  deriving DecidableEq

/-- The arguments of one `apply_peer_receipt` call. -/
structure PeerReceipt where
  accountId : String
  recipient : String
  targetSentAt : List ℕ
  receipt : ReceiptKind
  when : ℕ
  deriving DecidableEq

/-- What a receipt did. -/
structure PeerReceiptOutcome where
  moved : List MessageRecord
  viewedConfirmed : List MessageRecord
  receiptsChanged : List (String × List RecipientReceiptRow)
  matchedTimestamps : List ℕ
  blockedTimestamps : List ℕ
  deriving DecidableEq

namespace PeerReceiptOutcome

def default : PeerReceiptOutcome := ⟨[], [], [], [], []⟩

end PeerReceiptOutcome

/-- `SendReceiptSeed`: one recipient of a settled group send. -/
structure SendReceiptSeed where
  recipient : String
  succeeded : Bool
  deriving DecidableEq

def maxMessageReceiptRecipients : ℕ := 1001

/-! ### The ledger -/

/-- Binding a `u64` parameter, which SQLite refuses above `i64::MAX`. -/
def sqlU64 (n : ℕ) : Except StoreError ℤ := if n < 2 ^ 63 then .ok n else .error .unavailable

namespace MessageReceiptRow

/-- The stamp of the tier a receipt of this kind writes. -/
def tier (row : MessageReceiptRow) : ReceiptKind → Option ℤ
  | .delivered => row.deliveredAt
  | .read => row.readAt
  | .viewed => row.viewedAt

/-- The row `INSERT INTO message_receipts(message_id, recipient, updated_at)` makes. -/
def fresh (messageId recipient : String) (updatedAt : ℤ) : MessageReceiptRow :=
  ⟨messageId, recipient, none, none, none, none, none, updatedAt⟩

/-- The ledger's `UPDATE`: the tier's first stamp, and `updated_at`. -/
def stamp (kind : ReceiptKind) (stamped updatedAt : ℤ) (row : MessageReceiptRow) : MessageReceiptRow :=
  { row with
    deliveredAt := row.deliveredAt.or (if kind = .delivered then some stamped else none)
    readAt := row.readAt.or (if kind = .read then some stamped else none)
    viewedAt := row.viewedAt.or (if kind = .viewed then some stamped else none)
    updatedAt := updatedAt }

/-- The `UPDATE` of a send's own seed: the first `sent_at` or `failed_at`, and `updated_at`. -/
def seed (succeeded : Bool) (when : ℤ) (row : MessageReceiptRow) : MessageReceiptRow :=
  { row with
    sentAt := row.sentAt.or (if succeeded then some when else none)
    failedAt := row.failedAt.or (if succeeded then none else some when)
    updatedAt := when }

/-- The face `ledger_stamp_receipt` reads off a row. -/
def face (row : MessageReceiptRow) : RecipientReceiptRow where
  recipient := row.recipient
  sentAt := row.sentAt.map Int.toNat
  failedAt := row.failedAt.map Int.toNat
  deliveredAt := row.deliveredAt.map Int.toNat
  readAt := row.readAt.map Int.toNat
  viewedAt := row.viewedAt.map Int.toNat

end MessageReceiptRow

namespace Store

variable (s : Store)

def ledgerCount (messageId : String) : ℕ :=
  s.messageReceipts.rows.countP fun r => r.messageId = messageId

/-- `message_receipts_for`: the ledger of a message of the account. -/
def messageReceiptsFor (accountId messageId : String) : List RecipientReceiptRow :=
  let rows := s.messageReceipts.rows.filter fun r =>
    r.messageId = messageId ∧ (s.messages.find? messageId).any fun m => m.accountId = accountId
  (rows.insertionSort fun a b => a.recipient ≤ b.recipient).map MessageReceiptRow.face

/-- The write half of `ledger_stamp_receipt`, on a row whose tier is open. -/
def ledgerStampOpen (row : MessageReceiptRow) (receipt : ReceiptKind) (when : ℕ) :
    Except StoreError (Option (List RecipientReceiptRow) × Store) := do
  let stamped ← sqlU64 when
  let ledger := s.messageReceipts.update (fun r => r.key = row.key)
    (MessageReceiptRow.stamp receipt stamped (asI64 when)) fun _ => rfl
  return (some [(row.stamp receipt stamped (asI64 when)).face], { s with messageReceipts := ledger })

variable (messageId recipient : String) (seeds : List SendReceiptSeed) (when : ℕ)

/-- `ledger_stamp_receipt`: `none` when nothing changed. -/
def ledgerStampReceipt (receipt : ReceiptKind) (when : ℕ) :
    Except StoreError (Option (List RecipientReceiptRow) × Store) :=
  match s.messageReceipts.find? (messageId, recipient) with
  | some row => if (row.tier receipt).isSome then .ok (none, s) else s.ledgerStampOpen row receipt when
  | none =>
    if maxMessageReceiptRecipients ≤ s.ledgerCount messageId then .ok (none, s)
    else
      let row := MessageReceiptRow.fresh messageId recipient (asI64 when)
      ledgerStampOpen { s with messageReceipts := s.messageReceipts.insertOrIgnore row } row receipt when

/-- One round of `seed_send_receipts`: the recipient's first `sent_at` or `failed_at`. -/
def seedRound (s : Store) (seed : SendReceiptSeed) : Store :=
  if seed.recipient = "" then s
  else
    match s.messageReceipts.find? (messageId, seed.recipient) with
    | some row =>
      let ledger := s.messageReceipts.update (fun r => r.key = row.key)
        (MessageReceiptRow.seed seed.succeeded (asI64 when)) fun _ => rfl
      { s with messageReceipts := ledger }
    | none =>
      if maxMessageReceiptRecipients ≤ s.ledgerCount messageId then s
      else
        let row := (MessageReceiptRow.fresh messageId seed.recipient (asI64 when)).seed seed.succeeded
          (asI64 when)
        { s with messageReceipts := s.messageReceipts.insertOrIgnore row }

/-- `seed_send_receipts`: the settled row's account, and its roster in the ledger. -/
def seedSendReceipts (when : ℕ) : Option String × Store :=
  if seeds.isEmpty then (none, s)
  else
    match s.messages.find? messageId with
    | none => (none, s)
    | some row => (some row.accountId, (seeds.take 256).foldl (seedRound messageId when) s)

/-- The ledger is all `seed_send_receipts` writes. -/
theorem seedSendReceipts_frame : ∃ ledger, (s.seedSendReceipts messageId seeds when).2 = { s with messageReceipts := ledger } := by
  have hfold : ∀ (l : List SendReceiptSeed) (s : Store),
      ∃ ledger, l.foldl (seedRound messageId when) s = { s with messageReceipts := ledger } := by
    intro l
    induction l with
    | nil => exact fun s => ⟨s.messageReceipts, rfl⟩
    | cons seed l ih =>
      intro s
      obtain ⟨ledger, hround⟩ : ∃ ledger, seedRound messageId when s seed =
          { s with messageReceipts := ledger } := by
        unfold seedRound
        split
        · exact ⟨_, rfl⟩
        split
        · exact ⟨_, rfl⟩
        split
        · exact ⟨_, rfl⟩
        · exact ⟨_, rfl⟩
      obtain ⟨ledger', hrest⟩ := ih (seedRound messageId when s seed)
      exact ⟨ledger', by rw [List.foldl_cons, hrest, hround]⟩
  unfold seedSendReceipts
  split
  · exact ⟨s.messageReceipts, rfl⟩
  split
  · exact ⟨s.messageReceipts, rfl⟩
  · exact hfold _ s

/-- The ledger is all `ledger_stamp_receipt` writes. -/
theorem ledgerStampReceipt_frame {s s' : Store} {messageId recipient : String} {receipt : ReceiptKind}
    {when : ℕ} {face : Option (List RecipientReceiptRow)}
    (h : s.ledgerStampReceipt messageId recipient receipt when = .ok (face, s')) :
    ∃ ledger, s' = { s with messageReceipts := ledger } := by
  have hopen : ∀ (s₁ : Store) (row : MessageReceiptRow),
      s₁.ledgerStampOpen row receipt when = .ok (face, s') →
        ∃ ledger, s' = { s₁ with messageReceipts := ledger } := by
    intro s₁ row h
    unfold ledgerStampOpen sqlU64 at h
    split at h
    · cases h
      exact ⟨_, rfl⟩
    · cases h
  unfold ledgerStampReceipt at h
  split at h
  · split at h
    · cases h
      exact ⟨s.messageReceipts, rfl⟩
    · exact hopen _ _ h
  · split at h
    · cases h
      exact ⟨s.messageReceipts, rfl⟩
    · obtain ⟨ledger, rfl⟩ := hopen _ _ h
      exact ⟨ledger, rfl⟩

end Store

/-! ### The row ladder -/

/-- The ladder's move: `pending | sent` under a delivery receipt, everything below `read` under a
read or viewed one. -/
def nextStatus : MessageStatus → MessageStatus → Option MessageStatus
  | .delivered, .pending | .delivered, .sent => some .delivered
  | .read, .pending | .read, .sent | .read, .delivered => some .read
  | _, _ => none

namespace MessageStatus

/-- The statuses a receipt can move or confirm. -/
def onLadder : MessageStatus → Bool
  | pending | sent | delivered | read => true
  | _ => false

end MessageStatus

namespace MessageRow

/-- The key of the receipt's `UPDATE`. -/
def atKey (accountId conversationId : String) (sentAt : ℤ) (x : MessageRow) : Bool :=
  x.accountId = accountId ∧ x.conversationId = conversationId ∧ x.sentAt = sentAt

/-- `SET viewed_at=?4`. -/
def stampViewed (when : ℤ) (x : MessageRow) : MessageRow := { x with viewedAt := some when }

/-- `SET status=?4, delivered_at=…, read_at=…, viewed_at=…`: the rung, and the first stamp of each
tier it passes. -/
def upgrade (next : MessageStatus) (when : ℤ) (firstView : Bool) (x : MessageRow) : MessageRow :=
  { x with
    status := next
    deliveredAt := if next = .delivered then x.deliveredAt.or (some when) else x.deliveredAt
    readAt := if next = .read then x.readAt.or (some when) else x.readAt
    viewedAt := if firstView then x.viewedAt.or (some when) else x.viewedAt }

end MessageRow

namespace PeerReceipt

/-- The ladder's move for a selected row. -/
def next (r : PeerReceipt) (m : MessageRow) : Option MessageStatus := nextStatus r.receipt.asStr m.status

/-- A viewed receipt meets a row on the ladder that nobody viewed yet. -/
def firstView (r : PeerReceipt) (m : MessageRow) : Bool :=
  r.receipt = .viewed && m.viewedAt.isNone && m.status.onLadder

/-- The legs an outcome record clears before it is reported. -/
def report (record : MessageRecord) : MessageRecord :=
  { record with serverGuid := none, serverTimestamp := none, sendOutcomes := none }

end PeerReceipt

namespace Store

/-- The rows one timestamp selects: outgoing, joined with their conversation, the first eight by id. -/
def receiptCandidates (s : Store) (accountId : String) (sentAt : ℤ) :
    List (MessageRow × ConversationRow) :=
  let rows := s.messages.rows.filter fun m =>
    m.accountId = accountId ∧ m.sentAt = sentAt ∧ m.direction = .outgoing
  let joined := rows.filterMap fun m => (s.conversations.find? m.conversationId).map fun c => (m, c)
  (joined.insertionSort fun a b => a.1.id ≤ b.1.id).take 8

variable (r : PeerReceipt)

variable (s : Store) (acc : PeerReceiptOutcome × Store)

/-- The loop over the selected rows, for one whose conversation qualifies: the ledger, then its own `UPDATE`. -/
def applyToRow (m : MessageRow) : Except StoreError (PeerReceiptOutcome × Store) := do
  let (outcome, s) := acc
  let (face, s) ← s.ledgerStampReceipt m.id r.recipient r.receipt r.when
  let outcome := { outcome with
    receiptsChanged := outcome.receiptsChanged ++ (face.map fun rows => (m.id, rows)).toList }
  let record := messageRecordFromRow m
  match r.next m with
  | none =>
    if r.firstView m then
      let messages := s.messages.update (MessageRow.atKey r.accountId m.conversationId m.sentAt)
        (MessageRow.stampViewed (asI64 r.when)) fun _ => rfl
      let reported := PeerReceipt.report { record with viewedAt := some r.when }
      return ({ outcome with viewedConfirmed := outcome.viewedConfirmed ++ [reported] }, { s with messages })
    else return (outcome, s)
  | some next =>
    let messages := s.messages.update (MessageRow.atKey r.accountId m.conversationId m.sentAt)
      (MessageRow.upgrade next (asI64 r.when) (r.firstView m)) fun _ => rfl
    let reported := PeerReceipt.report { record with
      status := next
      deliveredAt := if next = .delivered then some r.when else record.deliveredAt
      readAt := if next = .read then some r.when else record.readAt
      viewedAt := if r.firstView m then some r.when else record.viewedAt }
    return ({ outcome with moved := outcome.moved ++ [reported] }, { s with messages })

/-- The selected rows of a timestamp whose conversation qualifies for the receipt's sender. -/
def qualifiedRows (r : PeerReceipt) (sentAt : ℤ) : List MessageRow :=
  ((s.receiptCandidates r.accountId sentAt).filter fun mc => s.qualifies r.accountId r.recipient mc.2).map
    Prod.fst

/-- The body of the loop over the timestamps. -/
def applyAt (timestamp : ℕ) : Except StoreError (PeerReceiptOutcome × Store) := do
  let rows := acc.2.receiptCandidates r.accountId (asI64 timestamp)
  if rows.isEmpty then return acc
  let qualified := acc.2.qualifiedRows r (asI64 timestamp)
  let (outcome, s) ← qualified.foldlM (applyToRow r) acc
  if qualified.isEmpty then
    return ({ outcome with blockedTimestamps := outcome.blockedTimestamps ++ [timestamp] }, s)
  else return ({ outcome with matchedTimestamps := outcome.matchedTimestamps ++ [timestamp] }, s)

/-! ### What a receipt writes -/

/-- What the round for the selected row `m` does to a row `x`. -/
def writeOf (m x : MessageRow) : MessageRow :=
  if x.atKey r.accountId m.conversationId m.sentAt then
    match r.next m with
    | some next => x.upgrade next (asI64 r.when) (r.firstView m)
    | none => if r.firstView m then x.stampViewed (asI64 r.when) else x
  else x

/-- What the rounds for the selected rows `ms` do to a row `x`. -/
def writesOf (ms : List MessageRow) (x : MessageRow) : MessageRow :=
  ms.foldl (fun x m => writeOf r m x) x

/-- Everything but the messages and the ledger is as it was. -/
def ReceiptFrame (s' : Store) : Prop :=
  s' = { s with messages := s'.messages, messageReceipts := s'.messageReceipts }

theorem ReceiptFrame.refl : ReceiptFrame s s := rfl

theorem ReceiptFrame.trans {s s₁ s' : Store} (h : ReceiptFrame s s₁) (h' : ReceiptFrame s₁ s') :
    ReceiptFrame s s' := by
  unfold ReceiptFrame at *
  rw [h', h]

theorem ReceiptFrame.conversations {s s' : Store} (h : ReceiptFrame s s') : s'.conversations = s.conversations := by
  unfold ReceiptFrame at h
  rw [h]

theorem ReceiptFrame.contacts {s s' : Store} (h : ReceiptFrame s s') : s'.contacts = s.contacts := by
  unfold ReceiptFrame at h
  rw [h]

theorem ReceiptFrame.peerIdentities {s s' : Store} (h : ReceiptFrame s s') :
    s'.peerIdentities = s.peerIdentities := by
  unfold ReceiptFrame at h
  rw [h]

theorem applyToRow_spec {r : PeerReceipt} {acc acc' : PeerReceiptOutcome × Store} {m : MessageRow}
    (h : applyToRow r acc m = .ok acc') :
    ReceiptFrame acc.2 acc'.2 ∧ acc'.2.messages.rows = acc.2.messages.rows.map (writeOf r m) := by
  obtain ⟨⟨face, s₁⟩, hledger, h⟩ := exists_of_bind_ok h
  obtain ⟨ledger, rfl⟩ := ledgerStampReceipt_frame hledger
  unfold writeOf
  cases hnext : r.next m with
  | none =>
    simp only [hnext] at h
    by_cases hview : r.firstView m
    · rw [if_pos hview] at h
      cases h
      refine ⟨rfl, List.map_congr_left fun x _ => ?_⟩
      simp only [hview, if_true]
    · rw [if_neg hview] at h
      cases h
      refine ⟨rfl, ?_⟩
      simp [hview]
  | some =>
    simp only [hnext] at h
    cases h
    exact ⟨rfl, rfl⟩

theorem applyAt_spec {r : PeerReceipt} {acc acc' : PeerReceiptOutcome × Store} {t : ℕ}
    (h : applyAt r acc t = .ok acc') : ReceiptFrame acc.2 acc'.2 ∧
      acc'.2.messages.rows = acc.2.messages.rows.map (writesOf r (acc.2.qualifiedRows r (asI64 t))) := by
  unfold applyAt at h
  dsimp only at h
  split at h
  · next hempty =>
    cases h
    have hnone : acc.2.qualifiedRows r (asI64 t) = [] := by
      simp [qualifiedRows, List.isEmpty_iff.mp hempty]
    refine ⟨.refl _, ?_⟩
    rw [hnone]
    exact (List.map_id _).symm
  · obtain ⟨⟨outcome, s₁⟩, hfold, h⟩ := exists_of_bind_ok h
    have hframe : ReceiptFrame acc.2 s₁ :=
      foldlM_preserves (fun acc' => ReceiptFrame acc.2 acc'.2)
        (fun _ _ _ hs hstep => hs.trans (applyToRow_spec hstep).1) _ _ _ (.refl _) hfold
    have hrows : s₁.messages.rows = _ :=
      foldlM_project (fun acc' => acc'.2.messages.rows) (fun rows m => rows.map (writeOf r m))
        (fun _ _ _ hstep => (applyToRow_spec hstep).2) _ _ _ hfold
    rw [foldl_map_rows] at hrows
    split at h
    all_goals
      cases h
      exact ⟨hframe, hrows⟩

/-- `apply_peer_receipt`. An error rolls the transaction back, so it carries no store. -/
def applyPeerReceipt (r : PeerReceipt) : Except StoreError (PeerReceiptOutcome × Store) :=
  if r.targetSentAt.isEmpty ∨ r.recipient = "" then .ok (.default, s)
  else (r.targetSentAt.take 256).foldlM (applyAt r) (.default, s)

end Store

end SignalConnector
