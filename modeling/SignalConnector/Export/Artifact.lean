/-
# The backup export artifact

`build_artifact` projects an account's store into the lines the engine's export
task reads. It collects the contacts out of the contacts cache, the group rosters
and the conversations, allocates ids to contacts and groups, and writes account,
contacts, groups, chats and chat items, in this order. What the line set cannot
carry is counted by its cause.
-/
import SignalConnector.Lib.Fold
import SignalConnector.Lib.SortedMap
import SignalConnector.Store.Lists

namespace SignalConnector

open List

namespace Export

/-! ### Peer keys -/

/-- The identity forms a peer key can carry. -/
structure PeerIdentity where
  aci : Option String
  e164 : Option String
  deriving DecidableEq

/-- `parse::<u64>` of a text without a sign. -/
def parseU64 (digits : List Char) : Option ℕ :=
  if digits.isEmpty ∨ digits.any fun c => !c.isDigit then none
  else if digitsValue digits < 2 ^ 64 then some (digitsValue digits) else none

variable (peerKey : String)

/-- `parse_e164`: the key itself, when it is a `+` and a number other than zero. -/
def parseE164 : Option String :=
  match peerKey.toList with
  | '+' :: digits => ((parseU64 digits).filter (· ≠ 0)).map fun _ => peerKey
  | _ => none

def e164Number (e164 : String) : Option ℕ := parseU64 (e164.toList.dropWhile (· = '+'))

def isHexDigit (c : Char) : Bool := c.isDigit || ('a' ≤ c && c ≤ 'f') || ('A' ≤ c && c ≤ 'F')

/-- `parse_aci`: the hexadecimal digits of a dashed or bare ACI, in lower case. -/
def parseAci : Option String :=
  let chars := peerKey.toList
  let hexChars :=
    if chars.length = 36 ∧ [8, 13, 18, 23].all fun index => chars[index]? = some '-' then
      some (chars.filter (· ≠ '-'))
    else if chars.length = 32 then some (chars.map Char.toLower)
    else none
  match hexChars with
  | some hexChars => if hexChars.all isHexDigit then some (String.ofList (hexChars.map Char.toLower)) else none
  | none => none

/-- What `collect` into a hash map leaves of the pairs: the last one of a key. -/
def lookupLast {α : Type} (pairs : List (String × α)) (key : String) : Option α :=
  (pairs.reverse.find? fun pair => pair.1 = key).map Prod.snd

/-- Who a peer key stands for. -/
def peerIdentity (aciByPeer : List (String × String)) : PeerIdentity where
  aci := (parseAci peerKey).or (lookupLast aciByPeer peerKey)
  e164 := parseE164 peerKey

/-- `base64_decode_to_vec`'s table. -/
def base64Value (c : Char) : Option ℕ :=
  if 'A' ≤ c ∧ c ≤ 'Z' then some (c.toNat - 'A'.toNat)
  else if 'a' ≤ c ∧ c ≤ 'z' then some (c.toNat - 'a'.toNat + 26)
  else if '0' ≤ c ∧ c ≤ '9' then some (c.toNat - '0'.toNat + 52)
  else if c = '+' then some 62
  else if c = '/' then some 63
  else none

/-- The bytes of the sextets; what is left over must be zero. -/
def decodeQuads : List ℕ → Option (List ℕ)
  | [] => some []
  | [_] => none
  | [a, b] => if b % 16 = 0 then some [a * 4 + b / 16] else none
  | [a, b, c] => if c % 4 = 0 then some [a * 4 + b / 16, b % 16 * 16 + c / 4] else none
  | a :: b :: c :: d :: rest =>
    (decodeQuads rest).map ([a * 4 + b / 16, b % 16 * 16 + c / 4, c % 4 * 64 + d] ++ ·)

/-- `base64_decode_to_vec`. -/
def base64Decode (input : String) : Option (List ℕ) :=
  let chars := input.toList
  if chars.length % 4 ≠ 0 then none
  else
    let padding := (chars.reverse.takeWhile (· = '=')).length
    if 2 < padding then none
    else ((chars.take (chars.length - padding)).mapM base64Value).bind decodeQuads

/-- `hex::encode`. -/
def hexEncode (bytes : List ℕ) : String :=
  String.ofList (bytes.flatMap fun byte => [Nat.digitChar (byte / 16), Nat.digitChar (byte % 16)])

/-- The 32 bytes of a group key, in hex. -/
def parseGroupMasterKey : Option String :=
  (base64Decode (trim peerKey)).bind fun decoded => if decoded.length = 32 then some (hexEncode decoded) else none

/-! ### Contacts -/

/-- `ContactEntry`; the id is 0 until all sources have contributed. -/
structure ContactEntry where
  id : ℕ
  aci : Option String
  e164 : Option String
  givenName : Option String
  forms : List String
  deriving DecidableEq

/-- The map's contact before anything is known of it. -/
def ContactEntry.blank : ContactEntry := ⟨0, none, none, none, []⟩

abbrev Contacts := SortedMap String ContactEntry

/-- The ACI, or else the number. -/
def canonicalContactKey (identity : PeerIdentity) : Option String :=
  match identity.aci with
  | some aci => some ("aci:" ++ aci)
  | none => identity.e164.map ("e164:" ++ ·)

def givenNameSourceBytes : ℕ := 256

/-- The forms with those not yet there, in order. -/
def addForms (forms : List String) (more : List String) : List String :=
  more.foldl (fun forms form => if form ≠ "" ∧ form ∉ forms then forms ++ [form] else forms) forms

/-- One identity merged into its contact, first wins. -/
def ContactEntry.merge (identity : PeerIdentity) (givenName : Option String) (rawForms : List String)
    (entry : ContactEntry) : ContactEntry where
  id := entry.id
  aci := entry.aci.or identity.aci
  e164 := entry.e164.or identity.e164
  givenName := entry.givenName.or (givenName.filter fun name => name ≠ "" ∧ name.utf8ByteSize ≤ givenNameSourceBytes)
  forms := addForms entry.forms (identity.aci.toList ++ identity.e164.toList ++ rawForms)

/-- `record_contact`: the contact's key, and the contacts with the identity in them. -/
def recordContact (contacts : Contacts) (identity : PeerIdentity) (givenName : Option String)
    (rawForms : List String) : Option String × Contacts :=
  match canonicalContactKey identity with
  | none => (none, contacts)
  | some key => (some key, contacts.alter key fun entry =>
      (entry.getD .blank).merge identity givenName rawForms)

def memberForms (member : RosterMember) : List String := member.id.toList ++ member.uuid.toList

/-- The identity of a roster's member: of its ACI form, completed by its other spelling. -/
def memberIdentity (member : RosterMember) (aciByPeer : List (String × String)) : PeerIdentity :=
  let base := ((member.uuid.filter (· ≠ "")).or member.id).getD ""
  let identity := peerIdentity base aciByPeer
  { aci := identity.aci.or ((memberForms member).findSome? parseAci)
    e164 := identity.e164.or ((memberForms member).findSome? parseE164) }

/-- The member becomes a contact: it has a spelling, and none of the account itself. -/
def memberIsPeer (signalAccount : String) (member : RosterMember) : Bool :=
  (member.id.isSome || member.uuid.isSome) && !(memberForms member).contains signalAccount

def rosterMembers (extra : Option (JsonCell ContactExtra)) : List RosterMember :=
  ((extra.bind JsonCell.ok).bind ContactExtra.members).getD []

/-- A contact for every peer of a roster. -/
def recordRosterMembers (extra : Option (JsonCell ContactExtra)) (aciByPeer : List (String × String))
    (signalAccount : String) (contacts : Contacts) : Contacts :=
  (rosterMembers extra).foldl (fun contacts member =>
    if memberIsPeer signalAccount member then
      (recordContact contacts (memberIdentity member aciByPeer) none (memberForms member)).2
    else contacts) contacts

/-! ### The identity projection -/

/-- What was left out. -/
structure SkipCounters where
  skippedReactions : ℕ
  skippedEdits : ℕ
  skippedQuotes : ℕ
  skippedAttachments : ℕ
  skippedViewOnce : ℕ
  skippedStickers : ℕ
  skippedSkeletonChats : ℕ
  skippedBodyTruncated : ℕ
  skippedRows : ℕ
  deriving DecidableEq

/-- Whom a chat is with. -/
inductive ChatRecipient
  | noteToSelf
  | contact (key : String)
  | group (masterKey : String)
  deriving DecidableEq

/-- A chat to be written. -/
structure PendingChat where
  conversationId : String
  recipient : ChatRecipient
  deriving DecidableEq

/-- What the two collecting loops have gathered. -/
structure Projection where
  contacts : Contacts
  groups : SortedMap String Unit
  chats : List PendingChat
  skippedSkeletonChats : ℕ

namespace Projection

def empty : Projection := ⟨.empty, .empty, [], 0⟩

def skipSkeleton (p : Projection) : Projection := { p with skippedSkeletonChats := p.skippedSkeletonChats + 1 }

def addGroup (p : Projection) (masterKey : String) : Projection :=
  { p with groups := p.groups.alter masterKey fun _ => () }

def addChat (p : Projection) (conversationId : String) (recipient : ChatRecipient) : Projection :=
  { p with chats := p.chats ++ [⟨conversationId, recipient⟩] }

variable (aciByPeer : List (String × String)) (signalAccount : String)

/-- The turn of a row of the contacts cache. -/
def addContactRow (p : Projection) (row : ContactRow) : Projection :=
  match row.kind with
  | .contact =>
    if row.peerKey = signalAccount then p
    else
      match recordContact p.contacts (peerIdentity row.peerKey aciByPeer) (some row.title) [row.peerKey] with
      | (some _, contacts) => { p with contacts }
      | (none, _) => p.skipSkeleton
  | .group =>
    match parseGroupMasterKey row.peerKey with
    | some masterKey =>
      let p := p.addGroup masterKey
      { p with contacts := recordRosterMembers row.extra aciByPeer signalAccount p.contacts }
    | none => p.skipSkeleton

def addConversation (p : Projection) (conversation : ConversationRow) : Projection :=
  match conversation.kind with
  | .direct =>
    if conversation.peerKey = signalAccount then p.addChat conversation.id .noteToSelf
    else
      match recordContact p.contacts (peerIdentity conversation.peerKey aciByPeer) (some conversation.title)
        [conversation.peerKey] with
      | (some key, contacts) => { p with contacts }.addChat conversation.id (.contact key)
      | (none, _) => p.skipSkeleton
  | .group =>
    match parseGroupMasterKey conversation.peerKey with
    | some masterKey => (p.addGroup masterKey).addChat conversation.id (.group masterKey)
    | none => p.skipSkeleton

end Projection

end Export

namespace Store

/-- By kind and peer key. -/
def backupContactRows (s : Store) (accountId : String) : List ContactRow :=
  (s.contacts.rows.filter fun c => c.accountId = accountId).insertionSort
    (lexLe (fun c => c.kind.rank) ContactRow.peerKey)

/-- By id. -/
def backupConversationRows (s : Store) (accountId : String) : List ConversationRow :=
  (s.conversations.rows.filter fun c => c.accountId = accountId).insertionSort fun a b => a.id ≤ b.id

/-- By time and id. -/
def backupMessageRows (s : Store) (accountId conversationId : String) : List MessageRow :=
  (s.messages.rows.filter fun m => m.accountId = accountId ∧ m.conversationId = conversationId).insertionSort
    (lexLe MessageRow.sentAt MessageRow.id)

/-- `backup_peer_identity_rows`: the ACI, then the peer key. -/
def backupPeerIdentityRows (s : Store) (accountId : String) : List (String × String) :=
  (s.peerIdentities.rows.filter fun r => r.accountId = accountId).map fun r => (r.aci, r.peerKey)

end Store

namespace Export

/-- The collecting loops of `build_artifact`. -/
def project (s : Store) (accountId signalAccount : String) : Projection :=
  let aciByPeer := s.backupPeerIdentityRows accountId
  let p := (s.backupContactRows accountId).foldl (Projection.addContactRow aciByPeer signalAccount) .empty
  (s.backupConversationRows accountId).foldl (Projection.addConversation aciByPeer signalAccount) p

/-! ### Lines -/

/-- An entry of a chat item's attachments; the pointer has the keys that are there. -/
structure AttachmentEntry where
  contentType : Option String
  fileName : Option String
  size : Option ℕ
  locator : AttachmentLocator
  deriving DecidableEq

inductive ArtifactLine
  | account (profileKey : String) (givenName : Option String)
  | contact (id : ℕ) (aci : Option String) (e164 : Option ℕ) (givenName : Option String)
  | group (id : ℕ) (masterKey : String)
  | chat (id recipient : ℕ)
  | chatItem (chat author dateSent : ℕ) (direction : Direction) (dateReceived : ℕ) (body : String)
      (attachments : List AttachmentEntry)
  | allChatFolder
  deriving DecidableEq

/-- `BuildError`; `missing` is the panic of an index that is not there. -/
inductive BuildError
  | noEngineDirectory
  | capExceeded (what : String)
  | missing
  deriving DecidableEq

def maxArtifactLineBytes : ℕ := 1048576

def maxArtifactLines : ℕ := 4000000

def maxArtifactTotalBytes : ℕ := 2147483648

def maxArtifactBodyBytes : ℕ := 131072

/-- The lines so far. -/
structure ArtifactWriter where
  lines : List ArtifactLine
  totalBytes : ℕ
  deriving DecidableEq

section Write

variable (encode : ArtifactLine → String)

/-- A line, within the three caps. -/
def ArtifactWriter.writeLine (writer : ArtifactWriter) (line : ArtifactLine) : Except BuildError ArtifactWriter :=
  let bytes := (encode line).utf8ByteSize + 1
  if maxArtifactLineBytes < bytes then .error (.capExceeded "per-line byte")
  else if maxArtifactTotalBytes < writer.totalBytes + bytes then .error (.capExceeded "artifact byte")
  else if maxArtifactLines < writer.lines.length + 1 then .error (.capExceeded "line count")
  else .ok ⟨writer.lines ++ [line], writer.totalBytes + bytes⟩

def ArtifactWriter.writeAll (writer : ArtifactWriter) (lines : List ArtifactLine) :
    Except BuildError ArtifactWriter := lines.foldlM (ArtifactWriter.writeLine encode) writer

/-- `project_attachment_entry`: none if no valid frame can be built of it. -/
def projectAttachmentEntry (attachment : AttachmentInfo) (locator : Option AttachmentLocator) :
    Option AttachmentEntry := do
  let locator ← locator
  let key ← locator.key.filter (· ≠ "")
  let plaintextHash := locator.plaintextHash.filter (· ≠ "")
  let digest := locator.digest.filter (· ≠ "")
  if plaintextHash.isNone ∧ digest.isNone then none
  let transit ← match locator.cdnKey, locator.cdnNumber with
    | none, none => some none
    | some cdnKey, some cdnNumber => if cdnKey ≠ "" then some (some (cdnKey, cdnNumber)) else none
    | _, _ => none
  if plaintextHash.isNone ∧ transit.isNone then none
  return {
    contentType := attachment.contentType.filter (· ≠ "")
    fileName := attachment.filename.filter (· ≠ "")
    size := attachment.size
    locator := {
      key := some key
      cdnKey := transit.map Prod.fst
      cdnNumber := transit.map Prod.snd
      uploadTimestamp := if transit.isSome then locator.uploadTimestamp.filter (0 < ·) else none
      digest := if plaintextHash.isSome then none else digest
      plaintextHash } }

/-- `project_row_attachments`: the entries, and whether one was lost. -/
def projectRowAttachments (row : MessageRow) : List AttachmentEntry × Bool :=
  match row.attachments with
  | none => ([], false)
  | some .malformed => ([], true)
  | some (.parsed attachments) =>
    let locators := (row.attachmentLocators.bind JsonCell.ok).getD []
    let entries := attachments.mapIdx fun index attachment => projectAttachmentEntry attachment locators[index]?
    (entries.filterMap id, entries.any Option.isNone)

/-- Content for one view. -/
def richHasViewOnce (rich : Option (JsonCell NormalizedRich)) : Bool :=
  (rich.bind JsonCell.ok).any fun rich => rich.viewOnce || rich.viewOnceInvalid

/-- System rows, tombstones and unconfirmed sends. -/
def rowIsGated (row : MessageRow) : Bool :=
  row.status = .system || row.direction = .system || row.status = .remoteDeleted || row.adminDeleted ||
    row.direction = .outgoing && !(row.status = .sent || row.status = .delivered || row.status = .read)

/-- The features of a row that the line set cannot carry. -/
def countColumns (counters : SkipCounters) (row : MessageRow) : SkipCounters :=
  { counters with
    skippedViewOnce := counters.skippedViewOnce + (richHasViewOnce row.rich).toNat
    skippedStickers := counters.skippedStickers + row.sticker.isSome.toNat
    skippedQuotes := counters.skippedQuotes + row.quoteMessageId.isSome.toNat
    skippedAttachments := counters.skippedAttachments + (projectRowAttachments row).2.toNat }

def itemLine (chatId author : ℕ) (row : MessageRow) : ArtifactLine :=
  .chatItem chatId author row.sentAt.toNat row.direction (row.receivedAt.getD row.sentAt).toNat (row.body.getD "")
    (projectRowAttachments row).1

/-- The author of a row: the account itself of an outgoing one, else the contact of its sender id. -/
def rowAuthor (senderIds : List (String × ℕ)) (row : MessageRow) : Option ℕ :=
  if row.direction = .outgoing then some 0 else lookupLast senderIds row.senderId

def writeRow (senderIds : List (String × ℕ)) (chatId : ℕ) (acc : ArtifactWriter × SkipCounters)
    (row : MessageRow) : Except BuildError (ArtifactWriter × SkipCounters) :=
  let (writer, counters) := acc
  let skipRow (counters : SkipCounters) : SkipCounters := { counters with skippedRows := counters.skippedRows + 1 }
  if rowIsGated row then .ok (writer, skipRow counters)
  else
    let counters := countColumns counters row
    if row.body.getD "" = "" ∧ (projectRowAttachments row).1 = [] then .ok (writer, skipRow counters)
    else if row.bodyTruncated then
      .ok (writer, { counters with skippedBodyTruncated := counters.skippedBodyTruncated + 1 })
    else if maxArtifactBodyBytes < (row.body.getD "").utf8ByteSize then .error (.capExceeded "chat item body")
    else
      match rowAuthor senderIds row with
      | none => .ok (writer, skipRow counters)
      | some author => (writer.writeLine encode (itemLine chatId author row)).map fun writer => (writer, counters)

variable (sha256 : String → String)

/-- The contacts with their ids, in key order from 1. -/
def allocate (contacts : Contacts) : Contacts := contacts.mapIdx fun i entry => { entry with id := 1 + i }

/-- The ids of the groups, in master-key order from 1. -/
def groupIds (groups : SortedMap String Unit) : SortedMap String ℕ := groups.mapIdx fun i _ => 1 + i

/-- The sender reverse map: every spelling of every contact under both namespaces. -/
def senderIds (accountId : String) (contacts : Contacts) : List (String × ℕ) :=
  contacts.entries.flatMap fun (_, entry) => entry.forms.flatMap fun form =>
    [ConversationKind.direct, .group].map fun kind => (stableHashId sha256 [accountId, kind.asStr, form], entry.id)

def contactLine (entry : ContactEntry) : ArtifactLine :=
  .contact entry.id entry.aci (entry.e164.bind e164Number) entry.givenName

def recipientId (contacts : Contacts) (groupIds : SortedMap String ℕ) : ChatRecipient → Option ℕ
  | .noteToSelf => some 0
  | .contact key => (contacts.find? key).map ContactEntry.id
  | .group masterKey => groupIds.find? masterKey

/-- A key made of the number. -/
def derivedAccountProfileKey (signalAccount : String) : String :=
  stableHashId sha256 ["kt-signal-connector/backup-export/account-profile-key", signalAccount]

def chatLines (contacts : Contacts) (groupIds : SortedMap String ℕ) (chats : List PendingChat) :
    Except BuildError (List ArtifactLine) :=
  chats.zipIdx.mapM fun (chat, index) =>
    match recipientId contacts groupIds chat.recipient with
    | some recipient => .ok (.chat (index + 1) recipient)
    | none => .error .missing

/-- The artifact, section by section. -/
def writeLines (s : Store) (accountId signalAccount : String) (p : Projection) (counters : SkipCounters) :
    Except BuildError (ArtifactWriter × SkipCounters) := do
  let contacts := allocate p.contacts
  let groups := groupIds p.groups
  let displayName := ((s.accounts.find? accountId).bind AccountRow.displayName).filter (· ≠ "")
  let writer ← ArtifactWriter.writeAll encode ⟨[], 0⟩
    (.account (derivedAccountProfileKey sha256 signalAccount) displayName ::
      contacts.entries.map (fun e => contactLine e.2) ++ groups.entries.map fun e => .group e.2 e.1)
  let writer ← writer.writeAll encode (← chatLines contacts groups p.chats)
  let (writer, counters) ← p.chats.zipIdx.foldlM (fun acc (chat, index) =>
    (s.backupMessageRows accountId chat.conversationId).foldlM
      (writeRow encode (senderIds sha256 accountId contacts) (index + 1)) acc) (writer, counters)
  let writer ← writer.writeLine encode .allChatFolder
  return (writer, counters)

/-- `build_artifact`: the lines of the file that is written, and the counters. A build that fails leaves no file. -/
def buildArtifact (accountDir : Option String) (s : Store) (accountId signalAccount : String) :
    Except BuildError (List ArtifactLine × SkipCounters) :=
  match accountDir with
  | none => .error .noEngineDirectory
  | some _ =>
    let p := project s accountId signalAccount
    let counters : SkipCounters :=
      { skippedReactions := (s.messageEvents.rows.filter fun r => r.accountId = accountId).length
        skippedEdits := (s.messageEdits.rows.filter fun r => r.accountId = accountId).length
        skippedQuotes := 0
        skippedAttachments := 0
        skippedViewOnce := 0
        skippedStickers := 0
        skippedSkeletonChats := p.skippedSkeletonChats
        skippedBodyTruncated := 0
        skippedRows := 0 }
    (writeLines encode sha256 s accountId signalAccount p counters).map fun (writer, counters) =>
      (writer.lines, counters)

end Write

/-! ### What is written -/

section Written

variable {encode : ArtifactLine → String} {sha256 : String → String} {writer writer' : ArtifactWriter}
  {counters counters' : SkipCounters} {ids : List (String × ℕ)}

theorem writeLine_ok {line : ArtifactLine} (h : writer.writeLine encode line = .ok writer') :
    writer'.lines = writer.lines ++ [line] := by
  unfold ArtifactWriter.writeLine at h
  dsimp only at h
  split_ifs at h
  cases h
  rfl

theorem writeAll_ok {lines : List ArtifactLine} (h : writer.writeAll encode lines = .ok writer') :
    writer'.lines = writer.lines ++ lines := by
  unfold ArtifactWriter.writeAll at h
  induction lines generalizing writer with
  | nil =>
    cases h
    exact (append_nil _).symm
  | cons line lines ih =>
    rw [foldlM_cons] at h
    obtain ⟨w, hline, hrest⟩ := exists_of_bind_ok h
    rw [ih hrest, writeLine_ok hline, append_assoc]
    rfl

/-- The row has content the line set can carry, and the whole of it. -/
def rowPasses (row : MessageRow) : Bool :=
  !rowIsGated row && !(row.body.getD "" = "" && (projectRowAttachments row).1 = []) && !row.bodyTruncated

/-- The line a row is written as. -/
def rowLine (ids : List (String × ℕ)) (chatId : ℕ) (row : MessageRow) : Option ArtifactLine :=
  if rowPasses row then (rowAuthor ids row).map (itemLine chatId · row) else none

/-- What the counters say was left out of the rows. -/
def SkipCounters.leftOut (counters : SkipCounters) : ℕ := counters.skippedRows + counters.skippedBodyTruncated

theorem writeRow_ok {chatId : ℕ} {row : MessageRow}
    (h : writeRow encode ids chatId (writer, counters) row = .ok (writer', counters')) :
    writer'.lines = writer.lines ++ (rowLine ids chatId row).toList ∧
      (rowLine ids chatId row).toList.length + counters'.leftOut = counters.leftOut + 1 := by
  unfold writeRow at h
  dsimp only at h
  unfold rowLine rowPasses
  by_cases hgated : rowIsGated row = true
  · rw [if_pos hgated] at h
    cases h
    simp [hgated, SkipCounters.leftOut]
    omega
  rw [if_neg hgated] at h
  by_cases hempty : row.body.getD "" = "" ∧ (projectRowAttachments row).1 = []
  · rw [if_pos hempty] at h
    cases h
    simp [hempty, SkipCounters.leftOut, countColumns]
    omega
  rw [if_neg hempty] at h
  by_cases htruncated : row.bodyTruncated = true
  · rw [if_pos htruncated] at h
    cases h
    simp [htruncated, SkipCounters.leftOut, countColumns]
    omega
  rw [if_neg htruncated] at h
  have hpasses : (!rowIsGated row && !(row.body.getD "" = "" && (projectRowAttachments row).1 = []) &&
      !row.bodyTruncated) = true := by
    simpa [hgated, htruncated] using not_and_or.mp hempty
  rw [if_pos hpasses]
  split at h
  · cases h
  · split at h
    · next hauthor =>
      cases h
      simp [hauthor, SkipCounters.leftOut, countColumns]
      omega
    · next author hauthor =>
      obtain ⟨w, hline, heq⟩ := exists_of_map_ok h
      cases heq
      simp [hauthor, SkipCounters.leftOut, countColumns, writeLine_ok hline]
      omega

theorem foldlM_writeRow {chatId : ℕ} {rows : List MessageRow} {acc r : ArtifactWriter × SkipCounters}
    (h : rows.foldlM (writeRow encode ids chatId) acc = .ok r) :
    r.1.lines = acc.1.lines ++ rows.filterMap (rowLine ids chatId) ∧
      (rows.filterMap (rowLine ids chatId)).length + r.2.leftOut = acc.2.leftOut + rows.length := by
  induction rows generalizing acc with
  | nil =>
    cases h
    simp
  | cons row rows ih =>
    rw [foldlM_cons] at h
    obtain ⟨q, hrow, hrest⟩ := exists_of_bind_ok h
    obtain ⟨hlines, hcount⟩ := writeRow_ok hrow
    obtain ⟨hlines', hcount'⟩ := ih hrest
    rw [hlines', hlines, append_assoc]
    rcases hline : rowLine ids chatId row with _ | line <;>
      simp only [hline, Option.toList_none, Option.toList_some, length_nil, length_singleton] at hcount <;>
      simp [hline] <;> omega

def chatRows (s : Store) (accountId : String) (chat : PendingChat) : List MessageRow :=
  s.backupMessageRows accountId chat.conversationId

/-- The chat items of the chats, chat by chat and row by row. -/
def itemLines (s : Store) (accountId : String) (ids : List (String × ℕ)) (chats : List (PendingChat × ℕ)) :
    List ArtifactLine :=
  chats.flatMap fun chat => (chatRows s accountId chat.1).filterMap (rowLine ids (chat.2 + 1))

theorem foldlM_writeRows {s : Store} {accountId : String} {chats : List (PendingChat × ℕ)}
    {acc r : ArtifactWriter × SkipCounters} (h : chats.foldlM (fun acc chat =>
      (chatRows s accountId chat.1).foldlM (writeRow encode ids (chat.2 + 1)) acc) acc = .ok r) :
    r.1.lines = acc.1.lines ++ itemLines s accountId ids chats ∧
      (itemLines s accountId ids chats).length + r.2.leftOut =
        acc.2.leftOut + (chats.map fun chat => (chatRows s accountId chat.1).length).sum := by
  unfold itemLines
  induction chats generalizing acc with
  | nil =>
    cases h
    simp
  | cons chat chats ih =>
    rw [foldlM_cons] at h
    obtain ⟨q, hchat, hrest⟩ := exists_of_bind_ok h
    obtain ⟨hlines, hcount⟩ := foldlM_writeRow hchat
    obtain ⟨hlines', hcount'⟩ := ih hrest
    rw [hlines', hlines, append_assoc, flatMap_cons, length_append, map_cons, sum_cons]
    exact ⟨rfl, by omega⟩

def identityLines (p : Projection) : List ArtifactLine :=
  (allocate p.contacts).entries.map (fun e => contactLine e.2) ++
    (groupIds p.groups).entries.map fun e => .group e.2 e.1

/-- **What an artifact consists of.** Account, contacts, groups, chats, items and the closing marker; every row of a
chat is an item or counted. -/
theorem buildArtifact_ok {accountDir : Option String} {s : Store} {accountId signalAccount : String}
    {lines : List ArtifactLine}
    (h : buildArtifact encode sha256 accountDir s accountId signalAccount = .ok (lines, counters)) :
    ∃ profileKey givenName chats, chatLines (allocate (project s accountId signalAccount).contacts)
        (groupIds (project s accountId signalAccount).groups) (project s accountId signalAccount).chats = .ok chats ∧
      lines = .account profileKey givenName :: identityLines (project s accountId signalAccount) ++ chats ++
        itemLines s accountId (senderIds sha256 accountId (allocate (project s accountId signalAccount).contacts))
          (project s accountId signalAccount).chats.zipIdx ++ [.allChatFolder] ∧
      (itemLines s accountId (senderIds sha256 accountId (allocate (project s accountId signalAccount).contacts))
          (project s accountId signalAccount).chats.zipIdx).length + counters.leftOut =
        ((project s accountId signalAccount).chats.map fun chat => (chatRows s accountId chat).length).sum := by
  unfold buildArtifact at h
  split at h
  · cases h
  obtain ⟨⟨writer, counters'⟩, hwrite, heq⟩ := exists_of_map_ok h
  cases heq
  unfold writeLines at hwrite
  obtain ⟨w₁, hidentities, hwrite⟩ := exists_of_bind_ok hwrite
  obtain ⟨chats, hchats, hwrite⟩ := exists_of_bind_ok hwrite
  obtain ⟨w₂, hchatLines, hwrite⟩ := exists_of_bind_ok hwrite
  obtain ⟨⟨w₃, counters₃⟩, hitems, hwrite⟩ := exists_of_bind_ok hwrite
  obtain ⟨w₄, hfolder, hwrite⟩ := exists_of_bind_ok hwrite
  cases hwrite
  obtain ⟨hlines, hcount⟩ := foldlM_writeRows (s := s) hitems
  refine ⟨derivedAccountProfileKey sha256 signalAccount,
    ((s.accounts.find? accountId).bind AccountRow.displayName).filter (· ≠ ""), chats, hchats, ?_, ?_⟩
  · rw [writeLine_ok hfolder, hlines, writeAll_ok hchatLines, writeAll_ok hidentities]
    rfl
  · have hchats : ∀ chats : List PendingChat, (chats.zipIdx.map fun chat => (chatRows s accountId chat.1).length) =
        chats.map fun chat => (chatRows s accountId chat).length := fun chats => by
      rw [← zipIdx_map_fst 0 chats, map_map]
      simp
    rw [hchats] at hcount
    exact hcount.trans (Nat.zero_add _)

end Written

end Export

end SignalConnector
