/-
# What a conversation summary is made of

A summary shows, besides the stored columns of its conversation, some forty
faces that are derived when it is read: from other columns of the row, from the
newest message and the pins, from the contacts cache and the identity bridge,
from the draft and the avatar.

`Database` keeps the columns the writers use. A `FaceBase` adds the ones that
only the summaries read, by the id of the row they belong to.
-/
import SignalConnector.Store.Database
import SignalConnector.Store.Identity
import SignalConnector.Store.Read

namespace SignalConnector

/-! ### Columns that only the summaries read -/

/-- The rest of a `conversations` row: `identity_verified_json` is the trust word of a well-formed stamp. -/
structure ConversationColumns where
  notifyForCallsIfMuted : Bool
  notifyForMentionsIfMuted : Bool
  notifyForRepliesIfMuted : Bool
  showUnreadReminders : Bool
  autoBubbleColor : Bool
  wallpaperPreset : Option ℤ
  wallpaperPhotoPointerBase64 : Option String
  dimWallpaperInDarkMode : Option Bool
  identityVerified : Option (JsonCell (Option String))
  deriving DecidableEq

/-- The keys of a well-formed `contacts.extra` besides its roster. -/
structure ContactMarkers where
  isTerminated : Option Bool
  isMember : Option Bool
  username : Option String
  deriving DecidableEq

/-- The `role` of a roster entry, a text or a number. -/
inductive RoleValue
  | text (value : String)
  | number (value : ℕ)
  | other
  deriving DecidableEq

/-- The keys of a roster entry besides its `id` and `uuid`. -/
structure MemberMarks where
  role : Option RoleValue
  joinedAtVersion : Option ℕ
  labelString : Option String
  labelEmoji : Option String
  deriving DecidableEq

/-- `MrrFactors`: the members of a message-request stamp. -/
structure MrrFactors where
  hidden : Option Bool
  profileSharing : Option Bool
  blocked : Option Bool
  acceptResponse : Option Bool
  acceptResponseType : Option ℕ
  deriving DecidableEq

namespace MrrFactors

def default : MrrFactors := ⟨none, none, none, none, none⟩

end MrrFactors

/-- What the JSON reader makes of a text: a value, and the members of a stamp. -/
structure JsonReader (Value : Type) where
  fromStr : String → Option Value
  factors : Value → Option MrrFactors

/-- The database with the columns that only the summaries read, each under the id of its row. -/
structure FaceBase extends Database where
  columns : String → ConversationColumns
  markers : String → ContactMarkers
  memberMarks : String → ℕ → MemberMarks
  /-- `is_voice_note` of a message's first attachment. -/
  voiceNote : String → Bool

/-! ### The faces -/

inductive LastMessageKind
  | audio | image | video | file
  deriving DecidableEq

/-- `ConversationLastMessageMeta`. -/
structure LastMessageMeta where
  kind : Option LastMessageKind
  direction : Option Direction
  status : Option MessageStatus
  authorName : Option String
  reactions : List String
  receivedAtMs : Option ℕ
  deriving DecidableEq

/-- A pin as shown. -/
structure ConversationPinnedMessage where
  messageId : String
  targetAuthor : String
  targetSentTimestamp : ℕ
  pinnedAt : ℕ
  expiresAt : Option ℕ
  deriving DecidableEq

/-- The peer's names upstream. -/
structure ConversationIdentifiers where
  serviceId : Option String
  e164 : Option String
  groupId : Option String
  deriving DecidableEq

inductive MemberRole
  | administrator | default | unknown
  deriving DecidableEq

/-- A member as shown. -/
structure ConversationMember where
  aci : String
  role : Option MemberRole
  joinedAtVersion : Option ℕ
  labelString : Option String
  labelEmoji : Option String
  deriving DecidableEq

/-- The message request face. -/
structure MrrProjection where
  accepted : Bool
  profileSharing : Option Bool
  inSystemContacts : Option Bool
  hidden : Option Bool
  deriving DecidableEq

/-! ### Readers of one cell -/

/-- `mrr_factors_of`: an absent or malformed stamp has no members. -/
def mrrFactorsOf {Value : Type} (json : JsonReader Value) (stamp : Option String) : MrrFactors :=
  ((stamp.bind json.fromStr).bind json.factors).getD .default

/-- Whether the stamp says verified. -/
def identityVerifiedBitOfStamp (stamp : Option (JsonCell (Option String))) : Option Bool :=
  (stamp.bind JsonCell.ok).map fun trustLevel => trustLevel = some "TRUSTED_VERIFIED"

/-- A text that is there and says something, trimmed. -/
def saidText (text : Option String) : Option String := (text.map trim).filter (· ≠ "")

/-- `to_ascii_lowercase`. -/
def asciiLowercase (text : String) : String := String.ofList (text.toList.map Char.toLower)

/-- A member's role: a word in any case, or its number. -/
def roleOf : RoleValue → Option MemberRole
  | .text value =>
    let word := asciiLowercase (trim value)
    if word = "administrator" then some .administrator
    else if word = "default" then some .default
    else if word = "unknown" then some .unknown
    else none
  | .number 2 => some .administrator
  | .number 1 => some .default
  | .number 0 => some .unknown
  | .number _ | .other => none

variable (kind : ConversationKind)

/-- Whether the request counts as accepted. -/
def deriveMessageRequestAccepted (isSelf hasData hasOutgoing : Bool) (factors : MrrFactors) : Bool :=
  if isSelf then true
  else if kind = .direct ∧ factors.acceptResponse = some true then true
  else if kind = .direct ∧ hasData = false then true
  else hasOutgoing || factors.profileSharing = some true || (kind = .direct && factors.hidden = some false)

/-- `derive_mrr_projection`: an accepted request has shared the profile; a group carries no factors. -/
def deriveMrrProjection (isSelf hasData hasOutgoing : Bool) (factors : MrrFactors) : MrrProjection :=
  let accepted := deriveMessageRequestAccepted kind isSelf hasData hasOutgoing factors
  match kind with
  | .direct =>
    { accepted
      profileSharing := if factors.acceptResponse = some true then some true else factors.profileSharing
      inSystemContacts := factors.hidden.map not
      hidden := factors.hidden }
  | .group => ⟨accepted, none, none, none⟩

/-- `summary_is_self`: the direct conversation under the account's own number or ACI. -/
def summaryIsSelf (peerKey : String) (account : Option AccountRow) : Bool :=
  kind = .direct && (account.map AccountRow.signalAccount = some peerKey ||
    account.bind AccountRow.aci = some peerKey)

/-- `summary_identity_keys`: the service id, then the number in both spellings. -/
def summaryIdentityKeys (serviceId e164 : Option String) : List String :=
  serviceId.toList ++ match e164 with
    | none => []
    | some e164 =>
      match e164.toList with
      | '+' :: bare => [e164, String.ofList bare]
      | _ => [e164]

namespace FaceBase

variable (d : FaceBase)

/-! ### The contacts cache -/

/-- The markers of a contact, if its `extra` parses. -/
def markersOf (c : ContactRow) : ContactMarkers :=
  match c.extra with
  | some (.parsed _) => d.markers c.id
  | _ => ⟨none, none, none⟩

/-- The group is over. -/
def extraIsTerminated (c : ContactRow) : Bool := (d.markersOf c).isTerminated = some true

/-- The account is no member any more. -/
def extraRemovalStage (c : ContactRow) : Option String :=
  if (d.markersOf c).isMember = some false then some "justNotification" else none

/-- A name of 64 characters at most. -/
def extraUsername (c : ContactRow) : Option String :=
  (saidText (d.markersOf c).username).filter fun name => name.length ≤ 64

variable (accountId : String)

/-- The groups of the account's contacts cache. -/
def groupContacts : List ContactRow :=
  d.store.contacts.rows.filter fun c => c.accountId = accountId ∧ c.kind = .group

/-- `group_lifecycle_faces`: the ids of the terminated groups, and the stage of every removed one. -/
def groupLifecycleFaces : List String × List (String × String) :=
  let groups := d.groupContacts accountId
  ((groups.filter d.extraIsTerminated).map ContactRow.id,
    groups.filterMap fun c => (d.extraRemovalStage c).map (c.id, ·))

def maxSharedGroupNames : ℕ := 32

def rosterKeys (entry : RosterMember) : List String :=
  (saidText entry.id).toList ++ (saidText entry.uuid).toList

/-- A group's title is collected under one key: once, and up to the cap. -/
def collectTitle (group : ContactRow) (index : String → List (String × String)) (key : String) :
    String → List (String × String) := fun k =>
  if k = key ∧ (index k).length < maxSharedGroupNames ∧ (index k).all (fun entry => entry.1 ≠ group.id) then
    index k ++ [(group.id, group.title)]
  else index k

/-- `shared_group_index`: under every key of a roster the groups that carry it, the latest synced first. -/
def sharedGroupIndex : String → List (String × String) :=
  let groups := (d.groupContacts accountId).insertionSort fun a b =>
    b.syncedAt < a.syncedAt ∨ (a.syncedAt = b.syncedAt ∧ a.id ≤ b.id)
  groups.foldl (fun index group =>
    let roster := (((group.extra.bind JsonCell.ok).bind ContactExtra.members).getD []).take maxGroupMembers
    (roster.flatMap rosterKeys).foldl (collectTitle group) index) fun _ => []

/-- `shared_group_names_for`: the titles under the keys in order, each group once, up to the cap. -/
def sharedGroupNamesFor (index : String → List (String × String)) (keys : List String) : Option (List String) :=
  let found := (keys.flatMap index).foldl
    (fun (acc : List String × List String) entry =>
      if entry.1 ∈ acc.2 then acc
      else (if acc.1.length < maxSharedGroupNames then acc.1 ++ [entry.2] else acc.1, entry.1 :: acc.2))
    ([], [])
  some found.1

/-- The contacts row of this kind and peer key. -/
def contactAt (kind : ContactKind) (peerKey : String) : Option ContactRow :=
  d.store.contacts.rows.find? fun c => c.accountId = accountId ∧ c.kind = kind ∧ c.peerKey = peerKey

/-- `contacts_material_at`: the name and the username of a contact that is there. -/
def contactsMaterialAt (kind : ContactKind) (peerKey : String) : Option (Option String × Option String) :=
  (d.contactAt accountId kind peerKey).map fun c =>
    (if titleIsUseful c.title then some (trim c.title) else none, d.extraUsername c)

/-- `conversation_naming_material`: the contact under the peer key, or for a person under another spelling. -/
def conversationNamingMaterial (kind : ConversationKind) (peerKey : String) : Option String × Option String :=
  let contactKind : ContactKind := if kind = .group then .group else .contact
  match d.contactsMaterialAt accountId contactKind peerKey with
  | some material => material
  | none =>
    if kind = .direct then
      let identities := ((d.store.peerIdentitySet accountId peerKey).dedup.insertionSort (· ≤ ·)).filter (· ≠ peerKey)
      (identities.findSome? (d.contactsMaterialAt accountId contactKind)).getD (none, none)
    else (none, none)

/-- One member of a captured roster; an entry without a name for the person is left out. -/
def memberOf (entry : RosterMember) (marks : MemberMarks) : Option ConversationMember :=
  ((saidText entry.uuid).or (saidText entry.id)).map fun aci =>
    { aci
      role := marks.role.bind roleOf
      joinedAtVersion := marks.joinedAtVersion.map fun version => min version (2 ^ 32 - 1)
      labelString := saidText marks.labelString
      labelEmoji := saidText marks.labelEmoji }

/-- A group's members, if captured. -/
def conversationRoster (kind : ConversationKind) (peerKey : String) : Option (List ConversationMember) :=
  if kind ≠ .group then none
  else
    (d.contactAt accountId .group peerKey).bind fun c =>
      ((c.extra.bind JsonCell.ok).bind ContactExtra.members).map fun members =>
        (members.take maxGroupMembers).zipIdx.filterMap fun entry => memberOf entry.1 (d.memberMarks c.id entry.2)

/-! ### The identity bridge -/

/-- The peer key bridged to an ACI. -/
def phoneKeyForAciOn (aci : String) : Option String :=
  (d.store.peerIdentities.rows.find? fun r => r.accountId = accountId ∧ r.aci = aci).map PeerIdentityRow.peerKey

/-- A number in its `+` form. -/
def e164Of (key : String) : Option String :=
  match key.toList with
  | '+' :: _ => some key
  | [] => none
  | chars => if chars.all Char.isDigit then some ("+" ++ key) else none

/-- `conversation_identifiers_lossy`: the service id, the number and the group id of a peer key, by its shape. -/
def conversationIdentifiers (kind : ConversationKind) (peerKey : String) : ConversationIdentifiers :=
  if kind = .group then ⟨none, none, some peerKey⟩
  else if peerKey.toList.head? = some '+' then
    ⟨d.store.aciForPhoneKeyOn accountId peerKey, some peerKey, none⟩
  else if isUuidShaped peerKey then ⟨some peerKey, (d.phoneKeyForAciOn accountId peerKey).bind e164Of, none⟩
  else ⟨d.store.aciForPhoneKeyOn accountId peerKey, none, none⟩

/-! ### The messages of the conversation -/

variable (conversationId : String)

def messagesOf : List MessageRow :=
  d.store.messages.rows.filter fun m => m.accountId = accountId ∧ m.conversationId = conversationId

/-- The oldest row past the watermark. -/
def oldestUnseenMessageId (unreadCount : ℕ) (readWatermarkMs : Option ℤ) : Option String :=
  if unreadCount = 0 then none
  else
    (((d.messagesOf accountId conversationId).filter fun m =>
      m.direction = .incoming ∧ readWatermarkMs.getD 0 < m.sentAt).insertionSort
        (lexLe MessageRow.sentAt MessageRow.id)).head?.map MessageRow.id

def maxSummaryReactions : ℕ := 8

/-- The emoji of the reactions to one timestamp, the earliest first. -/
def summaryReactions (sentAt : ℤ) : List String :=
  let events := d.store.messageEvents.rows.filter fun e =>
    e.conversationId = conversationId ∧ e.removed = false ∧ e.targetTimestamp = sentAt
  let firstAt (emoji : String) : ℤ :=
    (((events.filter fun e => e.emoji = emoji).map MessageEventRow.updatedAt).min?).getD 0
  ((events.map MessageEventRow.emoji).dedup.insertionSort (lexLe firstAt id)).take maxSummaryReactions

def attachmentNoun (voiceNote : Bool) (contentType : Option String) : LastMessageKind :=
  let starts (word : String) : Bool := word.toList.isPrefixOf (contentType.getD "").toList
  if voiceNote || starts "audio/" then .audio
  else if starts "image/" then .image
  else if starts "video/" then .video
  else .file

/-- `conversation_last_message_meta`: what the newest row of a conversation says of it. -/
def conversationLastMessageMeta : LastMessageMeta :=
  match (Store.newestFirst (d.messagesOf accountId conversationId)).head? with
  | none => ⟨none, none, none, none, [], none⟩
  | some m =>
    let hasCaption := m.body.any fun text => trim text ≠ ""
    { kind :=
        if m.direction = .system ∨ hasCaption = true then none
        else ((m.attachments.bind JsonCell.ok).getD []).head?.map fun first =>
          attachmentNoun (d.voiceNote m.id) first.contentType
      direction := if m.direction = .system then none else some m.direction
      status :=
        if m.direction = .outgoing ∧ m.status ∈ [.pending, .sent, .delivered, .read, .failed] then some m.status
        else none
      authorName := if m.direction = .incoming then m.senderName.filter (fun name => trim name ≠ "") else none
      reactions := if m.direction = .system then [] else d.summaryReactions conversationId m.sentAt
      receivedAtMs := m.receivedAt.map Int.toNat }

/-- `conversation_mrr_projection`: the stamp and the message window of one row, which has to be there. -/
def conversationMrrProjection {Value : Type} (json : JsonReader Value) (accountId conversationId : String)
    (kind : ConversationKind) (isSelf : Bool) : Except StoreError MrrProjection :=
  match (d.store.conversations.find? conversationId).filter fun c => c.accountId = accountId with
  | none => .error .unavailable
  | some c =>
    let window := d.messagesOf accountId conversationId
    .ok (deriveMrrProjection kind isSelf
      (window.any fun m => m.direction = .incoming ∨ m.direction = .outgoing)
      (window.any fun m => m.direction = .outgoing) (mrrFactorsOf json c.mrrFactors))

/-- `conversation_identity_verified_bit`: groups and the account's own notes have none. -/
def conversationIdentityVerifiedBit (kind : ConversationKind) (isSelf : Bool) :
    Option Bool :=
  if kind ≠ .direct ∨ isSelf = true then none
  else ((d.store.conversations.find? conversationId).filter fun c => c.accountId = accountId).bind fun c =>
    identityVerifiedBitOfStamp (d.columns c.id).identityVerified

/-- `conversation_has_user_initiated_outbound`: false for a row that is not there. -/
def conversationHasUserInitiatedOutbound : Bool :=
  ((d.store.conversations.find? conversationId).filter fun c => c.accountId = accountId).any fun _ =>
    (d.messagesOf accountId conversationId).any fun m => m.direction = .outgoing

/-! ### Pins, drafts and avatars -/

/-- The rows of the pin join: a pin whose message is not held has a row without one. -/
def pinJoin : List (ConversationPinRow × Option String) :=
  let pins := d.conversationPins.rows.filter fun p => p.accountId = accountId ∧ p.conversationId = conversationId
  let joined := pins.flatMap fun p =>
    match (d.messagesOf accountId conversationId).filter fun m => m.sentAt = p.targetSentAt with
    | [] => [(p, none)]
    | targets => targets.map fun m => (p, some m.id)
  joined.insertionSort fun a b =>
    a.1.pinnedAt < b.1.pinnedAt ∨
      (a.1.pinnedAt = b.1.pinnedAt ∧ a.2.all fun x => b.2.any fun y => x ≤ y)

/-- The pin has run out by `now`. -/
def expiredPin (pin : ConversationPinRow) (now : ℕ) : Bool :=
  pin.expiresAt.any fun expiresAt => asU64 expiresAt ≤ now

/-- One row of the join; a stamp is pinned once. -/
def collectPin (clock : ConversationPinRow × Option String → ℕ)
    (acc : List ConversationPinnedMessage × List ℤ) (row : ConversationPinRow × Option String) :
    List ConversationPinnedMessage × List ℤ :=
  if expiredPin row.1 (clock row) then acc
  else
    match row.2 with
    | none => acc
    | some messageId =>
      if row.1.targetSentAt ∈ acc.2 then acc
      else
        (acc.1 ++ [⟨messageId, row.1.targetAuthor, asU64 row.1.targetSentAt, asU64 row.1.pinnedAt,
          row.1.expiresAt.map asU64⟩], row.1.targetSentAt :: acc.2)

/-- `pinned_messages_for_conversation`; `clock` is what `now_ms` says at a row of the join. -/
def pinnedMessagesForConversation (clock : ConversationPinRow × Option String → ℕ)
    (accountId conversationId : String) : List ConversationPinnedMessage :=
  ((d.pinJoin accountId conversationId).foldl (collectPin clock) ([], [])).1

/-- When it was drafted. -/
def conversationDraftTimestamp : Option ℕ :=
  (d.conversationDrafts.find? (accountId, conversationId)).map fun r => r.draftTimestamp.toNat

/-- The account's own copy. -/
def conversationAvatarCached : Option String :=
  ((d.conversationAvatars.find? conversationId).filter fun r => r.accountId = accountId).map AvatarRow.dataUri

end FaceBase

end SignalConnector
