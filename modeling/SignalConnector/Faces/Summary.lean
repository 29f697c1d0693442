/-
# One summary, read twice

`list_conversations` and `conversation_summary` both build the summary of a
conversation: first the row's own columns and lookups, then a post pass over
what needs more queries. The page runs its post pass over every row it
fetched, cuts the page to its limit, and takes the group faces from scans over
the whole contacts cache; the single summary looks its one row up. The two
agree in every field but the pins, and in the pins too unless one runs out
between the two reads: `pinned_messages_for_conversation` asks the clock.
-/
import SignalConnector.Faces.Lookups
import SignalConnector.Lib.Fold
import SignalConnector.Store.Lists

namespace SignalConnector

open List

/-- `ConversationSummary` in full; the stored columns it starts with are `ConversationSummary`. -/
structure ConversationFaces (Value : Type) extends ConversationSummary where
  systemName : Option String
  profileName : Option String
  username : Option String
  members : Option (List ConversationMember)
  lastMessageKind : Option LastMessageKind
  lastMessageDirection : Option Direction
  lastMessageStatus : Option MessageStatus
  lastMessageAuthorName : Option String
  lastMessageReactions : List String
  lastMessageReceivedAtMs : Option ℕ
  oldestUnseenMessageId : Option String
  notifyForCallsIfMuted : Bool
  notifyForMentionsIfMuted : Bool
  notifyForRepliesIfMuted : Bool
  showUnreadReminders : Bool
  conversationColor : Option String
  customColor : Option Value
  customColorId : Option String
  autoBubbleColor : Bool
  wallpaperPreset : Option ℤ
  wallpaperPhotoPointerBase64 : Option String
  dimWallpaperInDarkMode : Option Bool
  pinnedMessage : Option ConversationPinnedMessage
  pinnedMessages : List ConversationPinnedMessage
  isSelf : Bool
  isTerminated : Bool
  removalStage : Option String
  sharedGroupNames : Option (List String)
  hidden : Option Bool
  verified : Option Bool
  messageRequestAccepted : Bool
  hasUserInitiatedOutbound : Bool
  profileSharing : Option Bool
  inSystemContacts : Option Bool
  serviceId : Option String
  pni : Option String
  e164 : Option String
  groupId : Option String
  blocked : Bool
  draftTimestamp : Option ℕ
  avatarUrl : Option String
  hasAvatar : Bool

namespace ConversationFaces

variable {Value : Type}

/-! ### The assignments of the post passes -/

variable (item : ConversationFaces Value)

@[simp] def setLastMessage (lastMessage : LastMessageMeta) : ConversationFaces Value :=
  { item with
    lastMessageKind := lastMessage.kind
    lastMessageDirection := lastMessage.direction
    lastMessageStatus := lastMessage.status
    lastMessageAuthorName := lastMessage.authorName
    lastMessageReactions := lastMessage.reactions
    lastMessageReceivedAtMs := lastMessage.receivedAtMs }

@[simp] def setPins (pins : List ConversationPinnedMessage) : ConversationFaces Value :=
  { item with pinnedMessages := pins, pinnedMessage := pins.getLast? }

@[simp] def setMrr (mrr : MrrProjection) : ConversationFaces Value :=
  { item with
    messageRequestAccepted := mrr.accepted
    profileSharing := mrr.profileSharing
    inSystemContacts := mrr.inSystemContacts
    hidden := mrr.hidden }

@[simp] def setVerified (verified : Option Bool) : ConversationFaces Value :=
  { item with verified }

@[simp] def setOutbound (hasUserInitiatedOutbound : Bool) : ConversationFaces Value :=
  { item with hasUserInitiatedOutbound }

@[simp] def setDraft (draftTimestamp : Option ℕ) : ConversationFaces Value :=
  { item with draftTimestamp }

@[simp] def setAvatar (avatarUrl : Option String) : ConversationFaces Value :=
  { item with avatarUrl, hasAvatar := avatarUrl.isSome }

@[simp] def setLifecycle (isTerminated : Bool) (removalStage : Option String) : ConversationFaces Value :=
  { item with isTerminated, removalStage }

@[simp] def setSharedGroupNames (sharedGroupNames : Option (List String)) : ConversationFaces Value :=
  { item with sharedGroupNames }

/-- The fields the post passes go by, which none of them assigns. -/
@[simp] def keys : String × String × ConversationKind × Bool × Option String × Option String :=
  (item.id, item.accountId, item.kind, item.isSelf, item.serviceId, item.e164)

end ConversationFaces

namespace FaceBase

variable {Value : Type} (d : FaceBase) (json : JsonReader Value)

/-- The row closure, which both functions have word for word: the columns and the lookups that need no second pass.
-/
def summaryRow (accountId : String) (account : Option AccountRow) (c : ConversationRow) : ConversationFaces Value :=
  let identifiers := d.conversationIdentifiers accountId c.kind c.peerKey
  let naming := d.conversationNamingMaterial accountId c.kind c.peerKey
  let columns := d.columns c.id
  { ConversationSummary.ofRow c with
    systemName := naming.1
    profileName := none
    username := naming.2
    members := d.conversationRoster accountId c.kind c.peerKey
    lastMessageKind := none
    lastMessageDirection := none
    lastMessageStatus := none
    lastMessageAuthorName := none
    lastMessageReactions := []
    lastMessageReceivedAtMs := none
    oldestUnseenMessageId := d.oldestUnseenMessageId accountId c.id c.unreadCount c.readWatermarkMs
    notifyForCallsIfMuted := columns.notifyForCallsIfMuted
    notifyForMentionsIfMuted := columns.notifyForMentionsIfMuted
    notifyForRepliesIfMuted := columns.notifyForRepliesIfMuted
    showUnreadReminders := columns.showUnreadReminders
    conversationColor := c.conversationColor
    customColor := c.customColor.bind json.fromStr
    customColorId := c.customColorId
    autoBubbleColor := columns.autoBubbleColor
    wallpaperPreset := columns.wallpaperPreset
    wallpaperPhotoPointerBase64 := columns.wallpaperPhotoPointerBase64
    dimWallpaperInDarkMode := columns.dimWallpaperInDarkMode
    pinnedMessage := none
    pinnedMessages := []
    isSelf := summaryIsSelf c.kind c.peerKey account
    isTerminated := false
    removalStage := none
    sharedGroupNames := none
    hidden := none
    verified := none
    messageRequestAccepted := false
    hasUserInitiatedOutbound := false
    profileSharing := none
    inSystemContacts := none
    serviceId := identifiers.serviceId
    pni := none
    e164 := identifiers.e164
    groupId := identifiers.groupId
    blocked := c.kind = .direct && (mrrFactorsOf json c.mrrFactors).blocked = some true
    draftTimestamp := none
    avatarUrl := d.conversationAvatarCached accountId c.id
    hasAvatar := false }

/-! ### The page -/

variable (clock : ConversationPinRow × Option String → ℕ)

variable (accountId : String)

/-- The page's post pass over one fetched row. -/
def pageFaces (item : ConversationFaces Value) : Except StoreError (ConversationFaces Value) := do
  let item := item.setLastMessage (d.conversationLastMessageMeta accountId item.id)
  let item := item.setPins (d.pinnedMessagesForConversation clock accountId item.id)
  let mrr ← d.conversationMrrProjection json accountId item.id item.kind item.isSelf
  let item := item.setMrr mrr
  let item := item.setVerified (d.conversationIdentityVerifiedBit accountId item.id item.kind item.isSelf)
  let item := item.setOutbound (d.conversationHasUserInitiatedOutbound accountId item.id)
  let item := item.setDraft (d.conversationDraftTimestamp accountId item.id)
  .ok { item with hasAvatar := item.avatarUrl.isSome }

/-- The page's last pass over one kept row: the group faces from the page-wide scans. -/
def pageGroupFaces (lifecycle : List String × List (String × String)) (index : String → List (String × String))
    (item : ConversationFaces Value) : ConversationFaces Value :=
  if item.kind = .group then
    item.setLifecycle (lifecycle.1.contains item.id)
      ((lifecycle.2.find? fun entry => entry.1 = item.id).map Prod.snd)
  else if item.kind = .direct ∧ item.isSelf = false then
    item.setSharedGroupNames (sharedGroupNamesFor index (summaryIdentityKeys item.serviceId item.e164))
  else item

/-- A page, each item with its faces. -/
def listConversations (limit : ℕ) (cursor : Option String) :
    Except StoreError (Page (ConversationFaces Value)) := do
  let limit := min (max limit 1) maxPageLimit
  let decoded ← conversationAnchor accountId cursor
  let account := d.store.accounts.find? accountId
  let rows := d.store.conversations.rows.filter fun c => c.accountId = accountId && c.isBehind decoded
  let rows := (rows.insertionSort fun a b => lexLe ConversationRow.latest ConversationRow.id b a).take (limit + 1)
  let items ← rows.mapM fun c => d.pageFaces json clock accountId (d.summaryRow json accountId account c)
  let nextCursor := if limit < items.length then
      (items.take limit).getLast?.map fun item => encodeConversationCursor accountId item.toConversationSummary
    else none
  let lifecycle := d.groupLifecycleFaces accountId
  let index := d.sharedGroupIndex accountId
  .ok ⟨(items.take limit).map (pageGroupFaces lifecycle index), nextCursor⟩

/-! ### The single summary -/

/-- The group faces of one row: its own entry of the contacts cache. -/
def singleGroupFaces (conversationId : String) (summary : ConversationFaces Value) : ConversationFaces Value :=
  if summary.kind = .group then
    let contact := (d.store.contacts.find? conversationId).filter fun c => c.accountId = accountId ∧ c.kind = .group
    summary.setLifecycle (contact.any d.extraIsTerminated) (contact.bind d.extraRemovalStage)
  else summary

/-- The shared groups of one row. -/
def singleSharedFaces (summary : ConversationFaces Value) : ConversationFaces Value :=
  if summary.kind = .direct ∧ summary.isSelf = false then
    summary.setSharedGroupNames (sharedGroupNamesFor (d.sharedGroupIndex accountId)
      (summaryIdentityKeys summary.serviceId summary.e164))
  else summary

/-- The post pass of the single summary. -/
def summaryFaces (conversationId : String) (summary : ConversationFaces Value) :
    Except StoreError (ConversationFaces Value) := do
  let summary := summary.setLastMessage (d.conversationLastMessageMeta summary.accountId conversationId)
  let summary := summary.setPins (d.pinnedMessagesForConversation clock accountId conversationId)
  let summary := d.singleGroupFaces accountId conversationId summary
  let mrr ← d.conversationMrrProjection json accountId conversationId summary.kind summary.isSelf
  let summary := summary.setMrr mrr
  let summary :=
    summary.setVerified (d.conversationIdentityVerifiedBit accountId conversationId summary.kind summary.isSelf)
  let summary := d.singleSharedFaces accountId summary
  let summary := summary.setOutbound (d.conversationHasUserInitiatedOutbound accountId conversationId)
  let summary := summary.setDraft (d.conversationDraftTimestamp accountId conversationId)
  .ok (summary.setAvatar (d.conversationAvatarCached accountId conversationId))

/-- One conversation with its faces. -/
def conversationSummary (conversationId : String) : Except StoreError (Option (ConversationFaces Value)) :=
  match (d.store.conversations.find? conversationId).filter fun c => c.accountId = accountId with
  | none => .ok none
  | some c =>
    (d.summaryFaces json clock accountId conversationId
      (d.summaryRow json accountId (d.store.accounts.find? accountId) c)).map some

/-! ### The pins and the clock -/

variable {d json clock} {clock' : ConversationPinRow × Option String → ℕ} {accountId conversationId : String}

theorem mem_pinJoin {row : ConversationPinRow × Option String} (h : row ∈ d.pinJoin accountId conversationId) :
    row.1 ∈ d.conversationPins.rows ∧ row.1.accountId = accountId ∧ row.1.conversationId = conversationId := by
  unfold pinJoin at h
  rw [mem_insertionSort, mem_flatMap] at h
  obtain ⟨pin, hpin, hrow⟩ := h
  have hrow : row.1 = pin := by
    split at hrow
    · rw [mem_singleton.mp hrow]
    · obtain ⟨m, -, rfl⟩ := mem_map.mp hrow
      rfl
  obtain ⟨hmem, hkey⟩ := mem_filter.mp hpin
  exact hrow ▸ ⟨hmem, (of_decide_eq_true hkey).1, (of_decide_eq_true hkey).2⟩

/-- No pin of the conversation runs out between the two readings of the clock. -/
def PinsSteady (d : FaceBase) (clock clock' : ConversationPinRow × Option String → ℕ)
    (accountId conversationId : String) : Prop :=
  ∀ pin ∈ d.conversationPins.rows, pin.accountId = accountId → pin.conversationId = conversationId →
    ∀ target, expiredPin pin (clock (pin, target)) = expiredPin pin (clock' (pin, target))

theorem pinnedMessages_congr (h : d.PinsSteady clock clock' accountId conversationId) :
    d.pinnedMessagesForConversation clock accountId conversationId =
      d.pinnedMessagesForConversation clock' accountId conversationId := by
  unfold pinnedMessagesForConversation
  rw [foldl_ext (collectPin clock) (collectPin clock') ([], []) fun acc row hrow => ?_]
  obtain ⟨hmem, hacc, hconv⟩ := mem_pinJoin hrow
  have hexpired := h row.1 hmem hacc hconv row.2
  unfold collectPin
  rw [hexpired]

/-! ### The group faces -/

theorem mem_groupContacts {c : ContactRow} :
    c ∈ d.groupContacts accountId ↔ c ∈ d.store.contacts.rows ∧ c.accountId = accountId ∧ c.kind = .group := by
  simp [groupContacts]

theorem contact_eq_some {id : String} {c : ContactRow} :
    (d.store.contacts.find? id).filter (fun c => c.accountId = accountId ∧ c.kind = .group) = some c ↔
      c ∈ d.groupContacts accountId ∧ c.id = id := by
  rw [Option.filter_eq_some_iff, Table.find?_eq_some, mem_groupContacts]
  simp only [decide_eq_true_eq]
  tauto

theorem contains_terminated (id : String) : (d.groupLifecycleFaces accountId).1.contains id =
      ((d.store.contacts.find? id).filter fun c => c.accountId = accountId ∧ c.kind = .group).any
        d.extraIsTerminated := by
  rw [Bool.eq_iff_iff, contains_iff_mem, Option.any_eq_true]
  simp only [groupLifecycleFaces, mem_map, mem_filter, contact_eq_some]
  constructor
  · rintro ⟨c, ⟨hc, hterminated⟩, rfl⟩
    exact ⟨c, ⟨hc, rfl⟩, hterminated⟩
  · rintro ⟨c, ⟨hc, rfl⟩, hterminated⟩
    exact ⟨c, ⟨hc, hterminated⟩, rfl⟩

theorem find?_removalStage (id : String) :
    ((d.groupLifecycleFaces accountId).2.find? fun entry => entry.1 = id).map Prod.snd =
      ((d.store.contacts.find? id).filter fun c => c.accountId = accountId ∧ c.kind = .group).bind
        d.extraRemovalStage := by
  have hmem : ∀ entry, entry ∈ (d.groupLifecycleFaces accountId).2 ↔
      ∃ c ∈ d.groupContacts accountId, c.id = entry.1 ∧ d.extraRemovalStage c = some entry.2 := by
    rintro ⟨entryId, stage⟩
    simp only [groupLifecycleFaces, mem_filterMap, Option.map_eq_some_iff, Prod.mk.injEq]
    constructor
    · rintro ⟨c, hc, stage', hstage, rfl, rfl⟩
      exact ⟨c, hc, rfl, hstage⟩
    · rintro ⟨c, hc, rfl, hstage⟩
      exact ⟨c, hc, stage, hstage, rfl, rfl⟩
  refine Option.ext fun stage => ?_
  rw [Option.bind_eq_some_iff, Option.map_eq_some_iff]
  simp only [contact_eq_some]
  constructor
  · rintro ⟨entry, hentry, rfl⟩
    obtain ⟨c, hc, hid, hstage⟩ := (hmem entry).mp (mem_of_find?_eq_some hentry)
    have heid : entry.1 = id := by simpa using find?_some hentry
    exact ⟨c, ⟨hc, hid.trans heid⟩, hstage⟩
  · rintro ⟨c, ⟨hc, hid⟩, hstage⟩
    have hentry := (hmem (id, stage)).mpr ⟨c, hc, hid, hstage⟩
    obtain ⟨entry, hfound⟩ : ∃ entry, (d.groupLifecycleFaces accountId).2.find? (fun entry => entry.1 = id) =
        some entry := Option.isSome_iff_exists.mp (find?_isSome.mpr ⟨(id, stage), hentry, by simp⟩)
    obtain ⟨c', hc', hid', hstage'⟩ := (hmem entry).mp (mem_of_find?_eq_some hfound)
    have heid : entry.1 = id := by simpa using find?_some hfound
    obtain rfl : c' = c := d.store.contacts.row_unique (mem_groupContacts.mp hc').1 (mem_groupContacts.mp hc).1
      (hid'.trans (heid.trans hid.symm))
    exact ⟨entry, hfound, Option.some.inj (hstage'.symm.trans hstage)⟩

/-! ### The two reads -/

/-- An item of a page is a row of the account's with the two passes run over it. -/
theorem mem_listConversations {limit : ℕ} {cursor : Option String} {page : Page (ConversationFaces Value)}
    (hpage : d.listConversations json clock accountId limit cursor = .ok page) {item : ConversationFaces Value}
    (hitem : item ∈ page.items) : ∃ c ∈ d.store.conversations.rows, c.accountId = accountId ∧
      ∃ faces, d.pageFaces json clock accountId
          (d.summaryRow json accountId (d.store.accounts.find? accountId) c) = .ok faces ∧
        item = pageGroupFaces (d.groupLifecycleFaces accountId) (d.sharedGroupIndex accountId) faces := by
  unfold listConversations at hpage
  obtain ⟨decoded, -, hpage⟩ := exists_of_bind_ok hpage
  obtain ⟨items, hitems, hpage⟩ := exists_of_bind_ok hpage
  cases hpage
  obtain ⟨faces, hfaces, rfl⟩ := mem_map.mp hitem
  obtain ⟨c, hc, hrow⟩ := (mem_of_mapM_ok hitems).1 faces (mem_of_mem_take hfaces)
  have hc := mem_of_mem_take hc
  rw [mem_insertionSort, mem_filter] at hc
  exact ⟨c, hc.1, of_decide_eq_true (Bool.and_eq_true_iff.mp hc.2).1, faces, hrow, rfl⟩

/-- What the page makes of a row, before the pins and the group faces. -/
def commonFaces (d : FaceBase) (accountId : String) (mrr : MrrProjection) (row : ConversationFaces Value) :
    ConversationFaces Value :=
  ((((row.setLastMessage (d.conversationLastMessageMeta accountId row.id)).setMrr mrr).setVerified
    (d.conversationIdentityVerifiedBit accountId row.id row.kind row.isSelf)).setOutbound
    (d.conversationHasUserInitiatedOutbound accountId row.id)).setDraft
    (d.conversationDraftTimestamp accountId row.id) |>.setAvatar (d.conversationAvatarCached accountId row.id)

theorem pageFaces_ok {row faces : ConversationFaces Value}
    (havatar : row.avatarUrl = d.conversationAvatarCached accountId row.id)
    (hfaces : d.pageFaces json clock accountId row = .ok faces) :
    ∃ mrr, d.conversationMrrProjection json accountId row.id row.kind row.isSelf = .ok mrr ∧
      faces = (d.commonFaces accountId mrr row).setPins (d.pinnedMessagesForConversation clock accountId row.id) := by
  obtain ⟨mrr, hmrr, hfaces⟩ := exists_of_bind_ok hfaces
  refine ⟨mrr, hmrr, (Except.ok.inj hfaces).symm.trans ?_⟩
  unfold commonFaces
  rw [← havatar]
  rfl

variable {row : ConversationFaces Value}

/-- The group faces go by the fields no pass assigns. -/
theorem pageGroupFaces_of_keys (row item : ConversationFaces Value) (h : item.keys = row.keys)
    (lifecycle : List String × List (String × String)) (index : String → List (String × String)) :
    pageGroupFaces lifecycle index item = if row.kind = .group then
        item.setLifecycle (lifecycle.1.contains row.id)
          ((lifecycle.2.find? fun entry => entry.1 = row.id).map Prod.snd)
      else if row.kind = .direct ∧ row.isSelf = false then
        item.setSharedGroupNames (sharedGroupNamesFor index (summaryIdentityKeys row.serviceId row.e164))
      else item := by
  simp only [ConversationFaces.keys, Prod.mk.injEq] at h
  obtain ⟨hid, -, hkind, hself, hservice, he164⟩ := h
  rw [pageGroupFaces, hid, hkind, hself, hservice, he164]

theorem singleGroupFaces_of_keys (row item : ConversationFaces Value) (h : item.keys = row.keys) :
    d.singleGroupFaces accountId row.id item = if row.kind = .group then
        item.setLifecycle ((d.groupLifecycleFaces accountId).1.contains row.id)
          (((d.groupLifecycleFaces accountId).2.find? fun entry => entry.1 = row.id).map Prod.snd)
      else item := by
  have hkind : item.kind = row.kind := congrArg (fun keys => keys.2.2.1) h
  rw [singleGroupFaces, hkind, contains_terminated, find?_removalStage]

theorem singleSharedFaces_of_keys (row item : ConversationFaces Value) (h : item.keys = row.keys) :
    d.singleSharedFaces accountId item = if row.kind = .direct ∧ row.isSelf = false then
        item.setSharedGroupNames (sharedGroupNamesFor (d.sharedGroupIndex accountId)
          (summaryIdentityKeys row.serviceId row.e164))
      else item := by
  simp only [ConversationFaces.keys, Prod.mk.injEq] at h
  obtain ⟨-, -, hkind, hself, hservice, he164⟩ := h
  rw [singleSharedFaces, hkind, hself, hservice, he164]

/-- The rest of the single summary's post pass, once the group faces are in. -/
theorem summaryFaces_of_groupFaces {grouped : ConversationFaces Value} {mrr : MrrProjection}
    (hgrouped : d.singleGroupFaces accountId row.id
      ((row.setLastMessage (d.conversationLastMessageMeta row.accountId row.id)).setPins
        (d.pinnedMessagesForConversation clock accountId row.id)) = grouped) (hkeys : grouped.keys = row.keys)
    (hmrr : d.conversationMrrProjection json accountId row.id row.kind row.isSelf = .ok mrr) :
    d.summaryFaces json clock accountId row.id row =
      .ok ((((d.singleSharedFaces accountId ((grouped.setMrr mrr).setVerified
          (d.conversationIdentityVerifiedBit accountId row.id row.kind row.isSelf))).setOutbound
          (d.conversationHasUserInitiatedOutbound accountId row.id)).setDraft
          (d.conversationDraftTimestamp accountId row.id)).setAvatar
          (d.conversationAvatarCached accountId row.id)) := by
  have hkind : grouped.kind = row.kind := congrArg (fun keys => keys.2.2.1) hkeys
  have hself : grouped.isSelf = row.isSelf := congrArg (fun keys => keys.2.2.2.1) hkeys
  have hkind' : (grouped.setMrr mrr).kind = row.kind := hkind
  have hself' : (grouped.setMrr mrr).isSelf = row.isSelf := hself
  unfold summaryFaces
  dsimp only
  rw [hgrouped, hkind, hself, hmrr, ← hkind', ← hself']
  rfl

/-- **The two post passes come to the same**, up to the pins. -/
theorem summaryFaces_eq {mrr : MrrProjection} (hacc : row.accountId = accountId)
    (hmrr : d.conversationMrrProjection json accountId row.id row.kind row.isSelf = .ok mrr) :
    d.summaryFaces json clock accountId row.id row =
      .ok (pageGroupFaces (d.groupLifecycleFaces accountId) (d.sharedGroupIndex accountId)
        ((d.commonFaces accountId mrr row).setPins (d.pinnedMessagesForConversation clock accountId row.id))) := by
  subst hacc
  have hgrouped : d.singleGroupFaces row.accountId row.id
      ((row.setLastMessage (d.conversationLastMessageMeta row.accountId row.id)).setPins
        (d.pinnedMessagesForConversation clock row.accountId row.id)) = _ := singleGroupFaces_of_keys row _ rfl
  rw [pageGroupFaces_of_keys row _ (by dsimp [commonFaces])]
  by_cases hgroup : row.kind = .group
  · have hnot : ¬(row.kind = .direct ∧ row.isSelf = false) := fun h => by rw [hgroup] at h; cases h.1
    rw [summaryFaces_of_groupFaces (hgrouped.trans (if_pos hgroup)) rfl hmrr, if_pos hgroup,
      singleSharedFaces_of_keys row _ (by dsimp), if_neg hnot]
    dsimp [commonFaces]
  · rw [summaryFaces_of_groupFaces (hgrouped.trans (if_neg hgroup)) rfl hmrr, if_neg hgroup,
      singleSharedFaces_of_keys row _ (by dsimp)]
    split <;> dsimp [commonFaces]

variable (lifecycle : List String × List (String × String)) (index : String → List (String × String))
  (item : ConversationFaces Value)

theorem pageGroupFaces_setPins (pins : List ConversationPinnedMessage) :
    pageGroupFaces lifecycle index (item.setPins pins) = (pageGroupFaces lifecycle index item).setPins pins := by
  rw [pageGroupFaces_of_keys item (item.setPins pins) rfl, pageGroupFaces_of_keys item item rfl]
  split
  · rfl
  · split <;> rfl

theorem id_pageGroupFaces : (pageGroupFaces lifecycle index item).id = item.id := by
  unfold pageGroupFaces
  split
  · rfl
  · split <;> rfl

/-- **The summary of a conversation is its item on the page** but for the pins, and in every field if no pin of it
runs out between the two reads. -/
theorem conversation_summary_eq_page_item (d : FaceBase) (json : JsonReader Value)
    (clock clock' : ConversationPinRow × Option String → ℕ) (accountId : String) (limit : ℕ) (cursor : Option String)
    (page : Page (ConversationFaces Value)) (hpage : d.listConversations json clock accountId limit cursor = .ok page)
    (item : ConversationFaces Value) (hitem : item ∈ page.items) :
    ∃ summary, d.conversationSummary json clock' accountId item.id = .ok (some summary) ∧
      { summary with pinnedMessages := item.pinnedMessages, pinnedMessage := item.pinnedMessage } = item ∧
      (d.PinsSteady clock clock' accountId item.id → summary = item) := by
  obtain ⟨c, hc, hacc, faces, hfaces, hitem⟩ := mem_listConversations hpage hitem
  obtain ⟨mrr, hmrr, rfl⟩ := pageFaces_ok rfl hfaces
  have hfind : (d.store.conversations.find? c.id).filter (fun c => c.accountId = accountId) = some c := by
    rw [Table.mem_iff_find?.mp hc]
    simp [Option.filter, hacc]
  have hsummary : ∀ clock, d.conversationSummary json clock accountId c.id = .ok (some
      ((pageGroupFaces (d.groupLifecycleFaces accountId) (d.sharedGroupIndex accountId)
        (d.commonFaces accountId mrr (d.summaryRow json accountId (d.store.accounts.find? accountId) c))).setPins
        (d.pinnedMessagesForConversation clock accountId c.id))) := fun clock => by
    have hfaces : d.summaryFaces json clock accountId c.id
        (d.summaryRow json accountId (d.store.accounts.find? accountId) c) = _ := summaryFaces_eq hacc hmrr
    rw [pageGroupFaces_setPins] at hfaces
    rw [conversationSummary, hfind]
    exact congrArg (Except.map some) hfaces
  rw [pageGroupFaces_setPins] at hitem
  have hid : item.id = c.id := hitem ▸ id_pageGroupFaces _ _ _
  refine ⟨_, by rw [hid]; exact hsummary clock', ?_, fun hsteady => ?_⟩
  · rw [hitem]
    rfl
  · rw [hid] at hsteady
    have hpins := pinnedMessages_congr hsteady
    rw [hitem]
    exact congrArg (ConversationFaces.setPins _) hpins.symm

/-- One conversation of account `a` with one message, pinned until 5000. -/
def timedPin : FaceBase where
  store :=
    { Store.empty with
      accounts := .single (.ofAddress "a" "+15550100" "+1555***00" "default")
      conversations := .single (.ofPeer "c" "a" .direct "+15550101" "peer")
      messages := .single (.ofText "m" "a" "c" .incoming "+15550101" 1000 "pinned" .delivered) }
  conversationPins := .single ⟨"a", "c", "+15550101", 1000, 2000, some 5000⟩
  conversationDrafts := .empty
  memoMigrations := .empty
  conversationIdentityMerges := .empty
  historyImports := .empty
  historyImportStageRecipients := .empty
  historyImportStageChats := .empty
  conversationAvatars := .empty
  metaKeys := .empty
  accountDeleteOperations := .empty
  accountDeleteReceipts := .empty
  columns := fun _ => ⟨true, true, true, true, true, none, none, none, none⟩
  markers := fun _ => ⟨none, none, none⟩
  memberMarks := fun _ _ => ⟨none, none, none, none⟩
  voiceNote := fun _ => false

/-- A reader that parses nothing. -/
def noJson : JsonReader Unit := ⟨fun _ => none, fun _ => none⟩

/-- Before the pin runs out the summary is the item of the page. -/
theorem timedPin_summary_eq :
    ∃ page item, timedPin.listConversations noJson (fun _ => 3000) "a" 10 none = .ok page ∧ item ∈ page.items ∧
      timedPin.conversationSummary noJson (fun _ => 4000) "a" item.id = .ok (some item) := by
  refine ⟨_, _, rfl, mem_singleton_self _, ?_⟩
  obtain ⟨summary, hsummary, -, hequal⟩ := conversation_summary_eq_page_item timedPin noJson (fun _ => 3000)
    (fun _ => 4000) "a" 10 none _ rfl _ (mem_singleton_self _)
  rw [hsummary, hequal fun pin hpin _ _ _ => ?_]
  obtain rfl := mem_singleton.mp hpin
  rfl

/-- The pin runs out between the two reads. -/
theorem summary_loses_timed_pin : (timedPin.listConversations noJson (fun _ => 4999) "a" 10 none).map
        (fun page => page.items.map fun item => (item.id, item.pinnedMessages)) =
      .ok [("c", [⟨"m", "+15550101", 1000, 2000, some 5000⟩])] ∧
    (timedPin.conversationSummary noJson (fun _ => 5000) "a" "c").map
        (Option.map fun summary => (summary.id, summary.pinnedMessages)) = .ok (some ("c", [])) := by
  decide

end FaceBase

end SignalConnector
