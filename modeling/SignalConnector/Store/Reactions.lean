/-
# Reactions

`message_events` keeps one emoji per actor and target message, addressed by
the target's upstream timestamp. `upsert_reaction_event` writes it; the read
paths show the rows that are not removed as pills, one per emoji, with the
actors newest first.

A reaction is shown when it is among the newest `MAX_REACTION_DETAIL_ROWS` of
its conversation and among the first `MAX_REACTION_ACTORS` of its pill; the
pills are made of exactly those.
-/
import SignalConnector.Lib.Select
import SignalConnector.Store.Conversations
import SignalConnector.Store.Record

namespace SignalConnector

open List

def maxReactionDetailRows : ℕ := 1024

def maxReactionActors : ℕ := 64

/-- A pill under assembly, with its key `(target, emoji)`. -/
structure Pill where
  target : ℕ
  emoji : String
  actors : List MessageReactionActor
  firstReactedAt : ℕ
  mine : Bool
  deriving DecidableEq

namespace Pill

/-- One more actor, up to the cap. -/
def add (accountId : String) (event : MessageEventRow) (pill : Pill) : Pill :=
  if pill.actors.length < maxReactionActors then
    { pill with
      actors := pill.actors ++ [{
        isSelf := event.actorId = accountId
        name := event.actorName.filter fun name => trim name ≠ ""
        reactedAt := asU64 event.updatedAt }]
      mine := pill.mine || event.actorId = accountId }
  else pill

/-- The event joins the pill of its key, or opens it. -/
def collect (accountId : String) (pills : List Pill) (event : MessageEventRow) : List Pill :=
  let key := (asU64 event.targetTimestamp, event.emoji)
  if pills.any fun pill => (pill.target, pill.emoji) = key then
    pills.map fun pill => if (pill.target, pill.emoji) = key then pill.add accountId event else pill
  else pills ++ [add accountId event ⟨key.1, key.2, [], asU64 event.updatedAt, false⟩]

def summary (pill : Pill) : MessageReactionSummary :=
  ⟨pill.emoji, min pill.actors.length u32Max, pill.mine, pill.actors⟩

end Pill

namespace Store

variable (sha256 : String → String)

variable (s : Store) (accountId conversationId emoji : String)

/-- `upsert_reaction_event`: the actor's row for the target is replaced; a new one needs its id and both
foreign keys. -/
def upsertReactionEvent (targetSentAt : ℕ)
    (actorId : String) (removed : Bool) (actorName : Option String) (now : ℕ) : Except StoreError Store :=
  let row : MessageEventRow :=
    { id := stableHashId sha256 [accountId, conversationId, "reaction", toString targetSentAt, actorId]
      accountId, conversationId, emoji, actorId, removed, actorName
      targetTimestamp := asI64 targetSentAt
      updatedAt := asI64 now }
  let taken : MessageEventRow → Bool := fun e =>
    e.accountId = accountId ∧ e.conversationId = conversationId ∧ e.targetTimestamp = asI64 targetSentAt ∧
      e.actorId = actorId
  if s.messageEvents.rows.any taken then
    let events := s.messageEvents.update taken
      (fun e => { e with emoji, removed, actorName, updatedAt := asI64 now }) fun _ => rfl
    .ok { s with messageEvents := events }
  else if (s.messageEvents.find? row.id).isSome then .error .unavailable
  else if (s.accounts.find? accountId).isSome ∧ (s.conversations.find? conversationId).isSome then
    .ok { s with messageEvents := s.messageEvents.insertOrIgnore row }
  else .error .unavailable

theorem upsertReactionEvent_frame {s s' : Store} {accountId conversationId emoji actorId : String}
    {targetSentAt now : ℕ} {removed : Bool} {actorName : Option String}
    (h : s.upsertReactionEvent sha256 accountId conversationId emoji targetSentAt actorId removed actorName now =
      .ok s') : ∃ events, s' = { s with messageEvents := events } := by
  unfold upsertReactionEvent at h
  dsimp only at h
  split at h
  · cases h
    exact ⟨_, rfl⟩
  split at h
  · cases h
  split at h
  · cases h
    exact ⟨_, rfl⟩
  · cases h

/-- `reaction_aggregates_for_conversation`: the pills of a target, in the order of their newest actor. -/
def reactionAggregates (target : ℕ) : List MessageReactionSummary :=
  let active := s.messageEvents.rows.filter fun e =>
    e.accountId = accountId ∧ e.conversationId = conversationId ∧ e.removed = false
  let newest := active.insertionSort fun a b => lexLe MessageEventRow.updatedAt MessageEventRow.id b a
  let pills := (newest.take maxReactionDetailRows).foldl (Pill.collect accountId) []
  let ordered := pills.insertionSort (lexLe Pill.firstReactedAt Pill.emoji)
  (ordered.filter fun pill => pill.target = target).map Pill.summary

/-- The pills of one record; a target without pills leaves the record as it is. -/
def attachReactionsTo (record : MessageRecord) : MessageRecord :=
  match s.reactionAggregates accountId conversationId record.sentAt with
  | [] => record
  | reactions => { record with reactions }

/-- `attach_reactions`. Every record is looked up in the conversation of the first one. -/
def attachReactions (records : List MessageRecord) : List MessageRecord :=
  match records with
  | [] => []
  | first :: _ => records.map (s.attachReactionsTo accountId first.conversationId)

end Store

/-! ### Which reactions are shown -/

/-- The event is a reaction of this conversation that was not taken back. -/
def MessageEventRow.isActive (accountId conversationId : String) (event : MessageEventRow) : Bool :=
  event.accountId = accountId ∧ event.conversationId = conversationId ∧ event.removed = false

/-- The event adds to the pill of this target and emoji. -/
def MessageEventRow.under (target : ℕ) (emoji : String) (event : MessageEventRow) : Bool :=
  (asU64 event.targetTimestamp, event.emoji) = (target, emoji)

/-- An actor as a pill lists it. -/
def MessageEventRow.actor (accountId : String) (event : MessageEventRow) : MessageReactionActor where
  isSelf := event.actorId = accountId
  name := event.actorName.filter fun name => trim name ≠ ""
  reactedAt := asU64 event.updatedAt

namespace Pill

/-- The events of a pill, among those it was assembled from. -/
def events (pill : Pill) (seen : List MessageEventRow) : List MessageEventRow :=
  (seen.filter (MessageEventRow.under pill.target pill.emoji)).take maxReactionActors

/-- The pills of the events seen: one for each target and emoji among them, and nothing else in it. -/
structure Collected (accountId : String) (seen : List MessageEventRow) (pills : List Pill) : Prop where
  actors : ∀ pill ∈ pills, pill.events seen ≠ [] ∧
    pill.actors = (pill.events seen).map (MessageEventRow.actor accountId) ∧
    pill.mine = (pill.events seen).any fun e => e.actorId = accountId
  all : ∀ e ∈ seen, ∃ pill ∈ pills, e.under pill.target pill.emoji

theorem events_append (pill : Pill) (seen : List MessageEventRow) (e : MessageEventRow) :
    pill.events (seen ++ [e]) =
      if e.under pill.target pill.emoji ∧ (pill.events seen).length < maxReactionActors then
        pill.events seen ++ [e]
      else pill.events seen := by
  unfold events
  rw [filter_append, take_append, length_take]
  by_cases hunder : e.under pill.target pill.emoji
  · rw [filter_cons_of_pos hunder, filter_nil]
    split
    · next hlt =>
      have hlen : (seen.filter (MessageEventRow.under pill.target pill.emoji)).length <
        maxReactionActors := by omega
      rw [take_of_length_le (l := [e]) (by rw [length_singleton]; omega)]
    · next hge =>
      have hlen : maxReactionActors ≤
          (seen.filter (MessageEventRow.under pill.target pill.emoji)).length := by
        by_contra hlt
        exact hge ⟨hunder, by omega⟩
      rw [Nat.sub_eq_zero_of_le hlen, take_zero, append_nil]
  · rw [filter_cons_of_neg hunder, filter_nil, if_neg fun h => hunder h.1]
    simp

theorem add_target (accountId : String) (e : MessageEventRow) (pill : Pill) :
    (pill.add accountId e).target = pill.target ∧ (pill.add accountId e).emoji = pill.emoji := by
  unfold add
  split <;> exact ⟨rfl, rfl⟩

/-- A pill that takes one more event of its key has the events up to that one. -/
theorem add_events {accountId : String} {seen : List MessageEventRow} {pill : Pill} {e : MessageEventRow}
    (hactors : pill.actors = (pill.events seen).map (MessageEventRow.actor accountId))
    (hmine : pill.mine = (pill.events seen).any fun e => e.actorId = accountId)
    (hunder : e.under pill.target pill.emoji) :
    (pill.add accountId e).actors = (pill.events (seen ++ [e])).map (MessageEventRow.actor accountId) ∧
      (pill.add accountId e).mine = (pill.events (seen ++ [e])).any fun e => e.actorId = accountId := by
  have hlen : pill.actors.length = (pill.events seen).length := by rw [hactors, length_map]
  rw [events_append, add, hlen]
  by_cases hlt : (pill.events seen).length < maxReactionActors
  · rw [if_pos hlt, if_pos ⟨hunder, hlt⟩, map_append, any_append, ← hactors, ← hmine]
    simp [MessageEventRow.actor]
  · rw [if_neg hlt, if_neg fun h => hlt h.2]
    exact ⟨hactors, hmine⟩

theorem Collected.nil (accountId : String) : Collected accountId [] [] :=
  ⟨fun _ h => (not_mem_nil h).elim, fun _ h => (not_mem_nil h).elim⟩

theorem Collected.collect {accountId : String} {seen : List MessageEventRow} {pills : List Pill}
    (h : Collected accountId seen pills) (e : MessageEventRow) :
    Collected accountId (seen ++ [e]) (Pill.collect accountId pills e) := by
  have hunder : ∀ pill : Pill, (pill.target, pill.emoji) = (asU64 e.targetTimestamp, e.emoji) ↔
      e.under pill.target pill.emoji = true := fun pill => by
    rw [MessageEventRow.under, decide_eq_true_eq, eq_comm]
  have hgrow : ∀ pill : Pill, pill.events seen ≠ [] → pill.events (seen ++ [e]) ≠ [] := by
    intro pill hne
    rw [events_append]
    split
    · simp
    · exact hne
  unfold Pill.collect
  dsimp only
  split
  · next hany =>
    refine ⟨fun pill' hmem => ?_, fun e' he' => ?_⟩
    · obtain ⟨pill, hpill, rfl⟩ := mem_map.mp hmem
      obtain ⟨hne, hactors, hmine⟩ := h.actors pill hpill
      split
      · next hkey =>
        obtain ⟨htarget, hemoji⟩ := add_target accountId e pill
        have hsame : ∀ seen, (pill.add accountId e).events seen = pill.events seen := fun seen => by
          rw [events, events, htarget, hemoji]
        rw [hsame]
        exact ⟨hgrow pill hne, add_events hactors hmine ((hunder pill).mp hkey)⟩
      · next hkey =>
        rw [events_append, if_neg fun h => hkey ((hunder pill).mpr h.1)]
        exact ⟨hne, hactors, hmine⟩
    · have hold : ∃ pill ∈ pills, e'.under pill.target pill.emoji := by
        rcases mem_append.mp he' with hold | hnew
        · exact h.all e' hold
        · obtain ⟨pill, hpill, hkey⟩ := any_eq_true.mp hany
          rw [mem_singleton.mp hnew]
          exact ⟨pill, hpill, (hunder pill).mp (by simpa using hkey)⟩
      obtain ⟨pill, hpill, hkey⟩ := hold
      refine ⟨_, mem_map_of_mem hpill, ?_⟩
      split
      · rw [(add_target accountId e pill).1, (add_target accountId e pill).2]
        exact hkey
      · exact hkey
  · next hnone =>
    -- no event seen has the new key, so the pill it opens starts with this one
    have hfresh : seen.filter (MessageEventRow.under (asU64 e.targetTimestamp) e.emoji) = [] := by
      refine filter_eq_nil_iff.mpr fun e' he' hkey => hnone ?_
      obtain ⟨pill, hpill, hkey'⟩ := h.all e' he'
      simp only [MessageEventRow.under, decide_eq_true_eq] at hkey hkey'
      exact any_eq_true.mpr ⟨pill, hpill, decide_eq_true (hkey'.symm.trans hkey)⟩
    refine ⟨fun pill hmem => ?_, fun e' he' => ?_⟩
    · rcases mem_append.mp hmem with hold | hnew
      · obtain ⟨hne, hactors, hmine⟩ := h.actors pill hold
        have hkey : ¬ e.under pill.target pill.emoji = true := fun hkey =>
          hnone (any_eq_true.mpr ⟨pill, hold, decide_eq_true ((hunder pill).mpr hkey)⟩)
        rw [events_append, if_neg fun h => hkey h.1]
        exact ⟨hne, hactors, hmine⟩
      · rw [mem_singleton.mp hnew]
        simp [events, add, hfresh, filter_append, MessageEventRow.under, MessageEventRow.actor,
          maxReactionActors]
    · rcases mem_append.mp he' with hold | hnew
      · obtain ⟨pill, hpill, hkey⟩ := h.all e' hold
        exact ⟨pill, mem_append_left _ hpill, hkey⟩
      · refine ⟨_, mem_append_right _ (mem_singleton_self _), ?_⟩
        rw [mem_singleton.mp hnew, (add_target _ _ _).1, (add_target _ _ _).2]
        simp [MessageEventRow.under]

theorem Collected.foldl {accountId : String} :
    ∀ (events seen : List MessageEventRow) (pills : List Pill), Collected accountId seen pills →
      Collected accountId (seen ++ events) (events.foldl (Pill.collect accountId) pills)
  | [], seen, pills, h => by rwa [append_nil]
  | e :: events, seen, pills, h => by
    rw [foldl_cons, append_cons]
    exact Collected.foldl events (seen ++ [e]) _ (h.collect e)

end Pill

namespace Store

variable (s : Store) (accountId conversationId : String) (target : ℕ)

/-- The reactions a conversation's pills are made of: the newest active ones. -/
def newestReactions (conversationId : String) : List MessageEventRow :=
  ((s.messageEvents.rows.filter (MessageEventRow.isActive accountId conversationId)).insertionSort
    fun a b => lexLe MessageEventRow.updatedAt MessageEventRow.id b a).take maxReactionDetailRows

/-- The reactions shown in the pill of a target and emoji, newest first. -/
def reactionsShown (emoji : String) : List MessageEventRow :=
  ((s.newestReactions accountId conversationId).filter (MessageEventRow.under target emoji)).take
    maxReactionActors

/-- **The pills of a message are its shown reactions,** one pill for each emoji that has one. -/
theorem mem_reactionAggregates (summary : MessageReactionSummary) :
    summary ∈ s.reactionAggregates accountId conversationId target ↔
      ∃ emoji, s.reactionsShown accountId conversationId target emoji ≠ [] ∧
        summary = ⟨emoji, min (s.reactionsShown accountId conversationId target emoji).length u32Max,
          (s.reactionsShown accountId conversationId target emoji).any fun e => e.actorId = accountId,
          (s.reactionsShown accountId conversationId target emoji).map (MessageEventRow.actor accountId)⟩ := by
  have hpills := Pill.Collected.foldl (s.newestReactions accountId conversationId) [] []
    (Pill.Collected.nil accountId)
  rw [nil_append] at hpills
  -- a pill of the target summarises the reactions shown under its emoji
  have hsummary : ∀ pill ∈ (s.newestReactions accountId conversationId).foldl (Pill.collect accountId) [],
      pill.target = target → s.reactionsShown accountId conversationId target pill.emoji ≠ [] ∧
        pill.summary = ⟨pill.emoji,
          min (s.reactionsShown accountId conversationId target pill.emoji).length u32Max,
          (s.reactionsShown accountId conversationId target pill.emoji).any fun e => e.actorId = accountId,
          (s.reactionsShown accountId conversationId target pill.emoji).map
            (MessageEventRow.actor accountId)⟩ := by
    intro pill hpill htarget
    obtain ⟨hne, hactors, hmine⟩ := hpills.actors pill hpill
    rw [Pill.events, htarget] at hne hactors hmine
    refine ⟨hne, ?_⟩
    rw [Pill.summary, hactors, hmine, length_map]
    rfl
  unfold reactionAggregates
  simp only [mem_map, mem_filter, (perm_insertionSort _ _).mem_iff, decide_eq_true_eq]
  constructor
  · rintro ⟨pill, ⟨hpill, htarget⟩, rfl⟩
    exact ⟨pill.emoji, hsummary pill hpill htarget⟩
  · rintro ⟨emoji, hne, rfl⟩
    obtain ⟨e, he⟩ := exists_mem_of_ne_nil _ hne
    obtain ⟨hseen, hunder⟩ := mem_filter.mp (mem_of_mem_take he)
    obtain ⟨pill, hpill, hkey⟩ := hpills.all e hseen
    have hpair : (pill.target, pill.emoji) = (target, emoji) := by
      simp only [MessageEventRow.under, decide_eq_true_eq] at hunder hkey
      exact hkey.symm.trans hunder
    obtain ⟨htarget, rfl⟩ := Prod.mk.inj hpair
    exact ⟨pill, ⟨hpill, htarget⟩, (hsummary pill hpill htarget).2⟩

end Store

end SignalConnector
