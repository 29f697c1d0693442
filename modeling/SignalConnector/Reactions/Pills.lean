/-
# The order of the pills

The reactions to a message are shown as pills, one for each emoji. Their order
is meant to be that of the first reaction of each, so that a further reaction
moves no pill; but the rows are read newest first and a pill takes its place by
the row that opens it, which is its newest. And a pill is marked as the
account's own only if the account's reaction is among the newest 64.
-/
import SignalConnector.Lib.Run
import SignalConnector.Paging.Tiles

namespace SignalConnector

open List

/-- A message by its account, its conversation and its upstream timestamp. -/
structure ReactionTarget where
  accountId : String
  conversationId : String
  sentAt : ℕ

/-! ### What the pills are to be -/

namespace Store

variable (s : Store) (t : ReactionTarget)

/-- The active reactions to the message. -/
def reactionsTo : List MessageEventRow :=
  s.messageEvents.rows.filter fun e => e.isActive t.accountId t.conversationId && asU64 e.targetTimestamp = t.sentAt

/-- Those with this emoji. -/
def reactionsUnder (emoji : String) : List MessageEventRow := (s.reactionsTo t).filter fun e => e.emoji = emoji

/-- When the oldest active reaction of a pill was made. -/
def firstReactedAt (emoji : String) : ℤ := ((s.reactionsUnder t emoji).map (·.updatedAt)).min?.getD 0

def lastReactedAt (emoji : String) : ℤ := ((s.reactionsUnder t emoji).map (·.updatedAt)).max?.getD 0

def pillsOf : List MessageReactionSummary := s.reactionAggregates t.accountId t.conversationId t.sentAt

/-- A pill for each emoji of the active reactions: the newest actors listed and counted, marked where the account is
one, in the order of the oldest. -/
structure PillsExact : Prop where
  emojis : ∀ emoji, emoji ∈ (s.pillsOf t).map (·.emoji) ↔ s.reactionsUnder t emoji ≠ []
  once : ((s.pillsOf t).map (·.emoji)).Nodup
  actors : ∀ pill ∈ s.pillsOf t, pill.count = pill.actors.length ∧
    ∃ newest : List MessageEventRow, newest.Perm (s.reactionsUnder t pill.emoji) ∧ (newest.map (·.actorId)).Nodup ∧
      newest.Pairwise (fun a b => b.updatedAt ≤ a.updatedAt) ∧
      pill.actors = (newest.take maxReactionActors).map (MessageEventRow.actor t.accountId)
  mine : ∀ pill ∈ s.pillsOf t, pill.mine = true ↔ ∃ e ∈ s.reactionsUnder t pill.emoji, e.actorId = t.accountId
  ordered : ((s.pillsOf t).map (·.emoji)).Pairwise (lexLe (s.firstReactedAt t) id)

/-- The account's reaction is among the newest of its pill, and newest and oldest reactions order the pills alike. -/
structure PillsAgree : Prop where
  mine : ∀ e ∈ s.reactionsTo t, e.actorId = t.accountId → (s.reactionsUnder t e.emoji).countP
    (fun e' => lexLe MessageEventRow.updatedAt MessageEventRow.id e e' ∧ e' ≠ e) < maxReactionActors
  order : ∀ e ∈ s.reactionsTo t, ∀ e' ∈ s.reactionsTo t,
    lexLe (fun emoji => asU64 (s.lastReactedAt t emoji)) id e.emoji e'.emoji →
      lexLe (s.firstReactedAt t) id e.emoji e'.emoji

instance : Decidable (s.PillsAgree t) :=
  decidable_of_iff (_ ∧ _) ⟨fun h => ⟨h.1, h.2⟩, fun h => ⟨h.mine, h.order⟩⟩

/-- The columns of `message_events`: 64-bit integers, and one row for each actor and target. -/
structure EventsMeetSchema : Prop where
  targetTimestamp : ∀ e ∈ s.messageEvents.rows, InI64 e.targetTimestamp
  actors : ∀ e ∈ s.messageEvents.rows, ∀ e' ∈ s.messageEvents.rows, e.accountId = e'.accountId →
    e.conversationId = e'.conversationId → e.targetTimestamp = e'.targetTimestamp → e.actorId = e'.actorId → e = e'

end Store

/-! ### What opens a pill -/

namespace Pill

/-- The pills have different keys, and each stands where the first event of its key put it. -/
structure Opened (seen : List MessageEventRow) (pills : List Pill) : Prop where
  keys : (pills.map fun pill => (pill.target, pill.emoji)).Nodup
  first : ∀ pill ∈ pills, (seen.find? (MessageEventRow.under pill.target pill.emoji)).map (fun e => asU64 e.updatedAt) =
    some pill.firstReactedAt

theorem add_firstReactedAt (accountId : String) (e : MessageEventRow) (pill : Pill) :
    (pill.add accountId e).firstReactedAt = pill.firstReactedAt := by
  unfold add
  split <;> rfl

theorem Opened.collect {accountId : String} {seen : List MessageEventRow} {pills : List Pill}
    (h : Opened seen pills) (hall : ∀ e ∈ seen, ∃ pill ∈ pills, e.under pill.target pill.emoji) (e : MessageEventRow) :
    Opened (seen ++ [e]) (Pill.collect accountId pills e) := by
  have hkeep : ∀ pill ∈ pills, ((seen ++ [e]).find? (MessageEventRow.under pill.target pill.emoji)).map
      (fun e => asU64 e.updatedAt) = some pill.firstReactedAt := fun pill hpill => by
    have hfirst := h.first pill hpill
    obtain ⟨first, hfound, -⟩ := Option.map_eq_some_iff.mp hfirst
    rw [find?_append, hfound, Option.some_or, ← hfound]
    exact hfirst
  unfold Pill.collect
  dsimp only
  set key := (asU64 e.targetTimestamp, e.emoji)
  split
  · have hsame : ∀ pill : Pill, ((if (pill.target, pill.emoji) = key then pill.add accountId e else pill).target,
        (if (pill.target, pill.emoji) = key then pill.add accountId e else pill).emoji) =
          (pill.target, pill.emoji) := fun pill => by
      split
      · exact Prod.ext (add_target accountId e pill).1 (add_target accountId e pill).2
      · rfl
    refine ⟨?_, fun pill' hmem => ?_⟩
    · rw [map_map]
      exact (congrArg List.Nodup (map_congr_left fun pill _ => hsame pill)).mpr h.keys
    · obtain ⟨pill, hpill, rfl⟩ := mem_map.mp hmem
      rw [(Prod.mk.inj (hsame pill)).1, (Prod.mk.inj (hsame pill)).2, hkeep pill hpill]
      split
      · rw [add_firstReactedAt]
      · rfl
  · next hnone =>
    have hfresh : ∀ pill ∈ pills, (pill.target, pill.emoji) ≠ key := fun pill hpill hk =>
      hnone (any_eq_true.mpr ⟨pill, hpill, decide_eq_true hk⟩)
    refine ⟨?_, fun pill hmem => ?_⟩
    · rw [map_append, nodup_append]
      refine ⟨h.keys, nodup_singleton _, fun k hk k' hk' hkk' => ?_⟩
      obtain ⟨pill, hpill, rfl⟩ := mem_map.mp hk
      rw [mem_singleton.mp hk'] at hkk'
      dsimp only at hkk'
      rw [(add_target ..).1, (add_target ..).2] at hkk'
      exact hfresh pill hpill hkk'
    · rcases mem_append.mp hmem with hold | hnew
      · exact hkeep pill hold
      · have hunseen : seen.find? (MessageEventRow.under (asU64 e.targetTimestamp) e.emoji) = none := by
          refine List.find?_eq_none.mpr fun e' he' hunder => ?_
          obtain ⟨pill, hpill, hunder'⟩ := hall e' he'
          simp only [MessageEventRow.under, decide_eq_true_eq] at hunder hunder'
          exact hfresh pill hpill (hunder'.symm.trans hunder)
        rw [mem_singleton.mp hnew, (add_target ..).1, (add_target ..).2, add_firstReactedAt, find?_append,
          hunseen]
        simp [MessageEventRow.under]

theorem Opened.foldl {accountId : String} : ∀ (events seen : List MessageEventRow) (pills : List Pill),
    Opened seen pills → Collected accountId seen pills →
      Opened (seen ++ events) (events.foldl (Pill.collect accountId) pills)
  | [], seen, pills, h, _ => by rwa [append_nil]
  | e :: events, seen, pills, h, hc => by
    rw [foldl_cons, append_cons]
    exact Opened.foldl events (seen ++ [e]) _ (h.collect hc.all e) (hc.collect e)

end Pill

/-! ### The pills of a conversation that is read whole -/

namespace Store

variable {s : Store} {t : ReactionTarget}

/-- The active reactions of a pill, newest first. -/
def newestUnder (s : Store) (t : ReactionTarget) (emoji : String) : List MessageEventRow :=
  (s.reactionsUnder t emoji).insertionSort fun a b => lexLe MessageEventRow.updatedAt MessageEventRow.id b a

theorem perm_newestUnder (s : Store) (t : ReactionTarget) (emoji : String) :
    (s.newestUnder t emoji).Perm (s.reactionsUnder t emoji) := perm_insertionSort _ _

theorem pairwise_newestUnder (s : Store) (t : ReactionTarget) (emoji : String) :
    (s.newestUnder t emoji).Pairwise fun a b => b.updatedAt ≤ a.updatedAt :=
  (pairwise_insertionSort _ _).imp fun h => h.elim le_of_lt fun h => h.1.le

/-- The conversation has no more active reactions than one read brings. -/
def ReadWhole (s : Store) (t : ReactionTarget) : Prop :=
  (s.messageEvents.rows.filter (MessageEventRow.isActive t.accountId t.conversationId)).length ≤ maxReactionDetailRows
  deriving Decidable

theorem filter_newestReactions (hwhole : s.ReadWhole t) (emoji : String) :
    (s.newestReactions t.accountId t.conversationId).filter (MessageEventRow.under t.sentAt emoji) =
      s.newestUnder t emoji := by
  unfold newestReactions newestUnder reactionsUnder reactionsTo
  rw [take_of_length_le (by rw [length_insertionSort]; exact hwhole), ← insertionSort_filter,
    filter_filter, filter_filter]
  refine congrArg _ (filter_congr fun e _ => ?_)
  rw [Bool.and_comm, Bool.and_comm (decide (e.emoji = emoji)), Bool.and_assoc]
  simp [MessageEventRow.under]

variable {emoji : String} {first e : MessageEventRow}

theorem lastReactedAt_of_head
    (h : (s.newestUnder t emoji).head? = some first) : s.lastReactedAt t emoji = first.updatedAt := by
  obtain ⟨rest, hrest⟩ := head?_eq_some_iff.mp h
  have hsorted := s.pairwise_newestUnder t emoji
  have hperm := s.perm_newestUnder t emoji
  rw [hrest] at hsorted hperm
  have hmax : ((s.reactionsUnder t emoji).map (·.updatedAt)).max? = some first.updatedAt := by
    refine max?_eq_some_iff.mpr ⟨mem_map_of_mem (hperm.mem_iff.mp mem_cons_self), fun at_ hat => ?_⟩
    obtain ⟨e, he, rfl⟩ := mem_map.mp hat
    rcases mem_cons.mp (hperm.mem_iff.mpr he) with rfl | he
    · exact le_rfl
    · exact (pairwise_cons.mp hsorted).1 e he
  rw [lastReactedAt, hmax, Option.getD_some]

/-- The pills of the message before they are summed up. -/
def openedPills (s : Store) (t : ReactionTarget) : List Pill :=
  (((s.newestReactions t.accountId t.conversationId).foldl (Pill.collect t.accountId) []).insertionSort
    (lexLe Pill.firstReactedAt Pill.emoji)).filter fun pill => pill.target = t.sentAt

theorem map_pillsOf : (s.pillsOf t).map (·.emoji) = (s.openedPills t).map Pill.emoji := by
  unfold pillsOf reactionAggregates
  rw [map_map]
  rfl

theorem opened (s : Store) (t : ReactionTarget) : Pill.Opened (s.newestReactions t.accountId t.conversationId)
    ((s.newestReactions t.accountId t.conversationId).foldl (Pill.collect t.accountId) []) :=
  Pill.Opened.foldl _ [] [] ⟨nodup_nil, fun _ h => (not_mem_nil h).elim⟩ (Pill.Collected.nil t.accountId)

theorem mem_openedPills {pill : Pill} (h : pill ∈ s.openedPills t) : pill.target = t.sentAt ∧
    pill ∈ (s.newestReactions t.accountId t.conversationId).foldl (Pill.collect t.accountId) [] := by
  obtain ⟨hmem, htarget⟩ := mem_filter.mp h
  exact ⟨of_decide_eq_true htarget, (mem_insertionSort _).mp hmem⟩

theorem nodup_emojis (s : Store) (t : ReactionTarget) : ((s.pillsOf t).map (·.emoji)).Nodup := by
  rw [map_pillsOf]
  have hnd := List.Nodup.of_map _ (((perm_insertionSort (lexLe Pill.firstReactedAt Pill.emoji) _).map
    fun pill : Pill => (pill.target, pill.emoji)).nodup_iff.mpr (s.opened t).keys)
  refine List.Nodup.map_on (fun p hp q hq hpq => ?_) (hnd.filter _)
  obtain ⟨hp', hp⟩ := mem_openedPills hp
  obtain ⟨hq', hq⟩ := mem_openedPills hq
  exact inj_on_of_nodup_map (s.opened t).keys hp hq (by rw [hp', hq', hpq])

/-- **The pills are in the order of their newest reactions.** -/
theorem emojis_ordered (hwhole : s.ReadWhole t) : ((s.pillsOf t).map (·.emoji)).Pairwise
    (lexLe (fun emoji => asU64 (s.lastReactedAt t emoji)) id) := by
  rw [map_pillsOf, pairwise_map]
  have hnewest : ∀ pill ∈ s.openedPills t, pill.firstReactedAt = asU64 (s.lastReactedAt t pill.emoji) := by
    intro pill hpill
    obtain ⟨htarget, hmem⟩ := mem_openedPills hpill
    obtain ⟨first, hfirst, heq⟩ := Option.map_eq_some_iff.mp ((s.opened t).first pill hmem)
    rw [← head?_filter, htarget, filter_newestReactions hwhole] at hfirst
    rw [lastReactedAt_of_head hfirst, heq]
  refine ((pairwise_insertionSort _ _).filter _).imp_of_mem fun {p q} hp hq hle => ?_
  unfold lexLe at hle ⊢
  rw [hnewest p hp, hnewest q hq] at hle
  exact hle

theorem mem_pillsOf (hwhole : s.ReadWhole t) (pill : MessageReactionSummary) :
    pill ∈ s.pillsOf t ↔ ∃ emoji, s.reactionsUnder t emoji ≠ [] ∧
      pill = ⟨emoji, min ((s.newestUnder t emoji).take maxReactionActors).length u32Max,
        ((s.newestUnder t emoji).take maxReactionActors).any fun e => e.actorId = t.accountId,
        ((s.newestUnder t emoji).take maxReactionActors).map (MessageEventRow.actor t.accountId)⟩ := by
  have hshown : ∀ emoji, s.reactionsShown t.accountId t.conversationId t.sentAt emoji =
      (s.newestUnder t emoji).take maxReactionActors := fun emoji => by
    rw [reactionsShown, filter_newestReactions hwhole]
  have hnil : ∀ emoji, (s.newestUnder t emoji).take maxReactionActors = [] ↔ s.reactionsUnder t emoji = [] :=
    fun emoji => by
      rw [take_eq_nil_iff, ← length_eq_zero_iff, (s.perm_newestUnder t emoji).length_eq,
        length_eq_zero_iff]
      simp [maxReactionActors]
  rw [pillsOf, mem_reactionAggregates]
  simp only [hshown, ne_eq, hnil]

theorem mem_emojis (hwhole : s.ReadWhole t) (emoji : String) :
    emoji ∈ (s.pillsOf t).map (·.emoji) ↔ s.reactionsUnder t emoji ≠ [] := by
  rw [mem_map]
  constructor
  · rintro ⟨pill, hpill, rfl⟩
    obtain ⟨emoji, hne, rfl⟩ := (mem_pillsOf hwhole pill).mp hpill
    exact hne
  · exact fun hne => ⟨_, (mem_pillsOf hwhole _).mpr ⟨emoji, hne, rfl⟩, rfl⟩

/-! ### When they are exact -/

theorem asU64_inj {y z : ℤ} (hy : InI64 y) (hz : InI64 z) (h : asU64 y = asU64 z) : y = z := by
  unfold asU64 at h
  obtain ⟨hy, hy'⟩ := hy
  obtain ⟨hz, hz'⟩ := hz
  split at h <;> split at h <;> omega

theorem mem_reactionsTo : e ∈ s.reactionsTo t ↔ e ∈ s.messageEvents.rows ∧
    (e.accountId = t.accountId ∧ e.conversationId = t.conversationId ∧ e.removed = false) ∧
      asU64 e.targetTimestamp = t.sentAt := by
  simp [reactionsTo, MessageEventRow.isActive]

theorem mem_reactionsUnder : e ∈ s.reactionsUnder t emoji ↔ e ∈ s.reactionsTo t ∧ e.emoji = emoji := by
  simp [reactionsUnder]

theorem EventsMeetSchema.eq_of_actor (hs : s.EventsMeetSchema) {e e' : MessageEventRow} (he : e ∈ s.reactionsTo t)
    (he' : e' ∈ s.reactionsTo t) (hactor : e.actorId = e'.actorId) : e = e' := by
  obtain ⟨hmem, ⟨haccount, hconversation, -⟩, htarget⟩ := mem_reactionsTo.mp he
  obtain ⟨hmem', ⟨haccount', hconversation', -⟩, htarget'⟩ := mem_reactionsTo.mp he'
  refine hs.actors e hmem e' hmem' (haccount.trans haccount'.symm) (hconversation.trans hconversation'.symm) ?_ hactor
  exact asU64_inj (hs.targetTimestamp e hmem) (hs.targetTimestamp e' hmem') (htarget.trans htarget'.symm)

theorem nodup_reactionsUnder (emoji : String) : (s.reactionsUnder t emoji).Nodup :=
  ((List.Nodup.of_map _ s.messageEvents.nodup).filter _).filter _

/-- A reaction is listed if fewer than 64 of its pill are newer. -/
theorem mem_take_newestUnder (he : e ∈ s.reactionsTo t) :
    e ∈ (s.newestUnder t e.emoji).take maxReactionActors ↔ (s.reactionsUnder t e.emoji).countP
      (fun e' => lexLe MessageEventRow.updatedAt MessageEventRow.id e e' ∧ e' ≠ e) < maxReactionActors := by
  rw [newestUnder, mem_take_insertionSort (nodup_reactionsUnder e.emoji) fun b hb hab hba => ?_,
    and_iff_right (mem_reactionsUnder.mpr ⟨he, rfl⟩)]
  exact s.messageEvents.row_unique (mem_reactionsTo.mp he).1 (mem_reactionsTo.mp (mem_reactionsUnder.mp hb).1).1
    (lexLe_antisymm hba hab)

theorem PillsExact.agree (hs : s.EventsMeetSchema) (hwhole : s.ReadWhole t) (h : s.PillsExact t) :
    s.PillsAgree t := by
  have hemoji : ∀ e ∈ s.reactionsTo t, e.emoji ∈ (s.pillsOf t).map (·.emoji) := fun e he =>
    (h.emojis e.emoji).mpr (ne_nil_of_mem (mem_reactionsUnder.mpr ⟨he, rfl⟩))
  refine ⟨fun e he hactor => ?_, fun e he e' he' hle => ?_⟩
  · obtain ⟨pill, hpill, hpillEmoji⟩ := mem_map.mp (hemoji e he)
    have hmine : pill.mine = true := (h.mine pill hpill).mpr ⟨e, mem_reactionsUnder.mpr ⟨he, hpillEmoji.symm⟩, hactor⟩
    obtain ⟨emoji, -, rfl⟩ := (mem_pillsOf hwhole pill).mp hpill
    obtain ⟨e', he', hactor'⟩ := any_eq_true.mp hmine
    obtain rfl : emoji = e.emoji := hpillEmoji
    have hown' := (s.perm_newestUnder t e.emoji).mem_iff.mp (mem_of_mem_take he')
    obtain rfl : e = e' :=
      hs.eq_of_actor he (mem_reactionsUnder.mp hown').1 (hactor.trans (of_decide_eq_true hactor').symm)
    exact (mem_take_newestUnder he).mp he'
  · exact rel_of_pairwise (emojis_ordered hwhole) h.ordered (fun x y hxy hyx => lexLe_antisymm hxy hyx)
      (fun x => .inr ⟨rfl, Std.le_refl x⟩) (hemoji e he) (hemoji e' he') hle

theorem PillsAgree.exact (hs : s.EventsMeetSchema) (hwhole : s.ReadWhole t) (h : s.PillsAgree t) :
    s.PillsExact t := by
  have hnewest : ∀ {emoji e}, e ∈ s.newestUnder t emoji → e ∈ s.reactionsTo t ∧ e.emoji = emoji := fun he =>
    mem_reactionsUnder.mp ((s.perm_newestUnder t _).mem_iff.mp he)
  refine ⟨mem_emojis hwhole, s.nodup_emojis t, fun pill hpill => ?_, fun pill hpill => ?_, ?_⟩
  · obtain ⟨emoji, -, rfl⟩ := (mem_pillsOf hwhole pill).mp hpill
    refine ⟨?_, _, s.perm_newestUnder t emoji, ?_, s.pairwise_newestUnder t emoji, rfl⟩
    · rw [length_map, min_eq_left]
      exact (length_take_le _ _).trans (by decide)
    · refine List.Nodup.map_on (fun e he e' he' hactor => ?_) ((s.perm_newestUnder t emoji).nodup_iff.mpr
        (nodup_reactionsUnder emoji))
      exact hs.eq_of_actor (hnewest he).1 (hnewest he').1 hactor
  · obtain ⟨emoji, -, rfl⟩ := (mem_pillsOf hwhole pill).mp hpill
    dsimp only
    rw [any_eq_true]
    constructor
    · rintro ⟨e, he, hactor⟩
      exact ⟨e, mem_reactionsUnder.mpr (hnewest (mem_of_mem_take he)), of_decide_eq_true hactor⟩
    · rintro ⟨e, he, hactor⟩
      obtain ⟨hto, rfl⟩ := mem_reactionsUnder.mp he
      exact ⟨e, (mem_take_newestUnder hto).mpr (h.mine e hto hactor), decide_eq_true hactor⟩
  · refine (emojis_ordered hwhole).imp_of_mem fun {x y} hx hy hle => ?_
    obtain ⟨e, he⟩ := exists_mem_of_ne_nil _ ((mem_emojis hwhole x).mp hx)
    obtain ⟨e', he'⟩ := exists_mem_of_ne_nil _ ((mem_emojis hwhole y).mp hy)
    obtain ⟨hto, rfl⟩ := mem_reactionsUnder.mp he
    obtain ⟨hto', rfl⟩ := mem_reactionsUnder.mp he'
    exact h.order e hto e' hto' hle

end Store

/-! ### Histories -/

/-- A call of `upsert_reaction_event`, with the clock it reads. -/
structure ReactionCall extends ReactionTarget where
  emoji : String
  actorId : String
  removed : Bool
  actorName : Option String
  now : ℕ
  /-- The target is a `u64`. -/
  fits : sentAt < 2 ^ 64

def ReactionCall.names (r : ReactionCall) (e : MessageEventRow) : Bool :=
  e.accountId = r.accountId ∧ e.conversationId = r.conversationId ∧ e.targetTimestamp = asI64 r.sentAt ∧
    e.actorId = r.actorId

namespace Store

variable (sha256 : String → String)

def react (s : Store) (r : ReactionCall) : Store :=
  match s.upsertReactionEvent sha256 r.accountId r.conversationId r.emoji r.sentAt r.actorId r.removed
    r.actorName r.now with
  | .ok s' => s'
  | .error _ => s

variable {s : Store}

/-- What a call does: nothing, or the one row it is for says what the call says. -/
theorem react_cases (hs : s.EventsMeetSchema) (r : ReactionCall) : s.react sha256 r = s ∨
    ∃ row : MessageEventRow, r.names row ∧ row.emoji = r.emoji ∧ row.removed = r.removed ∧
      row.updatedAt = asI64 r.now ∧
      ∀ e, e ∈ (s.react sha256 r).messageEvents.rows ↔ (e ∈ s.messageEvents.rows ∧ ¬r.names e) ∨ e = row := by
  unfold react upsertReactionEvent
  dsimp only
  split
  swap
  · exact .inl rfl
  next s' hcall =>
  refine .inr ?_
  split at hcall
  · next hany =>
    cases hcall
    obtain ⟨old, hold, hnames⟩ := any_eq_true.mp hany
    refine ⟨{ old with emoji := r.emoji, removed := r.removed, actorName := r.actorName, updatedAt := asI64 r.now },
      hnames, rfl, rfl, rfl, fun e => ?_⟩
    have honly : ∀ x ∈ s.messageEvents.rows, r.names x → x = old := fun x hx hx' => by
      simp only [ReactionCall.names, decide_eq_true_eq] at hx' hnames
      exact hs.actors x hx old hold (hx'.1.trans hnames.1.symm) (hx'.2.1.trans hnames.2.1.symm)
        (hx'.2.2.1.trans hnames.2.2.1.symm) (hx'.2.2.2.trans hnames.2.2.2.symm)
    rw [Table.rows_update, mem_map]
    constructor
    · rintro ⟨x, hx, hxe⟩
      by_cases hx' : r.names x
      · have hwritten := (if_pos hx').symm.trans hxe
        rw [honly x hx hx'] at hwritten
        exact .inr hwritten.symm
      · obtain rfl : x = e := (if_neg hx').symm.trans hxe
        exact .inl ⟨hx, hx'⟩
    · rintro (⟨hmem, hnot⟩ | rfl)
      · exact ⟨e, hmem, if_neg hnot⟩
      · exact ⟨old, hold, if_pos hnames⟩
  next hnone =>
  have hnew : ∀ x ∈ s.messageEvents.rows, ¬r.names x := fun x hx hx' => hnone (any_eq_true.mpr ⟨x, hx, hx'⟩)
  split at hcall
  · cases hcall
  next hfree =>
  split at hcall
  · cases hcall
    refine ⟨⟨stableHashId sha256 [r.accountId, r.conversationId, "reaction", toString r.sentAt, r.actorId],
      r.accountId, r.conversationId, r.emoji, asI64 r.sentAt, r.actorId, r.removed, asI64 r.now, r.actorName⟩,
      by simp [ReactionCall.names], rfl, rfl, rfl, fun e => ?_⟩
    rw [Table.rows_insertOrIgnore_of_free (by simpa using hfree), mem_append, mem_singleton]
    exact or_congr_left ⟨fun h => ⟨h, hnew e h⟩, fun h => h.1⟩
  · cases hcall

theorem asI64_fits {n : ℕ} (h : n < 2 ^ 64) : InI64 (asI64 n) := by
  unfold asI64 InI64
  split <;> omega

theorem asU64_asI64 {n : ℕ} (h : n < 2 ^ 64) : asU64 (asI64 n) = n := by
  unfold asI64 asU64
  split_ifs <;> omega

/-- The columns stay as the schema has them. -/
theorem EventsMeetSchema.react (hs : s.EventsMeetSchema) (r : ReactionCall) :
    (s.react sha256 r).EventsMeetSchema := by
  rcases react_cases sha256 hs r with hsame | ⟨row, hnames, -, -, -, hrows⟩
  · rwa [hsame]
  have hrow := of_decide_eq_true hnames
  have hfresh : ∀ e, ¬r.names e → ¬(e.accountId = row.accountId ∧ e.conversationId = row.conversationId ∧
      e.targetTimestamp = row.targetTimestamp ∧ e.actorId = row.actorId) := by
    rintro e hnot ⟨haccount, hconversation, htarget, hactor⟩
    exact hnot (decide_eq_true ⟨haccount.trans hrow.1, hconversation.trans hrow.2.1, htarget.trans hrow.2.2.1,
      hactor.trans hrow.2.2.2⟩)
  refine ⟨fun e he => ?_, fun e he e' he' haccount hconversation htarget hactor => ?_⟩
  · rcases (hrows e).mp he with ⟨he, -⟩ | rfl
    · exact hs.targetTimestamp e he
    · rw [hrow.2.2.1]
      exact asI64_fits r.fits
  · rcases (hrows e).mp he with ⟨he, hnot⟩ | rfl <;> rcases (hrows e').mp he' with ⟨he', hnot'⟩ | rfl
    · exact hs.actors e he e' he' haccount hconversation htarget hactor
    · exact absurd ⟨haccount, hconversation, htarget, hactor⟩ (hfresh e hnot)
    · exact absurd ⟨haccount.symm, hconversation.symm, htarget.symm, hactor.symm⟩ (hfresh e' hnot')
    · rfl

/-- A further actor joins a pill: they have no active reaction to the message yet, and theirs is not older than the
pill's oldest. -/
structure JoinsPill (s : Store) (t : ReactionTarget) (r : ReactionCall) : Prop where
  target : r.toReactionTarget = t
  reacts : r.removed = false
  further : ∀ e ∈ s.reactionsTo t, e.actorId ≠ r.actorId
  pill : s.reactionsUnder t r.emoji ≠ []
  later : s.firstReactedAt t r.emoji ≤ asI64 r.now

variable {t : ReactionTarget} {r : ReactionCall}

/-- The reactions after a join are those before it and the new one. -/
theorem JoinsPill.reactions (h : s.JoinsPill t r) (hs : s.EventsMeetSchema) : s.react sha256 r = s ∨
    ∃ row : MessageEventRow, row.updatedAt = asI64 r.now ∧ ∀ emoji e, e ∈ (s.react sha256 r).reactionsUnder t emoji ↔
      e ∈ s.reactionsUnder t emoji ∨ (e = row ∧ emoji = r.emoji) := by
  refine (react_cases sha256 hs r).imp_right ?_
  rintro ⟨row, hnames, hemoji, hremoved, hupdated, hrows⟩
  obtain ⟨haccount, hconversation, htarget, -⟩ := of_decide_eq_true hnames
  obtain rfl := h.target
  refine ⟨row, hupdated, fun emoji e => ?_⟩
  rw [mem_reactionsUnder, mem_reactionsUnder, mem_reactionsTo, hrows]
  constructor
  · rintro ⟨⟨⟨hmem, -⟩ | rfl, hactive⟩, hunder⟩
    · exact .inl ⟨mem_reactionsTo.mpr ⟨hmem, hactive⟩, hunder⟩
    · exact .inr ⟨rfl, hunder.symm.trans hemoji⟩
  · rintro (⟨hmem, hunder⟩ | ⟨rfl, rfl⟩)
    · obtain ⟨hrow, hactive⟩ := mem_reactionsTo.mp hmem
      exact ⟨⟨.inl ⟨hrow, fun hnamed => h.further e hmem (of_decide_eq_true hnamed).2.2.2⟩, hactive⟩, hunder⟩
    · refine ⟨⟨.inr rfl, ⟨haccount, hconversation, hremoved.trans h.reacts⟩, ?_⟩, hemoji⟩
      rw [htarget, asU64_asI64 r.fits]

/-- The oldest reaction of a pill. -/
theorem exists_firstReactedAt {emoji : String} (h : s.reactionsUnder t emoji ≠ []) :
    (∃ e ∈ s.reactionsUnder t emoji, e.updatedAt = s.firstReactedAt t emoji) ∧
      ∀ e ∈ s.reactionsUnder t emoji, s.firstReactedAt t emoji ≤ e.updatedAt := by
  obtain ⟨first, hfirst⟩ : ∃ first, ((s.reactionsUnder t emoji).map (·.updatedAt)).min? = some first := by
    rw [← Option.isSome_iff_exists, isSome_min?_iff]
    simpa using h
  obtain ⟨hmem, hle⟩ := min?_eq_some_iff.mp hfirst
  rw [firstReactedAt, hfirst, Option.getD_some]
  exact ⟨mem_map.mp hmem, fun e he => hle e.updatedAt (mem_map_of_mem he)⟩

/-- A join leaves every pill its oldest reaction, and opens none. -/
theorem JoinsPill.keeps (h : s.JoinsPill t r) (hs : s.EventsMeetSchema) (emoji : String) :
    ((s.react sha256 r).reactionsUnder t emoji ≠ [] ↔ s.reactionsUnder t emoji ≠ []) ∧
      (s.reactionsUnder t emoji ≠ [] → (s.react sha256 r).firstReactedAt t emoji = s.firstReactedAt t emoji) := by
  rcases h.reactions sha256 hs with hsame | ⟨row, hupdated, hmem⟩
  · rw [hsame]
    exact ⟨Iff.rfl, fun _ => rfl⟩
  have hkept : s.reactionsUnder t emoji ≠ [] → (s.react sha256 r).reactionsUnder t emoji ≠ [] := fun hne => by
    obtain ⟨e, he⟩ := exists_mem_of_ne_nil _ hne
    exact ne_nil_of_mem ((hmem emoji e).mpr (.inl he))
  refine ⟨⟨fun hne => ?_, hkept⟩, fun hne => le_antisymm ?_ ?_⟩
  · obtain ⟨e, he⟩ := exists_mem_of_ne_nil _ hne
    rcases (hmem emoji e).mp he with he | ⟨-, rfl⟩
    · exact ne_nil_of_mem he
    · exact h.pill
  · obtain ⟨e, he, heq⟩ := (exists_firstReactedAt hne).1
    rw [← heq]
    exact (exists_firstReactedAt (hkept hne)).2 e ((hmem emoji e).mpr (.inl he))
  · obtain ⟨e, he, heq⟩ := (exists_firstReactedAt (hkept hne)).1
    rw [← heq]
    rcases (hmem emoji e).mp he with he | ⟨rfl, rfl⟩
    · exact (exists_firstReactedAt hne).2 e he
    · rw [hupdated]
      exact h.later

/-- Exact pills stay in their order when an actor joins one of them. -/
theorem PillsExact.pillEmojis_react (h : s.PillsExact t) (hs : s.EventsMeetSchema) (hjoins : s.JoinsPill t r)
    (h' : (s.react sha256 r).PillsExact t) :
    ((s.react sha256 r).pillsOf t).map (·.emoji) = (s.pillsOf t).map (·.emoji) := by
  have hsame : ∀ emoji, emoji ∈ ((s.react sha256 r).pillsOf t).map (·.emoji) ↔
      emoji ∈ (s.pillsOf t).map (·.emoji) := fun emoji => by
    rw [h.emojis, h'.emojis, (hjoins.keeps sha256 hs emoji).1]
  have hordered : (((s.react sha256 r).pillsOf t).map (·.emoji)).Pairwise (lexLe (s.firstReactedAt t) id) := by
    refine h'.ordered.imp_of_mem fun {x y} hx hy hle => ?_
    unfold lexLe at hle ⊢
    rwa [(hjoins.keeps sha256 hs x).2 ((h.emojis x).mp ((hsame x).mp hx)),
      (hjoins.keeps sha256 hs y).2 ((h.emojis y).mp ((hsame y).mp hy))] at hle
  exact List.Perm.eq_of_pairwise (fun x y _ _ hxy hyx => lexLe_antisymm hxy hyx) hordered h.ordered
    ((perm_ext_iff_of_nodup h'.once h.once).mpr hsame)

/-- **The pills are exact iff the account's reaction is listed and the two orders agree**; and where they
stay exact as an actor joins a pill, the order stays. -/
theorem reaction_pills_exact_iff (s : Store) (hs : s.EventsMeetSchema) (history : List ReactionCall)
    (t : ReactionTarget) (hwhole : (history.foldl (react sha256) s).ReadWhole t) :
    ((history.foldl (react sha256) s).PillsExact t ↔ (history.foldl (react sha256) s).PillsAgree t) ∧
      ∀ r, (history.foldl (react sha256) s).JoinsPill t r → (history.foldl (react sha256) s).PillsExact t →
        ((history ++ [r]).foldl (react sha256) s).PillsExact t →
        (((history ++ [r]).foldl (react sha256) s).pillsOf t).map (·.emoji) =
          ((history.foldl (react sha256) s).pillsOf t).map (·.emoji) := by
  have hreached : (history.foldl (react sha256) s).EventsMeetSchema :=
    foldl_invariant EventsMeetSchema (fun s r hs => hs.react sha256 r) history s hs
  refine ⟨⟨fun h => h.agree hreached hwhole, fun h => h.exact hreached hwhole⟩, fun r hjoins h h' => ?_⟩
  rw [foldl_concat] at h' ⊢
  exact h.pillEmojis_react sha256 hreached hjoins h'

end Store

/-! ### A pill that moves -/

namespace Reactions

def chat : Store :=
  { Store.empty with
    accounts := .single (.ofAddress "account" "+1" "+***1" "group")
    conversations := .single (.ofPeer "conversation" "account" .direct "+2" "Bo") }

theorem chat_meetsSchema : chat.EventsMeetSchema :=
  ⟨fun _ h => (not_mem_nil h).elim, fun _ h => (not_mem_nil h).elim⟩

def lunch : ReactionTarget := ⟨"account", "conversation", 400⟩

def reaction (actorId emoji : String) (now : ℕ) : ReactionCall := ⟨lunch, emoji, actorId, false, none, now, by decide⟩

def twoPills : List ReactionCall := [reaction "bo" "+" 1, reaction "cy" "<3" 2]

/-- Di joins Cy's pill, which stays the second. -/
theorem later_heart_keeps_order :
    (((twoPills ++ [reaction "di" "<3" 3]).foldl (Store.react id) chat).pillsOf lunch).map (·.emoji) =
      ((twoPills.foldl (Store.react id) chat).pillsOf lunch).map (·.emoji) := by
  have hbefore := Store.reaction_pills_exact_iff id chat chat_meetsSchema twoPills lunch (by decide +kernel)
  have hafter := Store.reaction_pills_exact_iff id chat chat_meetsSchema (twoPills ++ [reaction "di" "<3" 3]) lunch
    (by decide +kernel)
  exact hbefore.2 (reaction "di" "<3" 3) ⟨rfl, rfl, by decide +kernel, by decide +kernel, by decide +kernel⟩
    (hbefore.1.mpr (by decide +kernel)) (hafter.1.mpr (by decide +kernel))

/-- Di joins Bo's pill, which was first, and it moves behind Cy's. -/
theorem later_thumb_moves_pill :
    ((twoPills.foldl (Store.react id) chat).pillsOf lunch).map (·.emoji) = ["+", "<3"] ∧
      (((twoPills ++ [reaction "di" "+" 3]).foldl (Store.react id) chat).pillsOf lunch).map (·.emoji) = ["<3", "+"] ∧
      ¬((twoPills ++ [reaction "di" "+" 3]).foldl (Store.react id) chat).PillsExact lunch := by
  refine ⟨by decide +kernel, by decide +kernel, fun h => ?_⟩
  exact absurd h.ordered (by decide +kernel)

end Reactions

end SignalConnector
