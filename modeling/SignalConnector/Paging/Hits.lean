/-
# Does a search hit render like a thread read?

The edits, the outgoing quote and the resolved quote id of a record are looked
up under the record's own row and conversation. Its reactions are looked up in
the conversation of the first record of the page, so a hit renders as the
thread does exactly where the two conversations give its stamp the same pills.
-/
import SignalConnector.Paging.Tiles

namespace SignalConnector

/-- Two records carry the same reactions, edits, quote and quoted row. -/
def MessageRecord.RendersAs (r r' : MessageRecord) : Prop :=
  r.reactions = r'.reactions ∧ r.edits = r'.edits ∧ r.quote = r'.quote ∧ r.quoteMessageId = r'.quoteMessageId

namespace Store

variable (sha256 : String → String) (s : Store) (accountId query : String) (limit : ℕ)
  (cursor conversationId : Option String)

/-- Some call of `list_messages` answers the record. -/
def Listed (conversationId : String) (r : MessageRecord) : Prop :=
  ∃ limit before page, s.listMessages sha256 accountId conversationId limit before = .ok page ∧ r ∈ page.items

/-- Each hit of the page renders as `list_messages` answers the row in its own conversation. -/
def HitsRenderAsThread : Prop :=
  ∀ page, s.searchMessages sha256 accountId query limit cursor conversationId = .ok page →
    ∀ hit ∈ page.items, ∀ r, s.Listed sha256 accountId hit.conversationId r → r.id = hit.id → hit.RendersAs r

variable {sha256 s accountId limit}

/-- A page shows stored rows, each with the reactions of the first one's conversation. -/
theorem of_mem_newestPage {p : MessageRow → Bool} {encode : MessageRecord → String} {r : MessageRecord}
    (hr : r ∈ (s.newestPage sha256 accountId limit p encode).items) :
    ∃ first ∈ (s.newestPage sha256 accountId limit p encode).items.head?,
      (∃ m, p m = true ∧ first.conversationId = m.conversationId) ∧
        ∃ m ∈ s.messages.rows, r = s.shownRecord sha256 accountId first.conversationId m := by
  unfold newestPage at hr ⊢
  dsimp only at hr ⊢
  generalize hrows : ((newestFirst (s.messages.rows.filter p)).take _).take _ = rows at hr ⊢
  have hstored : ∀ m ∈ rows, m ∈ s.messages.rows ∧ p m = true := fun m hm =>
    List.mem_filter.mp (mem_newestFirst.mp (List.mem_of_mem_take (List.mem_of_mem_take (hrows ▸ hm))))
  rw [attachAll_eq] at hr ⊢
  obtain ⟨m, hm, rfl⟩ := List.mem_map.mp hr
  cases rows with
  | nil => cases hm
  | cons first rest =>
    have hconv : ∀ c, (s.shownRecord sha256 accountId c first).conversationId = first.conversationId := fun c => by
      obtain ⟨_, _, -, hshown⟩ := s.shownRecord_eq sha256 accountId first
      rw [hshown]
      rfl
    refine ⟨_, rfl, ⟨first, (hstored first List.mem_cons_self).2, hconv _⟩, m, (hstored m hm).1, ?_⟩
    rw [hconv]
    rfl

theorem Listed.shown {conversationId : String} {r : MessageRecord} (h : s.Listed sha256 accountId conversationId r) :
    ∃ m ∈ s.messages.rows, r = s.shownRecord sha256 accountId conversationId m := by
  obtain ⟨limit, before, page, hpage, hr⟩ := h
  obtain ⟨anchor, -, hpage⟩ := exists_of_bind_ok hpage
  cases hpage
  obtain ⟨first, -, ⟨m₀, hinside, hfirst⟩, hshown⟩ := of_mem_newestPage hr
  simp only [Bool.and_eq_true, decide_eq_true_eq] at hinside
  rwa [hfirst, hinside.1.2] at hshown

/-- **When a hit renders like a thread read**: iff the first hit's conversation gives it the pills its own
conversation does. -/
theorem hits_render_as_thread_iff : s.HitsRenderAsThread sha256 accountId query limit cursor conversationId ↔
      ∀ page, s.searchMessages sha256 accountId query limit cursor conversationId = .ok page →
        ∀ first ∈ page.items.head?, ∀ hit ∈ page.items,
          (∃ r, s.Listed sha256 accountId hit.conversationId r ∧ r.id = hit.id) →
            s.reactionAggregates accountId first.conversationId hit.sentAt =
              s.reactionAggregates accountId hit.conversationId hit.sentAt := by
  refine forall₂_congr fun page hpage => ?_
  have hshown : ∀ hit ∈ page.items, ∃ first ∈ page.items.head?, ∃ m ∈ s.messages.rows,
      hit = s.shownRecord sha256 accountId first.conversationId m := by
    intro hit hhit
    unfold searchMessages at hpage
    split at hpage
    · cases hpage
      cases hhit
    · obtain ⟨anchor, -, hpage⟩ := exists_of_bind_ok hpage
      cases hpage
      obtain ⟨first, hfirst, -, hshown⟩ := of_mem_newestPage hhit
      exact ⟨first, hfirst, hshown⟩
  have hrenders : ∀ hit ∈ page.items, ∀ r, s.Listed sha256 accountId hit.conversationId r → r.id = hit.id →
      ∃ first ∈ page.items.head?, (hit.RendersAs r ↔
        s.reactionAggregates accountId first.conversationId hit.sentAt =
          s.reactionAggregates accountId hit.conversationId hit.sentAt) := by
    intro hit hhit r hlisted hid
    obtain ⟨first, hfirst, m, hm, rfl⟩ := hshown hit hhit
    obtain ⟨m', hm', rfl⟩ := hlisted.shown
    rw [id_shownRecord, id_shownRecord] at hid
    obtain rfl := s.messages.row_unique hm' hm hid
    obtain ⟨quote, quoteMessageId, -, hall⟩ := s.shownRecord_eq sha256 accountId m'
    refine ⟨first, hfirst, ?_⟩
    simp only [hall, MessageRecord.RendersAs, and_true]
    rfl
  constructor
  · rintro h first hfirst hit hhit ⟨r, hlisted, hid⟩
    obtain ⟨first', hfirst', hiff⟩ := hrenders hit hhit r hlisted hid
    cases Option.mem_unique hfirst hfirst'
    exact hiff.mp (h hit hhit r hlisted hid)
  · intro h hit hhit r hlisted hid
    obtain ⟨first, hfirst, hiff⟩ := hrenders hit hhit r hlisted hid
    exact hiff.mpr (h first hfirst hit hhit ⟨r, hlisted, hid⟩)

end Store

/-- The text of `m1` once more, earlier and in another conversation, where it has a reaction. -/
def reactedElsewhere : Store :=
  let s := twoTexts 2000 3000
  { s with
    conversations := s.conversations.insertOrIgnore (.ofPeer "d" "a" .direct "+15550102" "peer")
    messages := s.messages.insertOrIgnore (.ofText "m3" "a" "d" .outgoing "a" 1000 "one" .sent)
    messageEvents := .single ⟨"e", "a", "d", "+", 1000, "a", false, 4000, none⟩ }

/-- The search for it shows the row in `d` without the reaction its thread shows. -/
theorem hit_without_reaction : ¬reactedElsewhere.HitsRenderAsThread id "a" "one" 10 none none := by
  intro h
  let shown (c : String) := reactedElsewhere.shownRecord id "a" c (.ofText "m3" "a" "d" .outgoing "a" 1000 "one" .sent)
  have hrenders := h _ rfl (shown "c") (by decide +kernel) (shown "d") ⟨10, none, _, rfl, by decide +kernel⟩ rfl
  exact absurd hrenders.1 (by decide +kernel)

end SignalConnector
