/-
# Votes that reach their row

`fold_poll_vote` and `fold_poll_terminate` address a poll by its account, its
conversation, its time and two spellings of its author, and act only where
exactly one live row answers. What an address names is not changed by the
folds, so a run of calls on a store is, for the poll of one row, the run of the
folds that address it (`Store.pollAt_foldl`); every other row is left alone.
-/
import SignalConnector.Polls.Ballots

namespace SignalConnector

open List

structure PollAddress where
  accountId : String
  conversationId : String
  targetSentAt : ℕ
  senderId : String
  legacySenderId : String
  deriving DecidableEq

/-- The `WHERE` of `fold_poll_row`. -/
def PollAddress.names (a : PollAddress) (m : MessageRow) : Bool :=
  (m.accountId = a.accountId ∧ m.conversationId = a.conversationId ∧ m.sentAt = asI64 a.targetSentAt ∧
    (m.senderId = a.senderId ∨ m.senderId = a.legacySenderId)) && m.isLive

/-- A call of `fold_poll_vote` or `fold_poll_terminate`. -/
structure PollCall where
  address : PollAddress
  fold : PollFold
  deriving DecidableEq

namespace MessageRow

def poll? (m : MessageRow) : Option NormalizedPoll := (m.rich.bind JsonCell.ok).bind NormalizedRich.poll

/-- A row whose poll, if it carries one, has taken a fold. -/
def foldPoll (f : PollFold) (m : MessageRow) : MessageRow :=
  match m.rich.bind JsonCell.ok with
  | none => m
  | some rich =>
    match rich.poll.bind f.mutate with
    | none => m
    | some poll => { m with rich := some (.parsed { rich with poll := some poll }) }

variable (a : PollAddress) (f : PollFold) (m : MessageRow)

theorem id_foldPoll : (m.foldPoll f).id = m.id := by
  unfold foldPoll
  split
  · rfl
  split <;> rfl

theorem names_foldPoll : a.names (m.foldPoll f) = a.names m := by
  unfold foldPoll
  split
  · rfl
  split <;> rfl

theorem poll?_foldPoll : (m.foldPoll f).poll? = m.poll?.map (·.fold f) := by
  unfold foldPoll poll?
  rcases hrich : m.rich.bind JsonCell.ok with _ | rich
  · simp [hrich]
  dsimp only
  rcases hpoll : rich.poll with _ | poll
  · simp [hrich, hpoll]
  · rcases hmutate : f.mutate poll with _ | poll' <;> simp [hrich, hpoll, hmutate, NormalizedPoll.fold, JsonCell.ok]

theorem foldPoll_of_refused {f : PollFold} {m : MessageRow} (h : ∀ poll, m.poll? = some poll → f.mutate poll = none) :
    m.foldPoll f = m := by
  unfold foldPoll
  rcases hrich : m.rich.bind JsonCell.ok with _ | rich
  · rfl
  dsimp only
  rcases hpoll : rich.poll with _ | poll
  · rfl
  · rw [Option.bind_some, h poll (by rw [poll?, hrich, Option.bind_some, hpoll])]

end MessageRow

namespace Store

/-- The one live row an address names. -/
def addressed (s : Store) (a : PollAddress) : Option MessageRow :=
  match s.messages.rows.filter a.names with
  | [row] => some row
  | _ => none

/-- The row of that id is the one the address names. -/
def addresses (s : Store) (a : PollAddress) (id : String) : Bool := (s.addressed a).any (·.id = id)

def pollAt (s : Store) (id : String) : Option NormalizedPoll := (s.messages.find? id).bind MessageRow.poll?

def pollCall (s : Store) (c : PollCall) : Store :=
  match c.fold with
  | .vote voterId optionIndexes => (s.foldPollVote c.address.accountId c.address.conversationId
      c.address.targetSentAt c.address.senderId c.address.legacySenderId voterId optionIndexes).2
  | .terminate => (s.foldPollTerminate c.address.accountId c.address.conversationId
      c.address.targetSentAt c.address.senderId c.address.legacySenderId).2

variable {s : Store} {a : PollAddress} {c : PollCall} {id : String}

theorem addressed_eq_some {row : MessageRow} : s.addressed a = some row ↔ s.messages.rows.filter a.names = [row] := by
  unfold addressed
  split
  · next only h => rw [h]; simp
  · next h => exact ⟨fun h' => (nomatch h'), fun h' => absurd h' (h row)⟩

theorem mem_of_addressed {row : MessageRow} (h : s.addressed a = some row) : row ∈ s.messages.rows :=
  mem_of_mem_filter (addressed_eq_some.mp h ▸ mem_singleton_self row)

/-! ### One call -/

theorem addresses_iff {m : MessageRow} (hm : m ∈ s.messages.rows) : s.addresses a m.id ↔ s.addressed a = some m := by
  unfold addresses
  rcases haddressed : s.addressed a with _ | row
  · simp
  · rw [Option.any_some, decide_eq_true_eq, Option.some.injEq]
    exact ⟨fun hid => s.messages.row_unique (mem_of_addressed haddressed) hm hid, fun h => h ▸ rfl⟩

theorem rows_pollCall (s : Store) (c : PollCall) : (s.pollCall c).messages.rows =
    s.messages.rows.map fun m => if s.addresses c.address m.id then m.foldPoll c.fold else m := by
  obtain ⟨a, f⟩ := c
  have hcall : s.pollCall ⟨a, f⟩ = (s.foldPollRow a.accountId a.conversationId a.targetSentAt a.senderId
      a.legacySenderId f.mutate).2 := by cases f <;> rfl
  have hstays : (∀ m, s.addressed a = some m → m.foldPoll f = m) → s.messages.rows =
      s.messages.rows.map fun m => if s.addresses a m.id then m.foldPoll f else m := fun hrefused => by
    refine (map_id _).symm.trans (map_congr_left fun m hm => ?_)
    split_ifs with h
    · exact (hrefused m ((addresses_iff hm).mp h)).symm
    · rfl
  rw [hcall]
  unfold foldPollRow
  dsimp only
  split
  swap
  · next hnone => exact hstays fun m hm => absurd (addressed_eq_some.mp hm) (hnone m)
  next row hrow =>
  have haddressed : s.addressed a = some row := addressed_eq_some.mpr hrow
  split
  · next hrich =>
    have hrow : row.foldPoll f = row := by rw [MessageRow.foldPoll, hrich]
    exact hstays fun m hm => (Option.some.inj (haddressed.symm.trans hm)) ▸ hrow
  next rich hrich =>
  split
  · next hpoll =>
    have hrow : row.foldPoll f = row := by simp only [MessageRow.foldPoll, hrich, hpoll]
    exact hstays fun m hm => (Option.some.inj (haddressed.symm.trans hm)) ▸ hrow
  next poll hpoll =>
  rw [rows_updateMessages]
  refine map_congr_left fun m hm => ?_
  by_cases h : s.addresses a m.id
  · obtain rfl : m = row := Option.some.inj (((addresses_iff hm).mp h).symm.trans haddressed)
    rw [if_pos h, if_pos (decide_eq_true rfl)]
    simp only [MessageRow.foldPoll, hrich, hpoll]
  · rw [if_neg h, if_neg]
    exact fun hid => h ((addresses_iff hm).mpr
      ((s.messages.row_unique hm (mem_of_addressed haddressed) (of_decide_eq_true hid)) ▸ haddressed))

theorem find?_pollCall (s : Store) (c : PollCall) (id : String) : (s.pollCall c).messages.find? id =
    (s.messages.find? id).map fun m => if s.addresses c.address id then m.foldPoll c.fold else m := by
  unfold Table.find?
  rw [rows_pollCall, find?_map]
  have hkey : ((fun m : MessageRow => decide (m.id = id)) ∘ fun m =>
      if s.addresses c.address m.id then m.foldPoll c.fold else m) = fun m => decide (m.id = id) := by
    funext m
    simp only [Function.comp_apply]
    split_ifs
    · rw [MessageRow.id_foldPoll]
    · rfl
  rw [hkey]
  refine Option.map_congr fun m hm => ?_
  have hid : m.id = id := by simpa using find?_some hm
  rw [hid]

theorem addresses_pollCall (s : Store) (c : PollCall) (a : PollAddress) (id : String) :
    (s.pollCall c).addresses a id = s.addresses a id := by
  unfold addresses addressed
  rw [rows_pollCall, filter_map]
  have hnames : (a.names ∘ fun m => if s.addresses c.address m.id then m.foldPoll c.fold else m) = a.names := by
    funext m
    simp only [Function.comp_apply]
    split_ifs
    · exact MessageRow.names_foldPoll a c.fold m
    · rfl
  rw [hnames]
  rcases s.messages.rows.filter a.names with _ | ⟨row, _ | ⟨second, rest⟩⟩
  · rfl
  · simp only [map_cons, map_nil, Option.any_some]
    split_ifs
    · rw [MessageRow.id_foldPoll]
    · rfl
  · rfl

theorem pollAt_pollCall (s : Store) (c : PollCall) (id : String) : (s.pollCall c).pollAt id =
    (s.pollAt id).map fun poll => if s.addresses c.address id then poll.fold c.fold else poll := by
  unfold pollAt
  rw [find?_pollCall]
  rcases s.messages.find? id with _ | m
  · rfl
  · rw [Option.map_some, Option.bind_some, Option.bind_some]
    split_ifs
    · exact m.poll?_foldPoll c.fold
    · rw [Option.map_id']

theorem exists_messages_pollCall (s : Store) (c : PollCall) : ∃ messages, s.pollCall c = { s with messages } := by
  obtain ⟨a, f⟩ := c
  have hrow : ∀ mutate, ∃ messages, (s.foldPollRow a.accountId a.conversationId a.targetSentAt a.senderId
      a.legacySenderId mutate).2 = { s with messages } := fun mutate => by
    unfold foldPollRow
    dsimp only
    split
    · split
      · exact ⟨s.messages, rfl⟩
      split
      · exact ⟨s.messages, rfl⟩
      · exact ⟨_, rfl⟩
    · exact ⟨s.messages, rfl⟩
  cases f with
  | vote voterId optionIndexes => exact hrow (NormalizedPoll.vote voterId optionIndexes)
  | terminate => exact hrow NormalizedPoll.terminate

theorem pollCall_of_refused (h : ∀ m ∈ s.messages.rows, s.addresses c.address m.id → m.foldPoll c.fold = m) :
    s.pollCall c = s := by
  have hrows : (s.pollCall c).messages.rows = s.messages.rows := by
    rw [rows_pollCall]
    refine (map_congr_left fun m hm => ?_).trans (map_id _)
    split_ifs with haddresses
    · exact h m hm haddresses
    · rfl
  obtain ⟨messages, hcall⟩ := s.exists_messages_pollCall c
  rw [hcall] at hrows ⊢
  obtain rfl : messages = s.messages := Table.eq_of_rows hrows
  rfl

/-- A poll that is over is not ended again. -/
theorem terminate_pollCall (s : Store) (a : PollAddress) :
    (s.pollCall ⟨a, .terminate⟩).pollCall ⟨a, .terminate⟩ = s.pollCall ⟨a, .terminate⟩ := by
  refine pollCall_of_refused fun m hm haddresses => MessageRow.foldPoll_of_refused fun poll hpoll => ?_
  rw [addresses_pollCall] at haddresses
  have hat : (s.pollCall ⟨a, .terminate⟩).pollAt m.id = some poll := by
    rw [pollAt, Table.mem_iff_find?.mp hm, Option.bind_some, hpoll]
  rw [pollAt_pollCall] at hat
  obtain ⟨before, -, hbefore⟩ := Option.map_eq_some_iff.mp hat
  rw [if_pos haddresses] at hbefore
  have hover : poll.terminated = true := by rw [← hbefore, NormalizedPoll.terminated_fold]; simp
  exact if_pos hover

/-! ### Whole runs -/

/-- The folds among the calls that address a row. -/
def foldsOf (s : Store) (id : String) (calls : List PollCall) : List PollFold :=
  (calls.filter fun c => s.addresses c.address id).map PollCall.fold

/-- **The poll of one row sees the folds that address it.** -/
theorem pollAt_foldl (id : String) : ∀ (calls : List PollCall) (s : Store), (calls.foldl pollCall s).pollAt id =
    (s.pollAt id).map fun poll => (s.foldsOf id calls).foldl NormalizedPoll.fold poll
  | [], s => by simp [foldsOf]
  | c :: calls, s => by
    have hfolds : (s.pollCall c).foldsOf id calls = s.foldsOf id calls := by
      simp only [foldsOf, addresses_pollCall]
    rw [foldl_cons, pollAt_foldl id calls, hfolds, pollAt_pollCall, Option.map_map]
    refine congrArg (Option.map · _) (funext fun poll => ?_)
    simp only [Function.comp_apply, foldsOf, filter_cons]
    split_ifs <;> rfl

theorem find?_foldl_pollCall (id : String) : ∀ (calls : List PollCall) (s : Store),
    (∀ c ∈ calls, s.addresses c.address id = false) → (calls.foldl pollCall s).messages.find? id = s.messages.find? id
  | [], _, _ => rfl
  | c :: calls, s, h => by
    rw [foldl_cons, find?_foldl_pollCall id calls (s.pollCall c) fun c' hc' => ?_, find?_pollCall,
      h c mem_cons_self]
    · simp
    · rw [addresses_pollCall]
      exact h c' (mem_cons_of_mem c hc')

/-- The votes of row `id` stand for the ballots cast by the calls that address it, ending twice is ending once, and a
call changes no other row. -/
structure FoldsPoll (s : Store) (id : String) (poll : NormalizedPoll) (calls : List PollCall) : Prop where
  pollAt : (calls.foldl pollCall s).pollAt id = some ((s.foldsOf id calls).foldl NormalizedPoll.fold poll)
  standsFor : poll.StandsFor (s.foldsOf id calls)
  terminate : ∀ a, ((calls.foldl pollCall s).pollCall ⟨a, .terminate⟩).pollCall ⟨a, .terminate⟩ =
    (calls.foldl pollCall s).pollCall ⟨a, .terminate⟩
  others : ∀ other, (∀ c ∈ calls, s.addresses c.address other = false) →
    (calls.foldl pollCall s).messages.find? other = s.messages.find? other

/-- **Votes fold onto their poll as documented iff every one of them is harmless.** -/
theorem folds_poll_iff (s : Store) (id : String) (poll : NormalizedPoll) (hpoll : s.pollAt id = some poll)
    (calls : List PollCall) : (∀ before, before <+: calls → s.FoldsPoll id poll before) ↔
      poll.WellKept ∧ Along NormalizedPoll.fold NormalizedPoll.Harmless poll (s.foldsOf id calls) := by
  rw [← NormalizedPoll.standsFor_prefixes_iff]
  constructor
  · rintro h folds ⟨rest, hfolds⟩
    obtain ⟨before, after, hcalls, rfl, -⟩ := map_eq_append_iff.mp hfolds.symm
    obtain ⟨first, last, rfl, rfl, -⟩ := filter_eq_append_iff.mp hcalls
    exact (h first (prefix_append first last)).standsFor
  · intro h before hbefore
    refine ⟨?_, h _ ((hbefore.filter _).map _), fun a => terminate_pollCall _ a, fun other hother =>
      find?_foldl_pollCall other before s hother⟩
    rw [pollAt_foldl, hpoll, Option.map_some]

/-- **No voter is counted twice**, whatever the calls: a poll keeps one vote for each, 64 at most, all for options. -/
theorem poll_votes_well_kept (s : Store) (id : String) (h : ∀ poll ∈ s.pollAt id, poll.WellKept)
    (calls : List PollCall) : ∀ poll ∈ (calls.foldl pollCall s).pollAt id, poll.WellKept := by
  intro poll hpoll
  rw [Option.mem_def, pollAt_foldl] at hpoll
  obtain ⟨before, hbefore, rfl⟩ := Option.map_eq_some_iff.mp hpoll
  exact foldl_invariant NormalizedPoll.WellKept (fun _ f hkept => hkept.fold f) _ before (h before hbefore)

end Store

/-! ### A vote on foreign options -/

namespace Polls

/-- A poll with two options that Bo and Cy have voted in. -/
def lunch : NormalizedPoll := ⟨"lunch", ["noon", "one"], true, false, [⟨"+2", [0]⟩, ⟨"+3", [0, 1]⟩]⟩

def lunchStore : Store :=
  { Store.empty with
    messages := .single { MessageRow.ofText "poll" "account" "conversation" .incoming "+1" 400 "lunch" .delivered with
      rich := some (.parsed { NormalizedRich.default with poll := some lunch }) } }

def lunchAddress : PollAddress := ⟨"account", "conversation", 400, "+1", "+1"⟩

/-- Bo changes their mind, Cy clears their vote, Di votes and the poll ends. -/
theorem lunch_folds : lunchStore.pollAt "poll" = some lunch ∧ ∀ before,
    before <+: [⟨lunchAddress, .vote "+2" [1, 7]⟩, ⟨lunchAddress, .vote "+3" []⟩,
      ⟨lunchAddress, .vote "+4" [0]⟩, ⟨lunchAddress, .terminate⟩] → lunchStore.FoldsPoll "poll" lunch before :=
  ⟨by decide +kernel, (Store.folds_poll_iff lunchStore "poll" lunch (by decide +kernel) _).mpr (by decide +kernel)⟩

/-- Bo's selection of no option of the poll erases the vote that it should leave as it is. -/
theorem foreign_selection_erases_vote : lunchStore.pollAt "poll" = some lunch ∧ lunch.WellKept ∧
      lunch.ballots.cast lunch.options.length "+2" [7] "+2" = some [0] ∧
      (lunchStore.pollCall ⟨lunchAddress, .vote "+2" [7]⟩).pollAt "poll" =
        some { lunch with votes := [⟨"+3", [0, 1]⟩] } ∧
      ¬lunchStore.FoldsPoll "poll" lunch [⟨lunchAddress, .vote "+2" [7]⟩] := by
  refine ⟨by decide +kernel, by decide, by decide, by decide +kernel, fun h => ?_⟩
  exact absurd (congrFun h.standsFor.ballots "+2") (by decide +kernel)

theorem lunch_stays_well_kept : (∀ poll ∈ lunchStore.pollAt "poll", poll.WellKept) ∧
    ∀ poll ∈ (lunchStore.pollCall ⟨lunchAddress, .vote "+2" [7]⟩).pollAt "poll", poll.WellKept :=
  ⟨by decide +kernel, Store.poll_votes_well_kept lunchStore "poll" (by decide +kernel)
    [⟨lunchAddress, .vote "+2" [7]⟩]⟩

end Polls

end SignalConnector
