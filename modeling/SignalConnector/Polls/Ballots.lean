/-
# Ballots

What the votes of a poll stand for: a selection for each voter who has one. A
selection replaces the voter's prior one by its indexes below the number of
options, an empty selection clears it, and one that names no option of the poll
is to change nothing (`Ballots.cast`).

The code filters first, so a selection of foreign indexes reads as an empty one
and erases the vote; and a new voter finds no place when 64 others have one.
-/
import SignalConnector.Lib.Run
import SignalConnector.Store.Edits

namespace SignalConnector

open List

/-! ### What is to be recorded -/

/-- The selection of each voter who has one. -/
abbrev Ballots := String → Option (List ℕ)

/-- The documented meaning of a selection in a poll of `options` options. -/
def Ballots.cast (options : ℕ) (voterId : String) (optionIndexes : List ℕ) (b : Ballots) : Ballots :=
  let indexes := optionIndexes.filter (· < options)
  if optionIndexes = [] then Function.update b voterId none
  else if indexes = [] then b
  else Function.update b voterId (some indexes)

inductive PollFold
  | vote (voterId : String) (optionIndexes : List ℕ)
  | terminate
  deriving DecidableEq

namespace PollFold

/-- The mutation that `fold_poll_vote` and `fold_poll_terminate` hand to `fold_poll_row`. -/
def mutate : PollFold → NormalizedPoll → Option NormalizedPoll
  | vote voterId optionIndexes => NormalizedPoll.vote voterId optionIndexes
  | terminate => NormalizedPoll.terminate

/-- The documented meaning of a fold. -/
def cast (options : ℕ) (b : Ballots) : PollFold → Ballots
  | vote voterId optionIndexes => b.cast options voterId optionIndexes
  | terminate => b

end PollFold

/-! ### The stored votes -/

variable (voterId v : String) (indexes : List ℕ) (votes : List NormalizedPollVote)

/-- The entries of a voter after their first one has taken a selection. -/
theorem find?_revote : (revote voterId indexes votes).find? (·.voterId = v) =
      if v = voterId then (votes.find? (·.voterId = v)).map fun vote => { vote with optionIndexes := indexes }
      else votes.find? (·.voterId = v) := by
  induction votes with
  | nil => simp [revote]
  | cons vote votes ih =>
    rw [revote]
    by_cases hvote : vote.voterId = voterId
    · by_cases hv : v = voterId
      · simp [hvote, hv]
      · simp [hvote, hv, Ne.symm hv]
    · rw [if_neg hvote, find?_cons, find?_cons, ih]
      by_cases hv : v = voterId
      · simp [hv, hvote]
      · simp [hv]

theorem voters_revote : (revote voterId indexes votes).map (·.voterId) = votes.map (·.voterId) := by
  induction votes with
  | nil => rfl
  | cons vote votes ih =>
    rw [revote]
    split
    · rfl
    · rw [map_cons, map_cons, ih]

theorem mem_revote {voterId : String} {indexes : List ℕ} {votes : List NormalizedPollVote} {vote : NormalizedPollVote}
    (h : vote ∈ revote voterId indexes votes) : vote ∈ votes ∨ vote.optionIndexes = indexes := by
  induction votes with
  | nil => cases h
  | cons first votes ih =>
    rw [revote] at h
    split at h
    · rcases mem_cons.mp h with rfl | h
      · exact .inr rfl
      · exact .inl (mem_cons_of_mem _ h)
    · rcases mem_cons.mp h with rfl | h
      · exact .inl mem_cons_self
      · exact (ih h).imp_left (mem_cons_of_mem _)

namespace NormalizedPoll

/-- What the stored votes stand for. -/
def ballots (poll : NormalizedPoll) : Ballots := fun v =>
  (poll.votes.find? (·.voterId = v)).map (·.optionIndexes)

/-- One vote for a voter, 64 at most, each for some of the poll's options and no others. -/
structure WellKept (poll : NormalizedPoll) : Prop where
  voters : (poll.votes.map (·.voterId)).Nodup
  places : poll.votes.length ≤ 64
  inRange : ∀ vote ∈ poll.votes, vote.optionIndexes ≠ [] ∧ ∀ index ∈ vote.optionIndexes, index < poll.options.length

instance (poll : NormalizedPoll) : Decidable poll.WellKept :=
  decidable_of_iff ((poll.votes.map (·.voterId)).Nodup ∧ poll.votes.length ≤ 64 ∧
      ∀ vote ∈ poll.votes, vote.optionIndexes ≠ [] ∧ ∀ index ∈ vote.optionIndexes, index < poll.options.length)
    ⟨fun ⟨h, h', h''⟩ => ⟨h, h', h''⟩, fun ⟨h, h', h''⟩ => ⟨h, h', h''⟩⟩

/-- The poll after a fold, which leaves it as it is when the mutation refuses. -/
def fold (poll : NormalizedPoll) (f : PollFold) : NormalizedPoll := (f.mutate poll).getD poll

/-- A voter who has voted selects nothing or an option of the poll, and one who has not finds a place. -/
def Harmless (poll : NormalizedPoll) : PollFold → Prop
  | .terminate => True
  | .vote voterId optionIndexes =>
    if ∃ vote ∈ poll.votes, vote.voterId = voterId then
      optionIndexes = [] ∨ ∃ index ∈ optionIndexes, index < poll.options.length
    else (∃ index ∈ optionIndexes, index < poll.options.length) → poll.votes.length < 64

instance (poll : NormalizedPoll) : ∀ f, Decidable (poll.Harmless f)
  | .terminate => .isTrue trivial
  | .vote _ _ => inferInstanceAs (Decidable (ite _ _ _))

variable {poll : NormalizedPoll} {voterId : String} {optionIndexes : List ℕ}

/-! ### One fold -/

theorem ballots_eq_none : poll.ballots voterId = none ↔ ¬∃ vote ∈ poll.votes, vote.voterId = voterId := by
  simp [ballots]

/-- What a selection does to the stored votes. -/
theorem fold_vote (poll : NormalizedPoll) (voterId : String) (optionIndexes : List ℕ) :
    poll.fold (.vote voterId optionIndexes) =
      let indexes := optionIndexes.filter (· < poll.options.length)
      if ∃ vote ∈ poll.votes, vote.voterId = voterId then
        if indexes = [] then { poll with votes := poll.votes.filter (·.voterId ≠ voterId) }
        else { poll with votes := revote voterId indexes poll.votes }
      else if indexes = [] ∨ 64 ≤ poll.votes.length then poll
      else { poll with votes := poll.votes ++ [⟨voterId, indexes⟩] } := by
  unfold fold PollFold.mutate vote
  simp only [any_eq_true, decide_eq_true_eq, List.isEmpty_iff]
  split_ifs <;> rfl

theorem options_fold (poll : NormalizedPoll) (f : PollFold) : (poll.fold f).options = poll.options := by
  cases f with
  | vote =>
    rw [fold_vote]
    dsimp only
    split_ifs <;> rfl
  | terminate =>
    unfold fold PollFold.mutate terminate
    dsimp only
    split_ifs <;> rfl

theorem votes_terminate (poll : NormalizedPoll) : (poll.fold .terminate).votes = poll.votes := by
  unfold fold PollFold.mutate terminate
  dsimp only
  split_ifs <;> rfl

/-- The end of a poll is recorded, and nothing takes it back. -/
theorem terminated_fold (poll : NormalizedPoll) (f : PollFold) :
    (poll.fold f).terminated = (poll.terminated || decide (f = .terminate)) := by
  cases f with
  | vote =>
    rw [fold_vote]
    dsimp only
    split_ifs <;> simp
  | terminate =>
    unfold fold PollFold.mutate terminate
    dsimp only
    split_ifs with h <;> simp [h]

/-- The votes of a poll keep their form. -/
theorem WellKept.fold (h : poll.WellKept) (f : PollFold) : (poll.fold f).WellKept := by
  cases f with
  | terminate => exact ⟨by rw [votes_terminate]; exact h.voters, by rw [votes_terminate]; exact h.places,
      by rw [votes_terminate, options_fold]; exact h.inRange⟩
  | vote voterId optionIndexes =>
    rw [fold_vote]
    dsimp only
    have hselected : ∀ index ∈ optionIndexes.filter (· < poll.options.length), index < poll.options.length :=
      fun index hindex => of_decide_eq_true (mem_filter.mp hindex).2
    split_ifs with hvoted hempty hrefused
    · exact ⟨h.voters.sublist (filter_sublist.map _), (length_filter_le ..).trans h.places,
        fun vote hvote => h.inRange vote (mem_of_mem_filter hvote)⟩
    · refine ⟨by rw [voters_revote]; exact h.voters, ?_, fun vote hvote => ?_⟩
      · rw [← length_map (·.voterId), voters_revote, length_map]
        exact h.places
      · rcases mem_revote hvote with hvote | hvote
        · exact h.inRange vote hvote
        · rw [hvote]
          exact ⟨hempty, hselected⟩
    · exact h
    · rw [not_or, not_le] at hrefused
      refine ⟨?_, ?_, fun vote hvote => ?_⟩
      · rw [map_append, nodup_append]
        refine ⟨h.voters, nodup_singleton _, fun v hv w hw hvw => hvoted ?_⟩
        obtain ⟨vote, hvote, rfl⟩ := mem_map.mp hv
        exact ⟨vote, hvote, hvw.trans (mem_singleton.mp hw)⟩
      · rw [length_append]
        exact hrefused.2
      · rcases mem_append.mp hvote with hvote | hvote
        · exact h.inRange vote hvote
        · rw [mem_singleton.mp hvote]
          exact ⟨hrefused.1, hselected⟩

theorem ballots_filter (poll : NormalizedPoll) (voterId : String) :
    ballots { poll with votes := poll.votes.filter (·.voterId ≠ voterId) } =
      Function.update poll.ballots voterId none := by
  funext v
  unfold ballots
  rw [find?_filter]
  by_cases hv : v = voterId
  · rw [hv, Function.update_self, Option.map_eq_none_iff, List.find?_eq_none]
    simp
  · rw [Function.update_of_ne hv]
    refine congrArg _ (congrArg (List.find? · poll.votes) (funext fun vote => ?_))
    by_cases hvote : vote.voterId = v
    · simp [hvote, hv]
    · simp [hvote]

theorem ballots_revote (hvoted : ∃ vote ∈ poll.votes, vote.voterId = voterId) (indexes : List ℕ) :
    ballots { poll with votes := revote voterId indexes poll.votes } =
      Function.update poll.ballots voterId (some indexes) := by
  funext v
  unfold ballots
  rw [find?_revote]
  by_cases hv : v = voterId
  · rw [if_pos hv, hv, Function.update_self]
    obtain ⟨vote, hvote⟩ := Option.isSome_iff_exists.mp
      (find?_isSome.mpr (hvoted.imp fun vote h => ⟨h.1, decide_eq_true h.2⟩))
    rw [hvote, Option.map_some, Option.map_some]
  · rw [if_neg hv, Function.update_of_ne hv]

theorem ballots_append (hnew : ¬∃ vote ∈ poll.votes, vote.voterId = voterId) (indexes : List ℕ) :
    ballots { poll with votes := poll.votes ++ [⟨voterId, indexes⟩] } =
      Function.update poll.ballots voterId (some indexes) := by
  funext v
  unfold ballots
  rw [find?_append]
  by_cases hv : v = voterId
  · have hnone : poll.votes.find? (·.voterId = voterId) = none := by simpa using hnew
    simp [hnone, hv]
  · simp [Function.update_of_ne hv, Ne.symm hv]

/-- **A selection is recorded as documented iff it is harmless.** -/
theorem ballots_vote (poll : NormalizedPoll) (voterId : String) (optionIndexes : List ℕ) :
    (poll.fold (.vote voterId optionIndexes)).ballots = poll.ballots.cast poll.options.length voterId optionIndexes ↔
      poll.Harmless (.vote voterId optionIndexes) := by
  have hnamed : (∃ index ∈ optionIndexes, index < poll.options.length) ↔
      optionIndexes.filter (· < poll.options.length) ≠ [] := by simp
  rw [fold_vote]
  unfold Ballots.cast Harmless
  dsimp only
  rw [hnamed]
  by_cases hvoted : ∃ vote ∈ poll.votes, vote.voterId = voterId
  · rw [if_pos hvoted, if_pos hvoted]
    by_cases hforeign : optionIndexes.filter (· < poll.options.length) = []
    · rw [if_pos hforeign, ballots_filter]
      by_cases hempty : optionIndexes = []
      · simp [hempty]
      · -- the vote is gone, though the selection should have changed nothing
        rw [if_neg hempty, if_pos hforeign, Function.update_eq_self_iff, eq_comm, ballots_eq_none]
        simp only [hvoted, hempty, hforeign, ne_eq, not_true_eq_false, or_self]
    · have hempty : optionIndexes ≠ [] := fun h => hforeign (by rw [h, filter_nil])
      rw [if_neg hforeign, ballots_revote hvoted, if_neg hempty, if_neg hforeign]
      exact ⟨fun _ => .inr hforeign, fun _ => rfl⟩
  · rw [if_neg hvoted, if_neg hvoted]
    have hnone := ballots_eq_none.mpr hvoted
    by_cases hforeign : optionIndexes.filter (· < poll.options.length) = []
    · rw [if_pos (.inl hforeign), if_pos hforeign]
      refine ⟨fun _ h => absurd hforeign h, fun _ => ?_⟩
      split_ifs
      · exact (Function.update_eq_self_iff.mpr hnone.symm).symm
      · rfl
    · have hempty : optionIndexes ≠ [] := fun h => hforeign (by rw [h, filter_nil])
      rw [if_neg hempty, if_neg hforeign]
      by_cases hfull : 64 ≤ poll.votes.length
      · rw [if_pos (.inr hfull), eq_comm, Function.update_eq_self_iff, hnone]
        exact ⟨fun h => (nomatch h), fun h => absurd (h hforeign) (by omega)⟩
      · rw [if_neg (not_or.mpr ⟨hforeign, hfull⟩), ballots_append hvoted]
        exact ⟨fun _ _ => by omega, fun _ => rfl⟩

theorem ballots_fold (poll : NormalizedPoll) (f : PollFold) :
    (poll.fold f).ballots = f.cast poll.options.length poll.ballots ↔ poll.Harmless f := by
  cases f with
  | vote voterId optionIndexes => exact poll.ballots_vote voterId optionIndexes
  | terminate =>
    refine ⟨fun _ => trivial, fun _ => ?_⟩
    unfold ballots PollFold.cast
    rw [votes_terminate]

/-! ### Whole runs -/

/-- After the folds the votes have their form and stand for the ballots documented, and the poll is over if it was
or was ended. -/
structure StandsFor (poll : NormalizedPoll) (folds : List PollFold) : Prop where
  wellKept : (folds.foldl fold poll).WellKept
  ballots : (folds.foldl fold poll).ballots = folds.foldl (PollFold.cast poll.options.length) poll.ballots
  terminated : (folds.foldl fold poll).terminated = (poll.terminated || folds.any (· = .terminate))

theorem terminated_foldl : ∀ (folds : List PollFold) (poll : NormalizedPoll),
    (folds.foldl fold poll).terminated = (poll.terminated || folds.any (· = .terminate))
  | [], poll => by simp
  | f :: folds, poll => by
    rw [foldl_cons, terminated_foldl folds, terminated_fold, any_cons, Bool.or_assoc]

/-- A harmless fold may be taken first. -/
theorem standsFor_cons {f : PollFold} (hf : poll.Harmless f) (folds : List PollFold) :
    poll.StandsFor (f :: folds) ↔ (poll.fold f).StandsFor folds := by
  have hballots : (poll.fold f).ballots = f.cast poll.options.length poll.ballots := (poll.ballots_fold f).mpr hf
  constructor
  · rintro ⟨hkept, hfolded, -⟩
    refine ⟨hkept, ?_, terminated_foldl _ _⟩
    rw [hballots, options_fold]
    exact hfolded
  · rintro ⟨hkept, hfolded, -⟩
    refine ⟨hkept, ?_, terminated_foldl _ _⟩
    rw [hballots, options_fold] at hfolded
    exact hfolded

/-- **The votes stand for the documented ballots throughout iff every fold is harmless.** -/
theorem standsFor_prefixes_iff : ∀ (folds : List PollFold) (poll : NormalizedPoll),
    (∀ before, before <+: folds → poll.StandsFor before) ↔ poll.WellKept ∧ Along fold Harmless poll folds
  | [], poll => by
    refine ⟨fun h => ⟨(h [] nil_prefix).wellKept, trivial⟩, fun h before hbefore => ?_⟩
    rw [prefix_nil.mp hbefore]
    exact ⟨h.1, rfl, terminated_foldl _ _⟩
  | f :: folds, poll => by
    constructor
    · intro h
      have hone := h [f] ⟨folds, rfl⟩
      have hf : poll.Harmless f := (poll.ballots_fold f).mp hone.ballots
      have hrest := (standsFor_prefixes_iff folds (poll.fold f)).mp fun before hbefore =>
        (standsFor_cons hf before).mp (h (f :: before) (cons_prefix_cons.mpr ⟨rfl, hbefore⟩))
      exact ⟨(h [] nil_prefix).wellKept, hf, hrest.2⟩
    · rintro ⟨hkept, hf, hrest⟩ before hbefore
      rcases prefix_cons_iff.mp hbefore with rfl | ⟨before, rfl, hinner⟩
      · exact ⟨hkept, rfl, terminated_foldl _ _⟩
      · exact (standsFor_cons hf before).mpr
          ((standsFor_prefixes_iff folds (poll.fold f)).mpr ⟨hkept.fold f, hrest⟩ before hinner)

end NormalizedPoll

end SignalConnector
