/-
# The metrics of the engine

`filter_engine_snapshot` lets through what it knows of an answer, with values of
the documented type, and counts what it drops. A section that is no object is
dropped as a whole and not counted.
-/
import Mathlib

namespace SignalConnector

open List

/-- A JSON value. `u64` is a number that `as_u64` takes; the entries of an object are in the order of the map. -/
inductive Value where
  | null
  | bool (value : Bool)
  | u64 (value : ℕ)
  | number (text : String)
  | string (text : String)
  | array (items : List Value)
  | object (entries : List (String × Value))

abbrev Entry := String × Value

def Value.isU64 : Value → Bool
  | u64 _ => true
  | _ => false

def Value.asObject : Value → Option (List Entry)
  | object entries => some entries
  | _ => none

/-! ### The filter -/

def engineTimingKeys : List String :=
  ["receive_envelope", "receive_project", "flush_barrier", "send_lock_wait", "send_text_total", "send_group_total",
    "rpc_dispatch", "prekey_quick_check", "prekey_maintenance_tick", "prekey_cleanup_tick", "reconnect_backoff",
    "initial_sync_requests"]

def engineCounterKeys : List String :=
  ["receive_kind_content", "receive_kind_identity_change", "receive_kind_decryption_error", "receive_kind_duplicate",
    "receive_kind_contacts", "receive_kind_queue_empty", "flush_barrier_ok", "flush_barrier_dead", "send_text_ok",
    "send_text_err", "send_group_mrm", "send_group_failover", "send_group_repair_round",
    "prekey_quick_check_time_trigger", "prekey_quick_check_volume_trigger", "stream_outcome_recoverable",
    "stream_outcome_connected", "stream_outcome_unbound", "stream_outcome_stdio_dead"]

def seriesKept (entry : Entry) : Bool := engineTimingKeys.contains entry.1 && entry.2.asObject.isSome

def counterKept (entry : Entry) : Bool := engineCounterKeys.contains entry.1 && entry.2.isU64

/-- What a filter leaves of a section, and how many entries it drops. -/
def filterSection (keeps : Entry → Bool) (value : Value) : Option (List Entry) × ℕ :=
  match value.asObject with
  | none => (none, 0)
  | some entries => (some (entries.filter keeps), entries.countP fun e => !keeps e)

/-- The series kept. -/
def filterSeries : Value → Option (List Entry) × ℕ := filterSection seriesKept

/-- The counters kept. -/
def filterCounters : Value → Option (List Entry) × ℕ := filterSection counterKept

/-- One round of `filter_engine_snapshot`: the face so far and the number of keys dropped. -/
def filterEntry (out : List Entry × ℕ) (entry : Entry) : List Entry × ℕ :=
  let insert (left : Option (List Entry) × ℕ) : List Entry × ℕ :=
    (out.1 ++ (left.1.map fun es => (entry.1, .object es)).toList, out.2 + left.2)
  if entry.1 = "uptimeMs" ∨ entry.1 = "unknownKeyDropped" then
    if entry.2.isU64 then (out.1 ++ [entry], out.2) else (out.1, out.2 + 1)
  else if entry.1 = "timings" then insert (filterSeries entry.2)
  else if entry.1 = "counters" then insert (filterCounters entry.2)
  else (out.1, out.2 + 1)

/-- `filter_engine_snapshot`, without the key order of a map: the count stands last. -/
def filterEngineSnapshot (answer : Value) : Value × ℕ :=
  match answer.asObject with
  | none => (.object [("connectorDroppedKeys", .u64 1)], 1)
  | some entries =>
    let out := entries.foldl filterEntry ([], 0)
    (.object (out.1 ++ [("connectorDroppedKeys", .u64 out.2)]), out.2)

/-! ### The account -/

/-- The entries that are kept in a section of this name. -/
def sectionRule (key : String) : Option (Entry → Bool) :=
  if key = "timings" then some seriesKept else if key = "counters" then some counterKept else none

/-- What is kept of an entry. -/
def keptOf (entry : Entry) : Option Entry :=
  match sectionRule entry.1 with
  | some keeps => entry.2.asObject.map fun es => (entry.1, .object (es.filter keeps))
  | none => if (entry.1 = "uptimeMs" ∨ entry.1 = "unknownKeyDropped") ∧ entry.2.isU64 then some entry else none

/-- The items lost with an entry. -/
def lostOf (entry : Entry) : ℕ :=
  match sectionRule entry.1 with
  | some keeps => (entry.2.asObject.map (countP fun e => !keeps e)).getD 1
  | none => if (keptOf entry).isSome then 0 else 1

/-- A section that is no object. -/
def misshapen (entry : Entry) : Bool := (sectionRule entry.1).isSome && entry.2.asObject.isNone

/-- The output is what is kept and the count of what is lost, which is zero iff all is kept. -/
structure AccountsExactly (answer : Value) : Prop where
  output : (filterEngineSnapshot answer).1 = .object ((answer.asObject.getD []).filterMap keptOf ++
    [("connectorDroppedKeys", .u64 (filterEngineSnapshot answer).2)])
  exact : (filterEngineSnapshot answer).2 = (answer.asObject.map fun es => (es.map lostOf).sum).getD 1
  clean : (filterEngineSnapshot answer).2 = 0 ↔ .object ((answer.asObject.getD []).filterMap keptOf) = answer

/-- **One round** keeps what is to be kept and counts what is lost, but for a section that is no object. -/
theorem filterEntry_eq (out : List Entry × ℕ) (e : Entry) :
    ∃ n, filterEntry out e = (out.1 ++ (keptOf e).toList, out.2 + n) ∧ lostOf e = n + if misshapen e then 1 else 0 := by
  obtain ⟨key, value⟩ := e
  unfold filterEntry filterSeries filterCounters filterSection lostOf misshapen keptOf sectionRule
  by_cases htimings : key = "timings"
  · subst htimings
    cases value.asObject <;> simp
  by_cases hcounters : key = "counters"
  · subst hcounters
    cases value.asObject <;> simp
  · by_cases hscalar : key = "uptimeMs" ∨ key = "unknownKeyDropped" <;> cases value.isU64 <;>
      simp [htimings, hcounters, hscalar]

theorem foldl_filterEntry (entries : List Entry) : ∀ out : List Entry × ℕ,
    ∃ n, entries.foldl filterEntry out = (out.1 ++ entries.filterMap keptOf, out.2 + n) ∧
      (entries.map lostOf).sum = n + entries.countP misshapen := by
  induction entries with
  | nil => exact fun out => ⟨0, by simp⟩
  | cons e entries ih =>
    intro out
    obtain ⟨n, hround, hlost⟩ := filterEntry_eq out e
    obtain ⟨n', hrest, hlost'⟩ := ih (filterEntry out e)
    refine ⟨n + n', ?_, ?_⟩
    · rw [foldl_cons, hrest, hround]
      cases hkept : keptOf e <;> simp [hkept, Nat.add_assoc]
    · simp only [map_cons, sum_cons, countP_cons, hlost, hlost']
      omega

/-- Nothing of an entry is lost iff it is kept as it is. -/
theorem lostOf_eq_zero_iff (e : Entry) : lostOf e = 0 ↔ keptOf e = some e := by
  obtain ⟨key, value⟩ := e
  unfold lostOf keptOf
  cases sectionRule key with
  | none => by_cases hscalar : (key = "uptimeMs" ∨ key = "unknownKeyDropped") ∧ value.isU64 <;> simp [hscalar]
  | some keeps => cases value <;> simp [Value.asObject, countP_eq_zero, filter_eq_self]

theorem filterMap_eq_self_iff {f : Entry → Option Entry} : ∀ {l : List Entry},
    l.filterMap f = l ↔ ∀ e ∈ l, f e = some e
  | [] => by simp
  | e :: l => by
    rw [forall_mem_cons, ← filterMap_eq_self_iff]
    rcases hfe : f e with _ | e'
    · have hle := length_filterMap_le f l
      rw [filterMap_cons_none hfe]
      refine iff_of_false (fun h => ?_) fun h => by cases h.1
      rw [h, length_cons] at hle
      omega
    · simp [filterMap_cons_some hfe]

/-- **When the account of the dropped keys is exact**: the sections of the answer are objects. -/
theorem dropped_keys_iff (answer : Value) :
    AccountsExactly answer ↔ ∀ entries ∈ answer.asObject, ∀ e ∈ entries, misshapen e = false := by
  rcases hobject : answer.asObject with _ | entries
  · have hsnapshot : filterEngineSnapshot answer = (.object [("connectorDroppedKeys", .u64 1)], 1) := by
      rw [filterEngineSnapshot, hobject]
    refine iff_of_true ⟨by rw [hsnapshot, hobject]; rfl, by rw [hsnapshot, hobject]; rfl, ?_⟩ fun _ h => by cases h
    rw [hsnapshot, hobject]
    refine iff_of_false Nat.one_ne_zero fun hsame => ?_
    rw [← hsame] at hobject
    cases hobject
  · obtain rfl : answer = .object entries := by cases answer <;> cases hobject; rfl
    obtain ⟨n, hout, hlost⟩ := foldl_filterEntry entries ([], 0)
    rw [nil_append, Nat.zero_add] at hout
    have hsnapshot : filterEngineSnapshot (.object entries) =
        (.object (entries.filterMap keptOf ++ [("connectorDroppedKeys", .u64 n)]), n) := by
      simp [filterEngineSnapshot, Value.asObject, hout]
    have hall : (∀ e ∈ entries, misshapen e = false) ↔ n = (entries.map lostOf).sum := by
      simp [hlost, countP_eq_zero]
    simp only [Option.mem_some_iff, forall_eq', hall]
    refine ⟨fun h => by simpa [hsnapshot, Value.asObject] using h.exact, fun h => ⟨?_, ?_, ?_⟩⟩
    · rw [hsnapshot]
      rfl
    · rw [hsnapshot]
      exact h
    · rw [hsnapshot, h, sum_eq_zero_iff, forall_mem_map]
      exact (forall₂_congr fun e _ => lostOf_eq_zero_iff e).trans
        (filterMap_eq_self_iff.symm.trans (by simp [Value.asObject]))

/-- A section that is a number is lost, and nothing is counted. -/
theorem misshapen_section_uncounted : ¬AccountsExactly (.object [("timings", .u64 5)]) := fun h =>
  absurd h.exact (by decide)

end SignalConnector
