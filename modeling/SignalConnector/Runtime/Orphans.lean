/-
# The sweep for orphaned engines

`plan_engine_sweep` kills an engine it sees orphaned twice in a row. Its
memory holds one pid per slot, so two orphans of one slot push each other out
and neither is ever killed; and a slot that is not examined keeps its entry,
so that the two sights need not be in a row.
-/
import SignalConnector.Lib.Run

namespace SignalConnector

open List

/-- A row of the process table. -/
structure ProcessRow where
  pid : ℕ
  ppid : ℕ
  isZombie : Bool
  args : List String

/-- `strip_prefix`. -/
def stripFront (front text : String) : Option String :=
  if front.toList.isPrefixOf text.toList then some (String.ofList (text.toList.drop front.toList.length)) else none

/-- `data_dir_arguments`: the values of `--data-dir`, in both spellings. -/
def dataDirArguments : List String → List String
  | [] => []
  | arg :: args =>
    (if arg = "--data-dir" then args.head? else stripFront "--data-dir=" arg).toList ++ dataDirArguments args

/-- `slot_of`: the slot of the last value, if every one is `<dataDir>/engines/<slot>`. -/
def ProcessRow.slotOf (row : ProcessRow) (dataDir : String) : Option String :=
  ((dataDirArguments row.args).mapM fun (value : String) => do
    let trimmed := String.ofList (value.toList.reverse.dropWhile (· = '/')).reverse
    let rest ← stripFront "engines/" (← stripFront (dataDir ++ "/") trimmed)
    if rest = "" ∨ '/' ∈ rest.toList then none else return rest).bind List.getLast?

/-- What the pool knows of a slot. -/
structure SlotFacts where
  provisioned : Bool
  ownedPid : Option ℕ
  running : Bool

/-- `SlotVerdict`; no branch answers `Healthy`. -/
inductive SlotVerdict where
  | owned
  | selfOwned
  | spawning
  | orphan
  | orphanUnprovisioned
  | foreign
  deriving DecidableEq

/-- A process to be killed. -/
structure OrphanKill where
  pid : ℕ
  slot : String
  reason : SlotVerdict
  deriving DecidableEq

/-- What a sweep decides. -/
structure EngineSweepPlan where
  kill : List OrphanKill
  foreign : List (ℕ × ℕ)
  pending : List (ℕ × String)

/-- `SweepMemory::pending`. -/
abbrev SweepMemory := String → Option ℕ

/-- Whether the pid was seen before. -/
def SweepMemory.observe (memory : SweepMemory) (slot : String) (pid : ℕ) (liveSlots : List String) :
    Bool × SweepMemory :=
  let kept : SweepMemory := fun known => if known = slot ∨ known ∈ liveSlots then memory known else none
  (kept slot = some pid, Function.update kept slot (some pid))

/-- The slot is clean. -/
def SweepMemory.forget (memory : SweepMemory) (slot : String) : SweepMemory := Function.update memory slot none

section Plan

variable (rows : List ProcessRow) (dataDir : String) (selfPid : ℕ) (slot : String) (facts : SlotFacts)

/-- The live engines of a slot. -/
def enginesOf : List ProcessRow :=
  rows.filter fun row => row.pid ≠ selfPid ∧ row.isZombie = false ∧ row.slotOf dataDir = some slot

/-- Whose the slot's engines are. -/
def classifySlot : SlotVerdict :=
  let engines := enginesOf rows dataDir selfPid slot
  if engines = [] then .owned
  else if facts.ownedPid.any fun pid => engines.any (·.pid = pid) then .selfOwned
  else if facts.provisioned = false then
    if engines.all (·.ppid = 1) && facts.running then .orphanUnprovisioned else .foreign
  else if engines.all (·.ppid = 1) then if facts.ownedPid.isNone then .orphan else .foreign
  else if facts.ownedPid.isSome then .spawning
  else .foreign

/-- One orphan of the slot: killed at the second sight. -/
def planOrphan (reason : SlotVerdict) (slotIds : List String) (state : EngineSweepPlan × SweepMemory)
    (row : ProcessRow) : EngineSweepPlan × SweepMemory :=
  let (seen, memory) := state.2.observe slot row.pid slotIds
  if seen then ({ state.1 with kill := state.1.kill ++ [⟨row.pid, slot, reason⟩] }, memory)
  else ({ state.1 with pending := state.1.pending ++ [(row.pid, slot)] }, memory)

/-- One slot of a sweep. -/
def planSlot (slotIds : List String) (state : EngineSweepPlan × SweepMemory) : EngineSweepPlan × SweepMemory :=
  let verdict := classifySlot rows dataDir selfPid slot facts
  let engines := enginesOf rows dataDir selfPid slot
  match verdict with
  | .orphan | .orphanUnprovisioned =>
    let orphans := engines.filter (·.ppid = 1)
    if orphans = [] then (state.1, state.2.forget slot) else orphans.foldl (planOrphan slot verdict slotIds) state
  | .foreign | .spawning =>
    ({ state.1 with foreign := state.1.foreign ++ engines.map fun row => (row.pid, row.ppid) }, state.2.forget slot)
  | .owned | .selfOwned => (state.1, state.2.forget slot)

end Plan

/-- What a sweep is given. -/
structure Sweep where
  rows : List ProcessRow
  dataDir : String
  slots : List (String × SlotFacts)
  selfPid : ℕ

/-- The sweep, slot by slot. -/
def planEngineSweep (sweep : Sweep) (memory : SweepMemory) (allowed : Bool) : EngineSweepPlan × SweepMemory :=
  if allowed then
    sweep.slots.foldl (fun state (slot, facts) =>
      planSlot sweep.rows sweep.dataDir sweep.selfPid slot facts (sweep.slots.map Prod.fst) state) (⟨[], [], []⟩, memory)
  else (⟨[], [], []⟩, memory)

/-- The plan kills the slot's pid. -/
def EngineSweepPlan.Kills (plan : EngineSweepPlan) (slot : String) (pid : ℕ) : Prop :=
  ∃ kill ∈ plan.kill, kill.slot = slot ∧ kill.pid = pid

namespace Sweep

def orphansOf (sweep : Sweep) (slot : String) (facts : SlotFacts) : List ProcessRow :=
  if classifySlot sweep.rows sweep.dataDir sweep.selfPid slot facts ∈ [.orphan, .orphanUnprovisioned] then
    (enginesOf sweep.rows sweep.dataDir sweep.selfPid slot).filter (·.ppid = 1)
  else []

/-- The pid is an orphan of the slot. -/
def Met (sweep : Sweep) (slot : String) (pid : ℕ) : Prop :=
  ∃ facts, (slot, facts) ∈ sweep.slots ∧ ∃ row ∈ sweep.orphansOf slot facts, row.pid = pid

/-- The pid the memory should hold for a slot with at most one orphan. -/
def orphanPid (sweep : Sweep) (slot : String) (facts : SlotFacts) : Option ℕ :=
  (sweep.orphansOf slot facts).head?.map ProcessRow.pid

variable {sweep : Sweep} {slotIds : List String}

theorem orphansOf_of_verdict (slot : String) (facts : SlotFacts)
    (h : classifySlot sweep.rows sweep.dataDir sweep.selfPid slot facts ∈ [.orphan, .orphanUnprovisioned]) :
    sweep.orphansOf slot facts =
      (enginesOf sweep.rows sweep.dataDir sweep.selfPid slot).filter (·.ppid = 1) := if_pos h

/-- A slot with at most one orphan forgets or observes it. -/
theorem planSlot_spec {slot : String} {facts : SlotFacts} (hone : (sweep.orphansOf slot facts).length ≤ 1)
    {state : EngineSweepPlan × SweepMemory} (hlive : ∀ known, state.2 known ≠ none → known ∈ slotIds) :
    let next := planSlot sweep.rows sweep.dataDir sweep.selfPid slot facts slotIds state
    next.2 = Function.update state.2 slot (sweep.orphanPid slot facts) ∧ ∀ other pid, next.1.Kills other pid ↔
      state.1.Kills other pid ∨ (other = slot ∧ state.2 slot = some pid ∧ sweep.orphanPid slot facts = some pid) := by
  have hobserve : ∀ pid, state.2.observe slot pid slotIds =
      (decide (state.2 slot = some pid), Function.update state.2 slot (some pid)) := by
    intro pid
    have hkept : (fun known => if known = slot ∨ known ∈ slotIds then state.2 known else none) = state.2 := by
      funext known
      by_cases h : state.2 known = none
      · simp [h]
      · rw [if_pos (.inr (hlive known h))]
    unfold SweepMemory.observe
    rw [hkept]
  unfold planSlot orphanPid
  rcases hverdict : classifySlot sweep.rows sweep.dataDir sweep.selfPid slot facts
  case orphan | orphanUnprovisioned =>
    rw [orphansOf_of_verdict slot facts (by simp [hverdict])] at hone ⊢
    dsimp only
    generalize (enginesOf sweep.rows sweep.dataDir sweep.selfPid slot).filter (·.ppid = 1) = orphans at hone
    rcases orphans with - | ⟨row, - | ⟨other, rest⟩⟩
    · exact ⟨rfl, by simp⟩
    · simp only [cons_ne_nil, if_false, foldl_cons, foldl_nil, planOrphan, hobserve]
      by_cases hrepeat : state.2 slot = some row.pid
      · rw [if_pos (decide_eq_true hrepeat)]
        exact ⟨rfl, fun other pid => by simp [EngineSweepPlan.Kills, or_and_right, exists_or, eq_comm, hrepeat]⟩
      · rw [if_neg (by simpa using hrepeat)]
        refine ⟨rfl, fun other pid => (or_iff_left fun h => hrepeat ?_).symm⟩
        rw [h.2.1, ← h.2.2]
        rfl
    · simp at hone
  all_goals simp [orphansOf, hverdict, SweepMemory.forget, EngineSweepPlan.Kills]

/-- What the slots of a sweep leave, one after the other. -/
theorem foldl_planSlot : ∀ (todo : List (String × SlotFacts)) (state : EngineSweepPlan × SweepMemory),
    (todo.map Prod.fst).Nodup → (∀ entry ∈ todo, entry.1 ∈ slotIds ∧ (sweep.orphansOf entry.1 entry.2).length ≤ 1) →
      (∀ known, state.2 known ≠ none → known ∈ slotIds) → ∀ slot pid,
    let next := todo.foldl (fun state (slot, facts) => planSlot sweep.rows sweep.dataDir sweep.selfPid slot facts slotIds state) state
    (next.1.Kills slot pid ↔ state.1.Kills slot pid ∨
      (state.2 slot = some pid ∧ ∃ facts, (slot, facts) ∈ todo ∧ sweep.orphanPid slot facts = some pid)) ∧
    (next.2 slot = some pid ↔ (∃ facts, (slot, facts) ∈ todo ∧ sweep.orphanPid slot facts = some pid) ∨
      (slot ∉ todo.map Prod.fst ∧ state.2 slot = some pid))
  | [], _, _, _, _, _, _ => by simp
  | (first, facts) :: todo, state, hnodup, hfits, hlive, slot, pid => by
    obtain ⟨hfirst, hnodup⟩ := nodup_cons.mp hnodup
    obtain ⟨hid, hone⟩ := hfits _ mem_cons_self
    obtain ⟨hmemory, hkills⟩ := planSlot_spec hone hlive
    have hlive' : ∀ known, (planSlot sweep.rows sweep.dataDir sweep.selfPid first facts slotIds state).2 known ≠ none →
        known ∈ slotIds := by
      intro known hknown
      by_cases heq : known = first
      · exact heq ▸ hid
      · exact hlive known (by rwa [hmemory, Function.update_of_ne heq] at hknown)
    obtain ⟨ihkills, ihmemory⟩ := foldl_planSlot todo _ hnodup
      (fun entry he => hfits entry (mem_cons_of_mem _ he)) hlive' slot pid
    rw [hkills, hmemory] at ihkills
    rw [hmemory] at ihmemory
    by_cases heq : slot = first
    · have hnot : ∀ other, (slot, other) ∉ todo := fun other h => hfirst (mem_map.mpr ⟨_, h, heq⟩)
      subst heq
      exact ⟨ihkills.trans (by simp [hnot]), ihmemory.trans (by simp [hnot])⟩
    · exact ⟨ihkills.trans (by simp [heq]), ihmemory.trans (by simp [heq])⟩

theorem met_iff (hone : ∀ entry ∈ sweep.slots, (sweep.orphansOf entry.1 entry.2).length ≤ 1) {slot : String} {pid : ℕ} :
    sweep.Met slot pid ↔ ∃ facts, (slot, facts) ∈ sweep.slots ∧ sweep.orphanPid slot facts = some pid := by
  refine exists_congr fun facts => and_congr_right fun h => ?_
  have hlength := hone _ h
  unfold orphanPid
  generalize sweep.orphansOf slot facts = orphans at hlength
  rcases orphans with - | ⟨row, - | ⟨other, rest⟩⟩
  · simp
  · simp
  · simp at hlength

/-- The plan kills orphans only. -/
def Spares (sweep : Sweep) (state : EngineSweepPlan × SweepMemory) : Prop :=
  ∀ slot pid, state.1.Kills slot pid → sweep.Met slot pid

section Spares

variable {slot : String} {facts : SlotFacts} {state : EngineSweepPlan × SweepMemory}

theorem Spares.planOrphan (h : sweep.Spares state) (hslot : (slot, facts) ∈ sweep.slots) {row : ProcessRow}
    (hrow : row ∈ sweep.orphansOf slot facts) (reason : SlotVerdict) :
    sweep.Spares (planOrphan slot reason slotIds state row) := by
  unfold SignalConnector.planOrphan
  dsimp only
  split
  · rintro other pid ⟨kill, hkill, rfl, rfl⟩
    rcases mem_append.mp hkill with hold | hnew
    · exact h _ _ ⟨kill, hold, rfl, rfl⟩
    · rw [mem_singleton.mp hnew]
      exact ⟨facts, hslot, row, hrow, rfl⟩
  · exact h

theorem Spares.planSlot (h : sweep.Spares state) (hslot : (slot, facts) ∈ sweep.slots) :
    sweep.Spares (planSlot sweep.rows sweep.dataDir sweep.selfPid slot facts slotIds state) := by
  unfold SignalConnector.planSlot
  rcases hverdict : classifySlot sweep.rows sweep.dataDir sweep.selfPid slot facts
  case orphan | orphanUnprovisioned =>
    dsimp only
    rw [← orphansOf_of_verdict slot facts (by simp [hverdict])]
    by_cases hnone : sweep.orphansOf slot facts = []
    · rw [if_pos hnone]
      exact h
    · rw [if_neg hnone]
      exact foldlRecOn _ _ h fun _ h _ hrow => h.planOrphan hslot hrow _
  all_goals exact h

end Spares

/-- **No pid that the slot's supervisor owns is killed, and none whose parent is not init.** -/
theorem unowned_of_kills {memory : SweepMemory} {allowed : Bool} {slot : String} {pid : ℕ}
    (h : (planEngineSweep sweep memory allowed).1.Kills slot pid) : ∃ facts, (slot, facts) ∈ sweep.slots ∧
      facts.ownedPid ≠ some pid ∧ ∃ row ∈ sweep.rows, row.pid = pid ∧ row.ppid = 1 := by
  have hspares : sweep.Spares (planEngineSweep sweep memory allowed) := by
    have hstart : ∀ memory, sweep.Spares (⟨[], [], []⟩, memory) := by simp [Spares, EngineSweepPlan.Kills]
    unfold planEngineSweep
    split
    · exact foldlRecOn _ _ (hstart memory) fun _ h _ hslot => h.planSlot hslot
    · exact hstart memory
  obtain ⟨facts, hslot, row, hrow, rfl⟩ := hspares slot pid h
  unfold orphansOf at hrow
  split at hrow
  · next hverdict =>
    have hengine := mem_of_mem_filter hrow
    refine ⟨facts, hslot, fun howned => ?_, row, mem_of_mem_filter hengine, rfl, by simpa using (mem_filter.mp hrow).2⟩
    have hown : facts.ownedPid.any fun pid =>
        (enginesOf sweep.rows sweep.dataDir sweep.selfPid slot).any (·.pid = pid) := by
      simpa [howned] using ⟨row, hengine, rfl⟩
    simp [classifySlot, ne_nil_of_mem hengine, hown] at hverdict
  · cases hrow

end Sweep

/-! ### Sweep after sweep -/

/-- The memory and the last sweep. -/
structure SweepWorld where
  memory : SweepMemory
  last : Option Sweep

namespace SweepWorld

def start : SweepWorld := ⟨fun _ => none, none⟩

variable (w : SweepWorld) (sweep : Sweep)

/-- One sweep. -/
def step : SweepWorld := ⟨(planEngineSweep sweep w.memory true).2, some sweep⟩

/-- The sweep kills exactly what met the conditions in it and in the one before. -/
def Exact : Prop := ∀ slot pid, (planEngineSweep sweep w.memory true).1.Kills slot pid ↔
  sweep.Met slot pid ∧ ∃ last ∈ w.last, last.Met slot pid

/-- No slot is listed twice, none has two orphans, and every slot with an orphan in the last sweep is
examined again. -/
def Steady : Prop :=
  (sweep.slots.map Prod.fst).Nodup ∧ (∀ entry ∈ sweep.slots, (sweep.orphansOf entry.1 entry.2).length ≤ 1) ∧
    ∀ last ∈ w.last, ∀ slot pid, last.Met slot pid → slot ∈ sweep.slots.map Prod.fst

/-- **Where every sweep is steady, every sweep kills exactly the orphans seen twice in a row.** -/
theorem sweeps_exact_of_steady (sweeps : List Sweep) (h : Along step Steady start sweeps) :
    Along step Exact start sweeps := by
  refine Along.imp (fun w => ∀ slot pid, w.memory slot = some pid ↔ ∃ last ∈ w.last, last.Met slot pid)
    (fun w sweep hsteady hw slot pid => ?_) (fun w sweep hsteady hw slot pid => ?_) sweeps start h (by simp [start])
  all_goals
    obtain ⟨hnodup, hone, hseen⟩ := hsteady
    have hlive : ∀ known, w.memory known ≠ none → known ∈ sweep.slots.map Prod.fst := by
      intro known hknown
      obtain ⟨pid, hpid⟩ := Option.ne_none_iff_exists'.mp hknown
      obtain ⟨last, hlast, hmet⟩ := (hw known pid).mp hpid
      exact hseen last hlast known pid hmet
    obtain ⟨hkills, hmemory⟩ := Sweep.foldl_planSlot sweep.slots (⟨[], [], []⟩, w.memory) hnodup
      (fun entry he => ⟨mem_map_of_mem he, hone entry he⟩) hlive slot pid
  · have hnot : ¬(slot ∉ sweep.slots.map Prod.fst ∧ w.memory slot = some pid) := fun h =>
      h.1 (hlive slot (by simp [h.2]))
    exact (hmemory.trans (or_iff_left hnot)).trans (by simp [step, Sweep.met_iff hone])
  · rw [← hw, Sweep.met_iff hone, and_comm]
    exact hkills.trans (or_iff_right (by simp [EngineSweepPlan.Kills]))

/-- An engine of the slot `a` whose parent is gone. -/
def orphan (pid : ℕ) : ProcessRow := ⟨pid, 1, false, ["engine", "--data-dir", "/d/engines/a/"]⟩

def oneOrphan : Sweep := ⟨[orphan 7], "/d", [("a", ⟨true, none, true⟩)], 2⟩

theorem one_orphan_swept : (planEngineSweep oneOrphan (start.step oneOrphan).memory true).1.kill = [⟨7, "a", .orphan⟩] ∧
    Along step Exact start [oneOrphan, oneOrphan] := by
  have hone : ∀ entry ∈ oneOrphan.slots, (oneOrphan.orphansOf entry.1 entry.2).length ≤ 1 := by decide +kernel
  refine ⟨by decide +kernel, sweeps_exact_of_steady _ ⟨⟨by decide, hone, nofun⟩, ⟨by decide, hone, ?_⟩, trivial⟩⟩
  rintro last hlast slot pid ⟨facts, hslot, -⟩
  obtain rfl : oneOrphan = last := by simpa [step] using hlast
  exact mem_map_of_mem hslot

def twoOrphans : Sweep := { oneOrphan with rows := [orphan 7, orphan 8] }

/-- Two orphans of one slot, sweep after sweep: none is killed. -/
theorem two_orphans_survive :
    let w := (start.step twoOrphans).step twoOrphans
    (planEngineSweep twoOrphans (start.step twoOrphans).memory true).1.kill = [] ∧
      (planEngineSweep twoOrphans w.memory true).1.kill = [] ∧
      twoOrphans.Met "a" 7 ∧ twoOrphans.Met "a" 8 ∧ ¬w.Exact twoOrphans := by
  have hmet : ∀ pid ∈ [7, 8], twoOrphans.Met "a" pid := fun pid hpid =>
    ⟨_, mem_cons_self, by revert pid; decide +kernel⟩
  have hkill : (planEngineSweep twoOrphans ((start.step twoOrphans).step twoOrphans).memory true).1.kill = [] := by
    decide +kernel
  refine ⟨by decide +kernel, hkill, hmet 7 (by decide), hmet 8 (by decide), fun h => ?_⟩
  obtain ⟨kill, hmem, -⟩ := (h "a" 7).mpr ⟨hmet 7 (by decide), _, rfl, hmet 7 (by decide)⟩
  exact not_mem_nil (hkill ▸ hmem)

end SweepWorld
end SignalConnector
