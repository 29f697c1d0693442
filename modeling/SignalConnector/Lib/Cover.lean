/-
# Summaries that cover their rows

Rows are grouped by a key, and for each key there is a summary with a mark. The
summaries cover the rows when every row has a summary whose mark it does not
exceed; a mark is attained when some row reaches it. A summary may itself be a
row of the next level, so that the two facts chain.

A writer keeps the cover when it raises marks, lowers rows, or computes a mark
afresh from the rows.
-/
import Mathlib

namespace SignalConnector

variable {R G K V : Type} [LinearOrder V]

/-- Every row has a summary of its key with a mark above it. -/
def CoveredBy (rows : List R) (group : R → K) (value : R → V) (tops : List G) (key : G → K) (mark : G → V) : Prop :=
  ∀ r ∈ rows, ∃ g ∈ tops, key g = group r ∧ value r ≤ mark g

/-- Every mark is the least one or is reached by a row of its key. -/
def AttainedBy [OrderBot V] (rows : List R) (group : R → K) (value : R → V) (tops : List G) (key : G → K)
    (mark : G → V) : Prop :=
  ∀ g ∈ tops, mark g = ⊥ ∨ ∃ r ∈ rows, group r = key g ∧ mark g ≤ value r

section Cover

variable {rows rows' : List R} {group : R → K} {value : R → V} {tops tops' : List G} {key : G → K} {mark : G → V}

/-- Rows that come from rows no lower, under summaries that have not been lowered. -/
theorem CoveredBy.mono (h : CoveredBy rows group value tops key mark)
    (hrows : ∀ r' ∈ rows', ∃ r ∈ rows, group r' = group r ∧ value r' ≤ value r)
    (htops : ∀ g ∈ tops, ∃ g' ∈ tops', key g' = key g ∧ mark g ≤ mark g') :
    CoveredBy rows' group value tops' key mark := by
  intro r' hr'
  obtain ⟨r, hr, hgroup, hvalue⟩ := hrows r' hr'
  obtain ⟨g, hg, hkey, hmark⟩ := h r hr
  obtain ⟨g', hg', hkey', hmark'⟩ := htops g hg
  exact ⟨g', hg', by rw [hkey', hkey, hgroup], hvalue.trans (hmark.trans hmark')⟩

theorem CoveredBy.rows_mono (h : CoveredBy rows group value tops key mark)
    (hrows : ∀ r' ∈ rows', ∃ r ∈ rows, group r' = group r ∧ value r' ≤ value r) :
    CoveredBy rows' group value tops key mark :=
  h.mono hrows fun g hg => ⟨g, hg, rfl, le_rfl⟩

theorem CoveredBy.tops_mono (h : CoveredBy rows group value tops key mark)
    (htops : ∀ g ∈ tops, ∃ g' ∈ tops', key g' = key g ∧ mark g ≤ mark g') :
    CoveredBy rows group value tops' key mark :=
  h.mono (fun r hr => ⟨r, hr, rfl, le_rfl⟩) htops

theorem AttainedBy.mono [OrderBot V] (h : AttainedBy rows group value tops key mark)
    (hrows : ∀ r ∈ rows, ∃ r' ∈ rows', group r' = group r ∧ value r ≤ value r')
    (htops : ∀ g' ∈ tops', ∃ g ∈ tops, key g = key g' ∧ mark g' ≤ mark g) :
    AttainedBy rows' group value tops' key mark := by
  intro g' hg'
  obtain ⟨g, hg, hkey, hmark⟩ := htops g' hg'
  rcases h g hg with hbot | ⟨r, hr, hgroup, hvalue⟩
  · exact .inl (le_bot_iff.mp (hbot ▸ hmark))
  · obtain ⟨r', hr', hgroup', hvalue'⟩ := hrows r hr
    exact .inr ⟨r', hr', by rw [hgroup', hgroup, hkey], hmark.trans (hvalue.trans hvalue')⟩

end Cover

end SignalConnector
