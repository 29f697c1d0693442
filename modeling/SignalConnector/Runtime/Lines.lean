/-
# Line framing

Two readers take lines from a stream that arrives in pieces: the pump of the
engine's output, which ends at the first line it refuses, and the import of a
history archive, which goes on behind it. What they answer is a function of
the stream, whatever its pieces.
-/
import Mathlib

namespace SignalConnector

open List

/-- What a call answers: `None` or `Eof`, the bytes of a line, which either reader then makes a text of, or
`TooLong` or `Overlong`. -/
inductive BoundedLine where
  | eof
  | line (bytes : List UInt8)
  | overlong
  deriving DecidableEq

def newline : UInt8 := 10

/-- A line as far as it is read: never more than the cap. -/
abbrev LineBuffer (cap : ℕ) := {line : List UInt8 // line.length ≤ cap}

def LineBuffer.empty (cap : ℕ) : LineBuffer cap := ⟨[], Nat.zero_le cap⟩

variable {cap : ℕ}

/-- The bytes are added if they fit. -/
def LineBuffer.extend (line : LineBuffer cap) (bytes : List UInt8) : Option (LineBuffer cap) :=
  if h : line.1.length + bytes.length ≤ cap then some ⟨line.1 ++ bytes, by simpa using h⟩ else none

def LineBuffer.atEnd (line : LineBuffer cap) : BoundedLine := if line.1 = [] then .eof else .line line.1

/-- The reader's pieces: what `fill_buf` shows is the first that is not empty. An empty one adds nothing. -/
def Engine.readBoundedLine : List (List UInt8) → LineBuffer cap → BoundedLine × List (List UInt8)
  | [], line => (line.atEnd, [])
  | available :: rest, line =>
    if newline ∈ available then
      match line.extend (available.take (available.idxOf newline)) with
      | none => (.overlong, available :: rest)
      | some line => (.line line.1, available.drop (available.idxOf newline + 1) :: rest)
    else
      match line.extend available with
      | none => (.overlong, available :: rest)
      | some line => readBoundedLine rest line

/-- A buffer that is `none` is overflowing: its line is read to its end and dropped. -/
def HistoryImport.readBoundedLine :
    List (List UInt8) → Option (LineBuffer cap) → BoundedLine × List (List UInt8)
  | [], buf => (buf.elim .overlong LineBuffer.atEnd, [])
  | available :: rest, buf =>
    if newline ∈ available then
      ((buf.bind (·.extend (available.take (available.idxOf newline)))).elim .overlong fun buf => .line buf.1,
        available.drop (available.idxOf newline + 1) :: rest)
    else readBoundedLine rest (buf.bind (·.extend available))

/-- Line after line, up to the first answer that ends the loop. -/
def readLines (read : List (List UInt8) → BoundedLine × List (List UInt8)) (last : BoundedLine → Bool) :
    ℕ → List (List UInt8) → Option (List BoundedLine)
  | 0, _ => none
  | fuel + 1, pieces =>
    if last (read pieces).1 then some [(read pieces).1]
    else (readLines read last fuel (read pieces).2).map ((read pieces).1 :: ·)

/-! ### The lines of a stream -/

def streamLines : List UInt8 → List (List UInt8)
  | [] => []
  | b :: stream =>
    if b = newline then [] :: streamLines stream
    else (b :: (streamLines stream).headD []) :: (streamLines stream).tail

def verdict (cap : ℕ) (line : List UInt8) : BoundedLine := if cap < line.length then .overlong else .line line

/-- The lines, those over the cap refused, and the end. -/
def verdicts (cap : ℕ) (stream : List UInt8) : List BoundedLine := (streamLines stream).map (verdict cap) ++ [.eof]

/-- A list up to its first entry of this kind. -/
def upTo {α : Type} (last : α → Bool) : List α → List α
  | [] => []
  | a :: l => if last a then [a] else a :: upTo last l

theorem streamLines_append : ∀ {line : List UInt8}, newline ∉ line → ∀ stream,
    streamLines (line ++ newline :: stream) = line :: streamLines stream
  | [], _, stream => by simp [streamLines]
  | b :: line, h, stream => by
    obtain ⟨hb, hline⟩ := not_or.mp (mem_cons.not.mp h)
    rw [cons_append, streamLines, if_neg (Ne.symm hb), streamLines_append hline]
    rfl

theorem streamLines_last : ∀ {line : List UInt8}, newline ∉ line → line ≠ [] → streamLines line = [line]
  | [b], h, _ => by simp [streamLines, Ne.symm (ne_of_not_mem_cons h)]
  | b :: c :: line, h, _ => by
    obtain ⟨hb, hline⟩ := not_or.mp (mem_cons.not.mp h)
    rw [streamLines, if_neg (Ne.symm hb), streamLines_last hline (cons_ne_nil c line)]
    rfl

/-! ### The readers -/

/-- The bytes read of a line, as far as the buffer shows them. -/
def Holds (buf : Option (LineBuffer cap)) (seen : List UInt8) : Prop :=
  newline ∉ seen ∧ buf.elim (cap < seen.length) (·.1 = seen)

theorem Holds.extend {buf : Option (LineBuffer cap)} {seen bytes : List UInt8} (h : Holds buf seen)
    (hbytes : newline ∉ bytes) : Holds (buf.bind (·.extend bytes)) (seen ++ bytes) := by
  refine ⟨by simp [h.1, hbytes], ?_⟩
  rcases buf with - | buf
  · rw [Option.bind_none, Option.elim_none, length_append]
    exact Nat.lt_add_right _ h.2
  · obtain rfl : buf.1 = seen := h.2
    rw [Option.bind_some, LineBuffer.extend]
    split
    · rfl
    · rw [Option.elim_none, length_append]
      omega

theorem Holds.verdict_eq {buf : Option (LineBuffer cap)} {seen : List UInt8} (h : Holds buf seen) :
    verdict cap seen = buf.elim .overlong fun buf => .line buf.1 := by
  rcases buf with - | buf
  · exact if_pos h.2
  · obtain rfl : buf.1 = seen := h.2
    exact if_neg (Nat.not_lt.mpr buf.2)

/-- One call answers the first verdict of the stream and leaves the stream behind its line. -/
theorem HistoryImport.readBoundedLine_spec : ∀ (pieces : List (List UInt8)) {buf : Option (LineBuffer cap)}
    {seen : List UInt8}, Holds buf seen → ∃ later,
      verdicts cap (seen ++ pieces.flatten) = (readBoundedLine pieces buf).1 :: later ∧
      ((readBoundedLine pieces buf).1 ≠ .eof → later = verdicts cap (readBoundedLine pieces buf).2.flatten ∧
        (readBoundedLine pieces buf).2.flatten.length < (seen ++ pieces.flatten).length)
  | [], buf, [], h => by
    rcases buf with - | ⟨line, hline⟩
    · exact absurd h.2 (Nat.not_lt_zero _)
    · obtain rfl : line = [] := h.2
      exact ⟨[], rfl, absurd rfl⟩
  | [], buf, b :: seen, h => by
    have hanswer : (readBoundedLine [] buf).1 = verdict cap (b :: seen) := by
      rw [h.verdict_eq, readBoundedLine]
      rcases buf with - | buf
      · rfl
      · exact if_neg (h.2 ▸ cons_ne_nil b seen)
    refine ⟨[.eof], ?_, fun _ => ⟨rfl, by simp [readBoundedLine]⟩⟩
    rw [hanswer, flatten_nil, append_nil, verdicts, streamLines_last h.1 (cons_ne_nil b seen)]
    rfl
  | available :: rest, buf, seen, h => by
    unfold readBoundedLine
    by_cases hmem : newline ∈ available
    · obtain ⟨line, after, rfl, hline⟩ := eq_append_cons_of_mem hmem
      have hat : (line ++ newline :: after).idxOf newline = line.length := by simp [idxOf_append, hline]
      have hstream : seen ++ ((line ++ newline :: after) :: rest).flatten =
          (seen ++ line) ++ newline :: (after ++ rest.flatten) := by simp
      rw [if_pos hmem, hat, take_left, ← drop_drop, drop_left, hstream]
      refine ⟨verdicts cap (after ++ rest.flatten), ?_, fun _ => ⟨rfl, by simp; omega⟩⟩
      rw [verdicts, streamLines_append (h.extend hline).1, map_cons, (h.extend hline).verdict_eq]
      rfl
    · rw [if_neg hmem, flatten_cons, ← append_assoc]
      exact readBoundedLine_spec rest (h.extend hmem)

theorem HistoryImport.readBoundedLine_none :
    ∀ pieces : List (List UInt8), (readBoundedLine pieces (none : Option (LineBuffer cap))).1 = .overlong
  | [] => rfl
  | available :: rest => by
    unfold readBoundedLine
    split
    · rfl
    · exact readBoundedLine_none rest

/-- The readers agree on a line, except that the pump leaves what it refuses unread. -/
theorem Engine.readBoundedLine_eq : ∀ (pieces : List (List UInt8)) (line : LineBuffer cap),
    (readBoundedLine pieces line).1 = (HistoryImport.readBoundedLine pieces (some line)).1 ∧
      ((readBoundedLine pieces line).1 ≠ .overlong →
        (readBoundedLine pieces line).2 = (HistoryImport.readBoundedLine pieces (some line)).2)
  | [], line => ⟨rfl, fun _ => rfl⟩
  | available :: rest, line => by
    unfold readBoundedLine HistoryImport.readBoundedLine
    split
    · rw [Option.bind_some]
      split
      · next h => rw [h]; exact ⟨rfl, absurd rfl⟩
      · next h => rw [h]; exact ⟨rfl, fun _ => rfl⟩
    · rw [Option.bind_some]
      split
      · next h => rw [h, HistoryImport.readBoundedLine_none]; exact ⟨rfl, absurd rfl⟩
      · next h => rw [h]; exact readBoundedLine_eq rest _

/-- A loop over such calls answers the verdicts up to the one that ends it. -/
theorem readLines_eq {read : List (List UInt8) → BoundedLine × List (List UInt8)} {last : BoundedLine → Bool}
    (hread : ∀ pieces, ∃ later, verdicts cap pieces.flatten = (read pieces).1 :: later ∧
      (last (read pieces).1 = false → later = verdicts cap (read pieces).2.flatten ∧
        (read pieces).2.flatten.length < pieces.flatten.length)) : ∀ fuel pieces, pieces.flatten.length < fuel →
      readLines read last fuel pieces = some (upTo last (verdicts cap pieces.flatten))
  | 0, _, h => absurd h (Nat.not_lt_zero _)
  | fuel + 1, pieces, h => by
    obtain ⟨later, hfirst, hlater⟩ := hread pieces
    rw [readLines, hfirst, upTo]
    by_cases hlast : last (read pieces).1 = true
    · rw [if_pos hlast, if_pos hlast]
    · obtain ⟨rfl, hless⟩ := hlater (Bool.eq_false_iff.mpr hlast)
      rw [if_neg hlast, if_neg hlast, readLines_eq hread fuel _ (by omega), Option.map_some]

/-- The pump ends at the end of the stream, at a line over the limit and at one that is no text. -/
def pumpEnds (refused : List UInt8 → Bool) : BoundedLine → Bool
  | .line bytes => refused bytes
  | _ => true

theorem upTo_eof (lines : List (List UInt8)) :
    upTo (· = .eof) (lines.map (verdict cap) ++ [.eof]) = lines.map (verdict cap) ++ [.eof] := by
  induction lines with
  | nil => rfl
  | cons line lines ih =>
    have hline : verdict cap line ≠ .eof := by unfold verdict; split <;> simp
    rw [map_cons, cons_append, upTo, if_neg (by simpa using hline), ih]

/-- **Line framing does not depend on the pieces**: the import's loop answers every line's verdict, the pump's those
up to the first refused. -/
theorem line_framing (cap : ℕ) (refused : List UInt8 → Bool) (pieces : List (List UInt8)) (extra : ℕ) :
    readLines (fun pieces => HistoryImport.readBoundedLine pieces (some (.empty cap))) (· = .eof)
        (pieces.flatten.length + 1 + extra) pieces = some (verdicts cap pieces.flatten) ∧
      readLines (fun pieces => Engine.readBoundedLine pieces (.empty cap)) (pumpEnds refused)
        (pieces.flatten.length + 1 + extra) pieces = some (upTo (pumpEnds refused) (verdicts cap pieces.flatten)) := by
  have hfuel : pieces.flatten.length < pieces.flatten.length + 1 + extra := by omega
  have hempty : Holds (some (LineBuffer.empty cap)) [] := ⟨not_mem_nil, rfl⟩
  have hread := fun pieces => HistoryImport.readBoundedLine_spec pieces hempty
  constructor
  · refine (readLines_eq (fun pieces => ?_) _ _ hfuel).trans (congrArg some (upTo_eof _))
    obtain ⟨later, hfirst, hlater⟩ := hread pieces
    exact ⟨later, hfirst, fun h => hlater (by simpa using h)⟩
  · refine readLines_eq (fun pieces => ?_) _ _ hfuel
    obtain ⟨later, hfirst, hlater⟩ := hread pieces
    obtain ⟨heq, hrest⟩ := Engine.readBoundedLine_eq pieces (.empty cap)
    refine ⟨later, heq ▸ hfirst, fun h => ?_⟩
    rw [hrest fun hover => by simp [hover, pumpEnds] at h]
    exact hlater fun heof => by simp [heq, heof, pumpEnds] at h

end SignalConnector
