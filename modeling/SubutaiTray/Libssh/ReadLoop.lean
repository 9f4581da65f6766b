import SubutaiTray.Library.LineStream
import SubutaiTray.Library.Runs

/-!
How `run_ssh_command_internal` collects the lines of the output.

The channel is read into one buffer of 0x100 bytes. After every read the complete lines go
to the output and the rest is moved to the front. A try-again result leaves the inner loop,
and the outer one begins with both cursors at zero.
-/
namespace SubutaiTray.Libssh

open LineStream

def newline : UInt8 := 10

def bufferSize : Nat := 0x100

/-- What `libssh2_channel_read` returns before the end of the stream. -/
inductive ReadResult where
  | chunk (bytes : List UInt8)
  | again
  deriving DecidableEq

/-- Between two reads; `f` is zero there. -/
structure ReadLoop where
  buffer : List UInt8
  l : Nat
  lstOut : List (List UInt8)
  deriving DecidableEq

/-- `for (; buffer[l]; ++l)`, with the cursors `f` and `l`. The result is nothing when the loop
leaves the buffer. -/
def scanLines (buffer : List UInt8) :
    Nat → Nat → Nat → List (List UInt8) → Option (Nat × Nat × List (List UInt8))
  | 0, _, _, _ => none
  | fuel + 1, f, l, lstOut =>
      match buffer[l]? with
      | none => none
      | some c =>
          if c = 0 then some (f, l, lstOut)
          else if c = newline then
            scanLines buffer fuel (l + 1) (l + 1) (lstOut ++ [(buffer.drop f).take (l - f)])
          else scanLines buffer fuel f (l + 1) lstOut

/-- `libssh2_channel_read` writes the bytes at `l`. -/
def writeAt (buffer : List UInt8) (l : Nat) (bytes : List UInt8) : List UInt8 :=
  buffer.take l ++ bytes ++ buffer.drop (l + bytes.length)

/-- `memcpy(buffer, &buffer[f], n)` -/
def moveToFront (buffer : List UInt8) (f n : Nat) : List UInt8 :=
  (buffer.drop f).take n ++ buffer.drop n

namespace ReadLoop

/-- The room that is offered to the channel. -/
def room (s : ReadLoop) : Nat := bufferSize - s.l - 1

/-- The channel never hands over more bytes than there is room for. -/
def step (s : ReadLoop) : ReadResult → Option ReadLoop
  | .again => some { s with l := 0 }
  | .chunk bytes =>
      if bytes = [] ∨ s.room < bytes.length then none
      else
        let buffer := (writeAt s.buffer s.l bytes).set (s.l + bytes.length) 0
        (scanLines buffer bufferSize 0 s.l s.lstOut).map fun scanned =>
          { buffer := moveToFront buffer scanned.1 (scanned.2.1 - scanned.1)
            l := scanned.2.1 - scanned.1
            lstOut := scanned.2.2 }

end ReadLoop

/-- The lines that are collected when the stream ends after these results. The buffer is
static: it holds what an earlier command left. -/
def collect (buffer : List UInt8) (reads : List ReadResult) : Option (List (List UInt8)) :=
  (reads.foldlM ReadLoop.step ⟨buffer, 0, []⟩).map ReadLoop.lstOut

/-! ## The loop as a reader of lines -/

def ReadResult.bytes : ReadResult → List UInt8
  | .chunk bytes => bytes
  | .again => []

def output (reads : List ReadResult) : List UInt8 := reads.flatMap ReadResult.bytes

/-- A try-again result drops the line that is pending. -/
def ReadResult.feed (r : Read UInt8) : ReadResult → Read UInt8
  | .chunk bytes => LineStream.feed newline r bytes
  | .again => ⟨r.done, []⟩

def held (reads : List ReadResult) : Read UInt8 := reads.foldl ReadResult.feed Read.empty

/-- Every chunk fits behind the line that is pending. -/
def Fits (reads : List ReadResult) : Prop :=
  ∀ before bytes, before ++ [.chunk bytes] <+: reads →
    bytes ≠ [] ∧ bytes.length ≤ bufferSize - (held before).pending.length - 1

/-- Every try-again result comes before the first byte or behind the end of a line. -/
def AgainBetweenLines (reads : List ReadResult) : Prop :=
  ∀ before, before ++ [.again] <+: reads →
    output before = [] ∨ (output before).getLast? = some newline

/-- The loop stands at `f` with the line that begins there, and the terminating zero is behind
the data. -/
theorem scanLines_eq {pre cur data post : List UInt8} (hdata : 0 ∉ data)
    (lstOut : List (List UInt8)) {fuel : Nat} (hfuel : data.length < fuel) :
    ∃ f, scanLines (pre ++ cur ++ data ++ 0 :: post) fuel pre.length (pre ++ cur).length lstOut =
        some (f, (pre ++ cur ++ data).length, (feed newline ⟨lstOut, cur⟩ data).done) ∧
      f + (feed newline ⟨lstOut, cur⟩ data).pending.length = (pre ++ cur ++ data).length ∧
      ((pre ++ cur ++ data ++ 0 :: post).drop f).take
          (feed newline ⟨lstOut, cur⟩ data).pending.length =
        (feed newline ⟨lstOut, cur⟩ data).pending := by
  induction data generalizing pre cur lstOut fuel with
  | nil =>
      obtain ⟨fuel, rfl⟩ := Nat.exists_eq_add_of_lt hfuel
      refine ⟨pre.length, ?_, by simp [feed], by simp [feed]⟩
      rw [List.length_nil, Nat.zero_add, scanLines, List.append_nil,
        List.getElem?_append_right (Nat.le_refl _)]
      simp [feed]
  | cons c data ih =>
      obtain ⟨fuel, rfl⟩ := Nat.exists_eq_add_of_lt hfuel
      rw [List.mem_cons, not_or] at hdata
      have hget : (pre ++ cur ++ c :: data ++ 0 :: post)[(pre ++ cur).length]? = some c := by
        rw [List.append_assoc (pre ++ cur), List.getElem?_append_right (Nat.le_refl _)]
        simp
      rw [List.length_cons, scanLines, hget]
      dsimp only
      rw [if_neg (Ne.symm hdata.1), feed, List.foldl_cons, ← feed, push]
      by_cases hc : c = newline
      · have hline : ((pre ++ cur ++ c :: data ++ 0 :: post).drop pre.length).take
            ((pre ++ cur).length - pre.length) = cur := by simp
        have hsplit : pre ++ cur ++ c :: data = (pre ++ cur ++ [c]) ++ [] ++ data := by simp
        rw [if_pos hc, if_pos hc, hline, hsplit]
        have hlength : (pre ++ cur).length + 1 = (pre ++ cur ++ [c]).length := by simp [Nat.add_assoc]
        rw [hlength]
        nth_rewrite 3 [← List.append_nil (pre ++ cur ++ [c])]
        exact ih hdata.2 (lstOut ++ [cur]) (by omega)
      · have hsplit : pre ++ cur ++ c :: data = pre ++ (cur ++ [c]) ++ data := by simp
        have hlength : (pre ++ cur).length + 1 = (pre ++ (cur ++ [c])).length := by simp [Nat.add_assoc]
        rw [if_neg hc, if_neg hc, hsplit, hlength]
        exact ih hdata.2 lstOut (by omega)

theorem length_moveToFront {buffer : List UInt8} {f n : Nat} (h : f + n ≤ buffer.length) :
    (moveToFront buffer f n).length = buffer.length := by
  simp only [moveToFront, List.length_append, List.length_take, List.length_drop]
  omega

theorem take_moveToFront {buffer : List UInt8} {f n : Nat} (h : f + n ≤ buffer.length) :
    (moveToFront buffer f n).take n = (buffer.drop f).take n := by
  have hlength : ((buffer.drop f).take n).length = n := by
    simp only [List.length_take, List.length_drop]
    omega
  rw [moveToFront, List.take_append_of_le_length hlength.ge, List.take_take, Nat.min_self]

/-- The pending line stands at the front of the buffer. -/
structure ReadLoop.Holds (s : ReadLoop) (r : Read UInt8) : Prop where
  size : s.buffer.length = bufferSize
  cursor : s.l = r.pending.length
  front : s.buffer.take s.l = r.pending
  lines : s.lstOut = r.done

namespace ReadLoop

variable {s : ReadLoop} {r : Read UInt8}

theorem Holds.again (h : s.Holds r) :
    ∃ s', s.step .again = some s' ∧ s'.Holds (ReadResult.again.feed r) :=
  ⟨_, rfl, ⟨h.size, rfl, rfl, h.lines⟩⟩

theorem Holds.chunk (h : s.Holds r) {bytes : List UInt8} (hne : bytes ≠ []) (hnul : 0 ∉ bytes)
    (hroom : bytes.length ≤ bufferSize - r.pending.length - 1) :
    ∃ s', s.step (.chunk bytes) = some s' ∧ s'.Holds ((ReadResult.chunk bytes).feed r) := by
  have hpos := List.length_pos_iff.mpr hne
  have hsize := h.size
  have hcursor := h.cursor
  have hbuffer : (writeAt s.buffer s.l bytes).set (s.l + bytes.length) 0 =
      r.pending ++ bytes ++ 0 :: s.buffer.drop (s.l + bytes.length + 1) := by
    have hlt : s.l + bytes.length < s.buffer.length := by omega
    have hbehind : (r.pending ++ bytes).length = s.l + bytes.length := by
      rw [List.length_append, hcursor]
    rw [writeAt, h.front, List.drop_eq_getElem_cons hlt, List.set_append_right _ _ hbehind.le,
      hbehind, Nat.sub_self, List.set_cons_zero]
  have hlength : (r.pending ++ bytes ++ 0 :: s.buffer.drop (s.l + bytes.length + 1)).length =
      bufferSize := by
    rw [← hbuffer, List.length_set, writeAt]
    simp only [List.length_append, List.length_take, List.length_drop]
    omega
  obtain ⟨f, hscan, hcursors, hfront⟩ := @scanLines_eq [] r.pending bytes
    (s.buffer.drop (s.l + bytes.length + 1)) hnul s.lstOut bufferSize (by omega)
  have hread : (⟨s.lstOut, r.pending⟩ : Read UInt8) = r := by rw [h.lines]
  rw [List.nil_append, List.length_nil, ← hcursor, hread] at hscan
  rw [List.nil_append, hread] at hcursors hfront
  have hpending : (r.pending ++ bytes).length - f = (feed newline r bytes).pending.length := by
    omega
  have hfits : ¬ (bytes = [] ∨ s.room < bytes.length) := by
    rw [not_or, room]
    exact ⟨hne, by omega⟩
  rw [step, if_neg hfits, hbuffer]
  dsimp only
  rw [hscan]
  generalize r.pending ++ bytes ++ 0 :: s.buffer.drop (s.l + bytes.length + 1) = buffer at *
  have hle : f + (feed newline r bytes).pending.length ≤ buffer.length := by
    rw [List.length_append] at hcursors
    omega
  refine ⟨_, rfl, ?_, hpending, ?_, rfl⟩
  · dsimp only
    rw [hpending, length_moveToFront hle, hlength]
  · dsimp only
    rw [hpending, take_moveToFront hle, hfront]
    rfl

end ReadLoop

/-! ## Whole runs -/

theorem output_concat (reads : List ReadResult) (result : ReadResult) :
    output (reads ++ [result]) = output reads ++ result.bytes := by
  simp [output]

theorem held_concat (reads : List ReadResult) (result : ReadResult) :
    held (reads ++ [result]) = result.feed (held reads) := by
  simp [held]

theorem Fits.of_prefix {before reads : List ReadResult} (h : Fits reads) (hstart : before <+: reads) :
    Fits before := fun past bytes hpast => h past bytes (hpast.trans hstart)

/-- As long as the chunks fit the loop stays in the buffer. -/
theorem exists_run {buffer : List UInt8} (hbuffer : buffer.length = bufferSize)
    {reads : List ReadResult} (hfits : Fits reads) (hnul : 0 ∉ output reads) :
    ∃ s, reads.foldlM ReadLoop.step ⟨buffer, 0, []⟩ = some s ∧ s.Holds (held reads) := by
  induction reads using List.reverseRecOn with
  | nil => exact ⟨_, rfl, hbuffer, rfl, rfl, rfl⟩
  | append_singleton reads result ih =>
      rw [output_concat, List.mem_append, not_or] at hnul
      obtain ⟨s, hrun, hholds⟩ := ih (hfits.of_prefix (List.prefix_append _ _)) hnul.1
      have hstep : ∃ s', s.step result = some s' ∧ s'.Holds (result.feed (held reads)) := by
        cases result with
        | again => exact hholds.again
        | chunk bytes =>
            obtain ⟨hne, hroom⟩ := hfits reads bytes (List.prefix_refl _)
            exact hholds.chunk hne hnul.2 hroom
      obtain ⟨s', hs', hholds'⟩ := hstep
      refine ⟨s', ?_, ?_⟩
      · rw [Runs.foldlM_concat, hrun]
        exact hs'
      · rw [held_concat]
        exact hholds'

theorem againBetweenLines_nil : AgainBetweenLines [] := by
  intro before hbefore
  exact absurd (List.prefix_nil.mp hbefore) (List.append_ne_nil_of_right_ne_nil _ (List.cons_ne_nil _ _))

theorem againBetweenLines_chunk (reads : List ReadResult) (bytes : List UInt8) :
    AgainBetweenLines (reads ++ [.chunk bytes]) ↔ AgainBetweenLines reads := by
  refine forall_congr' fun before => imp_congr_left ?_
  rw [List.prefix_concat_iff, or_iff_right]
  intro heq
  cases (List.append_inj' heq rfl).2

theorem againBetweenLines_again (reads : List ReadResult) :
    AgainBetweenLines (reads ++ [.again]) ↔
      AgainBetweenLines reads ∧ (output reads = [] ∨ (output reads).getLast? = some newline) := by
  constructor
  · intro h
    exact ⟨fun before hbefore => h before (hbefore.trans (List.prefix_append _ _)),
      h reads (List.prefix_refl _)⟩
  · rintro ⟨hreads, hlast⟩ before hbefore
    cases List.prefix_concat_iff.mp hbefore with
    | inl heq =>
        rw [(List.append_inj' heq rfl).1]
        exact hlast
    | inr hpast => exact hreads before hpast

/-- What is lost is in no line: as many bytes are held as were read if and only if nothing was
pending at any try-again result. -/
theorem size_held (reads : List ReadResult) :
    (held reads).size ≤ (output reads).length ∧
      ((held reads).size = (output reads).length ↔ AgainBetweenLines reads) ∧
      (AgainBetweenLines reads → held reads = feed newline Read.empty (output reads)) := by
  induction reads using List.reverseRecOn with
  | nil =>
      exact ⟨Nat.le_refl _, iff_of_true rfl againBetweenLines_nil, fun _ => rfl⟩
  | append_singleton reads result ih =>
      obtain ⟨hle, hiff, heq⟩ := ih
      rw [held_concat, output_concat]
      cases result with
      | chunk bytes =>
          rw [againBetweenLines_chunk, ReadResult.feed, size_feed, ReadResult.bytes,
            List.length_append, feed_append, ← hiff]
          refine ⟨by omega, by omega, fun h => ?_⟩
          rw [heq (hiff.mp h)]
      | again =>
          have hsize : (held reads).size =
              Read.size ⟨(held reads).done, []⟩ + (held reads).pending.length := rfl
          rw [againBetweenLines_again, ReadResult.feed, ReadResult.bytes, List.append_nil]
          refine ⟨by omega, ?_, ?_⟩
          · constructor
            · intro h
              have hreads := hiff.mp (by omega)
              refine ⟨hreads, (pending_feed_eq_nil_iff _).mp ?_⟩
              rw [← heq hreads, ← List.length_eq_zero_iff]
              omega
            · rintro ⟨hreads, hlast⟩
              have hnone := (pending_feed_eq_nil_iff _).mpr hlast
              rw [← heq hreads, ← List.length_eq_zero_iff] at hnone
              have := hiff.mpr hreads
              omega
          · rintro ⟨hreads, hlast⟩
            have hnone := (pending_feed_eq_nil_iff _).mpr hlast
            rw [← heq hreads] at hnone ⊢
            rw [← hnone]

/-- The lines are those of the output if and only if every try-again result comes between two
lines. -/
theorem collect_eq_lines_iff {buffer : List UInt8} (hbuffer : buffer.length = bufferSize)
    {reads : List ReadResult} (hfits : Fits reads) (hnul : 0 ∉ output reads)
    (hlast : output reads = [] ∨ (output reads).getLast? = some newline) :
    ∃ lstOut, collect buffer reads = some lstOut ∧
      (lstOut = lines newline (output reads) ↔ AgainBetweenLines reads) := by
  obtain ⟨s, hrun, hholds⟩ := exists_run hbuffer hfits hnul
  refine ⟨(held reads).done, ?_, ?_⟩
  · rw [collect, hrun, Option.map_some, hholds.lines]
  · obtain ⟨hle, hiff, heq⟩ := size_held reads
    constructor
    · intro hlines
      have hall := @size_feed UInt8 _ newline Read.empty (output reads)
      have hnone := (pending_feed_eq_nil_iff (output reads)).mpr hlast
      rw [Read.size, done_feed, ← hlines, hnone] at hall
      have hsize : (held reads).size =
          (held reads).done.flatten.length + (held reads).done.length + (held reads).pending.length := rfl
      have hempty : (Read.empty : Read UInt8).size = 0 := rfl
      rw [List.length_nil] at hall
      rw [← hiff]
      omega
    · intro h
      rw [heq h, done_feed]

theorem Fits.nil : Fits [] := by
  intro before bytes hbefore
  exact absurd (List.prefix_nil.mp hbefore) (by simp)

theorem Fits.again {reads : List ReadResult} (h : Fits reads) : Fits (reads ++ [.again]) := by
  intro before bytes hbefore
  cases List.prefix_concat_iff.mp hbefore with
  | inl heq => cases (List.append_inj' heq rfl).2
  | inr hpast => exact h before bytes hpast

theorem Fits.chunk {reads : List ReadResult} (h : Fits reads) {bytes : List UInt8} (hne : bytes ≠ [])
    (hroom : bytes.length ≤ bufferSize - (held reads).pending.length - 1) :
    Fits (reads ++ [.chunk bytes]) := by
  intro before bytes' hbefore
  cases List.prefix_concat_iff.mp hbefore with
  | inl heq =>
      obtain ⟨rfl, hbytes⟩ := List.append_inj' heq rfl
      cases hbytes
      exact ⟨hne, hroom⟩
  | inr hpast => exact h before bytes' hpast

/-- The lines `hi` and `ho`: the first comes in two parts, and there is nothing to read after it. -/
def hiHo : List ReadResult :=
  [.chunk [104], .chunk [105, newline], .again, .chunk [104, 111, newline]]

theorem collect_eq_lines_iff_hiHo :
    ∃ lstOut, collect (List.replicate bufferSize 0) hiHo = some lstOut ∧
      (lstOut = lines newline (output hiHo) ↔ AgainBetweenLines hiHo) := by
  have hhi : Fits [.chunk [104], .chunk [105, newline]] :=
    (Fits.nil.chunk (by decide) (by decide)).chunk (by decide) (by decide)
  exact collect_eq_lines_iff List.length_replicate (hhi.again.chunk (by decide) (by decide)) (by decide)
    (by decide)

/-- The line `hi`, cut by a try-again result. -/
def hiAgain : List ReadResult := [.chunk [104], .again, .chunk [105, newline]]

/-- Its first letter is lost. -/
theorem collect_hiAgain :
    Fits hiAgain ∧ output hiAgain = [104, 105, newline] ∧
    collect (List.replicate bufferSize 0) hiAgain = some [[105]] ∧
    [[105]] ≠ lines newline (output hiAgain) := by
  refine ⟨?_, by decide, by decide +kernel, by decide⟩
  exact ((Fits.nil.chunk (by decide) (by decide)).again).chunk (by decide) (by decide)

end SubutaiTray.Libssh
