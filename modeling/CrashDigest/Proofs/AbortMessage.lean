import CrashDigest.Proofs.NearFingerprint

/-!
# The abort message of a tombstone

The message is taken while the window of the stack is open. The counter of that
window is given up with the eighth frame, and a counter that stands still does
not close its window any more: behind its eighth frame the scan listens for the
message up to the end of the file, as far from any fingerprint as it may be
(`listens`).

`backtrace_eq_withAbort` says what comes in front of the stack, and that this is
the first message in a window as long as no other is heard before it.
-/

namespace CrashDigest.Tombstone

variable {lines : List Text} {line : Text} {s : Scan}

/-- Whether the scan listens for an abort message in line `j`: in a window, and anywhere once it has
all its frames. -/
def listens (lines : List Text) (j : Nat) : Bool :=
  inWindow stackWindow lines j || frameBudget ≤ (frameLines (lines.take j)).length

def heard (lines : List Text) : List Text :=
  Places.linesAt listens lines

theorem listens_looksBack : Places.LooksBack listens := by
  intro lines line j hj
  rw [listens, inWindow_looksBack _ lines line j hj, List.take_append_of_le_length hj.le, listens]

theorem listens_concat (lines : List Text) (line : Text) :
    listens (lines ++ [line]) lines.length =
      (inWindow stackWindow (lines ++ [line]) lines.length ||
        frameBudget ≤ (frameLines lines).length) := by
  rw [listens, List.take_left]

theorem heard_concat (lines : List Text) (line : Text) :
    heard (lines ++ [line]) =
      heard lines ++ if listens (lines ++ [line]) lines.length then [line] else [] :=
  Places.linesAt_concat listens_looksBack lines line

/-! ## The first message that is heard

The message is taken by the state of the window behind the line, which is open
exactly if the scan listens in that line (`StackTold.active_step`). -/

theorem StackTold.active_takeFrame (h : StackTold lines s) (line : Text) :
    (s.takeFrame line).nearStack.active = listens (lines ++ [line]) lines.length := by
  rw [listens_concat, Scan.takeFrame, h.frames_eq]
  split
  · next hroom =>
      have htracks := (h.counter hroom).advance (by decide) line
      rw [decide_eq_false (Nat.not_le.mpr hroom), Bool.or_false]
      exact htracks.active_eq
  · next hfull =>
      rw [decide_eq_true (Nat.not_lt.mp hfull), Bool.or_true]
      exact h.stuck hfull

theorem nearStack_takeAbort (s : Scan) (line : Text) :
    (s.takeAbort line).nearStack = s.nearStack := by
  unfold Scan.takeAbort
  split <;> rfl

theorem StackTold.active_step (h : StackTold lines s) (line : Text) :
    (s.step line).nearStack.active = listens (lines ++ [line]) lines.length := by
  rw [Scan.step, nearStack_takeAbort]
  exact ((h.withProcess _).takeSignal line).active_takeFrame line

theorem abort_takeSignal (s : Scan) (line : Text) : (s.takeSignal line).abort = s.abort := by
  unfold Scan.takeSignal
  split <;> rfl

theorem abort_takeFrame (s : Scan) (line : Text) : (s.takeFrame line).abort = s.abort := by
  unfold Scan.takeFrame
  split <;> rfl

theorem abort_step (s : Scan) (line : Text) :
    (s.step line).abort =
      if (s.step line).nearStack.active then s.abort.offer (abortMessage.read line)
      else s.abort := by
  rw [Scan.step, nearStack_takeAbort, Scan.takeAbort]
  split
  · rw [abort_takeFrame, abort_takeSignal]
  · rw [abort_takeFrame, abort_takeSignal]

theorem abort_eq (lines : List Text) :
    (lines.foldl Scan.step .initial).abort =
      .firstWith ((heard lines).findSome? abortMessage.read) := by
  induction lines using List.reverseRecOn with
  | nil => rfl
  | append_singleton lines line ih =>
      rw [List.foldl_concat, abort_step, (stackTold lines).active_step line, ih, heard_concat,
        List.findSome?_append]
      split
      · rw [Slot.offer_firstWith, List.findSome?_singleton]
      · rw [List.findSome?_nil, Option.or_none]

/-! ## Messages in the windows -/

def abortAt (lines : List Text) (j : Nat) : Bool :=
  lines[j]?.any fun line => (abortMessage.read line).isSome

theorem abortAt_looksBack : Places.LooksBack abortAt :=
  Places.looksBack_line _

theorem lt_of_abortAt {j : Nat} (h : abortAt lines j = true) : j < lines.length := by
  obtain ⟨line, hget, _⟩ := (Option.any_eq_true _ _).mp h
  exact (List.getElem?_eq_some_iff.mp hget).1

/-- Whether every message that is heard stands in a window, or comes after one that does. -/
def HeardNear (lines : List Text) : Prop :=
  ∀ j, abortAt lines j = true → listens lines j = true → inWindow stackWindow lines j = true ∨
    ∃ i < j, abortAt lines i = true ∧ inWindow stackWindow lines i = true

instance (lines : List Text) : Decidable (HeardNear lines) :=
  decidable_of_iff
    (∀ j < lines.length, abortAt lines j = true → listens lines j = true →
      inWindow stackWindow lines j = true ∨
        ∃ i < j, abortAt lines i = true ∧ inWindow stackWindow lines i = true)
    ⟨fun h j habort => h j (lt_of_abortAt habort) habort, fun h j _ => h j⟩

theorem HeardNear.of_concat (h : HeardNear (lines ++ [line])) : HeardNear lines := by
  intro j habort hlistens
  have hj := lt_of_abortAt habort
  rw [← abortAt_looksBack lines line j hj] at habort
  rw [← listens_looksBack lines line j hj] at hlistens
  refine (h j habort hlistens).imp (fun hin => ?_) fun ⟨i, hi, hfirst, hin⟩ => ⟨i, hi, ?_, ?_⟩
  · rwa [inWindow_looksBack _ lines line j hj] at hin
  · rwa [abortAt_looksBack lines line i (hi.trans hj)] at hfirst
  · rwa [inWindow_looksBack _ lines line i (hi.trans hj)] at hin

theorem abortAt_concat (lines : List Text) (line : Text) :
    abortAt (lines ++ [line]) lines.length = (abortMessage.read line).isSome := by
  rw [abortAt, Places.any_concat_length]

theorem findSome?_near_ne_none {i : Nat} (habort : abortAt lines i = true)
    (hin : inWindow stackWindow lines i = true) :
    (near stackWindow lines).findSome? abortMessage.read ≠ none := by
  obtain ⟨line, hget, hread⟩ := (Option.any_eq_true _ _).mp habort
  have hmem : line ∈ near stackWindow lines := Places.mem_linesAt.mpr ⟨i, hget, hin⟩
  intro hnone
  rw [List.findSome?_eq_none_iff.mp hnone line hmem] at hread
  cases hread

/-- The first message that is heard is the first one in a window, if no other comes before it. -/
theorem findSome?_heard (h : HeardNear lines) :
    (heard lines).findSome? abortMessage.read =
      (near stackWindow lines).findSome? abortMessage.read := by
  induction lines using List.reverseRecOn with
  | nil => rfl
  | append_singleton lines line ih =>
      have hlast := h lines.length
      rw [heard_concat, near_concat, List.findSome?_append, List.findSome?_append,
        ih h.of_concat]
      cases hbefore : (near stackWindow lines).findSome? abortMessage.read with
      | some _ => rfl
      | none =>
          rw [Option.none_or, Option.none_or]
          cases hin : inWindow stackWindow (lines ++ [line]) lines.length with
          | true => rw [listens_concat, hin, Bool.true_or]
          | false =>
              -- a message in this line would need an earlier one in a window
              have hsilent : listens (lines ++ [line]) lines.length = true →
                  abortMessage.read line = none := by
                intro hlistens
                by_contra hread
                rw [abortAt_concat, Option.isSome_iff_ne_none] at hlast
                rcases hlast hread hlistens with hnear | ⟨i, hi, habort, hnear⟩
                · exact Bool.false_ne_true (hin.symm.trans hnear)
                · rw [abortAt_looksBack lines line i hi] at habort
                  rw [inWindow_looksBack _ lines line i hi] at hnear
                  exact findSome?_near_ne_none habort hnear hbefore
              split
              · next hlistens => rw [List.findSome?_singleton, hsilent hlistens]; rfl
              · rfl

/-- The first abort message that is heard stands before the stack. As long as none is heard outside
of the windows before one inside, it is the first in a window of the stack. -/
theorem backtrace_eq_withAbort (lines : List Text) :
    (scan lines).backtrace = withAbort ((heard lines).findSome? abortMessage.read)
      (stackOf (frameLines lines)).render ∧
    (HeardNear lines →
      (scan lines).backtrace = withAbort ((near stackWindow lines).findSome? abortMessage.read)
        (stackOf (frameLines lines)).render) := by
  have hbacktrace : (scan lines).backtrace =
      withAbort ((heard lines).findSome? abortMessage.read)
        (stackOf (frameLines lines)).render := by
    rw [scan, Scan.summary, abort_eq, (stackTold lines).backtrace]
    rfl
  refine ⟨hbacktrace, fun h => ?_⟩
  rw [hbacktrace, findSome?_heard h]

/-- A tombstone with eight frames, and a message in the first line that is too far away. -/
def lateAbort : List Text :=
  ["Build fingerprint: 'x'", "#00 (a)", "#01 (b)", "#02 (c)", "#03 (d)", "#04 (e)", "#05 (f)",
    "#06 (g)", "#07 (h)", "", "", "", "", "", "", "Abort message: late"]

/-- With another message in a window the late one has no effect. -/
theorem backtrace_of_earlyAbort :
    HeardNear (lateAbort.set 9 "Abort message: early") ∧
    (scan (lateAbort.set 9 "Abort message: early")).backtrace =
      (" early - a b c d e f g h" : Text) := by
  have hheard : HeardNear (lateAbort.set 9 "Abort message: early") := by decide +kernel
  exact ⟨hheard, ((backtrace_eq_withAbort _).2 hheard).trans (by decide +kernel)⟩

/-- On its own it is heard, although no message stands in a window. -/
theorem backtrace_of_lateAbort :
    (scan lateAbort).backtrace = (" late - a b c d e f g h" : Text) ∧
    (near stackWindow lateAbort).findSome? abortMessage.read = none :=
  ⟨by decide +kernel, by decide +kernel⟩

end CrashDigest.Tombstone
