import Mathlib.Data.List.Induction
import Mathlib.Data.List.TakeWhile
import CrashDigest.Proofs.Monotone
import CrashDigest.Proofs.Places
import CrashDigest.Proofs.TextCut

/-!
# What the reader of a soft lockup writes

The reader takes the pointer and the frames at once and writes down what it
meets. Which lines it reads, and what each of them adds, can be said of the
lines alone: `run_eq` gives the whole state of the reader after some lines, and
`ofStream_eq_written` the text as what the lines that are read have added, one
behind the other. Eight frames are the end, whatever follows.

So a pointer stands in the text where its line stands in the file. That is in
front of the frames only if it comes before them
(`ofStream_of_pointerLine`), and a dump that prints the registers behind the
call trace has its pointer in the middle.
-/

namespace CrashDigest

/-! ## Frames -/

namespace KernelFrame

variable {line : Text}

/-- A line without the end of an address in it, or with one at its very start. -/
def NoFrame (line : Text) : Prop :=
  ¬ (">] " : Text) <:+: line ∨ (">] " : Text) <+: line

/-- A line with a question mark behind the address. -/
def Unsure (line : Text) : Prop :=
  ∃ before after, line.cut ">] " = some (before, after) ∧ (" ? " : Text) <:+: ' ' :: after

theorem functionOf_eq_nil_iff : functionOf line = [] ↔ NoFrame line ∨ Unsure line := by
  rw [functionOf]
  cases hcut : line.cut ">] " with
  | none =>
      have hno : ¬ (">] " : Text) <:+: line := fun h => by
        rw [← Text.includes_iff, Text.includes, hcut] at h
        cases h
      exact iff_of_true rfl (.inl (.inl hno))
  | some found =>
      obtain ⟨before, after⟩ := found
      have hline := Text.cut_eq_some hcut
      cases before with
      | nil => exact iff_of_true rfl (.inl (.inr ⟨after, hline.symm⟩))
      | cons c before =>
          have hframe : ¬ NoFrame line := by
            rintro (hno | ⟨rest, rfl⟩)
            · exact hno ⟨c :: before, after, hline.symm⟩
            · rw [Text.cut_self_append] at hcut
              cases hcut
          have hunsure : Unsure line ↔ Text.includes (' ' :: after) " ? " = true := by
            rw [Text.includes_iff, Unsure, hcut]
            simp
          rw [or_iff_right hframe, hunsure]
          simp

end KernelFrame

namespace StackTrace

variable {b : Banner} {lines : List Text} {line : Text} {j p : Nat}

/-! ## Places

A line counts if it stands behind the opening of a call trace, which stands
itself behind the banner, and opens no trace of its own. Lines are read from
behind the banner up to the one that counts as the eighth. -/

def opensTrace (line : Text) : Bool :=
  line.includes "Call Trace:"

/-- The lines behind the first banner. -/
def behind (b : Banner) (lines : List Text) : List Text :=
  (lines.dropWhile fun line => !b.isOn line).tail

/-- Whether a line counts, by the lines before it. -/
def counts (b : Banner) (before : List Text) (line : Text) : Bool :=
  (behind b before).any opensTrace && !opensTrace line

def countedLines (b : Banner) (lines : List Text) : List Text :=
  Places.linesAt (Places.given (counts b)) lines

/-- Whether the line behind some others is read. -/
def reads (b : Banner) (before : List Text) : Bool :=
  before.any b.isOn && (countedLines b before).length < frameBudget

def isRead (b : Banner) : List Text → Nat → Bool :=
  Places.given fun before _ => reads b before

/-- The first line that is read and has a pointer. -/
def pointerLine (b : Banner) (lines : List Text) : Option Nat :=
  Places.first (Places.given fun before line => reads b before && (pointerOn line).isSome) lines

/-! ## What a line adds -/

def pointerText (line : Text) : Text :=
  (pointerOn line).elim [] (· ++ (" - " : Text))

def frameText (line : Text) : Text :=
  ' ' :: KernelFrame.functionOf line

/-- The line of the pointer adds it, and every line that counts adds its frame. -/
def addedAt (b : Banner) (lines : List Text) (j : Nat) : Text :=
  (if pointerLine b lines = some j then lines[j]?.elim [] pointerText else []) ++
    if Places.given (counts b) lines j then lines[j]?.elim [] frameText else []

/-- What the lines that are read add, one behind the other. -/
def written (b : Banner) (lines : List Text) : Text :=
  Places.textAt (isRead b) (addedAt b) lines

/-! ## One more line -/

theorem behind_concat (b : Banner) (lines : List Text) (line : Text) :
    behind b (lines ++ [line]) =
      behind b lines ++ if lines.any b.isOn then [line] else [] := by
  induction lines with
  | nil =>
      rw [List.nil_append, behind, behind, List.dropWhile_cons]
      split <;> rfl
  | cons first lines ih =>
      rw [List.cons_append, behind, behind, List.any_cons, List.dropWhile_cons,
        List.dropWhile_cons]
      cases hon : b.isOn first with
      | true => rfl
      | false => exact ih

theorem inTrace_concat (b : Banner) (lines : List Text) (line : Text) :
    (behind b (lines ++ [line])).any opensTrace =
      ((behind b lines).any opensTrace || (lines.any b.isOn && opensTrace line)) := by
  rw [behind_concat, List.any_append]
  cases lines.any b.isOn with
  | true => simp
  | false => simp

/-- Without a banner nothing stands behind it. -/
theorem behind_eq_nil (h : lines.any b.isOn = false) : behind b lines = [] := by
  rw [behind, List.dropWhile_eq_nil_iff.mpr, List.tail_nil]
  intro line hline
  simpa using List.any_eq_false.mp h line hline

theorem countedLines_concat (b : Banner) (lines : List Text) (line : Text) :
    countedLines b (lines ++ [line]) =
      countedLines b lines ++ if counts b lines line then [line] else [] := by
  rw [countedLines, Places.linesAt_concat (Places.looksBack_given _), Places.given_concat]
  rfl

/-- A line counts only in a call trace. -/
theorem inTrace_of_countedLines (h : countedLines b lines ≠ []) :
    (behind b lines).any opensTrace = true := by
  induction lines using List.reverseRecOn with
  | nil => exact absurd rfl h
  | append_singleton lines line ih =>
      rw [inTrace_concat, Bool.or_eq_true]
      left
      by_cases hbefore : countedLines b lines = []
      · rw [countedLines_concat, hbefore, List.nil_append] at h
        split at h
        · next hcounts => exact (Bool.and_eq_true_iff.mp hcounts).1
        · exact absurd rfl h
      · exact ih hbefore

theorem banner_of_inTrace (h : (behind b lines).any opensTrace = true) :
    lines.any b.isOn = true := by
  cases hany : lines.any b.isOn with
  | true => rfl
  | false =>
      rw [behind_eq_nil hany] at h
      cases h

theorem pointerLine_concat (b : Banner) (lines : List Text) (line : Text) :
    pointerLine b (lines ++ [line]) =
      (pointerLine b lines).or
        (if reads b lines && (pointerOn line).isSome then some lines.length else none) := by
  rw [pointerLine, Places.first_concat (Places.looksBack_given _), Places.given_concat]
  rfl

theorem pointerLine_concat_eq_some (hj : j < lines.length) :
    pointerLine b (lines ++ [line]) = some j ↔ pointerLine b lines = some j := by
  rw [pointerLine_concat]
  cases pointerLine b lines with
  | some p => rfl
  | none =>
      have hne : lines.length ≠ j := hj.ne'
      rw [Option.none_or]
      split
      · simp [hne]
      · rfl

/-- What a new line adds to the text, if it is read. -/
def added (b : Banner) (lines : List Text) (line : Text) : Text :=
  (if pointerLine b lines = none then pointerText line else []) ++
    if counts b lines line then frameText line else []

theorem addedAt_concat (h : reads b lines = true) (line : Text) :
    addedAt b (lines ++ [line]) lines.length = added b lines line := by
  rw [addedAt, added, Places.given_concat, List.getElem?_concat_length, Option.elim_some,
    Option.elim_some, pointerLine_concat, h, Bool.true_and]
  congr 1
  cases hpointer : pointerLine b lines with
  | some p =>
      have hp : p ≠ lines.length := (Places.first_lt hpointer).ne
      rw [Option.some_or, if_neg (by simpa using hp), if_neg (by simp)]
  | none =>
      rw [Option.none_or, if_pos (rfl : (none : Option Nat) = none), pointerText]
      cases pointerOn line with
      | some _ => simp
      | none => simp

theorem written_concat (b : Banner) (lines : List Text) (line : Text) :
    written b (lines ++ [line]) =
      written b lines ++ if reads b lines then added b lines line else [] := by
  have hold (j : Nat) (hj : j < lines.length) :
      addedAt b (lines ++ [line]) j = addedAt b lines j := by
    rw [addedAt, addedAt, Places.looksBack_given _ lines line j hj,
      List.getElem?_append_left hj]
    simp only [pointerLine_concat_eq_some hj]
  rw [written, written, isRead, Places.textAt_concat (Places.looksBack_given _) lines line hold,
    Places.given_concat]
  split
  · next hreads => rw [addedAt_concat hreads]
  · rfl

/-! ## The reader

Its five fields after some lines. The frames are counted up to the budget only,
since the reader stops there. -/

/-- The lines whose frames are written. -/
def framed (b : Banner) (lines : List Text) : List Text :=
  (countedLines b lines).take frameBudget

theorem length_framed_lt_iff :
    (framed b lines).length < frameBudget ↔ (countedLines b lines).length < frameBudget := by
  rw [framed, List.length_take]
  omega

theorem framed_concat (b : Banner) (lines : List Text) (line : Text) :
    framed b (lines ++ [line]) =
      framed b lines ++ if reads b lines && counts b lines line then [line] else [] := by
  have hone : (if counts b lines line then [line] else []).length ≤ 1 := by
    split <;> simp
  rw [framed, countedLines_concat, Places.take_append_one frameBudget hone, ← framed, reads]
  simp only [← length_framed_lt_iff]
  split
  · next hroom =>
      cases hcounts : counts b lines line with
      | true =>
          have hbanner := banner_of_inTrace (Bool.and_eq_true_iff.mp hcounts).1
          simp [hbanner, hroom]
      | false => simp
  · next hfull => simp [hfull]

/-- The reader behind some lines. -/
def after (b : Banner) (lines : List Text) : Reader where
  text := written b lines
  bannerSeen := lines.any b.isOn
  pointerSeen := (pointerLine b lines).isSome
  inTrace := (behind b lines).any opensTrace
  frames := (framed b lines).length

theorem isDone_after :
    (after b lines).isDone = decide (frameBudget ≤ (countedLines b lines).length) := by
  rw [Reader.isDone, decide_eq_decide, ← Nat.not_lt, ← Nat.not_lt]
  exact not_congr length_framed_lt_iff

theorem after_concat_of_done (h : (after b lines).isDone = true) (line : Text) :
    after b (lines ++ [line]) = after b lines := by
  rw [isDone_after, decide_eq_true_eq] at h
  have hreads : reads b lines = false := by
    rw [reads, decide_eq_false (Nat.not_lt.mpr h), Bool.and_false]
  have htrace : (behind b lines).any opensTrace = true :=
    inTrace_of_countedLines fun hnone => by
      rw [hnone] at h
      cases h
  rw [after, written_concat, List.any_append, banner_of_inTrace htrace, pointerLine_concat,
    inTrace_concat, htrace, framed_concat, hreads, after, banner_of_inTrace htrace, htrace]
  simp

theorem takePointer_eq (r : Reader) (line : Text) :
    r.takePointer line = { r with
      text := r.text ++ if r.pointerSeen then [] else pointerText line
      pointerSeen := r.pointerSeen || (pointerOn line).isSome } := by
  obtain ⟨text, bannerSeen, pointerSeen, inTrace, frames⟩ := r
  rw [Reader.takePointer, pointerText]
  cases pointerSeen with
  | true => simp
  | false => cases pointerOn line <;> simp

theorem takeFrame_eq (r : Reader) (line : Text) :
    r.takeFrame line = { r with
      text := r.text ++ if r.inTrace && !opensTrace line then frameText line else []
      inTrace := r.inTrace || opensTrace line
      frames := r.frames + if r.inTrace && !opensTrace line then 1 else 0 } := by
  obtain ⟨text, bannerSeen, pointerSeen, inTrace, frames⟩ := r
  rw [Reader.takeFrame, ← opensTrace, frameText]
  cases opensTrace line with
  | true => simp
  | false => cases inTrace <;> simp

theorem after_concat (h : (after b lines).isDone = false) (line : Text) :
    after b (lines ++ [line]) = (after b lines).step b line := by
  rw [isDone_after, decide_eq_false_iff_not, Nat.not_le] at h
  have hreads : reads b lines = lines.any b.isOn := by
    rw [reads, decide_eq_true h, Bool.and_true]
  rw [after, written_concat, List.any_append, pointerLine_concat, inTrace_concat, framed_concat,
    hreads, Reader.step]
  cases hbanner : lines.any b.isOn with
  | false => simp [after, hbanner]
  | true =>
      have hpointer : (if pointerLine b lines = none then pointerText line else []) =
          if (pointerLine b lines).isSome then [] else pointerText line := by
        cases pointerLine b lines <;> rfl
      have hseen : ((pointerLine b lines).or
          (if (pointerOn line).isSome then some lines.length else none)).isSome =
          ((pointerLine b lines).isSome || (pointerOn line).isSome) := by
        cases pointerLine b lines <;> cases pointerOn line <;> rfl
      have hframes : (if counts b lines line then [line] else []).length =
          if counts b lines line then 1 else 0 := by
        split <;> rfl
      simp only [Bool.true_and, Bool.true_or, if_true]
      rw [added, hpointer, hseen, List.length_append, hframes, takePointer_eq, takeFrame_eq,
        ← List.append_assoc]
      simp only [after, hbanner, counts, if_true]
      rfl

theorem run_eq (b : Banner) (lines : List Text) : Reader.initial.run b lines = after b lines := by
  induction lines using List.reverseRecOn with
  | nil => rfl
  | append_singleton lines line ih =>
      rw [Reader.run_append, ih, Reader.run]
      split
      · next hdone => exact (after_concat_of_done hdone line).symm
      · next hroom => exact (after_concat (Bool.eq_false_iff.mpr hroom) line).symm

theorem ofStream_eq {ε : Type} (b : Banner) (s : Lines.Stream ε) :
    ofStream b s =
      if frameBudget ≤ (countedLines b s.lines).length then .ok (written b s.lines)
      else s.readAll (written b) := by
  have hdone : (Reader.initial.run b s.lines).isDone =
      decide (frameBudget ≤ (countedLines b s.lines).length) := by
    rw [run_eq, isDone_after]
  simp only [ofStream, hdone, decide_eq_true_eq]
  rw [run_eq]
  rfl

/-- The text is what the lines from behind the banner up to the eighth that counts have added, and
a file with eight of them can be read whatever follows. A line that counts adds a space at least,
and nothing else if it is no frame or an unsure one. -/
theorem ofStream_eq_written {ε : Type} (b : Banner) :
    (∀ s : Lines.Stream ε, ofStream b s =
      if frameBudget ≤ (countedLines b s.lines).length then .ok (written b s.lines)
      else s.readAll (written b)) ∧
    (∀ line, frameText line = [' '] ↔ KernelFrame.NoFrame line ∨ KernelFrame.Unsure line) ∧
    ∀ s : Lines.Stream ε, frameBudget ≤ (countedLines b s.lines).length →
      ∀ (more : List Text) (failure : Option ε),
        ofStream b ⟨s.lines ++ more, failure⟩ = ofStream b s := by
  refine ⟨ofStream_eq b, fun line => ?_, fun s hfull more failure => ?_⟩
  · rw [frameText, ← KernelFrame.functionOf_eq_nil_iff]
    simp
  · have hdone : (Reader.initial.run b s.lines).isDone = true := by
      rw [run_eq, isDone_after, decide_eq_true hfull]
    simp only [ofStream, Reader.run_append, Reader.run_of_isDone hdone, hdone, if_true]

/-- A trace with eight frames, one of them unsure, and a second opening in the middle. -/
def fullTrace : List Text :=
  ["BUG: soft lockup", "Call Trace:", "[<0>] a", "[<1>] b", "[<2>] c", "Call Trace:", "[<3>] ? d",
    "[<4>] e", "[<5>] f", "", "EIP: [<6>] g"]

/-- Neither another frame nor the end of the file in the middle of it has an effect behind them. -/
theorem ofStream_of_fullTrace :
    frameBudget ≤ (countedLines .soft fullTrace).length ∧
    ofStream .soft (⟨fullTrace ++ [("[<8>] i" : Text)], some ()⟩ : Lines.Stream Unit) =
      .ok ("  a  b  c   e  f g -   g" : Text) := by
  have hfull : frameBudget ≤ (countedLines .soft fullTrace).length := by decide +kernel
  have hsame := (ofStream_eq_written (ε := Unit) .soft).2.2 ⟨fullTrace, none⟩ hfull ["[<8>] i"]
    (some ())
  exact ⟨hfull, hsame.trans (by decide +kernel)⟩

/-! ## The place of the pointer -/

def frameTexts (lines : List Text) : Text :=
  lines.flatMap frameText

theorem frameTexts_append (lines more : List Text) :
    frameTexts (lines ++ more) = frameTexts lines ++ frameTexts more :=
  List.flatMap_append

theorem frameTexts_ite (taken : Bool) (line : Text) :
    frameTexts (if taken then [line] else []) = if taken then frameText line else [] := by
  cases taken with
  | true => exact List.append_nil _
  | false => rfl

theorem frameText_cons (line : Text) :
    frameText line = [' '] ∨ ∃ rest, frameText line = ' ' :: ' ' :: rest := by
  rw [frameText, KernelFrame.functionOf]
  split
  · exact .inl rfl
  · exact .inl rfl
  · simp only []
    split
    · exact .inl rfl
    · exact .inr ⟨_, rfl⟩

theorem frameTexts_cons (line : Text) (lines : List Text) :
    frameTexts (line :: lines) = [' '] ∨
      ∃ rest, frameTexts (line :: lines) = ' ' :: ' ' :: rest := by
  rw [frameTexts, List.flatMap_cons]
  rcases frameText_cons line with hline | ⟨rest, hline⟩
  · rw [hline]
    cases lines with
    | nil => exact .inl rfl
    | cons next lines => exact .inr ⟨_, rfl⟩
  · rw [hline]
    exact .inr ⟨_, rfl⟩

/-- Frames can change places only with a text that starts with two spaces as they do. -/
theorem two_spaces_of_comm {text : Text} (hframes : lines ≠ []) (htext : 2 ≤ text.length)
    (h : frameTexts lines ++ text = text ++ frameTexts lines) : ("  " : Text) <+: text := by
  obtain ⟨line, lines, rfl⟩ := List.exists_cons_of_ne_nil hframes
  obtain ⟨c, rest, rfl⟩ := List.exists_cons_of_length_pos (Nat.lt_of_lt_of_le Nat.two_pos htext)
  obtain ⟨d, rest, rfl⟩ := List.exists_cons_of_length_pos (Nat.lt_of_succ_lt_succ htext)
  rcases frameTexts_cons line lines with hshape | ⟨_, hshape⟩
  · rw [hshape] at h
    obtain ⟨rfl, h⟩ := List.cons.inj h
    obtain ⟨rfl, _⟩ := List.cons.inj h
    exact ⟨rest, rfl⟩
  · rw [hshape] at h
    obtain ⟨rfl, h⟩ := List.cons.inj h
    obtain ⟨rfl, _⟩ := List.cons.inj h
    exact ⟨rest, rfl⟩

theorem written_of_no_pointer (h : pointerLine b lines = none) :
    written b lines = frameTexts (framed b lines) := by
  induction lines using List.reverseRecOn with
  | nil => rfl
  | append_singleton lines line ih =>
      rw [pointerLine_concat, Option.or_eq_none_iff] at h
      obtain ⟨hbefore, hlast⟩ := h
      rw [written_concat, framed_concat, ih hbefore, frameTexts_append, frameTexts_ite]
      cases hreads : reads b lines with
      | false => rfl
      | true =>
          have hnone : pointerOn line = none := by
            rw [hreads] at hlast
            simpa using hlast
          rw [added, pointerText, hnone, if_pos hbefore]
          rfl

/-- The frames from before the line of the pointer stand before it, and the others behind. -/
theorem written_of_pointerLine (h : pointerLine b lines = some p) :
    ∃ later, framed b lines = countedLines b (lines.take p) ++ later ∧
      written b lines = frameTexts (countedLines b (lines.take p)) ++
        lines[p]?.elim [] pointerText ++ frameTexts later := by
  induction lines using List.reverseRecOn with
  | nil => cases h
  | append_singleton lines line ih =>
      cases hbefore : pointerLine b lines with
      | some q =>
          -- the pointer is in an older line, and the new one can only add a frame behind it
          obtain rfl : q = p := by
            rw [pointerLine_concat, hbefore] at h
            exact Option.some.inj h
          have hq : q < lines.length := Places.first_lt hbefore
          obtain ⟨later, hframed, hwritten⟩ := ih hbefore
          refine ⟨later ++ if reads b lines && counts b lines line then [line] else [], ?_, ?_⟩
          · rw [framed_concat, hframed, List.take_append_of_le_length hq.le, List.append_assoc]
          · have hadded : added b lines line =
                if counts b lines line then frameText line else [] := by
              rw [added, hbefore]
              rfl
            rw [written_concat, hwritten, List.take_append_of_le_length hq.le,
              List.getElem?_append_left hq, hadded, frameTexts_append, frameTexts_ite,
              ← List.append_assoc]
            cases reads b lines <;> rfl
      | none =>
          rw [pointerLine_concat, hbefore, Option.none_or] at h
          split at h
          · next hread =>
              obtain rfl := Option.some.inj h
              have hreads := (Bool.and_eq_true_iff.mp hread).1
              have hroom : (countedLines b lines).length < frameBudget :=
                of_decide_eq_true (Bool.and_eq_true_iff.mp hreads).2
              have hframed : framed b lines = countedLines b lines :=
                List.take_of_length_le hroom.le
              refine ⟨if counts b lines line then [line] else [], ?_, ?_⟩
              · rw [framed_concat, hreads, Bool.true_and, hframed, List.take_left]
              · rw [written_concat, written_of_no_pointer hbefore, hframed, List.take_left,
                  List.getElem?_concat_length, Option.elim_some, if_pos hreads, added,
                  if_pos hbefore, frameTexts_ite, List.append_assoc]
          · cases h

/-- The first pointer that is read stands behind the frames from before its line and in front of the
others. So it stands before every frame exactly if no line counts before it, but for a pointer with
spaces in front that happens to change places with the frames. -/
theorem ofStream_of_pointerLine {ε : Type} {s : Lines.Stream ε}
    (h : pointerLine b s.lines = some p) :
    ∃ line pointer later, s.lines[p]? = some line ∧ pointerOn line = some pointer ∧
      let shown := pointer ++ (" - " : Text)
      let earlier := countedLines b (s.lines.take p)
      let text := frameTexts earlier ++ shown ++ frameTexts later
      framed b s.lines = earlier ++ later ∧
      ofStream b s =
        (if frameBudget ≤ (countedLines b s.lines).length then .ok text
          else s.readAll fun _ => text) ∧
      (text = shown ++ frameTexts (framed b s.lines) ↔
        earlier = [] ∨
          ("  " : Text) <+: shown ∧ frameTexts earlier ++ shown = shown ++ frameTexts earlier) := by
  obtain ⟨later, hframed, hwritten⟩ := written_of_pointerLine h
  have hplace := List.find?_some h
  obtain ⟨line, hline, hread⟩ := (Option.any_eq_true _ _).mp hplace
  obtain ⟨pointer, hpointer⟩ := Option.isSome_iff_exists.mp (Bool.and_eq_true_iff.mp hread).2
  rw [hline, Option.elim_some, pointerText, hpointer, Option.elim_some] at hwritten
  refine ⟨line, pointer, later, hline, hpointer, hframed, ?_, ?_⟩
  · rw [ofStream_eq, ← hwritten]
    rfl
  · rw [hframed, frameTexts_append, ← List.append_assoc (pointer ++ _), List.append_left_inj]
    constructor
    · intro hcomm
      by_cases hnone : countedLines b (s.lines.take p) = []
      · exact .inl hnone
      · exact .inr ⟨two_spaces_of_comm hnone (by simp) hcomm, hcomm⟩
    · rintro (hnone | ⟨_, hcomm⟩)
      · rw [hnone]
        simp [frameTexts]
      · exact hcomm

/-- Registers printed before the call trace. -/
def earlyRegisters : List Text :=
  ["BUG: soft lockup", "EIP: [<0>] a", "Call Trace:", "[<1>] b", "EIP: [<2>] c"]

/-- Registers printed behind it. -/
def lateRegisters : List Text :=
  ["BUG: soft lockup", "Call Trace:", "[<1>] b", "EIP: [<2>] c"]

theorem ofStream_of_earlyRegisters :
    pointerLine .soft earlyRegisters = some 1 ∧
    ofStream .soft (⟨earlyRegisters, none⟩ : Lines.Stream Unit) = .ok ("a -   b  c" : Text) := by
  have hpointer : pointerLine .soft earlyRegisters = some 1 := by decide +kernel
  obtain ⟨line, pointer, later, hline, hread, _, hstream, hfirst⟩ :=
    ofStream_of_pointerLine (ε := Unit) (s := ⟨earlyRegisters, none⟩) hpointer
  obtain rfl : ("EIP: [<0>] a" : Text) = line := Option.some.inj hline
  obtain rfl : ("a" : Text) = pointer :=
    Option.some.inj ((by decide +kernel : some ("a" : Text) = pointerOn "EIP: [<0>] a").trans hread)
  refine ⟨hpointer, hstream.trans ?_⟩
  rw [hfirst.mpr (.inl (by decide +kernel))]
  decide +kernel

/-- The pointer is written behind the frame that comes before it. -/
theorem ofStream_of_lateRegisters :
    pointerLine .soft lateRegisters = some 3 ∧
    pointerOn "EIP: [<2>] c" = some ("c" : Text) ∧
    ofStream .soft (⟨lateRegisters, none⟩ : Lines.Stream Unit) = .ok ("  bc -   c" : Text) ∧
    ("  bc -   c" : Text) ≠
      ("c" : Text) ++ (" - " : Text) ++ frameTexts (framed .soft lateRegisters) := by
  decide +kernel

end StackTrace

end CrashDigest
