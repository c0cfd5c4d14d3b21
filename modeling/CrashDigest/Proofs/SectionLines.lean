import CrashDigest.Proofs.Monotone
import CrashDigest.Proofs.Places

/-!
# What the sections of a fabric dump keep

A section is opened by the first line with its title and keeps the first four
lines with content behind it. Where a section is read to does not depend on the
others, but for the summary, which is closed by the error log one line late: the
title of the error log is still part of it.

`SectionTold` compares the state of a section with the lines that have come. A
section is done only when it is full or ended by another one, so a line with
content is taken exactly if it lies in the section and there is room. What the
sections give is then said by places alone (`scanSectioned_places`).
-/

namespace CrashDigest.Fabric

variable {lines : List Text} {line title : Text} {s : Section}

/-! ## Places -/

def summaryTitle : Text := "Summary of Fabric Error detail:"
def errorLogTitle : Text := "ERROR LOG"
def holeTitle : Text := "Address Hole"

def titleAt (title : Text) (lines : List Text) (j : Nat) : Bool :=
  lines[j]?.any (·.includes title)

/-- Whether a line with content lies behind the first line with the title. -/
def contentAt (title : Text) (lines : List Text) (j : Nat) : Bool :=
  Places.behindFirst (titleAt title) lines j && lines[j]?.any isDataLine

def contentBehind (title : Text) (lines : List Text) : List Text :=
  Places.linesAt (contentAt title) lines

/-- Whether a line with content lies behind the title of the summary and not behind that of the
error log. -/
def summaryAt (lines : List Text) (j : Nat) : Bool :=
  contentAt summaryTitle lines j && !Places.behindFirst (titleAt errorLogTitle) lines j

def summaryLines (lines : List Text) : List Text :=
  (Places.linesAt summaryAt lines).take 4

theorem titleAt_looksBack (title : Text) : Places.LooksBack (titleAt title) :=
  Places.looksBack_line (·.includes title)

theorem contentAt_looksBack (title : Text) : Places.LooksBack (contentAt title) :=
  (Places.looksBack_behindFirst (titleAt_looksBack title)).and (Places.looksBack_line isDataLine)

theorem summaryAt_looksBack : Places.LooksBack summaryAt :=
  (contentAt_looksBack summaryTitle).and
    (Places.looksBack_behindFirst (titleAt_looksBack errorLogTitle)).not

/-! ## One more line -/

def hasCome (title : Text) (lines : List Text) : Bool :=
  (Places.first (titleAt title) lines).isSome

theorem hasCome_concat (title : Text) (lines : List Text) (line : Text) :
    hasCome title (lines ++ [line]) = (hasCome title lines || line.includes title) := by
  rw [hasCome, Places.first_concat (titleAt_looksBack title), titleAt, Places.any_concat_length,
    Option.isSome_or, hasCome]
  cases line.includes title <;> rfl

theorem contentAt_concat (title : Text) (lines : List Text) (line : Text) :
    contentAt title (lines ++ [line]) lines.length = (hasCome title lines && isDataLine line) := by
  rw [contentAt, Places.behindFirst_concat (titleAt_looksBack title), Places.any_concat_length]
  rfl

theorem summaryAt_concat (lines : List Text) (line : Text) :
    summaryAt (lines ++ [line]) lines.length =
      (hasCome summaryTitle lines && isDataLine line && !hasCome errorLogTitle lines) := by
  rw [summaryAt, contentAt_concat, Places.behindFirst_concat (titleAt_looksBack errorLogTitle)]
  rfl

theorem take_contentBehind_concat (title : Text) (lines : List Text) (line : Text) :
    (contentBehind title (lines ++ [line])).take sectionLines =
      if (hasCome title lines && isDataLine line) = true ∧
          ((contentBehind title lines).take sectionLines).length < sectionLines
      then (contentBehind title lines).take sectionLines ++ [line]
      else (contentBehind title lines).take sectionLines := by
  rw [contentBehind, Places.take_linesAt_concat (contentAt_looksBack title), contentAt_concat,
    contentBehind]

theorem summaryLines_concat (lines : List Text) (line : Text) :
    summaryLines (lines ++ [line]) =
      if (hasCome summaryTitle lines && isDataLine line && !hasCome errorLogTitle lines) = true ∧
          (summaryLines lines).length < 4
      then summaryLines lines ++ [line] else summaryLines lines := by
  rw [summaryLines, Places.take_linesAt_concat summaryAt_looksBack, summaryAt_concat, summaryLines]

/-! ## A section -/

namespace Section

theorem title_feed (s : Section) (line : Text) : (s.feed line).title = s.title := by
  unfold feed
  split
  · split <;> rfl
  · split
    · rfl
    · split <;> rfl
  · rfl

theorem started_feed (s : Section) (line : Text) :
    (s.feed line).started = (s.started || line.includes s.title) := by
  obtain ⟨title, progress, kept⟩ := s
  cases progress with
  | seeking => cases hline : line.includes title <;> simp [feed, started, hline]
  | capturing =>
      simp only [feed]
      split
      · rfl
      · split <;> rfl
  | done => rfl

/-- A section that is done only when it is full takes a line with content if there is room. -/
theorem lines_feed (hfresh : s.Fresh) (hdone : s.progress = .done → s.isFull = true)
    (line : Text) :
    (s.feed line).lines =
      if (s.started && isDataLine line) = true ∧ s.lines.length < sectionLines
      then s.lines ++ [line] else s.lines := by
  obtain ⟨title, progress, kept⟩ := s
  cases progress with
  | seeking =>
      obtain rfl : kept = [] := hfresh rfl
      cases hline : line.includes title <;> simp [feed, started, hline]
  | capturing =>
      cases hdata : isDataLine line with
      | false => simp [feed, hdata]
      | true =>
          by_cases hroom : kept.length < sectionLines
          · simp [feed, started, isFull, hdata, hroom, Nat.not_le.mpr hroom]
          · simp [feed, started, isFull, close, hdata, hroom, Nat.not_lt.mp hroom]
  | done =>
      have hfull : sectionLines ≤ kept.length := by simpa [isFull] using hdone rfl
      simp [feed, started, Nat.not_lt.mpr hfull]

theorem isFull_feed (hdone : s.progress = .done → s.isFull = true) (line : Text)
    (h : (s.feed line).progress = .done) : (s.feed line).isFull = true := by
  obtain ⟨title, progress, kept⟩ := s
  cases progress with
  | seeking => cases hline : line.includes title <;> simp [feed, hline] at h
  | capturing =>
      simp only [feed] at h ⊢
      split
      · next hblank => simp [hblank] at h
      · next hdata =>
          split
          · next hfull => exact hfull
          · next hroom => simp [hdata, hroom] at h
  | done => exact hdone rfl

theorem lines_feed_of_ne_capturing (hfresh : s.Fresh) (h : s.progress ≠ .capturing)
    (line : Text) : (s.feed line).lines = s.lines := by
  obtain ⟨title, progress, kept⟩ := s
  cases progress with
  | seeking =>
      obtain rfl : kept = [] := hfresh rfl
      cases hline : line.includes title <;> simp [feed, hline]
  | capturing => exact absurd rfl h
  | done => rfl

theorem started_of_isFull (hfresh : s.Fresh) (hfull : s.isFull = true) : s.started = true := by
  obtain ⟨title, progress, kept⟩ := s
  cases progress with
  | seeking =>
      obtain rfl : kept = [] := hfresh rfl
      cases hfull
  | capturing => rfl
  | done => rfl

end Section

/-- What a section knows of the lines that have come: `kept` are those that it is to have kept, and
`ended` says whether another one has begun that ends it. -/
structure SectionTold (title : Text) (lines : List Text) (ended : Bool) (kept : List Text)
    (s : Section) : Prop where
  named : s.title = title
  started : s.started = hasCome title lines
  fresh : s.Fresh
  kept : s.lines = kept
  /-- A section is done only when all its lines are there or it has ended. -/
  closed : s.progress = .done → s.isFull = true ∨ ended = true

namespace SectionTold

variable {ended : Bool} {kept : List Text}

theorem titled (title : Text) (ended : Bool) : SectionTold title [] ended [] (.titled title) :=
  ⟨rfl, rfl, fun _ => rfl, rfl, fun h => nomatch h⟩

theorem full (h : SectionTold title lines false kept s) (hdone : s.progress = .done) :
    s.isFull = true :=
  (h.closed hdone).resolve_right Bool.false_ne_true

theorem close (h : SectionTold title lines ended kept s) (hstarted : s.started = true)
    (hclosed : s.isFull = true ∨ ended = true) : SectionTold title lines ended kept s.close where
  named := h.named
  started := hstarted.symm.trans h.started
  fresh := fun hseeking => nomatch hseeking
  kept := h.kept
  closed := fun _ => hclosed

theorem ends {ended' : Bool} (h : SectionTold title lines ended kept s)
    (hends : ended = true → ended' = true) : SectionTold title lines ended' kept s :=
  { h with closed := fun hdone => (h.closed hdone).imp_right hends }

/-- A section that has ended must have been closed before it is fed. -/
theorem feed (h : SectionTold title lines ended kept s) (line : Text)
    (hbar : ended = true → s.progress ≠ .capturing) :
    SectionTold title (lines ++ [line]) ended
      (if (hasCome title lines && isDataLine line && !ended) = true ∧ kept.length < sectionLines
        then kept ++ [line] else kept)
      (s.feed line) where
  named := (s.title_feed line).trans h.named
  started := by rw [s.started_feed, h.started, h.named, hasCome_concat]
  fresh := (s.grows_feed line).fresh h.fresh
  kept := by
    rw [← h.kept, ← h.started]
    cases ended with
    | true => simp [Section.lines_feed_of_ne_capturing h.fresh (hbar rfl)]
    | false => simp [Section.lines_feed h.fresh h.full]
  closed := by
    intro hdone
    cases ended with
    | true => exact .inr rfl
    | false => exact .inl (Section.isFull_feed h.full line hdone)

/-- The sections that nothing ends. -/
theorem feedContent
    (h : SectionTold title lines false ((contentBehind title lines).take sectionLines) s)
    (line : Text) :
    SectionTold title (lines ++ [line]) false
      ((contentBehind title (lines ++ [line])).take sectionLines) (s.feed line) := by
  have hfed := h.feed line fun hended => absurd hended Bool.false_ne_true
  rwa [Bool.not_false, Bool.and_true, ← take_contentBehind_concat] at hfed

/-- The summary, which is closed for the line behind the title of the error log. -/
theorem feedSummary {errorLog : Section}
    (h : SectionTold summaryTitle lines (hasCome errorLogTitle lines) (summaryLines lines) s)
    (hlog : errorLog.started = hasCome errorLogTitle lines) (line : Text) :
    SectionTold summaryTitle (lines ++ [line]) (hasCome errorLogTitle (lines ++ [line]))
      (summaryLines (lines ++ [line])) (SectionScan.feedSummary s errorLog line) := by
  simp only [SectionScan.feedSummary]
  generalize hcurrent :
    (if s.progress = .capturing && errorLog.started then s.close else s) = current
  rw [hlog] at hcurrent
  have hends : hasCome errorLogTitle lines = true →
      hasCome errorLogTitle (lines ++ [line]) = true := by
    intro hcome
    rw [hasCome_concat, hcome, Bool.true_or]
  have hfed : SectionTold summaryTitle (lines ++ [line]) (hasCome errorLogTitle (lines ++ [line]))
      (summaryLines (lines ++ [line])) (current.feed line) := by
    rw [summaryLines_concat]
    -- the log may have begun before the summary, which is then closed before its first line
    split at hcurrent <;> subst hcurrent
    · next hclose =>
        rw [Bool.and_eq_true, decide_eq_true_eq] at hclose
        have hstarted : s.started = true := by simp [Section.started, hclose.1]
        have hclosed : s.close.progress ≠ .capturing := by simp [Section.close]
        exact ((h.close hstarted (.inr hclose.2)).feed line fun _ => hclosed).ends hends
    · next hopen =>
        refine (h.feed line fun hcome hcapturing => hopen ?_).ends hends
        rw [Bool.and_eq_true, decide_eq_true_eq]
        exact ⟨hcapturing, hcome⟩
  split
  · next hfull => exact hfed.close (Section.started_of_isFull hfed.fresh hfull) (.inl hfull)
  · exact hfed

end SectionTold

/-! ## All sections -/

/-- The registers that a controller reports, each with its glue. -/
def registersText (lines : List Text) : Text :=
  (lines.filter isControllerRegister).flatMap (· ++ lineGlue)

theorem registersText_concat (lines : List Text) (line : Text) :
    registersText (lines ++ [line]) =
      if isControllerRegister line then registersText lines ++ line ++ lineGlue
      else registersText lines := by
  rw [registersText, List.filter_append, List.flatMap_append, ← registersText,
    List.filter_singleton]
  cases isControllerRegister line <;> simp

structure SectionsTold (controller : Bool) (lines : List Text) (s : SectionScan) : Prop where
  summary :
    SectionTold summaryTitle lines (hasCome errorLogTitle lines) (summaryLines lines) s.summary
  hole :
    SectionTold holeTitle lines false ((contentBehind holeTitle lines).take sectionLines) s.hole
  errorLog :
    SectionTold errorLogTitle lines false ((contentBehind errorLogTitle lines).take sectionLines)
      s.errorLog
  registers : controller = true → s.registers = registersText lines
  length : s.length = .firstWith (lines.findSome? dumpLength.read)

theorem SectionsTold.step {controller : Bool} {s : SectionScan}
    (h : SectionsTold controller lines s) (line : Text) :
    SectionsTold controller (lines ++ [line]) (s.step controller line) where
  summary := h.summary.feedSummary h.errorLog.started line
  hole := h.hole.feedContent line
  errorLog := h.errorLog.feedContent line
  registers := by
    rintro rfl
    rw [registersText_concat, ← h.registers rfl]
    rfl
  length := by
    rw [SectionScan.step, h.length, Slot.offer_firstWith, List.findSome?_append,
      List.findSome?_singleton]

theorem sectionsTold (controller : Bool) (lines : List Text) :
    SectionsTold controller lines (lines.foldl (SectionScan.step controller) .initial) :=
  Places.foldl_told ⟨.titled _ _, .titled _ _, .titled _ _, fun _ => rfl, rfl⟩
    (fun _ line h => h.step line) lines

theorem isDataLine_iff {line : Text} :
    isDataLine line = true ↔
      ¬ ("* " : Text) <+: line ∧ ¬ List.replicate 9 '-' <+: line ∧
        ∃ c ∈ line, isBlank c = false := by
  have hrule : ("---------" : Text) = List.replicate 9 '-' := by decide
  rw [isDataLine, hrule]
  simp [Text.isBlankText, Text.startsWith_iff, ← Bool.not_eq_true, and_assoc]

theorem SectionsTold.detail {controller : Bool} {s : SectionScan}
    (h : SectionsTold controller lines s) :
    s.detail controller =
      if controller then registersText lines
      else if contentBehind holeTitle lines = [] then
        Text.join lineGlue ((contentBehind errorLogTitle lines).take sectionLines)
      else ("Address hole : " : Text) ++
        Text.join lineGlue ((contentBehind holeTitle lines).take sectionLines) := by
  rw [SectionScan.detail]
  cases controller with
  | true => exact h.registers rfl
  | false =>
      have hempty : s.hole.lines.isEmpty = true ↔ contentBehind holeTitle lines = [] := by
        rw [List.isEmpty_iff, h.hole.kept, List.take_eq_nil_iff]
        exact or_iff_right (by decide)
      rw [if_neg Bool.false_ne_true, if_neg Bool.false_ne_true]
      exact if_congr hempty (by rw [h.errorLog.kept]) (by rw [h.hole.kept])

/-- A line is kept by a section for its place alone: the summary keeps the first four lines with
content behind its title up to that of the error log, the other sections the first four behind
theirs. The registers stand for both other sections if the controller's watchdog has reported, and
the address hole for the error log if anything is said of it. -/
theorem scanSectioned_places (tag : Text) (lines : List Text) :
    scanSectioned (tag = ("SCUWDT" : Text)) lines =
      ⟨[(.data 0, Text.join " / " ((summaryLines lines).take 2)),
        (.data 1, Text.join " / " ((summaryLines lines).drop 2)),
        (.data 2,
          if tag = ("SCUWDT" : Text) then
            (lines.filter fun line =>
              line.startsWith "DW4:" || line.startsWith "DW19:").flatMap (· ++ (" / " : Text))
          else if contentBehind holeTitle lines = [] then
            Text.join " / " ((contentBehind errorLogTitle lines).take 4)
          else ("Address hole : " : Text) ++
            Text.join " / " ((contentBehind holeTitle lines).take 4)),
        (.data 4, (lines.findSome? dumpLength.read).getD [])]⟩ ∧
    ∀ line, isDataLine line = true ↔
      ¬ ("* " : Text) <+: line ∧ ¬ List.replicate 9 '-' <+: line ∧
        ∃ c ∈ line, isBlank c = false := by
  refine ⟨?_, fun line => isDataLine_iff⟩
  have h := sectionsTold (tag = ("SCUWDT" : Text)) lines
  rw [scanSectioned]
  generalize lines.foldl (SectionScan.step _) .initial = s at h ⊢
  simp only [SectionScan.fields, h.summary.kept, h.detail, h.length, decide_eq_true_eq]
  rfl

end CrashDigest.Fabric
