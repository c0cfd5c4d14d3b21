import Mathlib.Data.List.Forall2
import CrashDigest.Proofs.DecodedLines
import CrashDigest.Proofs.Labelled
import CrashDigest.Proofs.PlainPattern
import CrashDigest.Proofs.SlotRow
import CrashDigest.Proofs.WordSearch

/-!
# Several values from one scan

A summary is read once for all the values in it, and no value gets in the way of
another: each is the first one that its own probe reads off a line. What a probe
for a labelled value reads is plain text, too. The separator is looked for from
the label on, and so the value is all that follows the two, whatever is in it.

There is one thing to mind. If the label ends as the separator begins, the first
separator to be found can begin in the label, and then the end of the right one
stands in front of every value. It is the same on all lines, and a separator that
is a single character and not in the label leaves none.

Whether the label and the separator are looked for as words or by patterns makes
no difference, as long as none of their characters has a meaning in a pattern
(`Probe.read_of_isLabelled`).
-/

namespace CrashDigest

/-! ## The first occurrence of a word -/

/-- Whether this is what stands behind the first occurrence of a word in a text. -/
def Text.Behind (w s after : Text) : Prop :=
  ∃ before, s = before ++ w ++ after ∧ ∀ a b, s = a ++ w ++ b → before.length ≤ a.length

namespace Text

variable {w s after : Text}

theorem behind_iff : Behind w s after ↔ ∃ before, s.cut w = some (before, after) :=
  exists_congr fun _ => cut_eq_some_iff.symm

/-- A word at the end is the first occurrence if no other one is in front of it. -/
theorem behind_eq_nil_iff {front : Text} (h : Behind w (front ++ w) after) :
    after = [] ↔ ∀ a b, front ++ w = a ++ w ++ b → b = [] := by
  obtain ⟨before, hbefore, hfirst⟩ := h
  constructor
  · rintro rfl a b hab
    have hle := hfirst a b hab
    have hlength := congrArg List.length (hbefore.symm.trans hab)
    simp only [List.length_append, List.length_nil] at hlength
    exact List.length_eq_zero_iff.mp (by omega)
  · exact fun hend => hend before after hbefore

end Text

/-! ## The first line with a value -/

/-- The value that the first line gives which gives one, or the empty text if none of them does. -/
inductive FirstGiven (gives : Text → Text → Prop) (lines : List Text) : Text → Prop where
  | absent (h : ∀ line ∈ lines, ∀ value, ¬ gives line value) : FirstGiven gives lines []
  | found {before later : List Text} {line value : Text} (hlines : lines = before ++ line :: later)
      (hbefore : ∀ earlier ∈ before, ∀ value, ¬ gives earlier value) (h : gives line value) :
      FirstGiven gives lines value

theorem firstGiven_findSome? {gives : Text → Text → Prop} {lines : List Text}
    {read : Text → Option Text}
    (h : ∀ line ∈ lines, ∀ value, read line = some value ↔ gives line value) :
    FirstGiven gives lines ((lines.findSome? read).getD []) := by
  cases hfound : lines.findSome? read with
  | none =>
      refine .absent fun line hline value hvalue => ?_
      have hnone := List.findSome?_eq_none_iff.mp hfound line hline
      exact nomatch hnone.symm.trans ((h line hline value).mpr hvalue)
  | some value =>
      obtain ⟨before, line, later, hlines, hread, hbefore⟩ := List.findSome?_eq_some_iff.mp hfound
      have hmem : line ∈ lines := by simp [hlines]
      refine .found hlines (fun earlier hearlier v hv => ?_) ((h line hmem value).mp hread)
      have hin : earlier ∈ lines := by simp [hlines, hearlier]
      exact nomatch (hbefore earlier hearlier).symm.trans ((h earlier hin v).mpr hv)

/-! ## Probes for labelled values -/

/-- Whether a probe looks for what stands behind a label and a separator: for the two as words, or
by patterns in which all their characters stand for themselves. -/
inductive Probe.IsLabelled (label sep : Text) : Probe → Prop where
  | words : IsLabelled label sep (.labelled label sep)
  | patterns {piece separator : Pattern} (hlabel : Pattern.IsPlain label)
      (hplain : Pattern.IsPlain sep)
      (hpiece : Pattern.parse? (label ++ sep ++ ['.', '*']) = some piece)
      (hseparator : Pattern.parse? sep = some separator) :
      IsLabelled label sep ⟨.matching piece, .onward (.matching separator) 1⟩

namespace Probe

variable {probe : Probe} {label sep line rest : Text}

theorem read_of_isLabelled (h : probe.IsLabelled label sep) (hsep : sep ≠ [])
    (hline : line.OneLine) : probe.read line = (labelled label sep).read line := by
  cases h with
  | words => rfl
  | @patterns piece separator hlabel hplain hpiece hseparator =>
      have hword : label ++ sep ≠ [] := fun hnil => hsep (List.append_eq_nil_iff.mp hnil).2
      have hboth : Pattern.IsPlain (label ++ sep) := List.forall_mem_append.mpr ⟨hlabel, hplain⟩
      rw [Pattern.parse?_word_dots hboth hword, Option.ite_none_right_eq_some] at hpiece
      rw [Pattern.parse?_word hplain hsep, Option.ite_none_right_eq_some] at hseparator
      obtain rfl := Option.some.inj hpiece.2
      obtain rfl := Option.some.inj hseparator.2
      have hfrom : (Piece.matching (.seq (.word (label ++ sep)) .dots)).of line =
          (Piece.lineFrom (label ++ sep)).of line := by
        rw [Piece.of, Piece.of, Pattern.find_word_dots hword hline, Option.map_map]
        rfl
      have hpart : (Part.onward (.matching (.word sep)) 1).of = (Part.onward (.word sep) 1).of :=
        funext (Token.nthOnward_matching_word hsep 1)
      rw [read, read, hfrom, hpart]
      rfl

/-- What a probe for a labelled value reads, in words about the line. -/
theorem read_eq_some_iff (h : probe.IsLabelled label sep) (hsep : sep ≠ [])
    (hrest : Text.Behind sep (label ++ sep) rest) (hline : line.OneLine) (value : Text) :
    probe.read line = some value ↔
      ∃ after, Text.Behind (label ++ sep) line after ∧ value = rest ++ after := by
  obtain ⟨front, hcut⟩ := Text.behind_iff.mp hrest
  rw [read_of_isLabelled h hsep hline, read_labelled_of_cut hsep hcut, Option.map_eq_some_iff]
  constructor
  · rintro ⟨⟨before, after⟩, hfound, rfl⟩
    exact ⟨after, Text.behind_iff.mpr ⟨before, hfound⟩, rfl⟩
  · rintro ⟨after, hbehind, rfl⟩
    obtain ⟨before, hfound⟩ := Text.behind_iff.mp hbehind
    exact ⟨(before, after), hfound, rfl⟩

theorem exists_behind_separator (label sep : Text) :
    ∃ rest, Text.Behind sep (label ++ sep) rest := by
  have hin : (label ++ sep).includes sep = true :=
    Text.includes_iff.mpr (List.suffix_append label sep).isInfix
  obtain ⟨⟨before, rest⟩, hcut⟩ := Option.isSome_iff_exists.mp hin
  exact ⟨rest, Text.behind_iff.mpr ⟨before, hcut⟩⟩

end Probe

namespace Coredump

/-- A scan for several values gives what as many scans for one value give, and this is the first
value that the probe reads off a line. For a labelled value this is everything behind the first
occurrence of the label with its separator, on the first line that has one, and before it what
follows the first separator in these two. -/
theorem firstMatches_separately (probes : List Probe) (bs : Bytes) :
    let lines := Lines.ofBytes bs
    firstMatches probes lines = probes.flatMap (fun probe => firstMatches [probe] lines) ∧
    List.Forall₂ (fun probe value =>
      FirstGiven (fun line v => probe.read line = some v) lines value ∧
      ∀ label sep, probe.IsLabelled label sep → sep ≠ [] →
        ∃ rest, Text.Behind sep (label ++ sep) rest ∧
          FirstGiven (fun line v => ∃ after, Text.Behind (label ++ sep) line after ∧
            v = rest ++ after) lines value ∧
          (rest = [] ↔ ∀ a b, label ++ sep = a ++ sep ++ b → b = []) ∧
          ∀ c, sep = [c] → c ∉ label → rest = [])
      probes (firstMatches probes lines) := by
  intro lines
  constructor
  · rw [firstMatches_eq, List.map_eq_flatMap]
    have heach (probe : Probe) : [(lines.findSome? probe.read).getD []] =
        firstMatches [probe] lines := (firstMatches_eq [probe] lines).symm
    simp only [heach]
  · rw [firstMatches_eq, List.forall₂_map_right_iff, List.forall₂_same]
    intro probe _
    refine ⟨firstGiven_findSome? fun _ _ _ => Iff.rfl, fun label sep hprobe hsep => ?_⟩
    obtain ⟨rest, hrest⟩ := Probe.exists_behind_separator label sep
    refine ⟨rest, hrest, firstGiven_findSome? fun line hline value => ?_,
      Text.behind_eq_nil_iff hrest, ?_⟩
    · exact Probe.read_eq_some_iff hprobe hsep hrest (Lines.oneLine_of_mem_ofBytes hline) value
    · rintro c rfl hc
      obtain ⟨before, hcut⟩ := Text.behind_iff.mp hrest
      have hend : (label ++ [c]).cut [c] = some (label, []) := Text.cut_singleton_append hc []
      exact (Prod.mk.inj (Option.some.inj (hcut.symm.trans hend))).2

/-- The first line with a label counts even if nothing stands behind it, and all later separators
belong to the value. -/
theorem firstMatches_separately_trap :
    let bs := Utf8.encode
      "Log data\nLog data: trap: #GP\nFilename:\nLog data: late\nFilename: vmm.c\n"
    let lines := Lines.ofBytes bs
    ∃ piece separator : Pattern,
      let written : Probe := ⟨.matching piece, .onward (.matching separator) 1⟩
      fileName.IsLabelled "Filename" ":" ∧ written.IsLabelled "Log data" ":" ∧
      firstMatches [fileName, written] lines = [[], " trap: #GP"] ∧
      FirstGiven (fun line v => ∃ after, Text.Behind "Filename:" line after ∧ v = [] ++ after)
        lines [] ∧
      FirstGiven (fun line v => ∃ after, Text.Behind "Log data:" line after ∧ v = [] ++ after)
        lines " trap: #GP" := by
  intro bs lines
  have hlines : lines = ["Log data", "Log data: trap: #GP", "Filename:", "Log data: late",
      "Filename: vmm.c"] := by
    refine (Lines.ofBytes_encode _).trans ?_
    decide
  refine ⟨.seq (.word "Log data:") .dots, .word ":", ?_⟩
  intro written
  have hwritten : written.IsLabelled "Log data" ":" :=
    .patterns (by decide) (by decide) (by decide +kernel) (by decide +kernel)
  have hvalues : firstMatches [fileName, written] lines = [[], " trap: #GP"] := by
    rw [hlines]
    decide +kernel
  have hall := (firstMatches_separately [fileName, written] bs).2
  rw [hvalues] at hall
  obtain ⟨hfile, hall⟩ := List.forall₂_cons.mp hall
  obtain ⟨hlog, -⟩ := List.forall₂_cons.mp hall
  obtain ⟨rest, -, hfile, -, hsingle⟩ := hfile.2 "Filename" ":" .words (by decide)
  obtain rfl := hsingle ':' rfl (by decide)
  obtain ⟨rest, -, hlog, -, hsingle⟩ := hlog.2 "Log data" ":" hwritten (by decide)
  obtain rfl := hsingle ':' rfl (by decide)
  exact ⟨.words, hwritten, hvalues, hfile, hlog⟩

/-- A separator that the end of the label begins is found too early, and one with a meaning in a
pattern is found where it does not stand, although neither occurs in its label. -/
theorem firstMatches_early_separator :
    (¬ ("::" : Text) <:+: "a:" ∧
      firstMatches [.labelled "a:" "::"] ["a:::x"] = [":x"] ∧
      FirstGiven (Text.Behind (("a:" : Text) ++ ("::" : Text))) ["a:::x"] "x") ∧
    ∃ piece separator,
      Pattern.parse? (("a" : Text) ++ ("." : Text) ++ ['.', '*']) = some piece ∧
      Pattern.parse? "." = some separator ∧ ¬ ("." : Text) <:+: "a" ∧
      firstMatches [⟨.matching piece, .onward (.matching separator) 1⟩] ["a.b"] = [".b"] ∧
      FirstGiven (Text.Behind (("a" : Text) ++ ("." : Text))) ["a.b"] "b" := by
  have hgiven {w line value : Text} (h : line.cut w = some ([], value)) :
      FirstGiven (Text.Behind w) [line] value :=
    .found rfl (fun _ hmem => absurd hmem List.not_mem_nil) (Text.behind_iff.mpr ⟨[], h⟩)
  constructor
  · exact ⟨by decide, by decide, hgiven (by decide)⟩
  · exact ⟨.seq (.word "a") (.seq (.one .dot) .dots), .one .dot, by decide +kernel,
      by decide +kernel, by decide, by decide +kernel, hgiven (by decide)⟩

end Coredump

end CrashDigest
