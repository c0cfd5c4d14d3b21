import Mathlib.Data.List.Infix
import CrashDigest.Proofs.CharTokens
import CrashDigest.Proofs.Places
import CrashDigest.Proofs.SlotRow

/-!
# The flat layout of a fabric dump

A dump in the flat layout is read for registers or for errors, and one line
anywhere in it decides which. The registers are the first lines that name them.
The errors are picked out of the lines by their characters and words alone, and
the fields are made of the first six of them.

The headline waits for an error whose text in front of a bracket can be read. It
never waits longer than for the first one: an error line has one of the marks in
it, so it is not all brackets (`token_of_isErrorLine`).
-/

namespace CrashDigest.Fabric

variable {lines : List Text} {line : Text} {s : ErrorScan}

/-- A line is a decoded error if it has one of the marks and none of the words. -/
theorem isErrorLine_iff :
    isErrorLine line = true ↔
      (∃ c ∈ line, c ∈ ['e', 'r', 'o', 'i', '|', ':']) ∧
        ∀ word ∈ (["Fabric Error", "summary", "Additional", "Decoded"] : List Text),
          ¬ word <:+: line := by
  have hmarks : errorMarks = ['e', 'r', 'o', 'i', '|', ':'] := by decide
  rw [isErrorLine, Bool.and_eq_true, Bool.not_eq_true', List.any_eq_true, List.any_eq_false,
    hmarks]
  simp only [List.contains_iff_mem, Text.includes_iff, otherPurposes]

/-- A line that is an error has text in front of a character that is no mark. -/
theorem token_of_isErrorLine (h : isErrorLine line = true) {c : Char} (hc : c ∉ errorMarks) :
    Token.nth (.word [c]) 0 line = some (line.takeWhile (· ≠ c)) := by
  obtain ⟨⟨d, hd, hmark⟩, _⟩ := isErrorLine_iff.mp h
  have hne : d ≠ c := fun hdc => hc (hdc ▸ hmark)
  exact Token.nth_zero_char_eq_some_iff.mpr ⟨Or.inr ⟨d, hd, hne⟩, rfl⟩

/-- The errors in some lines. -/
def errorLines (lines : List Text) : List Text :=
  lines.filter isErrorLine

/-- What the scan for errors knows of the lines so far. -/
structure ErrorsTold (lines : List Text) (s : ErrorScan) : Prop where
  headline : s.headline = .firstWith ((errorLines lines).head?.map (·.takeWhile (· ≠ '[')))
  errors : s.errors = (errorLines lines).reverse

namespace ErrorsTold

theorem step (h : ErrorsTold lines s) (line : Text) :
    ErrorsTold (lines ++ [line]) (s.step line) := by
  have hconcat : errorLines (lines ++ [line]) =
      errorLines lines ++ if isErrorLine line then [line] else [] := by
    rw [errorLines, List.filter_append, List.filter_singleton]
    cases isErrorLine line <;> rfl
  rw [ErrorScan.step]
  split
  · next herror =>
      have htoken := token_of_isErrorLine herror (c := '[') (by decide)
      rw [if_pos herror] at hconcat
      refine ⟨?_, ?_⟩
      · show s.headline.offer (Token.nth (.word ['[']) 0 line) = _
        rw [h.headline, htoken, Slot.offer_firstWith, hconcat, List.head?_append]
        cases (errorLines lines).head? <;> rfl
      · rw [h.errors, hconcat, List.reverse_append]
        rfl
  · next hother =>
      rw [if_neg hother, List.append_nil] at hconcat
      exact ⟨by rw [h.headline, hconcat], by rw [h.errors, hconcat]⟩

end ErrorsTold

theorem errorsTold (lines : List Text) :
    ErrorsTold lines (lines.foldl ErrorScan.step .initial) :=
  Places.foldl_told ⟨rfl, rfl⟩ (fun _ line h => h.step line) lines

/-! ## The fields -/

/-- The first line with a word in it. -/
def firstLineWith (word : Text) (lines : List Text) : Text :=
  (lines.find? (·.includes word)).getD []

theorem findSome?_lineWith (word : Text) (lines : List Text) :
    lines.findSome? (Piece.lineWith word).of = lines.find? (·.includes word) := by
  rw [← List.findSome?_guard]
  rfl

theorem second_eq (errors : List Text) :
    ErrorScan.second errors = (errors[1]?.or errors[0]?).getD [] := by
  rcases errors with _ | ⟨first, _ | ⟨second, errors⟩⟩
  · rfl
  · rfl
  · rfl

/-- The second error is read up to its parenthesis, and so is nothing. -/
theorem token_second (lines : List Text) :
    Token.nth Token.openParen 0 (ErrorScan.second (errorLines lines)) =
      some ((ErrorScan.second (errorLines lines)).takeWhile (· ≠ '(')) := by
  have herrors : ∀ line ∈ errorLines lines, isErrorLine line = true :=
    fun _ hline => List.of_mem_filter hline
  rcases hlines : errorLines lines with _ | ⟨first, _ | ⟨second, errors⟩⟩
  · exact Token.nth_zero_char_eq_some_iff.mpr ⟨Or.inl rfl, rfl⟩
  · exact token_of_isErrorLine (herrors first (by simp [hlines])) (by decide)
  · exact token_of_isErrorLine (herrors second (by simp [hlines])) (by decide)

/-- An expired watchdog anywhere in the dump makes it one of registers. Else the fields are the
first error up to its bracket, the second one, or the only one, up to its parenthesis, and the four
behind them. -/
theorem scanLegacy_of_lines (lines : List Text) :
    scanLegacy lines =
      (if ∃ line ∈ lines, ("HW WDT expired" : Text) <:+: line then
        ⟨[(.data 0, firstLineWith "DW0:" lines), (.data 1, firstLineWith "DW1:" lines),
          (.data 2, firstLineWith "DW11:" lines)]⟩
      else
        ⟨[(.data 0, ((errorLines lines)[0]?.getD []).takeWhile (· ≠ '[')),
          (.data 1,
            (((errorLines lines)[1]?.or (errorLines lines)[0]?).getD []).takeWhile (· ≠ '(')),
          (.data 2, Text.join " " (((errorLines lines).drop 2).take 4))]⟩) ∧
    ∀ line, isErrorLine line = true ↔
      (∃ c ∈ line, c ∈ ['e', 'r', 'o', 'i', '|', ':']) ∧
        ∀ word ∈ (["Fabric Error", "summary", "Additional", "Decoded"] : List Text),
          ¬ word <:+: line := by
  refine ⟨?_, fun line => isErrorLine_iff⟩
  have hmode : lines.any saysExpired = true ↔
      ∃ line ∈ lines, ("HW WDT expired" : Text) <:+: line := by
    simp only [List.any_eq_true, saysExpired, Text.includes_iff]
  rw [scanLegacy, scanFlat]
  refine if_congr hmode ?_ ?_
  · rw [scanRegisters_eq]
    simp only [findSome?_lineWith]
    rfl
  · have h := errorsTold lines
    rw [scanErrors, ErrorScan.fields, h.headline, h.errors, List.reverse_reverse, token_second,
      second_eq, ← List.head?_eq_getElem?]
    cases (errorLines lines).head? <;> rfl

end CrashDigest.Fabric
