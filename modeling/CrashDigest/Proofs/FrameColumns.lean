import CrashDigest.Proofs.CharTokens
import CrashDigest.Proofs.NearFingerprint

/-!
# The columns of a stack

A stack grows as two texts side by side, one of symbols and one of libraries,
and which of them is written is decided at the end. A frame with a symbol adds
nothing to the libraries, so they are in step with the frames only as long as
none has come; but then they are not written either. Whichever text is written,
it has a column for every frame (`render_stackOf`).

What a frame gives to its column can be read off the frame itself: the symbol
stands behind the first parenthesis, and the library is the fourth word.
-/

namespace CrashDigest

namespace Text

theorem join_concat (glue : Text) (pieces : List Text) (piece : Text) :
    join glue (pieces ++ [piece]) =
      join glue pieces ++ (if pieces = [] then [] else glue) ++ piece := by
  unfold join
  induction pieces with
  | nil => simp
  | cons first pieces ih =>
      rcases pieces with _ | ⟨next, pieces⟩
      · simp
      · rw [List.cons_append, List.cons_append, List.intercalate_cons_cons, ← List.cons_append, ih,
          List.intercalate_cons_cons]
        simp

/-- A character that glues pieces together stands between each two of them, besides where it stands
in them. -/
theorem count_join (c : Char) (pieces : List Text) :
    (join [c] pieces).count c = (pieces.length - 1) + pieces.flatten.count c := by
  induction pieces using List.reverseRecOn with
  | nil => rfl
  | append_singleton pieces piece ih =>
      rw [join_concat, List.count_append, List.count_append, ih, List.flatten_append,
        List.count_append]
      rcases pieces with _ | ⟨first, pieces⟩
      · simp
      · simp
        omega

end Text

namespace Tombstone

variable {frames : List Text} {frame symbol : Text} {b : Backtrace}

/-! ## What a frame gives -/

/-- Whether a symbol can be read off what stands behind a parenthesis: something else must come than
more of them, and before the next of them something else than closing ones, unless nothing does. -/
def YieldsSymbol (after : Text) : Prop :=
  (∃ c ∈ after, c ≠ '(') ∧
    (after.takeWhile (· ≠ '(') = [] ∨ ∃ c ∈ after.takeWhile (· ≠ '('), c ≠ ')')

/-- The symbol of a frame is what stands behind its first parenthesis, up to the next one of either
kind, if that yields anything. -/
theorem symbolOf_eq_some_iff :
    symbolOf frame = some symbol ↔
      ∃ before after, frame = before ++ '(' :: after ∧ '(' ∉ before ∧ YieldsSymbol after ∧
        symbol = after.takeWhile fun c => c ≠ '(' && c ≠ ')' := by
  have hinner (inner : Text) : Token.nth Token.openParen 1 frame = some inner ↔ _ :=
    Token.nth_one_char_eq_some_iff (c := '(')
  have houter (inner : Text) : Token.nth Token.closeParen 0 inner = some symbol ↔ _ :=
    Token.nth_zero_char_eq_some_iff (c := ')')
  have hboth (after : Text) : (after.takeWhile (· ≠ '(')).takeWhile (· ≠ ')') =
      after.takeWhile fun c => c ≠ '(' && c ≠ ')' := by
    rw [List.takeWhile_takeWhile]
    simp [and_comm]
  rw [symbolOf, Option.bind_eq_some_iff]
  constructor
  · rintro ⟨inner, htoken, hsymbol⟩
    obtain ⟨before, after, hframe, hbefore, hmore, rfl⟩ := (hinner inner).mp htoken
    obtain ⟨hopen, rfl⟩ := (houter _).mp hsymbol
    exact ⟨before, after, hframe, hbefore, ⟨hmore, hopen⟩, hboth after⟩
  · rintro ⟨before, after, hframe, hbefore, ⟨hmore, hopen⟩, rfl⟩
    exact ⟨_, (hinner _).mpr ⟨before, after, hframe, hbefore, hmore, rfl⟩,
      (houter _).mpr ⟨hopen, (hboth after).symm⟩⟩

theorem libraryOf_eq (frame : Text) : libraryOf frame = (Text.words ' ' frame)[3]? :=
  Token.nthCollapsed_run ' ' 3 frame

/-! ## Frame by frame -/

def symbolColumn (frame : Text) : Text := (symbolOf frame).getD []

def libraryColumn (frame : Text) : Text := (libraryOf frame).getD []

/-- The columns of a stack. -/
def columns (frames : List Text) : List Text :=
  if ∃ frame ∈ frames, (symbolOf frame).isSome then frames.map symbolColumn
  else frames.map libraryColumn

theorem length_columns (frames : List Text) : (columns frames).length = frames.length := by
  rw [columns]
  split
  · exact List.length_map _
  · exact List.length_map _

/-- What a stack holds of its frames. The libraries are in step with them until a symbol comes. -/
structure ColumnsTold (frames : List Text) (b : Backtrace) : Prop where
  width : b.frames = frames.length
  symbols : b.symbols = Text.join " " (frames.map symbolColumn)
  hasSymbols : b.hasSymbols = true ↔ ∃ frame ∈ frames, (symbolOf frame).isSome
  libraries : b.hasSymbols = false → b.libraries = Text.join " " (frames.map libraryColumn)

namespace ColumnsTold

theorem empty : ColumnsTold [] .empty :=
  ⟨rfl, rfl, by simp [Backtrace.empty], fun _ => rfl⟩

/-- The gap is the glue between the columns. -/
theorem join_concat (h : ColumnsTold frames b) (column : Text → Text) (frame : Text) :
    Text.join " " ((frames ++ [frame]).map column) =
      Text.join " " (frames.map column) ++ b.gap ++ column frame := by
  rw [List.map_append, List.map_singleton, Text.join_concat, Backtrace.gap, h.width]
  refine congrArg (fun gap => _ ++ gap ++ _) (if_congr ?_ rfl rfl)
  rw [List.map_eq_nil_iff, List.length_eq_zero_iff]

theorem push (h : ColumnsTold frames b) (frame : Text) :
    ColumnsTold (frames ++ [frame]) (b.push frame) := by
  cases hsymbol : symbolOf frame with
  | some symbol =>
      have hpush : b.push frame = { b with
          symbols := b.symbols ++ b.gap ++ symbol
          frames := b.frames + 1
          hasSymbols := true } := by
        rw [Backtrace.push, hsymbol]
      rw [hpush]
      refine ⟨?_, ?_, ?_, fun hnone => absurd hnone Bool.false_ne_true.symm⟩
      · rw [List.length_append, h.width]
        rfl
      · rw [h.join_concat, h.symbols, symbolColumn, hsymbol]
        rfl
      · simp [hsymbol]
  | none =>
      have hpush : b.push frame = { b with
          symbols := b.symbols ++ b.gap
          libraries := b.libraries ++ b.gap ++ libraryColumn frame
          frames := b.frames + 1 } := by
        rw [Backtrace.push, hsymbol]
        rfl
      rw [hpush]
      refine ⟨?_, ?_, ?_, fun hnone => ?_⟩
      · rw [List.length_append, h.width]
        rfl
      · rw [h.join_concat, h.symbols, symbolColumn, hsymbol]
        simp
      · simp [h.hasSymbols, or_and_right, exists_or, hsymbol]
      · rw [h.join_concat, h.libraries hnone]

end ColumnsTold

theorem columnsTold (frames : List Text) : ColumnsTold frames (stackOf frames) :=
  Places.foldl_told .empty (fun _ frame h => h.push frame) frames

/-- Every frame has its column in the stack, which is its symbol if any frame has one and its
library if none has. Between each two columns stands a space. -/
theorem render_stackOf (frames : List Text) :
    (stackOf frames).render = Text.join " " (columns frames) ∧
    (columns frames).length = frames.length ∧
    (stackOf frames).render.count ' ' =
      (frames.length - 1) + (columns frames).flatten.count ' ' ∧
    (∀ frame symbol, symbolOf frame = some symbol ↔
      ∃ before after, frame = before ++ '(' :: after ∧ '(' ∉ before ∧ YieldsSymbol after ∧
        symbol = after.takeWhile fun c => c ≠ '(' && c ≠ ')') ∧
    ∀ frame, libraryOf frame = (Text.words ' ' frame)[3]? := by
  have h := columnsTold frames
  have hrender : (stackOf frames).render = Text.join " " (columns frames) := by
    rw [Backtrace.render, columns]
    cases hsymbols : (stackOf frames).hasSymbols with
    | true => rw [if_pos rfl, if_pos (h.hasSymbols.mp hsymbols), h.symbols]
    | false =>
        have hnone := fun hsome => Bool.false_ne_true (hsymbols.symm.trans (h.hasSymbols.mpr hsome))
        rw [if_neg Bool.false_ne_true, if_neg hnone, h.libraries hsymbols]
  refine ⟨hrender, length_columns frames, ?_, fun _ _ => symbolOf_eq_some_iff,
    libraryOf_eq⟩
  rw [hrender, ← length_columns frames]
  exact Text.count_join ' ' (columns frames)

-- The second frame has a library, but a symbol has been seen, so its column is empty.
example :
    (stackOf ["#00 pc 1 liba.so (main+4)", "#01 pc 2 libb.so"]).render = ("main+4 " : Text) := by
  decide

end Tombstone

end CrashDigest
