import CrashDigest.Engine
import CrashDigest.Proofs.Buffering
import CrashDigest.Proofs.RecordText

/-!
# Writing a record, call by call

A record is begun, fields are added one at a time or many together, and in the
end it gets its outcome or is given up. `write` makes the whole text first and
gives it to the file at once. A `Writer` hands over each line in pieces, through
a buffer, and keeps a flag for the time when it is dropped, which happens to
every writer, finished or not: the flag tells the drop whether the end mark is
still owed.

Both leave the same file (`written_of_calls`). The reason is that every call
succeeds and adds the text of its lines to what the file and the buffer hold
together (`Adds`), that the flag is raised by `finish` alone, and that the end
mark is written either there or by the drop, never by both.
-/

namespace CrashDigest

namespace Record

/-- What is asked of a record between its beginning and its end. -/
inductive Call where
  | field (key : FieldKey) (value : Text)
  | fields (f : Fields)
  deriving DecidableEq, Repr

/-- How a record ends. -/
inductive Ending where
  | finished (critical : Bool)
  /-- Before its outcome was known. -/
  | givenUp
  deriving DecidableEq, Repr

/-- The calls with every field in a call of its own. -/
def Call.oneByOne : Call → List Call
  | .field key value => [.field key value]
  | .fields f => f.entries.map fun e => .field e.1 e.2

/-! ## The lines that are asked for -/

/-- A pair in its line. -/
def shownLine (key value : Text) : Text := key ++ '=' :: value

/-- The text of some lines. -/
def textOf (lines : List Text) : Text := lines.flatMap fun line => line ++ ['\n']

/-- The lines for the event. -/
def eventLines (h : RecordHeader) : List Text :=
  ["EVENT=CRASH", "ID=".toList ++ h.id, "SN=".toList ++ h.serial, "DATE=".toList ++ h.date,
   "UPTIME=".toList ++ h.uptime, "BUILD=".toList ++ h.build, "BOARD=".toList ++ h.board,
   "IMEI=".toList ++ h.imei, "TYPE=".toList ++ h.tag,
   if h.dataReady then "DATA_READY=1" else "DATA_READY=0", "OPERATOR=".toList ++ h.operator]

def Call.lines : Call → List Text
  | .field key value => [shownLine key.name value]
  | .fields f => f.entries.map fun e => shownLine e.1.name e.2

def Ending.lines : Ending → List Text
  | .finished critical =>
      [if critical then "CRITICAL=YES" else "CRITICAL=NO", "PARSER=LEGACY_PARSER", "_END"]
  | .givenUp => ["_END"]

/-! ## The text at once -/

def Draft.call (d : Draft) : Call → Draft
  | .field key value => d.field key value
  | .fields f => d.fields f

def Draft.ended (d : Draft) : Ending → Text
  | .finished critical => d.finish critical
  | .givenUp => d.abandon

/-- Write a record to a path. -/
def write (t : FileTree) (path : Path) (h : RecordHeader) (calls : List Call) (ending : Ending) :
    Except ParseError FileTree :=
  match t.create path with
  | .error why => .error (.recordOpen path why)
  | .ok (place, files) =>
      let text := (calls.foldl Draft.call (.create h)).ended ending
      match files.fill place (Utf8.encode text) with
      | .error why => .error (.recordWrite path why)
      | .ok files => .ok files

/-! ## Line by line -/

/-- A record that is written through a buffer. -/
structure Writer where
  buffered : Buffered
  /-- Whether the end mark is seen to. -/
  finished : Bool
  deriving DecidableEq, Repr

namespace Writer

variable (capacity : Nat) (place : Place)

def put (w : Writer) (piece : Text) : Except FileError Writer :=
  (w.buffered.write capacity place (Utf8.encode piece)).map fun buffered => { w with buffered }

/-- One line of the record, in the pieces in which it is put together. -/
def line (w : Writer) (key value : Text) : Except FileError Writer :=
  [key, ['='], value, ['\n']].foldlM (put capacity place) w

def call (w : Writer) : Call → Except FileError Writer
  | .field key value => w.line capacity place key.name value
  | .fields f => f.entries.foldlM (fun w e => w.line capacity place e.1.name e.2) w

/-- The end mark, behind which nothing is left waiting. -/
def terminate (w : Writer) : Except FileError Writer := do
  let w ← [endMark, ['\n']].foldlM (put capacity place) w
  let buffered ← w.buffered.flush place
  pure { w with buffered }

/-- The outcome and the end mark. The flag goes up before the mark is written, so that one that
fails is not tried again. -/
def finish (w : Writer) (critical : Bool) : Except FileError Writer := do
  let w ← w.line capacity place "CRITICAL" (if critical then "YES" else "NO")
  let w ← w.line capacity place "PARSER" "LEGACY_PARSER"
  terminate capacity place { w with finished := true }

/-- What a writer leaves when it is dropped. A failure is not reported any more. -/
def drop (w : Writer) : FileTree :=
  let closed :=
    if w.finished then w.buffered.flush place
    else (w.terminate capacity place).map Writer.buffered
  match closed with
  | .ok b => b.files
  | .error _ => w.buffered.files

/-- The writer that has gone through a whole record, up to the drop. -/
def run (files : FileTree) (h : RecordHeader) (calls : List Call) (ending : Ending) :
    Except FileError Writer := do
  let w ← (headerLines h).foldlM (fun w e => w.line capacity place e.1 e.2) ⟨⟨files, []⟩, false⟩
  let w ← calls.foldlM (call capacity place) w
  match ending with
  | .finished critical => w.finish capacity place critical
  | .givenUp => pure w

end Writer

/-- Write a record to a path through a buffer. -/
def writeThrough (capacity : Nat) (t : FileTree) (path : Path) (h : RecordHeader)
    (calls : List Call) (ending : Ending) : Except ParseError FileTree :=
  match t.create path with
  | .error why => .error (.recordOpen path why)
  | .ok (place, files) =>
      match Writer.run capacity place files h calls ending with
      | .error why => .error (.recordWrite path why)
      | .ok w => .ok (w.drop capacity place)

/-! ## What the lines come to -/

theorem textOf_append (front back : List Text) :
    textOf (front ++ back) = textOf front ++ textOf back :=
  List.flatMap_append

theorem block_eq_textOf (pairs : List (Text × Text)) :
    block pairs = textOf (pairs.map fun e => shownLine e.1 e.2) := by
  rw [textOf, List.flatMap_map]
  rfl

theorem eventLines_eq (h : RecordHeader) :
    ((headerLines h).map fun e => shownLine e.1 e.2) = eventLines h := by
  cases hready : h.dataReady <;> simp only [headerLines, eventLines, hready] <;> rfl

theorem text_calls (d : Draft) (calls : List Call) :
    (calls.foldl Draft.call d).text = d.text ++ textOf (calls.flatMap Call.lines) := by
  induction calls generalizing d with
  | nil => exact (List.append_nil _).symm
  | cons c calls ih =>
      have hcall : (d.call c).text = d.text ++ textOf c.lines := by
        cases c with
        | field key value =>
            rw [Call.lines, textOf, List.flatMap_singleton]
            rfl
        | fields f =>
            rw [Draft.call, Draft.text_fields, block_eq_textOf, fieldLines, List.map_map]
            rfl
      rw [List.foldl_cons, ih, hcall, List.flatMap_cons, textOf_append, List.append_assoc]

theorem ended_eq (d : Draft) (ending : Ending) :
    d.ended ending = d.text ++ textOf ending.lines := by
  cases ending with
  | finished critical =>
      rw [Draft.ended, Draft.finish_eq, List.append_assoc, List.append_assoc]
      cases critical <;> rfl
  | givenUp => exact List.append_assoc _ _ _

/-- The lines of a record, from the first to the end mark. -/
def allLines (h : RecordHeader) (calls : List Call) (ending : Ending) : List Text :=
  eventLines h ++ calls.flatMap Call.lines ++ ending.lines

theorem ended_calls (h : RecordHeader) (calls : List Call) (ending : Ending) :
    (calls.foldl Draft.call (.create h)).ended ending = textOf (allLines h calls ending) := by
  rw [ended_eq, text_calls, Draft.text_create, block_eq_textOf, eventLines_eq, allLines,
    textOf_append, textOf_append]

theorem flatMap_oneByOne (calls : List Call) :
    (calls.flatMap Call.oneByOne).flatMap Call.lines = calls.flatMap Call.lines := by
  rw [List.flatMap_assoc]
  congr 1
  funext c
  cases c with
  | field key value => rfl
  | fields f =>
      rw [Call.oneByOne, List.flatMap_map]
      exact (List.map_eq_flatMap ..).symm

theorem endMark_ne_shownLine (key value : Text) : endMark ≠ shownLine key value := by
  intro heq
  have hequals : '=' ∈ endMark := heq ▸ List.mem_append_right key List.mem_cons_self
  exact absurd hequals (by decide)

theorem endMark_not_mem_map (pairs : List (Text × Text)) :
    endMark ∉ pairs.map fun e => shownLine e.1 e.2 := by
  intro hmem
  obtain ⟨e, _, heq⟩ := List.mem_map.mp hmem
  exact endMark_ne_shownLine _ _ heq.symm

/-- The end mark is asked for once. -/
theorem count_endMark (h : RecordHeader) (calls : List Call) (ending : Ending) :
    (allLines h calls ending).count endMark = 1 := by
  have hevent : endMark ∉ eventLines h := eventLines_eq h ▸ endMark_not_mem_map (headerLines h)
  have hcalls : endMark ∉ calls.flatMap Call.lines := by
    intro hmem
    obtain ⟨c, _, hc⟩ := List.mem_flatMap.mp hmem
    cases c with
    | field key value => exact endMark_ne_shownLine _ _ (List.mem_singleton.mp hc)
    | fields f =>
        obtain ⟨e, _, heq⟩ := List.mem_map.mp hc
        exact endMark_ne_shownLine _ _ heq.symm
  have hending : ending.lines.count endMark = 1 := by
    cases ending with
    | finished critical => cases critical <;> decide
    | givenUp => decide
  rw [allLines, List.count_append, List.count_append, List.count_eq_zero.mpr hevent,
    List.count_eq_zero.mpr hcalls, hending]

/-! ## What a writer holds -/

namespace Writer

variable {t : FileTree} {place : Place} {w : Writer} {text : Text}

/-- Whether the file and the buffer hold a text together. -/
def Holds (t : FileTree) (place : Place) (w : Writer) (text : Text) : Prop :=
  w.buffered.Holds t place (Utf8.encode text)

/-- Whether a part of a run succeeds, adds a text to what is held, and leaves the flag alone. -/
def Adds (t : FileTree) (place : Place) (part : Writer → Except FileError Writer)
    (added : Text) : Prop :=
  ∀ w text, Holds t place w text →
    ∃ w', part w = .ok w' ∧ Holds t place w' (text ++ added) ∧ w'.finished = w.finished

theorem Adds.foldlM {α : Type} {step : Writer → α → Except FileError Writer} {added : α → Text}
    (h : ∀ x, Adds t place (step · x) (added x)) (xs : List α) :
    Adds t place (xs.foldlM step ·) (xs.flatMap added) := by
  intro w text hholds
  induction xs generalizing w text with
  | nil => exact ⟨w, rfl, (List.append_nil text).symm ▸ hholds, rfl⟩
  | cons x xs ih =>
      obtain ⟨w₁, hstep, hholds₁, hflag₁⟩ := h x w text hholds
      obtain ⟨w₂, hrest, hholds₂, hflag₂⟩ := ih w₁ _ hholds₁
      refine ⟨w₂, ?_, ?_, hflag₂.trans hflag₁⟩
      · simp only [List.foldlM_cons, hstep]
        exact hrest
      · rwa [List.flatMap_cons, ← List.append_assoc]

variable (capacity : Nat)

theorem adds_put (hplace : place ≠ []) (piece : Text) :
    Adds t place (put capacity place · piece) piece := by
  intro w text hholds
  obtain ⟨b, hwrite, hb⟩ := Buffered.Holds.write hplace hholds capacity (Utf8.encode piece)
  refine ⟨{ w with buffered := b }, ?_, ?_, rfl⟩
  · simp only [put, hwrite, Except.map]
  · rwa [Holds, Utf8.encode, List.flatMap_append]

theorem adds_line (hplace : place ≠ []) (key value : Text) :
    Adds t place (line capacity place · key value) (shownLine key value ++ ['\n']) := by
  have hpieces := Adds.foldlM (adds_put (t := t) capacity hplace) [key, ['='], value, ['\n']]
  have htext : [key, ['='], value, ['\n']].flatMap id = shownLine key value ++ ['\n'] := by
    simp [shownLine]
  exact htext ▸ hpieces

theorem adds_lines {α : Type} (hplace : place ≠ []) (key value : α → Text) (xs : List α) :
    Adds t place (xs.foldlM (fun w x => line capacity place w (key x) (value x)) ·)
      (textOf (xs.map fun x => shownLine (key x) (value x))) := by
  rw [textOf, List.flatMap_map]
  exact Adds.foldlM (fun x => adds_line capacity hplace (key x) (value x)) xs

theorem adds_call (hplace : place ≠ []) (c : Call) :
    Adds t place (call capacity place · c) (textOf c.lines) := by
  cases c with
  | field key value =>
      rw [Call.lines, textOf, List.flatMap_singleton]
      exact adds_line capacity hplace key.name value
  | fields f =>
      have hlines := adds_lines (t := t) capacity hplace
        (fun e : FieldKey × Text => e.1.name) Prod.snd f.entries
      exact hlines

theorem adds_calls (hplace : place ≠ []) (calls : List Call) :
    Adds t place (calls.foldlM (call capacity place) ·) (textOf (calls.flatMap Call.lines)) := by
  rw [textOf, List.flatMap_assoc]
  exact Adds.foldlM (adds_call capacity hplace) calls

/-- The end mark in its line. -/
def endLine : Text := endMark ++ ['\n']

theorem terminate_of_holds (hplace : place ≠ []) (h : Holds t place w text) :
    w.terminate capacity place =
      .ok ⟨⟨t.put place (.file (Utf8.encode (text ++ endLine))), []⟩, w.finished⟩ := by
  obtain ⟨w', hput, hholds, hflag⟩ :=
    Adds.foldlM (adds_put (t := t) capacity hplace) [endMark, ['\n']] w text h
  have hflush := Buffered.Holds.flush hplace hholds
  simp only [terminate, hput, bind, Except.bind, hflush, hflag]
  rfl

/-- A writer that is dropped puts the end mark there unless this is done. -/
theorem drop_of_holds (hplace : place ≠ []) (h : Holds t place w text) :
    w.drop capacity place =
      t.put place (.file (Utf8.encode (if w.finished then text else text ++ endLine))) := by
  rw [drop]
  cases hflag : w.finished with
  | true => rw [if_pos rfl, if_pos rfl, Buffered.Holds.flush hplace h]
  | false =>
      rw [if_neg (by decide), if_neg (by decide), terminate_of_holds capacity hplace h]
      rfl

theorem finish_of_holds (hplace : place ≠ []) (h : Holds t place w text) (critical : Bool) :
    w.finish capacity place critical =
      .ok ⟨⟨t.put place (.file (Utf8.encode
        (text ++ textOf (Ending.finished critical).lines))), []⟩, true⟩ := by
  obtain ⟨w₁, hcritical, hholds₁, _⟩ :=
    adds_line capacity hplace "CRITICAL" (if critical then "YES" else "NO") w text h
  obtain ⟨w₂, hparser, hholds₂, _⟩ :=
    adds_line capacity hplace "PARSER" "LEGACY_PARSER" w₁ _ hholds₁
  have hraised : Holds t place { w₂ with finished := true } _ := hholds₂
  have hfooter : shownLine "CRITICAL" (if critical then "YES" else "NO") ++ ['\n'] ++
      (shownLine "PARSER" "LEGACY_PARSER" ++ ['\n']) ++ endLine =
        textOf (Ending.finished critical).lines := by
    cases critical <;> rfl
  simp only [finish, hcritical, hparser, bind, Except.bind]
  rw [terminate_of_holds capacity hplace hraised, ← hfooter]
  simp only [List.append_assoc]

theorem drop_run (hplace : place ≠ []) (h : RecordHeader) (calls : List Call) (ending : Ending) :
    ∃ w, run capacity place (t.put place (.file [])) h calls ending = .ok w ∧
      w.drop capacity place =
        t.put place (.file (Utf8.encode (textOf (allLines h calls ending)))) := by
  have hempty : Holds t place ⟨⟨t.put place (.file []), []⟩, false⟩ [] := ⟨[], rfl, rfl⟩
  obtain ⟨w₁, hevent, hholds₁, hflag₁⟩ :=
    adds_lines capacity hplace Prod.fst Prod.snd (headerLines h) _ _ hempty
  obtain ⟨w₂, hcalls, hholds₂, hflag₂⟩ := adds_calls capacity hplace calls w₁ _ hholds₁
  have hopen : w₂.finished = false := hflag₂.trans hflag₁
  rw [List.nil_append, eventLines_eq, ← textOf_append] at hholds₂
  cases ending with
  | finished critical =>
      have hrun : run capacity place (t.put place (.file [])) h calls (.finished critical) =
          w₂.finish capacity place critical := by
        simp only [run, hevent, hcalls, bind, Except.bind]
      refine ⟨_, hrun.trans (finish_of_holds capacity hplace hholds₂ critical), ?_⟩
      rw [drop_of_holds capacity hplace ⟨_, rfl, List.append_nil _⟩, if_pos rfl, ← textOf_append,
        allLines]
  | givenUp =>
      have hrun : run capacity place (t.put place (.file [])) h calls .givenUp = .ok w₂ := by
        simp only [run, hevent, hcalls, bind, Except.bind]
        rfl
      have hend : textOf Ending.givenUp.lines = endLine := rfl
      refine ⟨w₂, hrun, ?_⟩
      rw [drop_of_holds capacity hplace hholds₂, hopen, if_neg (by decide), ← hend,
        ← textOf_append, allLines]

end Writer

/-! ## The file -/

/-- In a directory there is room for a record if nothing or a file stands in its place. -/
theorem exists_room {t : FileTree} {dir : Path} (hdir : t.isDirectory dir = true)
    (hfile : t.open? (dir.join fileName) = .error .notFound ∨
      ∃ earlier, t.open? (dir.join fileName) = .ok (.file earlier)) :
    ∃ place, t.writable (dir.join fileName) = .ok place ∧
      t.node? place ≠ some .fullDevice := by
  cases hfollow : t.follow dir with
  | error why => simp [FileTree.isDirectory, FileTree.open?, hfollow] at hdir
  | ok here =>
      have hhere := (FileTree.isDirectory_iff hfollow).mp hdir
      have hslash : '/' ∉ fileName := by decide
      have hname : fileName ∉ ([[], ['.'], ['.', '.']] : List Text) := by decide
      have hplace : t.follow (dir.join fileName) = .ok (here ++ [fileName]) := by
        rw [FileTree.follow_join hfollow hslash, FileTree.step_name hhere hname]
      have hnode : ∀ node, t.node? (here ++ [fileName]) = some node → ∃ old, node = .file old := by
        intro node hnode
        have hopen : t.open? (dir.join fileName) = .ok node := by
          simp only [FileTree.open?, hplace, hnode]
        rcases hfile with hnone | ⟨earlier, hsome⟩
        · cases hopen.symm.trans hnone
        · exact ⟨earlier, Except.ok.inj (hopen.symm.trans hsome)⟩
      refine ⟨here ++ [fileName], ?_, ?_⟩
      · rw [FileTree.writable_join hfollow hslash hname hhere, if_neg]
        intro hdirectory
        obtain ⟨old, hold⟩ := hnode _ hdirectory
        cases hold
      · intro hfull
        obtain ⟨old, hold⟩ := hnode _ hfull
        cases hold

/-- A record that is written over an earlier one, or where there was none, is its lines and nothing
else, the end mark once among them, however the lines are buffered and however its fields are
handed over. -/
theorem written_of_calls {t : FileTree} {dir : Path} (hdir : t.isDirectory dir = true)
    (hfile : t.open? (dir.join fileName) = .error .notFound ∨
      ∃ earlier, t.open? (dir.join fileName) = .ok (.file earlier))
    (h : RecordHeader) (calls : List Call) (ending : Ending) :
    let path := dir.join fileName
    let lines := eventLines h ++ calls.flatMap Call.lines ++ ending.lines
    ∃ t', write t path h calls ending = .ok t' ∧
      (∀ capacity, writeThrough capacity t path h calls ending = .ok t' ∧
        writeThrough capacity t path h (calls.flatMap Call.oneByOne) ending = .ok t') ∧
      t'.open? path = .ok (.file (Utf8.encode (textOf lines))) ∧ lines.count endMark = 1 := by
  obtain ⟨place, hwritable, hroom⟩ := exists_room hdir hfile
  have hplace := FileTree.ne_nil_of_not_directory (FileTree.follow_of_writable hwritable).2
  have hcreate := FileTree.create_of_room hwritable hroom
  have hthrough (capacity : Nat) (calls : List Call) :
      writeThrough capacity t (dir.join fileName) h calls ending =
        .ok (t.put place (.file (Utf8.encode (textOf (allLines h calls ending))))) := by
    obtain ⟨w, hrun, hdrop⟩ := Writer.drop_run (t := t) capacity hplace h calls ending
    simp only [writeThrough, hcreate, hrun, hdrop]
  refine ⟨t.put place (.file (Utf8.encode (textOf (allLines h calls ending)))), ?_,
    fun capacity => ⟨hthrough capacity calls, ?_⟩, FileTree.open?_put_of_writable hwritable,
    count_endMark h calls ending⟩
  · simp only [write, hcreate, ended_calls, FileTree.fill_put hplace]
  · rw [hthrough, allLines, flatMap_oneByOne, allLines]

/-- The directory `/e` with a record in it that is longer than any written below. -/
def longRecord : FileTree where
  nodes := [(["e"], .directory), (["e", "crashfile"], .file (List.replicate 999 0x78))]
  workingDirectory := []

theorem written_over_longRecord :
    longRecord.isDirectory "/e" = true ∧
      (∃ earlier, longRecord.open? "/e/crashfile" = .ok (.file earlier)) ∧
      ∀ ending, ∃ t',
        write longRecord "/e/crashfile" ⟨"1", "2", "3", "4", "5", "6", "7", "8", true, "9"⟩
          [.field (.data 0) "a", .fields (.ofList [(.data 0, "b"), (.data 2, [])])] ending =
            .ok t' ∧
        t'.open? "/e/crashfile" = .ok (.file (Utf8.encode (textOf
          ((["EVENT=CRASH", "ID=1", "SN=2", "DATE=3", "UPTIME=4", "BUILD=5", "BOARD=6", "IMEI=7",
            "TYPE=8", "DATA_READY=1", "OPERATOR=9", "DATA0=a", "DATA0=b", "DATA2="] : List Text) ++
            ending.lines)))) := by
  refine ⟨by decide, ⟨_, rfl⟩, fun ending => ?_⟩
  have hdir : longRecord.isDirectory "/e" = true := by decide
  obtain ⟨t', hwrite, _, hopen, _⟩ :=
    written_of_calls hdir (Or.inr ⟨_, rfl⟩) ⟨"1", "2", "3", "4", "5", "6", "7", "8", true, "9"⟩
      [.field (.data 0) "a", .fields (.ofList [(.data 0, "b"), (.data 2, [])])] ending
  exact ⟨t', hwrite, hopen⟩

end Record

end CrashDigest
