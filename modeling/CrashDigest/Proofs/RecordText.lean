import CrashDigest.Record
import CrashDigest.Proofs.Fields

/-!
# The lines of a record

A record is written line by line and read back by cutting at the line feeds, so
everything about reading it comes down to what cutting makes of one line
`KEY=value`. A value of one line gives that line back. A value with line feeds
breaks it: its first piece still stands behind `KEY=`, and each further piece
becomes a line of its own, with nothing in front of it. That is the only way in
which a line other than the last can read `_END`.

Where no key holds an equals sign and no value a line feed, cutting at the
first equals sign of each line recovers the pairs, and two records of the same
text are of the same pairs.
-/

namespace CrashDigest.Record

/-- The text of some pairs, each in a line of its own. -/
def block (pairs : List (Text × Text)) : Text :=
  pairs.flatMap fun (key, value) => line key value

/-- The text of a record that consists of some pairs. -/
def whole (pairs : List (Text × Text)) : Text :=
  block pairs ++ endMark ++ ['\n']

/-- The pairs for some fields. -/
def fieldLines (entries : List (FieldKey × Text)) : List (Text × Text) :=
  entries.map fun (key, value) => (key.name, value)

/-- The pairs for the outcome. -/
def outcomeLines (critical : Bool) : List (Text × Text) :=
  [("CRITICAL", if critical then "YES" else "NO"), ("PARSER", "LEGACY_PARSER")]

/-- All the pairs of a record with these fields, in their order. -/
def pairs (h : RecordHeader) (entries : List (FieldKey × Text)) (critical : Bool) :
    List (Text × Text) :=
  headerLines h ++ (fieldLines entries ++ outcomeLines critical)

theorem block_append (front back : List (Text × Text)) :
    block (front ++ back) = block front ++ block back :=
  List.flatMap_append

namespace Draft

theorem text_addAll (d : Draft) (pairs : List (Text × Text)) :
    (pairs.foldl (fun d (key, value) => d.add key value) d).text = d.text ++ block pairs := by
  induction pairs generalizing d with
  | nil => simp [block]
  | cons e pairs ih =>
      rw [List.foldl_cons, ih, block, block, List.flatMap_cons, ← List.append_assoc]
      rfl

theorem text_create (h : RecordHeader) : (create h).text = block (headerLines h) :=
  text_addAll ⟨[]⟩ (headerLines h)

theorem text_fields (d : Draft) (f : Fields) :
    (d.fields f).text = d.text ++ block (fieldLines f.entries) := by
  rw [← text_addAll, fieldLines, List.foldl_map]
  rfl

theorem finish_eq (d : Draft) (critical : Bool) :
    d.finish critical = d.text ++ block (outcomeLines critical) ++ endMark ++ ['\n'] := by
  rw [← text_addAll]
  rfl

end Draft

/-- The keys of the lines for the event. -/
def headerKeys : List Text :=
  ["EVENT", "ID", "SN", "DATE", "UPTIME", "BUILD", "BOARD", "IMEI", "TYPE", "DATA_READY",
   "OPERATOR"]

/-- No key of a record holds an equals sign or a line feed. -/
theorem not_mem_key_of_mem_pairs {h : RecordHeader} {entries : List (FieldKey × Text)}
    {critical : Bool} {c : Char} (hc : c = '=' ∨ c = '\n') :
    ∀ e ∈ pairs h entries critical, c ∉ e.1 := by
  have hheader : ∀ key ∈ headerKeys, '=' ∉ key ∧ '\n' ∉ key := by decide
  have houtcome : ∀ key ∈ (["CRITICAL", "PARSER"] : List Text), '=' ∉ key ∧ '\n' ∉ key := by
    decide
  have heither {key : Text} (hkey : '=' ∉ key ∧ '\n' ∉ key) : c ∉ key := by
    rcases hc with rfl | rfl
    · exact hkey.1
    · exact hkey.2
  intro e he
  rcases List.mem_append.mp he with hhead | hrest
  · exact heither (hheader _ (List.mem_map_of_mem (f := Prod.fst) hhead))
  · rcases List.mem_append.mp hrest with hfield | hout
    · obtain ⟨entry, _, rfl⟩ := List.mem_map.mp hfield
      exact FieldKey.not_mem_name hc
    · exact heither (houtcome _ (List.mem_map_of_mem (f := Prod.fst) hout))

/-! ## Cutting at the line feeds -/

/-- The lines of a text, each ended by a line feed. What follows the last line feed is none. -/
def linesOf (text : Text) : List Text :=
  (text.splitOn '\n').dropLast

theorem linesOf_append (front rest : Text) :
    linesOf (front ++ '\n' :: rest) = front.splitOn '\n' ++ linesOf rest := by
  rw [linesOf, linesOf, List.splitOn_append_cons_self,
    List.dropLast_append_of_ne_nil (List.splitOn_ne_nil _ _)]

theorem linesOf_whole (pairs : List (Text × Text)) :
    linesOf (whole pairs) =
      pairs.flatMap (fun (key, value) => (key ++ '=' :: value).splitOn '\n') ++ [endMark] := by
  induction pairs with
  | nil => rfl
  | cons e pairs ih =>
      obtain ⟨key, value⟩ := e
      have hwhole : whole ((key, value) :: pairs) =
          (key ++ '=' :: value) ++ '\n' :: whole pairs := by
        simp [whole, block, line]
      rw [hwhole, linesOf_append, ih, List.flatMap_cons, List.append_assoc]

/-- Only the first piece of a text stands behind what is put in front of it. -/
theorem exists_splitOn_append {front : Text} (hf : front.OneLine) (s : Text) :
    ∃ first, (front ++ s).splitOn '\n' = (front ++ first) :: (s.splitOn '\n').tail := by
  induction front with
  | nil =>
      obtain ⟨first, rest, hs⟩ := List.exists_cons_of_ne_nil (List.splitOn_ne_nil '\n' s)
      exact ⟨first, by rw [List.nil_append, hs]; rfl⟩
  | cons c front ih =>
      obtain ⟨hne, hfront⟩ := List.ne_and_not_mem_of_not_mem_cons hf
      obtain ⟨first, hfirst⟩ := ih hfront
      refine ⟨first, ?_⟩
      rw [List.cons_append, List.splitOn_cons_eq_if_modifyHead, if_neg (by simpa using hne.symm),
        hfirst]
      rfl

/-! ## The end mark -/

/-- A line of a pair is the end mark only if the value brought it along. -/
theorem endMark_mem_splitOn {key value : Text} (hkey : key.OneLine) :
    endMark ∈ (key ++ '=' :: value).splitOn '\n' ↔ endMark ∈ (value.splitOn '\n').tail := by
  have hfront : Text.OneLine (key ++ ['=']) := hkey.append (by decide)
  obtain ⟨first, hfirst⟩ := exists_splitOn_append hfront value
  rw [List.append_assoc, List.singleton_append] at hfirst
  rw [hfirst, List.mem_cons]
  refine or_iff_right fun h => ?_
  have heq : '=' ∈ endMark := by simp [h]
  exact absurd heq (by decide)

theorem getLast?_linesOf_whole (pairs : List (Text × Text)) :
    (linesOf (whole pairs)).getLast? = some endMark := by
  rw [linesOf_whole, List.getLast?_concat]

theorem count_endMark_eq_one_iff {pairs : List (Text × Text)}
    (hkeys : ∀ e ∈ pairs, e.1.OneLine) :
    (linesOf (whole pairs)).count endMark = 1 ↔
      ∀ e ∈ pairs, endMark ∉ (e.2.splitOn '\n').tail := by
  rw [linesOf_whole, List.count_append, List.count_singleton_self, Nat.add_eq_right,
    List.count_eq_zero, List.mem_flatMap]
  constructor
  · intro h e he hend
    exact h ⟨e, he, (endMark_mem_splitOn (hkeys e he)).mpr hend⟩
  · rintro h ⟨e, he, hend⟩
    exact h e he ((endMark_mem_splitOn (hkeys e he)).mp hend)

/-! ## Reading the pairs back -/

/-- The pair in a line, cut at its first equals sign. -/
def pairIn (line : Text) : Text × Text :=
  (line.takeWhile (· ≠ '='), (line.dropWhile (· ≠ '=')).drop 1)

/-- The pairs of a record, read from its text. -/
def pairsIn (text : Text) : List (Text × Text) :=
  (linesOf text).dropLast.map pairIn

/-- Whether a pair can be read back from its line. -/
structure Legible (e : Text × Text) : Prop where
  key : e.1.OneLine
  noEquals : '=' ∉ e.1
  value : e.2.OneLine

theorem pairIn_of_not_mem {key : Text} (h : '=' ∉ key) (value : Text) :
    pairIn (key ++ '=' :: value) = (key, value) := by
  have hkey : ∀ c ∈ key, decide (c ≠ '=') = true := fun c hc =>
    decide_eq_true fun heq => h (heq ▸ hc)
  rw [pairIn, List.takeWhile_append_of_pos hkey, List.dropWhile_append_of_pos hkey,
    List.takeWhile_cons_of_neg (by decide), List.dropWhile_cons_of_neg (by decide),
    List.append_nil]
  rfl

theorem linesOf_whole_of_legible {pairs : List (Text × Text)} (h : ∀ e ∈ pairs, Legible e) :
    linesOf (whole pairs) = pairs.map (fun (key, value) => key ++ '=' :: value) ++ [endMark] := by
  rw [linesOf_whole]
  congr 1
  induction pairs with
  | nil => rfl
  | cons e pairs ih =>
      obtain ⟨key, value⟩ := e
      have he := h _ List.mem_cons_self
      have hline : Text.OneLine (key ++ '=' :: value) :=
        he.key.append (.cons (by decide) he.value)
      rw [List.flatMap_cons, List.map_cons, ih fun e hmem => h e (List.mem_cons_of_mem _ hmem)]
      simp only [List.splitOn_eq_singleton hline, List.singleton_append]

theorem pairsIn_whole {pairs : List (Text × Text)} (h : ∀ e ∈ pairs, Legible e) :
    pairsIn (whole pairs) = pairs := by
  rw [pairsIn, linesOf_whole_of_legible h, List.dropLast_concat, List.map_map]
  refine (List.map_congr_left fun e he => ?_).trans (List.map_id pairs)
  exact pairIn_of_not_mem (h e he).noEquals e.2

theorem whole_inj {p q : List (Text × Text)} (hp : ∀ e ∈ p, Legible e)
    (hq : ∀ e ∈ q, Legible e) (h : whole p = whole q) : p = q := by
  rw [← pairsIn_whole hp, h, pairsIn_whole hq]

end CrashDigest.Record
