import Mathlib.Data.List.Basic
import CrashDigest.Proofs.DecodedLines
import CrashDigest.Proofs.Extracted
import CrashDigest.Proofs.Labelled
import CrashDigest.Proofs.RecordText

/-!
# Passing values on

Another program leaves values in lines `KEY=value`, as a record has them, and
they are read by looking for each key with an equals sign behind it in every
line. A key is found in its own line at the front, so all of the value comes
along whatever is in it. It is found in the line of another key too, if the
value there happens to hold it, because the search does not ask where in the
line it is.

`passedTo` says which of the two a line gives to a key, and `get?_scanPassed_passedText`
that the first line to give anything is the one that counts. As long as no value
holds a key with an equals sign behind it, what was written under a key first is
what is passed on.
-/

namespace CrashDigest.Coredump

/-- The text with these values, each in a line of its own. -/
def passedText (pairs : List (FieldKey × Text)) : Text :=
  Record.block (Record.fieldLines pairs)

/-- What stands before a value that is passed on under this name. -/
def labelOf (key : FieldKey) : Text := key.name ++ ['=']

/-- What a line with a value gives to a name: the value if it is the line of this name, and else
what follows the name in the value. -/
def passedTo (key : FieldKey) (pair : FieldKey × Text) : Option Text :=
  if pair.1 = key then some pair.2 else (pair.2.cut (labelOf key)).map Prod.snd

/-- Whether a value can be written in a line and read back. -/
structure Writable (pair : FieldKey × Text) : Prop where
  key : pair.1 ∈ passedKeys
  oneLine : pair.2.OneLine
  noReturn : pair.2.getLast? ≠ some '\r'

variable {key other : FieldKey} {pair : FieldKey × Text} {pairs : List (FieldKey × Text)}

/-! ## One line -/

theorem eq_of_name_suffix : ∀ key ∈ passedKeys, ∀ other ∈ passedKeys,
    key.name <:+ other.name → key = other := by
  decide

/-- In the line of one name no label of another begins before the value. -/
theorem not_labelOf_prefix (hkey : key ∈ passedKeys) (hother : other ∈ passedKeys)
    (hne : other ≠ key) {u : Text} (hu : u <:+ labelOf other) (hnil : u ≠ []) (value : Text) :
    ¬ labelOf key <+: u ++ value := by
  rintro ⟨rest, hrest⟩
  obtain rfl | ⟨front, rfl, hfront⟩ := List.suffix_concat_iff.mp hu
  · exact hnil rfl
  · have hequals : '=' ∉ front := fun hmem =>
      FieldKey.not_mem_name (Or.inl rfl) (hfront.subset hmem)
    have hlines : key.name ++ '=' :: rest = front ++ '=' :: value := by
      simpa [labelOf] using hrest
    have hpairs := congrArg Record.pairIn hlines
    rw [Record.pairIn_of_not_mem (FieldKey.not_mem_name (Or.inl rfl)),
      Record.pairIn_of_not_mem hequals] at hpairs
    obtain rfl : key.name = front := (Prod.mk.inj hpairs).1
    exact hne (eq_of_name_suffix key hkey other hother hfront).symm

theorem read_line (hkey : key ∈ passedKeys) (hpair : pair.1 ∈ passedKeys) :
    (Probe.labelled key.name "=").read (labelOf pair.1 ++ pair.2) = passedTo key pair := by
  have hname : '=' ∉ key.name := FieldKey.not_mem_name (Or.inl rfl)
  have hread := Probe.read_labelled hname (labelOf pair.1 ++ pair.2)
  refine hread.trans ?_
  rw [passedTo]
  split
  · next heq =>
      subst heq
      exact congrArg (Option.map Prod.snd) (Text.cut_self_append (labelOf pair.1) pair.2)
  · next hne =>
      have hcut := @Text.cut_append (labelOf key) (labelOf pair.1) pair.2 fun u hu hnil =>
        not_labelOf_prefix hkey hpair hne hu hnil pair.2
      refine (congrArg (Option.map Prod.snd) hcut).trans ?_
      rw [Option.map_map]
      rfl

/-! ## All the lines -/

theorem ofBytes_passedText (h : ∀ pair ∈ pairs, Writable pair) :
    Lines.ofBytes (Utf8.encode (passedText pairs)) =
      pairs.map fun pair => labelOf pair.1 ++ pair.2 := by
  have htext : passedText pairs =
      (pairs.map fun pair => labelOf pair.1 ++ pair.2).flatMap (· ++ ['\n']) := by
    rw [passedText, Record.block, Record.fieldLines, List.flatMap_map, List.flatMap_map]
    simp [Record.line, labelOf]
  rw [Lines.ofBytes_encode, htext]
  refine Lines.cut_flatMap ?_ ?_
  · rw [List.forall_mem_map]
    intro pair hmem
    have hname : Text.OneLine (labelOf pair.1) :=
      Text.OneLine.append (FieldKey.not_mem_name (Or.inr rfl)) (by decide)
    exact hname.append (h pair hmem).oneLine
  · rw [List.forall_mem_map]
    intro pair hmem
    have hlabel : (labelOf pair.1).getLast? = some '=' := List.getLast?_concat
    rw [List.getLast?_append, hlabel]
    cases hlast : pair.2.getLast? with
    | none => decide
    | some c =>
        rw [Option.some_or, ← hlast]
        exact (h pair hmem).noReturn

/-! ## The values -/

theorem keys_scanPassed (lines : List Text) : (scanPassed lines).keys = passedKeys := by
  rw [scanPassed, Fields.keys_ofList, map_fst_scanPassed]
  rw [map_fst_scanPassed]
  decide

theorem get?_scanPassed (hkey : key ∈ passedKeys) (lines : List Text) :
    (scanPassed lines).get? key =
      some ((lines.findSome? (Probe.labelled key.name "=").read).getD []) := by
  have hnodup : ((passedKeys.zip (firstMatches
      (passedKeys.map fun key => .labelled key.name "=") lines)).map Prod.fst).Nodup := by
    rw [map_fst_scanPassed]
    decide
  rw [Fields.get?, scanPassed, Fields.entries_ofList hnodup, firstMatches_eq, List.map_map,
    ← List.map_prod_left_eq_zip]
  exact List.lookup_graph _ hkey

/-- What is passed on under a name is the first thing that a line gives to it. -/
theorem get?_scanPassed_passedText (hkey : key ∈ passedKeys)
    (h : ∀ pair ∈ pairs, Writable pair) :
    (scanPassed (Lines.ofBytes (Utf8.encode (passedText pairs)))).get? key =
      some ((pairs.findSome? (passedTo key)).getD []) := by
  have hlines : pairs.filterMap (fun pair =>
      (Probe.labelled key.name "=").read (labelOf pair.1 ++ pair.2)) =
        pairs.filterMap (passedTo key) :=
    List.filterMap_congr fun pair hmem => read_line hkey (h pair hmem).key
  rw [get?_scanPassed hkey, ofBytes_passedText h, List.findSome?_map, ← List.head?_filterMap,
    ← List.head?_filterMap, ← hlines]
  rfl

/-- Where no other value holds the label of a name, the name gets its own first value. -/
theorem findSome?_passedTo
    (h : ∀ pair ∈ pairs, pair.1 ≠ key → pair.2.includes (labelOf key) = false) :
    pairs.findSome? (passedTo key) = pairs.lookup key := by
  induction pairs with
  | nil => rfl
  | cons pair pairs ih =>
      have hrest := ih fun p hmem => h p (List.mem_cons_of_mem _ hmem)
      obtain ⟨name, value⟩ := pair
      rw [List.findSome?_cons, List.lookup_cons, passedTo]
      by_cases hname : name = key
      · subst hname
        simp
      · have hcut : value.cut (labelOf key) = none := by
          simpa [Text.includes] using h _ List.mem_cons_self hname
        simp only [if_neg hname, hcut, Option.map_none, beq_false_of_ne (Ne.symm hname), hrest]

/-- Values that were written one a line are read back under all the names in their order, each name
with the first thing that a line gives to it. This is the first value written under the name if no
value of another name holds the name with an equals sign behind it. -/
theorem scanPassed_passedText (h : ∀ pair ∈ pairs, Writable pair) :
    let found := scanPassed (Lines.ofBytes (Utf8.encode (passedText pairs)))
    found.keys = passedKeys ∧ ∀ key ∈ passedKeys,
      found.get? key = some ((pairs.findSome? (passedTo key)).getD []) ∧
      ((∀ pair ∈ pairs, pair.1 ≠ key → pair.2.includes (labelOf key) = false) →
        found.get? key = some ((pairs.lookup key).getD [])) := by
  refine ⟨keys_scanPassed _, fun key hkey => ?_⟩
  have hget := get?_scanPassed_passedText hkey h
  refine ⟨hget, fun hfree => ?_⟩
  rw [hget, findSome?_passedTo hfree]

/-- The first of two values is passed on, equals signs and all, and a value that looks like the line
of another name is passed on under both. -/
theorem scanPassed_of_values :
    let pairs : List (FieldKey × Text) :=
      [(.data 0, "modem reset"), (.data 2, "a=b"), (.data 1, "DATA5=foo"), (.data 0, "second")]
    let found := scanPassed (Lines.ofBytes (Utf8.encode (passedText pairs)))
    (∀ pair ∈ pairs, Writable pair) ∧ found.keys = passedKeys ∧
    found.get? (.data 0) = some ("modem reset" : Text) ∧
    found.get? (.data 2) = some ("a=b" : Text) ∧
    found.get? (.data 1) = some ("DATA5=foo" : Text) ∧
    found.get? (.data 5) = some ("foo" : Text) := by
  intro pairs found
  have hpairs : ∀ pair ∈ pairs, Writable pair := by
    have hall : ∀ pair ∈ pairs, pair.1 ∈ passedKeys ∧ pair.2.OneLine ∧
        pair.2.getLast? ≠ some '\r' := by decide
    exact fun pair hmem => ⟨(hall pair hmem).1, (hall pair hmem).2.1, (hall pair hmem).2.2⟩
  obtain ⟨hkeys, hvalues⟩ := scanPassed_passedText hpairs
  refine ⟨hpairs, hkeys, ?_, ?_, ?_, ?_⟩
  · exact ((hvalues (.data 0) (by decide)).2 (by decide)).trans (by decide)
  · exact ((hvalues (.data 2) (by decide)).2 (by decide)).trans (by decide)
  · exact ((hvalues (.data 1) (by decide)).2 (by decide)).trans (by decide)
  · exact (hvalues (.data 5) (by decide)).1.trans (by decide)

end CrashDigest.Coredump
