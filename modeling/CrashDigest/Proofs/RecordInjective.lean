import CrashDigest.Proofs.Run

/-!
# A record tells its run apart

Two completed runs that leave the same record agree in everything the record is
about: the texts of the event, the serial number, the mark of a lost dropbox
entry, the fields with their order, and whether the event is critical. The
pairs come back from the text as long as no value has a line feed, which the
extractions see to for the fields and the caller must see to for the rest.

What is left is the mark. It is written like a field, under `DATA0`, so a
record with the mark could be one without it whose first field happens to say
the same. It cannot: only four tags put the mark, and the fields that their
families give are either none or go on with `DATA1` after one `DATA0`.
-/

namespace CrashDigest

namespace Record

theorem headerLines_inj {h h' : RecordHeader} (heq : headerLines h = headerLines h') :
    h = h' := by
  have hflag : ∀ a b : Bool, (if a then ("1" : Text) else ("0" : Text)) =
      (if b then ("1" : Text) else ("0" : Text)) → a = b := by decide
  cases h
  cases h'
  simp only [headerLines, List.cons.injEq, Prod.mk.injEq, true_and, and_true] at heq
  obtain ⟨rfl, rfl, rfl, rfl, rfl, rfl, rfl, rfl, hready, rfl⟩ := heq
  rw [hflag _ _ hready]

theorem pairs_inj {h h' : RecordHeader} {entries entries' : List (FieldKey × Text)}
    {critical critical' : Bool}
    (heq : pairs h entries critical = pairs h' entries' critical') :
    h = h' ∧ entries = entries' ∧ critical = critical' := by
  obtain ⟨hhead, hrest⟩ := List.append_inj heq rfl
  obtain ⟨hfields, hout⟩ := List.append_inj' hrest rfl
  refine ⟨headerLines_inj hhead, ?_, ?_⟩
  · refine (List.map_inj_right fun e e' hee => ?_).mp hfields
    obtain ⟨hname, hvalue⟩ := Prod.mk.inj hee
    exact Prod.ext (FieldKey.name_injective hname) hvalue
  · revert hout
    cases critical <;> cases critical' <;> decide

/-! ## Records that can be read back -/

theorem legible_pairs {h : RecordHeader} {entries : List (FieldKey × Text)}
    (hheader : ∀ e ∈ headerLines h, e.2.OneLine) (hentries : ∀ e ∈ entries, e.2.OneLine)
    (critical : Bool) :
    ∀ e ∈ pairs h entries critical, Legible e := by
  have hvalues : ∀ e ∈ pairs h entries critical, e.2.OneLine := by
    intro e he
    rcases List.mem_append.mp he with hhead | hrest
    · exact hheader e hhead
    · rcases List.mem_append.mp hrest with hfield | hout
      · obtain ⟨entry, hmem, rfl⟩ := List.mem_map.mp hfield
        exact hentries entry hmem
      · have houtcome : ∀ e ∈ outcomeLines critical, e.2.OneLine := by
          cases critical <;> decide
        exact houtcome e hout
  exact fun e he =>
    ⟨not_mem_key_of_mem_pairs (Or.inr rfl) e he, not_mem_key_of_mem_pairs (Or.inl rfl) e he,
      hvalues e he⟩

end Record

namespace Engine

variable {s : Settings} {r : Request} {t : FileTree} {serial : Text} {place : Place}

theorem oneLine_headerLines (hr : ∀ v ∈ r.texts, Text.OneLine v) (hs : serial.OneLine) :
    ∀ e ∈ Record.headerLines (recordHeader r serial), e.2.OneLine := by
  simp only [Request.texts, List.forall_mem_cons] at hr
  obtain ⟨htag, hid, hdate, huptime, hbuild, hboard, himei, hoperator, _⟩ := hr
  have hplain : (Tag.normalize r.tag).tag.OneLine := by
    rcases Tag.normalize_cases r.tag with ⟨tag, hmem, hnorm⟩ | hnorm
    · have haliases : ∀ e ∈ Tag.aliases, e.2.OneLine := by decide
      rw [hnorm]
      exact haliases _ hmem
    · rw [hnorm]
      exact htag
  have hready : Text.OneLine (if r.dataReady then "1" else "0") := by
    cases r.dataReady <;> decide
  simp only [Record.headerLines, recordHeader, List.forall_mem_cons]
  exact ⟨by decide, hid, hs, hdate, huptime, hbuild, hboard, himei, hplain, hready, hoperator,
    List.forall_mem_nil _⟩

/-- What a run that succeeds leaves is the record of its outcome, pair for pair. -/
theorem exists_pairs_of_parse_eq_ok {o : Outcome} (h : (parse s r t).1 = .ok o)
    (hr : ∀ v ∈ r.texts, Text.OneLine v) :
    ∃ serial place, readSerial t s.serialPath = .ok serial ∧ o = outcomeAt s r t place ∧
      (parse s r t).2.read (recordPath r) =
        .ok (Utf8.encode (Record.whole
          (Record.pairs (recordHeader r serial) (shown o) o.critical))) ∧
      ∀ e ∈ Record.pairs (recordHeader r serial) (shown o) o.critical, Record.Legible e := by
  obtain ⟨serial, place, hready, hresult, hopen⟩ := open?_of_completed (Or.inl ⟨o, h⟩)
  obtain rfl := eq_of_judge_eq_ok (hresult.symm.trans h)
  have hlegible := Record.legible_pairs
    (oneLine_headerLines hr (oneLine_of_readSerial hready.serial))
    (oneLine_of_mem_shown (oneLine_fields_outcomeAt s r t place))
    (outcomeAt s r t place).critical
  refine ⟨serial, place, hready.serial, rfl, ?_, hlegible⟩
  rw [FileTree.read, hopen]
  rfl

/-! ## The mark of a lost entry -/

/-- Whether there are no names, or `DATA0` and `DATA1` come first. -/
def Paired (keys : List FieldKey) : Prop :=
  keys = [] ∨ ∃ rest, keys = .data 0 :: .data 1 :: rest

/-- Behind an old tag, a first `DATA0` is followed by `DATA1`. -/
theorem paired_of_aliased {raw : Text} (h : (raw, (Tag.normalize r.tag).tag) ∈ Tag.aliases) :
    Paired (outcomeAt s r t place).fields.keys := by
  have hlayouts : ∀ e ∈ Tag.aliases, ∀ family ∈ Tag.family? e.2, ∀ layout ∈ family.layouts,
      layout = [] ∨ layout.take 2 = [.data 0, .data 1] := by decide
  rcases gives_of_outcomeAt s r t place with hempty | ⟨family, hfamily, hgives⟩
  · rw [hempty]
    exact Or.inl rfl
  · refine (hlayouts _ h family hfamily _ hgives.keys_mem_layouts).imp_right fun htake => ?_
    exact ⟨_, by rw [← List.take_append_drop 2 (Fields.keys _), htake]; rfl⟩

theorem exists_alias_of_fullDropbox (h : (outcomeAt s r t place).fullDropbox = true) :
    ∃ raw, (raw, (Tag.normalize r.tag).tag) ∈ Tag.aliases := by
  rcases Tag.normalize_cases r.tag with ⟨tag, hmem, hnorm⟩ | hnorm
  · exact ⟨r.tag, hnorm ▸ hmem⟩
  · simp [outcomeAt, outcome, hnorm] at h

/-- A mark in front of some fields is no first field in front of others. -/
theorem shown_ne {o o' : Outcome} (ho : o.fullDropbox = true) (ho' : o'.fullDropbox = false)
    (hkeys : Paired o.fields.keys) (hkeys' : Paired o'.fields.keys) : shown o ≠ shown o' := by
  intro h
  have hfst : .data 0 :: o.fields.keys = o'.fields.keys := by
    simpa [shown, ho, ho', Fields.keys] using congrArg (List.map Prod.fst) h
  rcases hkeys' with hnil | ⟨rest, hcons⟩
  · exact absurd (hfst.trans hnil) (List.cons_ne_nil _ _)
  · have hone : o.fields.keys = .data 1 :: rest := (List.cons.inj (hfst.trans hcons)).2
    rcases hkeys with hnil | ⟨_, hzero⟩
    · exact absurd (hone.symm.trans hnil) (List.cons_ne_nil _ _)
    · cases (List.cons.inj (hone.symm.trans hzero)).1

/-- What the record shows of an outcome tells its mark and its fields. -/
theorem shown_inj {s' : Settings} {r' : Request} {t' : FileTree} {place' : Place}
    (htag : (Tag.normalize r.tag).tag = (Tag.normalize r'.tag).tag)
    (h : shown (outcomeAt s r t place) = shown (outcomeAt s' r' t' place')) :
    (outcomeAt s r t place).fullDropbox = (outcomeAt s' r' t' place').fullDropbox ∧
      (outcomeAt s r t place).fields = (outcomeAt s' r' t' place').fields := by
  cases hm : (outcomeAt s r t place).fullDropbox with
  | false =>
      cases hm' : (outcomeAt s' r' t' place').fullDropbox with
      | false =>
          simp only [shown, hm, hm'] at h
          exact ⟨rfl, congrArg Fields.mk h⟩
      | true =>
          obtain ⟨raw, halias⟩ := exists_alias_of_fullDropbox hm'
          exact absurd h.symm (shown_ne hm' hm (paired_of_aliased halias)
            (paired_of_aliased (htag ▸ halias)))
  | true =>
      cases hm' : (outcomeAt s' r' t' place').fullDropbox with
      | false =>
          obtain ⟨raw, halias⟩ := exists_alias_of_fullDropbox hm
          exact absurd h (shown_ne hm hm' (paired_of_aliased halias)
            (paired_of_aliased (htag ▸ halias)))
      | true =>
          simp only [shown, hm, hm'] at h
          exact ⟨rfl, congrArg Fields.mk (List.append_cancel_left h)⟩

/-! ## How often a key stands in a record -/

theorem nodup_keys_outcomeAt (s : Settings) (r : Request) (t : FileTree) (place : Place) :
    (outcomeAt s r t place).fields.keys.Nodup := by
  rcases gives_of_outcomeAt s r t place with hempty | ⟨family, _, hgives⟩
  · rw [hempty]
    exact List.nodup_nil
  · exact Family.nodup_of_mem_layouts hgives.keys_mem_layouts

theorem count_data0_le_one {o : Outcome} (hkeys : o.fields.keys.Nodup)
    (hmark : o.fullDropbox = false) (h : RecordHeader) :
    ((Record.pairs h (shown o) o.critical).map Prod.fst).count (FieldKey.data 0).name ≤ 1 := by
  have hfst : (Record.pairs h (shown o) o.critical).map Prod.fst =
      Record.headerKeys ++ (o.fields.keys.map FieldKey.name ++
        (["CRITICAL", "PARSER"] : List Text)) := by
    simp only [Record.pairs, shown, hmark, Record.fieldLines, Fields.keys, List.map_append,
      List.map_map]
    rfl
  have hnodup : (o.fields.keys.map FieldKey.name).Nodup :=
    List.Pairwise.map FieldKey.name (fun _ _ hne hname => hne (FieldKey.name_injective hname)) hkeys
  have hheader : Record.headerKeys.count (FieldKey.data 0).name = 0 := by decide
  have hout : (["CRITICAL", "PARSER"] : List Text).count (FieldKey.data 0).name = 0 := by decide
  rw [hfst, List.count_append, List.count_append, hheader, hout, Nat.zero_add, Nat.add_zero]
  exact List.nodup_iff_count.mp hnodup _

/-! ## Records of successful runs -/

/-- The values and names that extractions give are fit for a record; a record without the mark
has one `DATA0` at most; and records of the same bytes are of the same header, mark, fields and
urgency. -/
theorem record_injective :
    (∀ (e : Event) (family : Family) (x : Extraction), e.extract family = .ok x →
      x.fields.OneLine ∧ x.fields.keys.Nodup) ∧
    (∀ (s : Settings) (r : Request) (t : FileTree) (o : Outcome) (text : Text),
      (parse s r t).1 = .ok o → (∀ v ∈ r.texts, Text.OneLine v) →
      (parse s r t).2.read (recordPath r) = .ok (Utf8.encode text) → o.fullDropbox = false →
      ((Record.pairsIn text).map Prod.fst).count (FieldKey.data 0).name ≤ 1) ∧
    (∀ (s s' : Settings) (r r' : Request) (t t' : FileTree) (o o' : Outcome),
      (parse s r t).1 = .ok o → (parse s' r' t').1 = .ok o' →
      (∀ v ∈ r.texts, Text.OneLine v) → (∀ v ∈ r'.texts, Text.OneLine v) →
      (parse s r t).2.read (recordPath r) = (parse s' r' t').2.read (recordPath r') →
      ∃ serial, readSerial t s.serialPath = .ok serial ∧
        readSerial t' s'.serialPath = .ok serial ∧
        recordHeader r serial = recordHeader r' serial ∧
        o.fullDropbox = o'.fullDropbox ∧ o.critical = o'.critical ∧ o.fields = o'.fields) := by
  refine ⟨fun e family x h => ?_, fun s r t o text h hr hread hmark => ?_,
    fun s s' r r' t t' o o' h h' hr hr' hread => ?_⟩
  · have hgives := Event.gives_of_extract h
    exact ⟨hgives.oneLine, Family.nodup_of_mem_layouts hgives.keys_mem_layouts⟩
  · obtain ⟨serial, place, _, rfl, hrecord, hlegible⟩ := exists_pairs_of_parse_eq_ok h hr
    obtain rfl := Utf8.encode_injective (Except.ok.inj (hread.symm.trans hrecord))
    rw [Record.pairsIn_whole hlegible]
    exact count_data0_le_one (nodup_keys_outcomeAt s r t place) hmark _
  · obtain ⟨serial, place, hserial, rfl, hrecord, hlegible⟩ := exists_pairs_of_parse_eq_ok h hr
    obtain ⟨serial', place', hserial', rfl, hrecord', hlegible'⟩ :=
      exists_pairs_of_parse_eq_ok h' hr'
    rw [hrecord, hrecord'] at hread
    have hwhole := Utf8.encode_injective (Except.ok.inj hread)
    obtain ⟨hheader, hshown, hcritical⟩ :=
      Record.pairs_inj (Record.whole_inj hlegible hlegible' hwhole)
    obtain ⟨hmark, hfields⟩ := shown_inj (congrArg RecordHeader.tag hheader) hshown
    obtain rfl : serial = serial' := congrArg RecordHeader.serial hheader
    exact ⟨serial, hserial, hserial', hheader, hmark, hcritical, hfields⟩

/-- A trace under its tag and under the tag of a lost entry, and there in two trees by two
settings: the record is the same. -/
theorem record_injective_of_trace :
    let anr := { plainRequest "x" with tag := "ANR" }
    let lost := { plainRequest "x" with tag := "LOST_DROPBOX_ANR" }
    let lenient := { Settings.forRoot "/" with strictness := .lenient }
    let notes := traceFiles.put ["e", "notes"] (.file [0x50])
    (∃ x, Event.extract ⟨traceFiles, "/e", "ANR", false⟩ .anr = .ok x ∧
      x.fields.get? (.data 2) = some "b.c" ∧ x.fields.OneLine ∧ x.fields.keys.Nodup) ∧
    (∃ o text, (parse (.forRoot "/") anr traceFiles).1 = .ok o ∧
      (parse (.forRoot "/") anr traceFiles).2.read "/e/crashfile" = .ok (Utf8.encode text) ∧
      o.fields.get? (.data 2) = some "b.c" ∧
      ((Record.pairsIn text).map Prod.fst).count (FieldKey.data 0).name ≤ 1) ∧
    ∃ o o' serial, (parse (.forRoot "/") lost traceFiles).1 = .ok o ∧
      (parse lenient lost notes).1 = .ok o' ∧ readSerial traceFiles "/uuid.txt" = .ok serial ∧
      o.fullDropbox = true ∧ o.fields.get? (.data 2) = some "b.c" ∧
      o.fullDropbox = o'.fullDropbox ∧ o.critical = o'.critical ∧ o.fields = o'.fields := by
  intro anr lost lenient notes
  obtain ⟨hvalues, hcount, hinj⟩ := record_injective
  have hanr : ∀ v ∈ anr.texts, Text.OneLine v := by decide
  have hlost : ∀ v ∈ lost.texts, Text.OneLine v := by decide
  refine ⟨?_, ?_, ?_⟩
  · have hfound : (Event.extract ⟨traceFiles, "/e", "ANR", false⟩ .anr).toOption.map
        (·.fields.get? (.data 2)) = some (some ("b.c" : Text)) := by
      decide +kernel
    obtain ⟨x, hextract, hframes⟩ := exists_ok_of_map hfound
    exact ⟨x, hextract, hframes, hvalues _ _ _ hextract⟩
  · have hrun : (parse (.forRoot "/") anr traceFiles).1.toOption.map
        (fun o => (o.fullDropbox, o.fields.get? (.data 2))) =
          some (false, some ("b.c" : Text)) := by
      decide +kernel
    obtain ⟨o, ho, hfound⟩ := exists_ok_of_map hrun
    obtain ⟨hmark, hframes⟩ := Prod.mk.inj hfound
    obtain ⟨_, _, _, _, hread, _⟩ := exists_pairs_of_parse_eq_ok ho hanr
    exact ⟨o, _, ho, hread, hframes, hcount _ _ _ _ _ ho hanr hread hmark⟩
  · have hrun : (parse (.forRoot "/") lost traceFiles).1.toOption.map
        (fun o => (o.fullDropbox, o.fields.get? (.data 2))) = some (true, some ("b.c" : Text)) := by
      decide +kernel
    have hrun' : (parse lenient lost notes).1.toOption.map Outcome.tag = some "ANR" := by
      decide +kernel
    have hread : (parse (.forRoot "/") lost traceFiles).2.read "/e/crashfile" =
        (parse lenient lost notes).2.read "/e/crashfile" := by
      decide +kernel
    obtain ⟨o, ho, hfound⟩ := exists_ok_of_map hrun
    obtain ⟨hmark, hframes⟩ := Prod.mk.inj hfound
    obtain ⟨o', ho', -⟩ := exists_ok_of_map hrun'
    obtain ⟨serial, hserial, _, _, hsame⟩ := hinj _ _ _ _ _ _ _ _ ho ho' hlost hlost hread
    exact ⟨o, o', serial, ho, ho', hserial, hmark, hframes, hsame⟩

end Engine

end CrashDigest
