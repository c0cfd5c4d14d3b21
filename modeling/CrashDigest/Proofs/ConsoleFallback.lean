import CrashDigest.Event.Panic
import CrashDigest.Proofs.Fields

/-!
# Which console a panic is read from

The consoles are tried in order, and what comes of it is told by what their
places give, be it nothing, an error or fields. The first fields that tell
something are taken, whatever the places before them gave; without any, the
first error counts; and without that either there was too little data
(`extract_eq`). The trial stops at the fields that it takes, so its other
results are known only where it takes none (`error_tryAll`).
-/

namespace CrashDigest

/-- The value under a name, or the empty text. -/
def Fields.value (f : Fields) (key : FieldKey) : Text :=
  (f.get? key).getD []

theorem Console.hasSignature_iff {f : Fields} :
    hasSignature f = true ↔ f.value (.data 0) ≠ [] ∨ f.value (.data 2) ≠ [] := by
  have hfilled (key : FieldKey) :
      ((f.get? key).any fun value => !value.isEmpty) = true ↔ f.value key ≠ [] := by
    rw [Fields.value]
    cases f.get? key with
    | none => simp
    | some value => simp
  rw [hasSignature, Bool.or_eq_true, hfilled, hfilled]

namespace Panic

/-- What a place for a console gives: nothing if there is none, else its fields or an error. -/
abbrev Reading := Option (Except ArtifactError Fields)

/-- The fields of a console that has a signature or a panic. -/
def telling : Reading → Option Fields
  | some (.ok f) => if f.value (.data 0) ≠ [] ∨ f.value (.data 2) ≠ [] then some f else none
  | _ => none

def failing : Reading → Option ArtifactError
  | some (.error why) => some why
  | _ => none

/-- What the places for consoles of an event give, in the order in which they are tried. -/
def readings (e : Event) : List Reading :=
  ArtifactName.consoles.map fun pattern => (e.find? [pattern]).map (consoleFields e.files)

theorem telling_ok (f : Fields) :
    telling (some (.ok f)) = if Console.hasSignature f then some f else none := by
  simp only [telling, Console.hasSignature_iff]

/-! ## The trial -/

section Trial

variable {κ : Type} {read : κ → Reading} {places : List κ}

theorem found_tryAll : (tryAll read places).found = (places.map read).findSome? telling := by
  induction places with
  | nil => rfl
  | cons place places ih =>
      rw [tryAll, List.map_cons, List.findSome?_cons]
      rcases read place with _ | e | f
      · exact ih
      · exact ih
      · rw [telling_ok]
        cases hsignature : Console.hasSignature f with
        | true => simp only [hsignature, if_true]
        | false => simpa only [hsignature, Bool.false_eq_true, if_false] using ih

/-- The first error is remembered unless a console is taken. -/
theorem error_tryAll (h : (tryAll read places).found = none) :
    (tryAll read places).error = (places.map read).findSome? failing := by
  induction places with
  | nil => rfl
  | cons place places ih =>
      rw [tryAll] at h ⊢
      rw [List.map_cons, List.findSome?_cons]
      rcases hread : read place with _ | e | f
      · rw [hread] at h
        exact ih h
      · rfl
      · rw [hread] at h
        cases hsignature : Console.hasSignature f with
        | true => simp [hsignature] at h
        | false =>
            simp only [hsignature] at h ⊢
            exact ih h

theorem anyConsole_tryAll :
    (tryAll read places).anyConsole = (places.map read).any Option.isSome := by
  induction places with
  | nil => rfl
  | cons place places ih =>
      rw [tryAll, List.map_cons, List.any_cons]
      rcases read place with _ | e | f
      · exact ih
      · rfl
      · cases hsignature : Console.hasSignature f <;> simp [hsignature]

end Trial

/-! ## The fields of a panic -/

/-- The fields of a console under the four names of a panic. -/
def shown (f : Fields) : Fields :=
  ⟨[(.data 0, f.value (.data 0)), (.data 1, f.value (.data 1)), (.data 2, f.value (.data 2)),
    (.data 3, f.value (.data 3))]⟩

/-- Says that no console told anything, and whether there is the header of a panic alone. -/
def untold (headerOnly : Bool) : Fields :=
  ⟨(.data 0, "insufficient data") :: if headerOnly then [(.data 3, "emmc_hdr")] else []⟩

theorem trial_fields {t : Trial} {hasHeader : Bool} (hfound : t.found = none)
    (herror : t.error = none) :
    t.fields hasHeader = .ok (untold (!t.anyConsole && hasHeader)) := by
  rw [Trial.fields, hfound, herror, untold]
  cases (!t.anyConsole && hasHeader) <;> rfl

theorem extract_eq (e : Event) :
    extract e =
      match (readings e).findSome? telling, (readings e).findSome? failing with
      | some f, _ => .ok (.of (shown f))
      | none, some why => .error why
      | none, none =>
          .ok (.of (untold ((readings e).all Option.isNone &&
            (e.find? [ArtifactName.panicHeader]).isSome))) := by
  let read (pattern : Pattern) : Reading := (e.find? [pattern]).map (consoleFields e.files)
  let trial := tryAll read ArtifactName.consoles
  have hfound : trial.found = (readings e).findSome? telling := found_tryAll
  show (trial.fields (e.find? [ArtifactName.panicHeader]).isSome).map Extraction.of = _
  cases htold : (readings e).findSome? telling with
  | some f =>
      rw [htold] at hfound
      rw [Trial.fields, hfound]
      rfl
  | none =>
      rw [htold] at hfound
      have herror : trial.error = (readings e).findSome? failing := error_tryAll hfound
      cases hfailed : (readings e).findSome? failing with
      | some why =>
          rw [hfailed] at herror
          rw [Trial.fields, hfound, herror]
          rfl
      | none =>
          rw [hfailed] at herror
          have hany : trial.anyConsole = (readings e).any Option.isSome := anyConsole_tryAll
          have hall : (readings e).all Option.isNone = !trial.anyConsole := by
            rw [hany, List.all_eq_not_any_not]
            simp
          rw [trial_fields hfound herror, hall]
          rfl

theorem hasSignature_shown {f : Fields} :
    Console.hasSignature (shown f) = true ↔ Console.hasSignature f = true := by
  rw [Console.hasSignature_iff, Console.hasSignature_iff]
  rfl

theorem hasSignature_of_telling {r : Reading} {f : Fields} (h : telling r = some f) :
    Console.hasSignature f = true := by
  rcases r with _ | why | g
  · cases h
  · cases h
  · rw [telling_ok] at h
    obtain ⟨hg, hfound⟩ := Option.ite_none_right_eq_some.mp h
    cases hfound
    exact hg

/-- What the consoles give decides about a panic. So its fields always tell something, and whatever
comes before a console that does, one that does is taken. -/
theorem first_telling_console (e : Event) :
    extract e =
      (match (readings e).findSome? telling, (readings e).findSome? failing with
      | some f, _ => .ok (.of (shown f))
      | none, some why => .error why
      | none, none =>
          .ok (.of (untold ((readings e).all Option.isNone &&
            (e.find? [ArtifactName.panicHeader]).isSome)))) ∧
    (∀ x, extract e = .ok x → Console.hasSignature x.fields = true) ∧
    ∀ reading ∈ readings e, telling reading ≠ none →
      ∃ f, (readings e).findSome? telling = some f ∧ extract e = .ok (.of (shown f)) := by
  refine ⟨extract_eq e, fun x hx => ?_, fun reading hmem htells => ?_⟩
  · rw [extract_eq] at hx
    split at hx
    · next f _ hfound =>
        cases hx
        obtain ⟨reading, _, htells⟩ := List.exists_of_findSome?_eq_some hfound
        exact hasSignature_shown.mpr (hasSignature_of_telling htells)
    · cases hx
    · cases hx
      cases ((readings e).all Option.isNone && (e.find? [ArtifactName.panicHeader]).isSome) <;> rfl
  · have hsome : (readings e).findSome? telling ≠ none := fun hnone =>
      htells (List.findSome?_eq_none_iff.mp hnone reading hmem)
    obtain ⟨f, hf⟩ := Option.ne_none_iff_exists'.mp hsome
    exact ⟨f, hf, by rw [extract_eq, hf]⟩

/-- A console that cannot be opened, one that tells nothing, and one with a panic. -/
def brokenFirst : Event where
  files := ⟨[(["e"], .directory), (["e", "panic_console"], .directory),
    (["e", "console-ramoops"], .file (Utf8.encode "quiet\n")),
    (["e", "last_kmsg"], .file (Utf8.encode "Kernel panic - not syncing: oops\n"))], []⟩
  dir := "/e"
  tag := "IPANIC"
  legacyFabric := false

/-- The one with the panic is taken. -/
theorem extract_brokenFirst :
    let oops : Fields := ⟨[(.data 0, []), (.data 1, []), (.data 2, " oops")]⟩
    (some (.error (.open "/e/panic_console" .isDirectory)) ∈ readings brokenFirst ∧
      some (.ok oops) ∈ readings brokenFirst ∧ telling (some (.ok oops)) ≠ none) ∧
    extract brokenFirst = .ok (.of (shown oops)) := by
  intro oops
  have hreadings : readings brokenFirst =
      [some (.error (.open "/e/panic_console" .isDirectory)), none,
        some (.ok ⟨[(.data 0, []), (.data 1, []), (.data 2, [])]⟩), some (.ok oops)] := by
    decide +kernel
  have hmem : some (.ok oops) ∈ readings brokenFirst := by simp [hreadings]
  have htells : telling (some (.ok oops)) ≠ none := by decide
  obtain ⟨f, hf, hextract⟩ := (first_telling_console brokenFirst).2.2 _ hmem htells
  rw [hreadings] at hf
  obtain rfl : oops = f := Option.some.inj hf
  exact ⟨⟨by simp [hreadings], hmem, htells⟩, hextract⟩

end Panic

end CrashDigest
