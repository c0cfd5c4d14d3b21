import CrashDigest.Proofs.Extracted
import CrashDigest.Proofs.Members
import CrashDigest.Proofs.Replaced
import CrashDigest.Proofs.Selected

/-!
# Artifacts that break off

A compressed artifact that was cut short gives some lines, perhaps all of them,
and a failure behind them. Every scan goes on until the lines end, so it meets
the failure, and what it made of the lines is lost (`BreaksOff.scan`). For most
families that is the end. A panic has other consoles to try, and it may find
its fields in one of them, but never in the one that broke off.

The order in which the consoles are tried does not matter for this. A console
that broke off counts as an error, so in the end either another one was taken
or the error is reported (`found_or_error_of_tryAll`).
-/

namespace CrashDigest

/-- Whether the lines of an artifact end in a failure. -/
def Artifact.BreaksOff (files : FileTree) (path : Path) (why : FileError) : Prop :=
  ∃ lines, Artifact.stream files path = .ok ⟨lines, some why⟩

namespace Artifact.BreaksOff

variable {files : FileTree} {path : Path} {why : FileError}

theorem scan {α : Type} (h : BreaksOff files path why) (scan : List Text → α) :
    Artifact.scan files path scan = .error (.read path why) := by
  obtain ⟨lines, hstream⟩ := h
  rw [Artifact.scan, hstream]
  rfl

theorem consoleFields (h : BreaksOff files path why) :
    Panic.consoleFields files path = .error (.read path why) := by
  obtain ⟨lines, hstream⟩ := h
  rw [Panic.consoleFields, hstream]
  rfl

/-- A compressed artifact breaks off wherever its member was cut. -/
theorem of_cut {front back content : Bytes}
    (hmember : Gzip.member (front ++ back) = .ok (content, [])) (hback : back ≠ [])
    (hname : path.hasGzipExtension = true) (hread : files.read path = .ok front) :
    ∃ why, BreaksOff files path (.damaged why) := by
  obtain ⟨why, hwhy⟩ := Gzip.failure_of_cut hmember hback
  refine ⟨why, Lines.ofBytes (Gzip.decode front).content, ?_⟩
  rw [stream_of_read hread, ofBytes, hname, Bool.true_or, if_pos rfl, lines]
  simp only [hwhy, Option.map_some]

end Artifact.BreaksOff

namespace Event

variable {e : Event} {path : Path} {why : FileError}

theorem extract_of_breaksOff {family : Family} (hfamily : family ≠ .panic)
    (h : Artifact.BreaksOff e.files path why) (hpath : e.find? family.artifacts = some path) :
    e.extract family = .error (.read path why) := by
  have hselected := extract_selected (e := e) hfamily
  generalize e.extract family = result at hselected ⊢
  cases hselected with
  | nothing hfind =>
      rw [hfind] at hpath
      cases hpath
  | scanned hfind _ =>
      obtain rfl := Option.some.inj (hfind.symm.trans hpath)
      exact h.scan _

end Event

/-! ## Consoles -/

namespace Panic

/-- After an error the trial takes a console or reports an error. -/
theorem found_or_error_of_tryAll {κ : Type} {read : κ → Option (Except ArtifactError Fields)}
    {places : List κ} {place : κ} {e : ArtifactError} (hmem : place ∈ places)
    (hread : read place = some (.error e)) :
    (tryAll read places).found ≠ none ∨ (tryAll read places).error ≠ none := by
  induction places with
  | nil => cases hmem
  | cons first places ih =>
      rw [tryAll]
      rcases List.mem_cons.mp hmem with rfl | hrest
      · rw [hread]
        exact Or.inr (Option.some_ne_none e)
      · cases hfirst : read first with
        | none => exact ih hrest
        | some result =>
            cases result with
            | error e => exact Or.inr (Option.some_ne_none e)
            | ok fields =>
                simp only []
                split
                · exact Or.inl (Option.some_ne_none fields)
                · exact ih hrest

/-- What a panic gives when no console told anything. -/
def tooLittle : Fields := Fields.empty.set (.data 0) insufficientData

/-- The fields of a panic are those of a console that was read to its end, or say that no console
told anything; then none broke off. -/
theorem extract_of_breaksOff {e : Event} {path : Path} {why : FileError} {x : Extraction}
    (hbreaks : Artifact.BreaksOff e.files path why) (h : extract e = .ok x) :
    (∃ pattern ∈ ArtifactName.consoles, ∃ path' found, path' ≠ path ∧
      e.find? [pattern] = some path' ∧ consoleFields e.files path' = .ok found ∧
      x = .of (filled found)) ∨
    (∀ pattern ∈ ArtifactName.consoles, e.find? [pattern] ≠ some path) ∧
      (x = .of tooLittle ∨ x = .of (tooLittle.set (.data 3) "emmc_hdr")) := by
  simp only [extract] at h
  obtain ⟨fields, hfields, rfl⟩ := exists_of_map_eq_ok h
  unfold Trial.fields at hfields
  split at hfields
  · next _ found hfound =>
      cases hfields
      obtain ⟨pattern, hmem, hread⟩ := exists_read_of_tryAll hfound
      obtain ⟨path', hpath', hconsole⟩ := Option.map_eq_some_iff.mp hread
      refine Or.inl ⟨pattern, hmem, path', found, ?_, hpath', hconsole, rfl⟩
      rintro rfl
      rw [hbreaks.consoleFields] at hconsole
      cases hconsole
  · cases hfields
  · next hfound herror =>
      cases hfields
      refine Or.inr ⟨fun pattern hmem hpath => ?_, ?_⟩
      · let read (pattern : Pattern) := (e.find? [pattern]).map (consoleFields e.files)
        have hread : read pattern = some (.error (.read path why)) := by
          show (e.find? [pattern]).map _ = _
          rw [hpath, Option.map_some, hbreaks.consoleFields]
        rcases found_or_error_of_tryAll hmem hread with hne | hne
        · exact hne hfound
        · exact hne herror
      · split
        · exact Or.inr rfl
        · exact Or.inl rfl

end Panic

/-- No compressed artifact that was cut short is accepted, wherever it was cut: it cannot be
scanned, an extraction that selects it fails, and a panic takes its fields from another console if
any. -/
theorem Event.cut_not_accepted {front back content : Bytes} {files : FileTree} {path : Path}
    (hmember : Gzip.member (front ++ back) = .ok (content, [])) (hback : back ≠ [])
    (hname : path.hasGzipExtension = true) (hread : files.read path = .ok front) :
    ∃ why : Gzip.Failure,
      (∀ (α : Type) (scan : List Text → α),
        Artifact.scan files path scan = .error (.read path (.damaged why))) ∧
      ∀ e : Event, e.files = files →
        (∀ family, family ≠ .panic → e.find? family.artifacts = some path →
          e.extract family = .error (.read path (.damaged why))) ∧
        ∀ x, e.extract .panic = .ok x →
          (∃ pattern ∈ ArtifactName.consoles, ∃ path' found, path' ≠ path ∧
            e.find? [pattern] = some path' ∧ Panic.consoleFields files path' = .ok found ∧
            x = .of (Panic.filled found)) ∨
          (∀ pattern ∈ ArtifactName.consoles, e.find? [pattern] ≠ some path) ∧
            (x = .of Panic.tooLittle ∨ x = .of (Panic.tooLittle.set (.data 3) "emmc_hdr")) := by
  obtain ⟨why, hbreaks⟩ := Artifact.BreaksOff.of_cut hmember hback hname hread
  refine ⟨why, fun α scan => hbreaks.scan scan, ?_⟩
  rintro e rfl
  refine ⟨fun family hfamily hpath => ?_, fun x hx => ?_⟩
  · exact Event.extract_of_breaksOff hfamily hbreaks hpath
  · exact Panic.extract_of_breaksOff hbreaks hx

/-- A trace whose member lost its trailer is not accepted, though all of its text is there. -/
theorem Event.cut_not_accepted_anr :
    let whole : Bytes := [0x1F, 0x8B, 0x08, 0x00, 0x00, 0x00, 0x00, 0x00, 0x00, 0x03, 0x01, 0x08,
      0x00, 0xF7, 0xFF, 0x44, 0x41, 0x54, 0x41, 0x30, 0x3D, 0x61, 0x0A, 0x31, 0x6B, 0xAE, 0x98,
      0x08, 0x00, 0x00, 0x00]
    let path : Path := "/e/x_app_anr.txt.gz"
    let files : FileTree :=
      ⟨[(["e"], .directory), (["e", "x_app_anr.txt.gz"], .file (whole.take 23))], []⟩
    Gzip.member (whole.take 23 ++ whole.drop 23) = .ok (Utf8.encode "DATA0=a\n", []) ∧
    whole.drop 23 ≠ [] ∧ path.hasGzipExtension = true ∧
    files.read path = .ok (whole.take 23) ∧
    ∃ why, (⟨files, "/e", "ANR", false⟩ : Event).extract .anr =
      .error (.read path (.damaged why)) := by
  intro whole path files
  have hmember : Gzip.member (whole.take 23 ++ whole.drop 23) =
      .ok (Utf8.encode "DATA0=a\n", []) := by decide +kernel
  have hname : path.hasGzipExtension = true := by decide +kernel
  obtain ⟨why, _, hextract⟩ :=
    cut_not_accepted hmember (by decide) hname (by rfl : files.read path = .ok _)
  refine ⟨hmember, by decide, hname, by rfl, why, ?_⟩
  exact (hextract ⟨files, "/e", "ANR", false⟩ rfl).1 .anr (by decide) (by decide +kernel)

end CrashDigest
