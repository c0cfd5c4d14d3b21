import CrashDigest.CommandLine
import CrashDigest.Proofs.SettingsText
import CrashDigest.Proofs.Utf8Codec

/-!
# The layers of the settings

The settings of a run are three layers, the environment under the settings file
under the command line. A setting is looked for in the layers from the top down,
and each has its field in `Layered`.

The path of the serial file is the one that goes another way. A layer that sets the
root of the logs moves the serial file along, unless it sets that too, and so a root
on the command line wins over a serial file that is set in the settings file.

File and command line are laid over what is below them by one function, `laidOver`; the
pattern and the two ways to have no owner are all that is particular to one of them.

Whether a text is a pattern is asked of the dialect, whichever it is. The only thing
known of it is that the default is one, so the pattern of every run is.
-/

namespace CrashDigest

namespace WrittenPattern

variable [Dialect] {text : Text}

theorem ofText?_eq_none_iff : ofText? text = none ↔ ¬ Dialect.IsPattern text := by
  simp [ofText?]

theorem eq_of_ofText? {w : WrittenPattern} (h : ofText? text = some w) :
    w.text = text ∧ Dialect.IsPattern text := by
  obtain ⟨hpattern, hw⟩ := Option.ite_none_right_eq_some.mp h
  exact ⟨(congrArg WrittenPattern.text (Option.some.inj hw)).symm, hpattern⟩

end WrittenPattern

namespace SettingsFile

variable {f file : SettingsFile} {s t : Settings} {files : FileTree} {path : Path} {text : Text}

/-! ## One layer -/

/-- The settings with those of the file laid over them, but for the pattern. -/
def laidOver (f : SettingsFile) (s : Settings) : Settings :=
  { s with
    logsRoot := f.logsRoot.getD s.logsRoot
    serialPath :=
      (f.serial.or (f.logsRoot.map fun root => root.join Settings.serialName)).getD s.serialPath
    strictness := f.strictness.getD s.strictness
    fabricLayout := f.fabricLayout.getD s.fabricLayout
    legacyBoards := f.legacyBoards.getD s.legacyBoards
    criticalTags := f.criticalTags.getD s.criticalTags
    owner := (f.owner.map ownerOf).getD s.owner }

theorem apply_eq [Dialect] (f : SettingsFile) (s : Settings) :
    f.apply s = match f.skipPattern with
      | none => .ok (f.laidOver s)
      | some text =>
          match WrittenPattern.ofText? text with
          | some removable => .ok { f.laidOver s with removable }
          | none => .error ⟨text⟩ := by
  obtain ⟨logsRoot, serial, -, -, -, -, owner, -⟩ := f
  cases logsRoot <;> cases serial <;> cases owner <;> rfl

theorem apply_eq_error_iff [Dialect] : (∃ e, f.apply s = .error e) ↔
    ∃ pattern, f.skipPattern = some pattern ∧ ¬ Dialect.IsPattern pattern := by
  rw [apply_eq]
  cases f.skipPattern with
  | none => simp
  | some text =>
      simp only [Option.some.injEq, exists_eq_left', ← WrittenPattern.ofText?_eq_none_iff]
      cases WrittenPattern.ofText? text <;> simp

theorem exists_of_apply [Dialect] (h : f.apply s = .ok t) :
    ∃ removable, t = { f.laidOver s with removable } ∧
      removable.text = f.skipPattern.getD s.removable.text ∧
      (Dialect.IsPattern s.removable.text → Dialect.IsPattern removable.text) := by
  rw [apply_eq] at h
  cases hpattern : f.skipPattern with
  | none =>
      rw [hpattern] at h
      cases h
      exact ⟨s.removable, rfl, rfl, id⟩
  | some text =>
      simp only [hpattern] at h
      cases hremovable : WrittenPattern.ofText? text with
      | none => simp [hremovable] at h
      | some removable =>
          simp only [hremovable, Except.ok.injEq] at h
          obtain ⟨htext, hvalid⟩ := WrittenPattern.eq_of_ofText? hremovable
          exact ⟨removable, h.symm, htext, fun _ => htext ▸ hvalid⟩

theorem getD_getD {α : Type} (o : Option α) (a : α) : o.getD (o.getD a) = o.getD a := by
  cases o <;> rfl

theorem laidOver_laidOver (f : SettingsFile) (s : Settings) (removable : WrittenPattern) :
    f.laidOver { f.laidOver s with removable } = { f.laidOver s with removable } := by
  simp only [laidOver, getD_getD]

/-- A file that is laid over itself changes nothing more. -/
theorem apply_apply [Dialect] (f : SettingsFile) (s : Settings) :
    (f.apply s).bind f.apply = f.apply s := by
  cases h : f.apply s with
  | error e => rfl
  | ok t =>
      obtain ⟨removable, rfl, -, -⟩ := exists_of_apply h
      -- the pattern is one as it was before, and the rest is laid over itself
      rw [apply_eq] at h
      rw [Except.bind, apply_eq, laidOver_laidOver]
      cases hpattern : f.skipPattern with
      | none => rfl
      | some text =>
          simp only [hpattern] at h ⊢
          cases hremovable : WrittenPattern.ofText? text with
          | none => simp [hremovable] at h
          | some removable' => simpa only [hremovable] using h

/-! ## The file in use -/

theorem read_of_text (h : files.read path = .ok (Utf8.encode text)) :
    read files path = (ofText text).mapError (.invalid path) := by
  rw [read, h]
  simp only [Utf8.decode?_eq_some_iff.mpr rfl]
  cases ofText text <;> rfl

theorem exists_read_of_not_text (h : ¬ ∃ text, files.read path = .ok (Utf8.encode text)) :
    ∃ why, read files path = .error (.unreadable path why) := by
  rw [read]
  cases hread : files.read path with
  | error why => exact ⟨why, rfl⟩
  | ok data =>
      have hdata : Utf8.decode? data = none := by
        refine Option.eq_none_iff_forall_ne_some.mpr fun text htext => h ⟨text, ?_⟩
        rw [hread, Utf8.decode?_eq_some_iff.mp htext]
      exact ⟨.notText, by simp only [hdata]⟩

/-- The settings that a file tree gives: those of the file in use, or none without one. -/
inductive Loads (env : Environment) (files : FileTree) (named : Option Path) : SettingsFile → Prop
  | nothing (h : env.configPath? files named = none) : Loads env files named .empty
  | file {path : Path} {text : Text} {file : SettingsFile}
      (hpath : env.configPath? files named = some path)
      (hread : files.read path = .ok (Utf8.encode text)) (hfile : ofText text = .ok file) :
      Loads env files named file

/-- Why a settings file is of no use. -/
inductive Broken [Dialect] (files : FileTree) (path : Path) : Prop
  | unreadable (h : ¬ ∃ text, files.read path = .ok (Utf8.encode text))
  | choice {text : Text} (hread : files.read path = .ok (Utf8.encode text))
      (h : HasInvalidChoice text)
  | pattern {text pattern : Text} {file : SettingsFile}
      (hread : files.read path = .ok (Utf8.encode text)) (hfile : ofText text = .ok file)
      (hpattern : file.skipPattern = some pattern) (h : ¬ Dialect.IsPattern pattern)

/-- Bytes are the encoding of one text at most. -/
theorem eq_of_read {text' : Text} (h : files.read path = .ok (Utf8.encode text))
    (h' : files.read path = .ok (Utf8.encode text')) : text' = text :=
  Utf8.encode_injective (Except.ok.inj (h'.symm.trans h))

/-- A file of use is a text whose choices there are and whose pattern is one. -/
theorem broken_iff_of_text [Dialect] (hread : files.read path = .ok (Utf8.encode text))
    (s : Settings) :
    Broken files path ↔ ∀ file, ofText text = .ok file → ∃ e, file.apply s = .error e := by
  constructor
  · rintro (hnone | ⟨hread', hinvalid⟩ | ⟨hread', hfile', hpattern, hnone⟩) file hfile
    · exact absurd ⟨text, hread⟩ hnone
    · rw [eq_of_read hread hread', ← ofText_eq_error_iff] at hinvalid
      obtain ⟨e, he⟩ := hinvalid
      cases he.symm.trans hfile
    · rw [eq_of_read hread hread'] at hfile'
      cases hfile'.symm.trans hfile
      exact apply_eq_error_iff.mpr ⟨_, hpattern, hnone⟩
  · intro h
    cases hfile : ofText text with
    | error e => exact .choice hread ((ofText_eq_error_iff text).mp ⟨e, hfile⟩)
    | ok file =>
        obtain ⟨pattern, hpattern, hnone⟩ := apply_eq_error_iff.mp (h file hfile)
        exact .pattern hread hfile hpattern hnone

variable {env : Environment} {named : Option Path}

theorem load_of_configPath? (h : env.configPath? files named = some path) :
    load env files named = read files path := by
  rw [load, h]

theorem loads_of_load (h : load env files named = .ok file) : Loads env files named file := by
  cases hpath : env.configPath? files named with
  | none =>
      simp only [load, hpath, Except.ok.injEq] at h
      exact h ▸ .nothing hpath
  | some path =>
      rw [load_of_configPath? hpath] at h
      by_cases htext : ∃ text, files.read path = .ok (Utf8.encode text)
      · obtain ⟨text, hread⟩ := htext
        rw [read_of_text hread] at h
        cases hfile : ofText text with
        | error e => simp [hfile, Except.mapError] at h
        | ok file' =>
            simp only [hfile, Except.mapError, Except.ok.injEq] at h
            exact .file hpath hread (h ▸ hfile)
      · obtain ⟨why, hwhy⟩ := exists_read_of_not_text htext
        rw [hwhy] at h
        cases h

end SettingsFile

namespace CommandLine.Invocation

open SettingsFile

variable {i : Invocation} {env : Environment} {files : FileTree} {path : Path} {s t : Settings}

/-! ## All layers -/

/-- The settings of the command line, as those of a file. -/
def asFile (i : Invocation) : SettingsFile :=
  { SettingsFile.empty with
    logsRoot := i.logsRoot
    serial := i.serial
    strictness := i.strictness
    fabricLayout := i.fabricLayout }

theorem override_eq (i : Invocation) (s : Settings) :
    i.override s =
      { i.asFile.laidOver s with owner := if i.noChown = true then none else s.owner } := by
  obtain ⟨-, -, logsRoot, serial, -, -, -, -, -⟩ := i
  cases logsRoot <;> cases serial <;> rfl

/-- Where each setting comes from, with a command line above a settings file above the defaults for
a root of the logs. -/
structure Layered [Dialect] (i : Invocation) (file : SettingsFile) (root : Path)
    (s : Settings) : Prop where
  logsRoot : s.logsRoot = (i.logsRoot.or file.logsRoot).getD root
  /-- A root above goes before a serial file below. -/
  serialPath : s.serialPath =
    (i.serial.or ((i.logsRoot.map fun dir => dir.join "uuid.txt").or
      (file.serial.or (file.logsRoot.map fun dir => dir.join "uuid.txt")))).getD
      (root.join "uuid.txt")
  strictness : s.strictness = (i.strictness.or file.strictness).getD .strict
  fabricLayout : s.fabricLayout = (i.fabricLayout.or file.fabricLayout).getD .byBoard
  legacyBoards : s.legacyBoards = file.legacyBoards.getD ["redhookbay", "victoriabay"]
  criticalTags : s.criticalTags = file.criticalTags.getD Tag.defaultCritical
  no_owner_iff : s.owner = none ↔ i.noChown = true ∨
    ∃ value, file.owner = some value ∧
      value.map Char.toLower ∈ (["", "none", "off"] : List Text)
  owner : ∀ owner, s.owner = some owner → owner = file.owner.getD "system.log"
  removable : s.removable.text = file.skipPattern.getD ".*mnt.*sdcard.*"
  isPattern : Dialect.IsPattern s.removable.text

theorem ownerOf_eq_none_iff {value : Text} :
    ownerOf value = none ↔ value.map Char.toLower ∈ nobody := by
  rw [ownerOf]
  split
  · next h => simpa using h
  · next h => simpa using h

/-- The owner that a command line leaves to the owner of a file, above one by default. -/
theorem owner_eq_none_iff {noChown : Bool} {owner : Option Text} {name : Text} :
    (if noChown = true then none else (owner.map ownerOf).getD (some name)) = none ↔
      noChown = true ∨ ∃ value, owner = some value ∧
        value.map Char.toLower ∈ (["", "none", "off"] : List Text) := by
  cases noChown with
  | true => simp
  | false =>
      cases owner with
      | none => simp
      | some value =>
          simp only [Bool.false_eq_true, false_or, Option.some.injEq, exists_eq_left']
          exact ownerOf_eq_none_iff

theorem owner_eq_some {noChown : Bool} {owner : Option Text} {name result : Text}
    (h : (if noChown = true then none else (owner.map ownerOf).getD (some name)) = some result) :
    result = owner.getD name := by
  cases noChown with
  | true => simp at h
  | false =>
      cases owner with
      | none => exact (Option.some.inj h).symm
      | some value =>
          have howner : ownerOf value = some result := h
          exact (Option.ite_none_left_eq_some.mp howner).2.symm ▸ rfl

theorem layered_override [Dialect] {file : SettingsFile} {root : Path}
    (h : file.apply (.forRoot root) = .ok t) : i.Layered file root (i.override t) := by
  obtain ⟨removable, rfl, hremovable, hvalid⟩ := exists_of_apply h
  rw [override_eq]
  exact
    { logsRoot := by rw [Option.getD_or]; rfl
      serialPath := by rw [← Option.or_assoc, Option.getD_or]; rfl
      strictness := by rw [Option.getD_or]; rfl
      fabricLayout := by rw [Option.getD_or]; rfl
      legacyBoards := rfl
      criticalTags := rfl
      no_owner_iff := owner_eq_none_iff
      owner := fun _ => owner_eq_some
      removable := hremovable
      isPattern := hvalid Dialect.isSome_media }

theorem settings_eq_error_iff [Dialect] : (∃ e, i.settings env files = .error e) ↔
    ∃ path, env.configPath? files i.config = some path ∧ Broken files path := by
  cases hpath : env.configPath? files i.config with
  | none => simp [settings, load, hpath, apply_eq, SettingsFile.empty]
  | some path =>
      simp only [Option.some.injEq, exists_eq_left']
      have hload := load_of_configPath? hpath
      by_cases htext : ∃ text, files.read path = .ok (Utf8.encode text)
      · obtain ⟨text, hread⟩ := htext
        rw [settings, hload, read_of_text hread, broken_iff_of_text hread env.settings]
        cases ofText text with
        | error e => simp [Except.mapError]
        | ok file =>
            simp only [Except.mapError, Except.ok.injEq, forall_eq']
            cases file.apply env.settings <;> simp
      · obtain ⟨why, hwhy⟩ := exists_read_of_not_text htext
        rw [settings, hload, hwhy]
        exact iff_of_true ⟨_, rfl⟩ (.unreadable htext)

theorem layered_of_settings [Dialect] (h : i.settings env files = .ok s) :
    ∃ file, Loads env files i.config file ∧
      i.Layered file ((env.logsRoot.bind notBlank).getD "/logs") s := by
  rw [settings] at h
  cases hload : load env files i.config with
  | error e => simp [hload] at h
  | ok file =>
      simp only [hload] at h
      cases happly : file.apply env.settings with
      | error e => simp [happly] at h
      | ok t =>
          simp only [happly, Except.ok.injEq] at h
          exact ⟨file, loads_of_load hload, h ▸ layered_override happly⟩

/-- A run has settings unless its settings file is broken, each comes from the layer that `Layered`
names, and a file that is laid over twice makes the settings that it makes once. This holds in any
dialect. -/
theorem settings_layers [Dialect] (i : Invocation) (env : Environment) (files : FileTree) :
    ((∃ e, i.settings env files = .error e) ↔
      ∃ path, env.configPath? files i.config = some path ∧ Broken files path) ∧
    (∀ s, i.settings env files = .ok s → ∃ file, Loads env files i.config file ∧
      i.Layered file ((env.logsRoot.bind notBlank).getD "/logs") s) ∧
    ∀ (file : SettingsFile) (s : Settings), (file.apply s).bind file.apply = file.apply s :=
  ⟨settings_eq_error_iff, fun _ => layered_of_settings, apply_apply⟩

/-- The settings file `/c`, with a pattern of its own. -/
def patternFiles (pattern : Text) : FileTree where
  nodes := [(["c"], .file (Utf8.encode
    (("[paths]\nlogs_root=/d\nserial=/s\n[ownership]\nowner=Off\nskip_pattern=" : Text) ++
      pattern)))]
  workingDirectory := []

/-- A run with a root of its own over that file. -/
def rootedRun : Invocation where
  request := ⟨"/e", "IPANIC", [], [], [], [], [], [], [], false⟩
  config := some "/c"
  logsRoot := some "/l"
  serial := none
  strictness := none
  fabricLayout := some .legacy
  noChown := false
  json := false
  verbosity := 0

/-- The root of the command line moves the serial file of the settings file. A pattern that is none
leaves the run without settings. -/
theorem settings_layers_rootedRun :
    let env : Environment := ⟨none, none, none, none⟩
    (∃ s, rootedRun.settings env (patternFiles "^/media/") = .ok s ∧
      s.serialPath = "/l/uuid.txt" ∧ s.removable.text = "^/media/" ∧
      ∃ file, Loads env (patternFiles "^/media/") (some "/c") file ∧
        rootedRun.Layered file "/logs" s) ∧
    Broken (patternFiles "(") "/c" := by
  intro env
  constructor
  · obtain ⟨-, hlayers, -⟩ := settings_layers rootedRun env (patternFiles "^/media/")
    exact ⟨_, rfl, rfl, rfl, hlayers _ rfl⟩
  · obtain ⟨herror, -, -⟩ := settings_layers rootedRun env (patternFiles "(")
    have he : rootedRun.settings env (patternFiles "(") = .error (.skipPattern "(") := by rfl
    obtain ⟨path, hpath, hbroken⟩ := herror.mp ⟨_, he⟩
    obtain rfl : "/c" = path := Option.some.inj hpath
    exact hbroken

end CommandLine.Invocation

end CrashDigest
