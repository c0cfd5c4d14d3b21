import CrashDigest.Text.Blank

/-!
# Tags

The tag of an event says what kind of crash it was. A tag chooses the family
of artifacts that are read for it; four old tags are other names of plain ones
and say besides that the entry of the dropbox was lost. Tags in the table of
critical tags make a record critical whatever was found.
-/

namespace CrashDigest

/-- A kind of crash whose artifacts are read alike. -/
inductive Family where
  /-- Consoles of kernel panics and lockups. -/
  | panic
  /-- Errors of the system bus and its firmware. -/
  | fabric
  /-- Crashes of native code. -/
  | tombstone
  /-- Java exceptions. -/
  | java
  /-- Applications that do not answer. -/
  | anr
  /-- Reports of the system's watchdog. -/
  | watchdog
  /-- Failed assertions. -/
  | assertion
  /-- Panics of the modem. -/
  | modemPanic
  /-- Traps of the virtual machine. -/
  | coredump
  /-- Values that another program has already extracted. -/
  | generic
  deriving DecidableEq, Repr

/-- The family's name in a summary. -/
def Family.name : Family → Text
  | .panic => "panic"
  | .fabric => "fabric"
  | .tombstone => "tombstone"
  | .java => "java"
  | .anr => "anr"
  | .watchdog => "watchdog"
  | .assertion => "assertion"
  | .modemPanic => "modem_panic"
  | .coredump => "coredump"
  | .generic => "generic"

namespace Tag

/-- The tags of the fabric family. -/
def fabricTags : List Text :=
  ["FABRICERR", "MEMERR", "INSTERR", "SRAMECCERR", "HWWDTLOGERR", "FABRIC_FAKE", "FIRMWARE",
   "NORTHFUSEERR", "KERNELWDT", "KERNEHANG", "SCUWDT", "FABRICXML", "PLLLOCKERR", "UNDEFL1ERR",
   "PUNITMBBTIMEOUT", "VOLTKERR", "VOLTSAIATKERR", "LPEINTERR", "PSHINTERR", "FUSEINTERR",
   "IPC2ERR", "KWDTIPCERR"]

/-- The tags of all the families. -/
def families : List (Family × List Text) :=
  [(.panic, ["IPANIC", "IPANIC_SWWDT", "IPANIC_HWWDT", "IPANIC_FAKE", "IPANIC_SWWDT_FAKE"]),
   (.java, ["JAVACRASH"]),
   (.anr, ["ANR"]),
   (.watchdog, ["UIWDT"]),
   (.assertion, ["WTF"]),
   (.tombstone, ["TOMBSTONE", "JAVA_TOMBSTONE"]),
   (.modemPanic, ["MPANIC", "MPANIC_FAKE"]),
   (.generic, ["APIMR", "APCOREDUMP"]),
   (.coredump, ["VMMTRAP"]),
   (.fabric, fabricTags)]

/-- The family of a tag; other tags have no artifacts. -/
def family? (tag : Text) : Option Family :=
  (families.find? fun (_, tags) => tags.contains tag).map Prod.fst

/-- No tag is in two families, so their order does not matter. -/
theorem family?_eq_some_iff {tag : Text} {family : Family} :
    family? tag = some family ↔ ∃ tags, (family, tags) ∈ families ∧ tag ∈ tags := by
  constructor
  · intro h
    obtain ⟨⟨_, tags⟩, hfound, rfl⟩ := Option.map_eq_some_iff.mp h
    have htag := List.find?_some hfound
    exact ⟨tags, List.mem_of_find?_eq_some hfound, List.contains_iff_mem.mp htag⟩
  · rintro ⟨tags, hfamily, htag⟩
    have hfirst : ∀ e ∈ families, ∀ tag ∈ e.2, family? tag = some e.1 := by decide
    exact hfirst _ hfamily tag htag

/-- Whether a tag belongs to the fabric family. -/
def isFabric (tag : Text) : Bool :=
  fabricTags.contains tag

theorem isFabric_iff {tag : Text} : isFabric tag = true ↔ family? tag = some .fabric := by
  have hfabric : ∀ tags, (Family.fabric, tags) ∈ families ↔ tags = fabricTags := by
    simp [families]
  simp only [family?_eq_some_iff, hfabric, exists_eq_left, isFabric, List.contains_iff_mem]

/-- The old tags of events whose dropbox entry was lost, with the plain tags. -/
def aliases : List (Text × Text) :=
  [("LOST_DROPBOX_JAVACRASH", "JAVACRASH"), ("LOST_DROPBOX_ANR", "ANR"),
   ("LOST_DROPBOX_UIWDT", "UIWDT"), ("LOST_DROPBOX_WTF", "WTF")]

/-- A plain tag, and whether the dropbox entry was lost. -/
structure Plain where
  tag : Text
  fullDropbox : Bool
  deriving DecidableEq, Repr

/-- The plain tag behind a tag as it was given. -/
def normalize (raw : Text) : Plain :=
  match aliases.lookup raw with
  | some tag => ⟨tag, true⟩
  | none => ⟨raw, false⟩

/-- The tags that are critical unless the configuration says otherwise. -/
def defaultCritical : List Text :=
  ["IPANIC", "FABRICERR", "IPANIC_SWWDT", "IPANIC_HWWDT", "HWWDTLOGERR", "MSHUTDOWN", "UIWDT",
   "WDT", "VMMTRAP", "VMM_UNHANDLED", "SECPANIC", "MPANIC", "SWWDT"]

/-- Whether a table of critical tags holds this tag; blanks around the tag do not matter. -/
def isCritical (tag : Text) (table : List Text) : Bool :=
  table.contains tag.trim

end Tag

end CrashDigest
