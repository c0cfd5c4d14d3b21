import CrashDigest.Dump.Coredump
import CrashDigest.Dump.Fabric
import CrashDigest.Dump.Tombstone
import CrashDigest.Dump.Trace
import CrashDigest.Event.Panic

/-!
# Extraction

Each family has its artifact, found by name, and a scan for it. An event whose
artifact is missing gives no fields, which is no error; an artifact that cannot
be read is. Compressed copies come before plain ones.
-/

namespace CrashDigest.Event

/-- What `fields` makes of the lines of the first artifact found, or nothing without one. -/
def fromArtifact (e : Event) (patterns : List Pattern) (fields : List Text → Fields) :
    Except ArtifactError Extraction :=
  match e.find? patterns with
  | none => .ok .empty
  | some path => (e.scan path fields).map .of

/-- Errors of the system bus. -/
def fabric (e : Event) : Except ArtifactError Extraction :=
  e.fromArtifact [ArtifactName.fabric] fun lines =>
    if e.legacyFabric then Fabric.scanLegacy lines
    else Fabric.scanSectioned (e.tag = ("SCUWDT" : Text)) lines

/-- Native crashes. A crash of the system server under the tag for native crashes is critical. -/
def tombstone (e : Event) : Except ArtifactError Extraction :=
  match e.find? ArtifactName.tombstones with
  | none => .ok .empty
  | some path =>
      (e.scan path Tombstone.scan).map fun summary =>
        ⟨Tombstone.fields summary,
         e.tag = ("TOMBSTONE" : Text) ∧ summary.process = ("system_server" : Text)⟩

/-- The reports of Java crashes in the order in which they are looked for. -/
def javaReports : List (JavaCrashKind × List Pattern) :=
  [(.app, ArtifactName.appCrash), (.systemServer, ArtifactName.systemServerCrash),
   (.appNative, ArtifactName.appNativeCrash)]

/-- Java crashes: the first report there is. -/
def java (e : Event) : Except ArtifactError Extraction :=
  match javaReports.findSome? fun (kind, patterns) => (e.find? patterns).map (kind, ·) with
  | none => .ok .empty
  | some (kind, path) =>
      (e.scan path JavaCrash.scan).map fun report => .of (JavaCrash.fields kind report)

/-- Applications that do not answer. -/
def anr (e : Event) : Except ArtifactError Extraction :=
  e.fromArtifact ArtifactName.anr fun lines => Trace.anrFields (Trace.scanAnr lines)

/-- Reports of the watchdog. -/
def watchdog (e : Event) : Except ArtifactError Extraction :=
  e.fromArtifact ArtifactName.watchdog fun lines =>
    Trace.watchdogFields (Trace.scanWatchdog lines)

/-- Failed assertions. -/
def assertion (e : Event) : Except ArtifactError Extraction :=
  e.fromArtifact ArtifactName.assertion fun lines =>
    Trace.assertionFields (Trace.scanHeader lines)

/-- Values that another program has extracted. -/
def generic (e : Event) : Except ArtifactError Extraction :=
  e.fromArtifact ArtifactName.passed Coredump.scanPassed

/-- Traps; without a summary, what another program has extracted. -/
def coredump (e : Event) : Except ArtifactError Extraction :=
  match e.find? ArtifactName.trapSummary with
  | none => e.generic
  | some path => (e.scan path Coredump.trapFields).map .of

/-- Panics of the modem; without a summary, what another program has extracted. -/
def modemPanic (e : Event) : Except ArtifactError Extraction :=
  match e.find? ArtifactName.modemSummary with
  | none => e.generic
  | some path => (e.scan path Coredump.modemFields).map .of

/-- What the extraction of a family gives. -/
def extract (e : Event) : Family → Except ArtifactError Extraction
  | .panic => Panic.extract e
  | .fabric => e.fabric
  | .tombstone => e.tombstone
  | .java => e.java
  | .anr => e.anr
  | .watchdog => e.watchdog
  | .assertion => e.assertion
  | .modemPanic => e.modemPanic
  | .coredump => e.coredump
  | .generic => e.generic

end CrashDigest.Event
