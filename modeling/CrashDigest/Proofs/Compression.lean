import CrashDigest.Proofs.Members
import CrashDigest.Proofs.Replaced
import CrashDigest.Proofs.Sniffing

/-!
# Compression does not show

An artifact may be compressed without its name saying so, because its first
bytes do. So compressing a file of an event changes nothing about its lines as
long as nothing mistook the plain file for a compressed one, which its name and
its first bytes rule out. All else is `Holds.record_put`: a run sees the lines
of its artifacts and no more.

A line may start in one member and end in the next, which is why contents are
put together before they are cut into lines.
-/

namespace CrashDigest

namespace Artifact

variable {path : Path} {data content : Bytes}

theorem lines_of_encodes (h : Gzip.Encodes data content) (path : Path) :
    (ofBytes path data).lines = ⟨Lines.ofBytes content, none⟩ := by
  rw [ofBytes, h.looksCompressed, Bool.or_true, if_pos rfl, h.decode]
  rfl

theorem ofBytes_of_plain (hname : path.hasGzipExtension = false)
    (hdata : Gzip.looksCompressed data = false) : ofBytes path data = ⟨false, data, none⟩ := by
  rw [ofBytes, hname, hdata]
  rfl

end Artifact

namespace Engine

variable {s : Settings} {r : Request} {t : FileTree} {home : Place} {name : Text}
  {data content : Bytes}

theorem Holds.record_compressed (h : Holds r t home name content)
    (hserial : t.follow s.serialPath ≠ .ok (home ++ [name]))
    (hname : Path.hasGzipExtension name = false) (hcontent : Gzip.looksCompressed content = false)
    (hdata : Gzip.Encodes data content) :
    (parse s r (t.put (home ++ [name]) (.file data))).1 = (parse s r t).1 ∧
      (parse s r (t.put (home ++ [name]) (.file data))).2.open? (recordPath r) =
        (parse s r t).2.open? (recordPath r) := by
  refine h.record_put hserial fun pattern hpattern hmatch => ?_
  have hpath : (r.dir.join name).hasGzipExtension = false := by
    rw [Path.hasGzipExtension_join (FileTree.ne_nil_of_follow h.follow) (h.names name h.listed)
      (Tag.ne_step_of_isIn hpattern hmatch), hname]
  rw [Artifact.lines_of_encodes hdata, Artifact.ofBytes_of_plain hpath hcontent]
  rfl

/-- What an artifact gives is what it stands for: the lines of the contents of its members, one
behind the other, under any name, and of a plain file its bytes. So a run does not notice that one
of its files was compressed. Its reading of the head of a file does not show either. -/
theorem compression_transparent :
    (∀ (files : FileTree) (path : Path) (data content : Bytes), Gzip.Encodes data content →
      files.read path = .ok data →
      Artifact.stream files path = .ok ⟨Lines.ofBytes content, none⟩) ∧
    (∀ (s : Settings) (r : Request) (t : FileTree) (home : Place) (name : Text)
      (data content : Bytes), Holds r t home name content →
      t.follow s.serialPath ≠ .ok (home ++ [name]) → Path.hasGzipExtension name = false →
      Gzip.looksCompressed content = false → Gzip.Encodes data content →
      (parse s r (t.put (home ++ [name]) (.file data))).1 = (parse s r t).1 ∧
        (parse s r (t.put (home ++ [name]) (.file data))).2.open? (recordPath r) =
          (parse s r t).2.open? (recordPath r)) ∧
    (∀ (files : FileTree) (path : Path) (data : Bytes), path.hasGzipExtension = false →
      Gzip.looksCompressed data = false → files.read path = .ok data →
      Artifact.open? files path = .ok ⟨false, data, none⟩) ∧
    ∀ (path : Path) (data : Bytes), (∃ head rest, Sniffed 3 data head rest) ∧
      ∀ head rest, Sniffed 3 data head rest →
        Artifact.ofSniffed path head rest = Artifact.ofBytes path data := by
  refine ⟨fun files path data content hdata hread => ?_, fun s r t home name data content h => ?_,
    fun files path data hname hdata hread => ?_, fun path data => ⟨?_, fun head rest h => ?_⟩⟩
  · rw [Artifact.stream_of_read hread, Artifact.lines_of_encodes hdata]
  · exact h.record_compressed
  · rw [Artifact.open?, hread]
    exact congrArg Except.ok (Artifact.ofBytes_of_plain hname hdata)
  · exact ⟨_, _, Sniffed.of_take 3 data⟩
  · exact Artifact.ofSniffed_eq h

/-- A value that starts in one member and ends in the next is passed on as if it had been plain. -/
theorem compression_transparent_apimr :
    let apimr := { plainRequest "x" with tag := "APIMR" }
    let plain : Bytes := Utf8.encode "DATA0=a\n"
    let first : Bytes := [0x1F, 0x8B, 0x08, 0x00, 0x00, 0x00, 0x00, 0x00, 0x00, 0x03, 0x01, 0x05,
      0x00, 0xFA, 0xFF, 0x44, 0x41, 0x54, 0x41, 0x30, 0x48, 0xFE, 0xF7, 0xEC, 0x05, 0x00, 0x00,
      0x00]
    let second : Bytes := [0x1F, 0x8B, 0x08, 0x00, 0x00, 0x00, 0x00, 0x00, 0x00, 0x03, 0x01, 0x03,
      0x00, 0xFC, 0xFF, 0x3D, 0x61, 0x0A, 0x29, 0x1C, 0xC1, 0x4F, 0x03, 0x00, 0x00, 0x00]
    let t := plainFiles.put ["e", "x_crashdata"] (.file plain)
    let t' := t.put ["e", "x_crashdata"] (.file (first ++ second))
    Gzip.Encodes (first ++ second) plain ∧ Holds apimr t ["e"] "x_crashdata" plain ∧
    Artifact.stream t' "/e/x_crashdata" = .ok ⟨Lines.ofBytes plain, none⟩ ∧
    (parse (.forRoot "/") apimr t').1 = (parse (.forRoot "/") apimr t).1 ∧
    Artifact.open? t "/e/x_crashdata" = .ok ⟨false, plain, none⟩ := by
  intro apimr plain first second t t'
  have hencodes : Gzip.Encodes (first ++ second) plain := by
    refine ⟨[(first, plain.take 5), (second, plain.drop 5)], List.cons_ne_nil _ _, ?_, ?_, ?_⟩
    · decide +kernel
    · exact congrArg (first ++ ·) (List.append_nil second)
    · decide +kernel
  have hholds : Holds apimr t ["e"] "x_crashdata" plain :=
    ⟨by rfl, by rfl, by rfl, by decide +kernel, by decide⟩
  obtain ⟨hlines, hrun, hplain, _⟩ := compression_transparent
  refine ⟨hencodes, hholds, hlines t' _ _ _ hencodes (by rfl), ?_, ?_⟩
  · exact (hrun (.forRoot "/") apimr t ["e"] "x_crashdata" _ _ hholds (by decide +kernel)
      (by decide +kernel) (by decide +kernel) hencodes).1
  · exact hplain t _ plain (by decide +kernel) (by decide +kernel) (by rfl)

end Engine

end CrashDigest
