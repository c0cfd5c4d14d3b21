import CrashDigest.Files.Artifact

/-!
# Looking at the head of a file

Whether a file is compressed is told from its first three bytes, which have to
be read for that and put back. A read may give fewer bytes than were asked for,
or be interrupted and give none, so the head comes in pieces, and a file of
fewer than three bytes ends before it is complete.

`Sniffed` says what such a run of reads can come to. It is always the first
bytes of the file, whatever the pieces (`sniffed_iff`), and so an artifact that
was opened in this way is the one of `Artifact.ofBytes`, which has all of its
bytes at once.
-/

namespace CrashDigest

/-- Whether asking for `wanted` bytes until they are there or the file ends can come to `head`, and
leave `rest` in the file. -/
inductive Sniffed : Nat → Bytes → Bytes → Bytes → Prop where
  | filled {data : Bytes} : Sniffed 0 data [] data
  | ended {wanted : Nat} : Sniffed (wanted + 1) [] [] []
  | interrupted {wanted : Nat} {data head rest : Bytes}
      (h : Sniffed (wanted + 1) data head rest) : Sniffed (wanted + 1) data head rest
  | given {wanted : Nat} {got left head rest : Bytes} (hgot : got ≠ [])
      (hroom : got.length ≤ wanted + 1) (h : Sniffed (wanted + 1 - got.length) left head rest) :
      Sniffed (wanted + 1) (got ++ left) (got ++ head) rest

namespace Sniffed

variable {wanted : Nat} {data head rest : Bytes}

/-- Nothing is lost or taken twice, and nothing stays behind that was asked for. -/
theorem eq_take (h : Sniffed wanted data head rest) :
    data = head ++ rest ∧ head = data.take wanted := by
  induction h with
  | filled => exact ⟨rfl, rfl⟩
  | ended => exact ⟨rfl, rfl⟩
  | interrupted _ ih => exact ih
  | given _ hroom _ ih =>
      obtain ⟨hall, hhead⟩ := ih
      refine ⟨by rw [List.append_assoc, ← hall], ?_⟩
      rw [List.take_append, List.take_of_length_le hroom, ← hhead]

/-- One read may give everything that was asked for. -/
theorem of_take (wanted : Nat) (data : Bytes) :
    Sniffed wanted data (data.take wanted) (data.drop wanted) := by
  cases wanted with
  | zero => exact .filled
  | succ wanted =>
      cases data with
      | nil => exact .ended
      | cons b data =>
          have hlength : ((b :: data).take (wanted + 1)).length ≤ wanted + 1 :=
            List.length_take_le _ _
          have hnext : Sniffed (wanted + 1 - ((b :: data).take (wanted + 1)).length)
              ((b :: data).drop (wanted + 1)) [] ((b :: data).drop (wanted + 1)) := by
            rcases Nat.lt_or_ge (b :: data).length (wanted + 1) with hshort | hlong
            · -- The file ends first, which the read after this one finds out.
              rw [List.drop_of_length_le (Nat.le_of_lt hshort),
                List.take_of_length_le (Nat.le_of_lt hshort),
                Nat.succ_sub (Nat.le_of_lt_succ hshort)]
              exact .ended
            · rw [List.length_take_of_le hlong, Nat.sub_self]
              exact .filled
          simpa only [List.take_append_drop, List.append_nil] using
            Sniffed.given (by simp) hlength hnext

end Sniffed

theorem sniffed_iff {wanted : Nat} {data head rest : Bytes} :
    Sniffed wanted data head rest ↔ head = data.take wanted ∧ rest = data.drop wanted := by
  constructor
  · intro h
    obtain ⟨hall, hhead⟩ := h.eq_take
    refine ⟨hhead, List.append_cancel_left (?_ : head ++ rest = head ++ _)⟩
    rw [← hall, hhead, List.take_append_drop]
  · rintro ⟨rfl, rfl⟩
    exact .of_take wanted data

namespace Artifact

/-- The artifact whose head was read, with the head put back in front of what was left. -/
def ofSniffed (path : Path) (head rest : Bytes) : Artifact :=
  if path.hasGzipExtension || head = [0x1F, 0x8B, 0x08] then
    let decoded := Gzip.decode (head ++ rest)
    ⟨true, decoded.content, decoded.failure.map .damaged⟩
  else ⟨false, head ++ rest, none⟩

theorem ofSniffed_eq {path : Path} {data head rest : Bytes} (h : Sniffed 3 data head rest) :
    ofSniffed path head rest = ofBytes path data := by
  obtain ⟨rfl, rfl⟩ := sniffed_iff.mp h
  rw [ofSniffed, ofBytes, List.take_append_drop, Gzip.looksCompressed]

end Artifact

end CrashDigest
