import CrashDigest.Dump.Coredump
import CrashDigest.Dump.Fabric

/-!
# Rows of slots

Where a scan only looks for the first value of several kinds it keeps a row of
slots, one for each kind, and offers every line to all of them. Each slot then
is a search of its own through the lines, which is how everything below looks
at such a scan.
-/

namespace CrashDigest

namespace Slot

/-- A slot for the first value that holds this. -/
def firstWith (value : Option Text) : Slot := ⟨.first, value⟩

theorem offer_firstWith (value candidate : Option Text) :
    (firstWith value).offer candidate = firstWith (value.or candidate) := by
  cases value with
  | none => cases candidate <;> rfl
  | some v => cases candidate <;> rfl

theorem takes_firstWith_none (candidate : Option Text) :
    (firstWith none).takes candidate = candidate.isSome :=
  Bool.and_true _

/-- A slot for the last value that holds this. -/
def lastWith (value : Option Text) : Slot := ⟨.last, value⟩

theorem offer_lastWith (value candidate : Option Text) :
    (lastWith value).offer candidate = lastWith (candidate.or value) := by
  cases candidate <;> rfl

section Row

variable {ρ : Type} {read : ρ → Text → Option Text} {places : List ρ} {lines : List Text}

theorem foldl_zipWith_offer (found : ρ → Option Text) :
    lines.foldl
        (fun slots line => slots.zipWith (fun slot place => offer slot (read place line)) places)
        (places.map fun place => firstWith (found place)) =
      places.map fun place => firstWith ((found place).or (lines.findSome? (read place))) := by
  induction lines generalizing found with
  | nil => simp
  | cons line lines ih =>
      rw [List.foldl_cons, List.zipWith_map_left, List.zipWith_self]
      simp only [offer_firstWith, ih, Option.or_assoc]
      have hcons (place : ρ) : (read place line).or (lines.findSome? (read place)) =
          (line :: lines).findSome? (read place) := by
        rw [List.findSome?_cons]
        cases read place line <;> rfl
      simp only [hcons]

/-- A row of slots for the first values finds what as many searches find. -/
theorem foldl_row :
    lines.foldl
        (fun slots line => slots.zipWith (fun slot place => offer slot (read place line)) places)
        (places.map fun _ => first) =
      places.map fun place => firstWith (lines.findSome? (read place)) :=
  foldl_zipWith_offer fun _ => none

end Row

end Slot

/-- The values under the labels are found by as many searches. -/
theorem Coredump.firstMatches_eq (probes : List Probe) (lines : List Text) :
    firstMatches probes lines =
      probes.map fun probe => (lines.findSome? probe.read).getD [] := by
  refine (congrArg (List.map Slot.text) Slot.foldl_row).trans ?_
  rw [List.map_map]
  rfl

/-- The registers are found by as many searches. -/
theorem Fabric.scanRegisters_eq (lines : List Text) :
    scanRegisters lines = .ofList (([.data 0, .data 1, .data 2] : List FieldKey).zip
      (keptRegisters.map fun register =>
        (lines.findSome? (Piece.lineWith register).of).getD [])) := by
  refine congrArg (fun values => Fields.ofList (List.zip _ values)) ?_
  refine (congrArg (List.map Slot.text) Slot.foldl_row).trans ?_
  rw [List.map_map]
  rfl

end CrashDigest
