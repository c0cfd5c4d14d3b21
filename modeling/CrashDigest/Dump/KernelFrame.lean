import CrashDigest.Text.Basic

/-!
# Kernel stack frames

A frame of the kernel's stack is printed as an address in brackets, a space and
the function. A question mark between spaces says that the kernel is not sure
of the frame.
-/

namespace CrashDigest.KernelFrame

/-- The function of a frame with the space before it, or nothing for a line that is no frame or
an unsure one. -/
def functionOf (line : Text) : Text :=
  match line.cut ">] " with
  | none => []
  | some ([], _) => []
  | some (_, rest) =>
      let function := ' ' :: rest
      if Text.includes function " ? " then [] else function

end CrashDigest.KernelFrame
