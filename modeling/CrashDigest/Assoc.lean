/-!
# Ordered associations

A list of keys with values in which every key stands at the place where it
first came. `put` replaces the value under a key where it stands, and adds a
new key at the end.
-/

namespace CrashDigest.Assoc

variable {κ ν : Type} [DecidableEq κ]

/-- The associations with `key` set to `value`. -/
def put (key : κ) (value : ν) : List (κ × ν) → List (κ × ν)
  | [] => [(key, value)]
  | (k, v) :: rest => if k = key then (key, value) :: rest else (k, v) :: put key value rest

end CrashDigest.Assoc
