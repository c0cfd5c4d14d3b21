import CrashDigest.Pattern.Parser
import CrashDigest.Pattern.Search

/-!
# Dialects of patterns

The user can set a pattern of their own, for the directories on removable media.
Which texts are patterns, and what they match, is for the dialect to say that the
program is put together with. Of a dialect the settings rely on one thing only,
that the default is a pattern in it.

The notation of `Pattern.parse?` is a dialect. It is a small one: it has no sets
of characters by their properties, apart from digits and blanks, no flags, and
nothing to say about the edges of words. A larger one takes its place as an
instance, and whatever is proved about the settings holds of it too.
-/

namespace CrashDigest

/-- The directories on removable media, unless they are set. -/
def defaultMedia : Text := ".*mnt.*sdcard.*"

/-- A dialect of patterns. -/
class Dialect where
  /-- What the pattern says of other texts that a text describes, if it describes one. -/
  test? : Text → Option (Text → Bool)
  isSome_media : (test? defaultMedia).isSome = true

/-- Whether a text is a pattern. -/
def Dialect.IsPattern [Dialect] (text : Text) : Prop :=
  (test? text).isSome = true

instance [Dialect] (text : Text) : Decidable (Dialect.IsPattern text) :=
  inferInstanceAs (Decidable (_ = true))

/-- The dialect of the usual notation. -/
instance Pattern.dialect : Dialect where
  test? text := (Pattern.parse? text).map isIn
  isSome_media := by rfl

end CrashDigest
