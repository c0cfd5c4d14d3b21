import CrashDigest.Text.Basic

/-!
# JSON

The part of JSON that summaries are written in, with its two layouts: all on
one line without blanks, and one entry a line, indented by two spaces. In a
string only the quote, the backslash and the control characters are escaped.
-/

namespace CrashDigest

/-- A JSON value; the entries of an object have an order. -/
inductive Json where
  | null
  | bool (b : Bool)
  | string (s : Text)
  | object (entries : List (Text × Json))

namespace Json

/-- A digit below sixteen. -/
def hexDigit (n : Nat) : Char :=
  Nat.digitChar n

/-- A character inside a string. -/
def escapeChar (c : Char) : Text :=
  match c with
  | '"' => ['\\', '"']
  | '\\' => ['\\', '\\']
  | '\n' => ['\\', 'n']
  | '\r' => ['\\', 'r']
  | '\t' => ['\\', 't']
  | '\x08' => ['\\', 'b']
  | '\x0c' => ['\\', 'f']
  | c =>
      if c.toNat < 0x20 then
        ['\\', 'u', '0', '0', hexDigit (c.toNat / 16), hexDigit (c.toNat % 16)]
      else [c]

/-- A string in its quotes. -/
def quote (s : Text) : Text :=
  '"' :: s.flatMap escapeChar ++ ['"']

mutual

/-- The value on one line. -/
def compact : Json → Text
  | .null => "null"
  | .bool true => "true"
  | .bool false => "false"
  | .string s => quote s
  | .object entries => '\x7b' :: (Text.join [','] (compactEntries entries) ++ ['\x7d'])

/-- The entries of an object, each on its own. -/
def compactEntries : List (Text × Json) → List Text
  | [] => []
  | (key, value) :: rest => (quote key ++ ':' :: compact value) :: compactEntries rest

end

mutual

/-- The value over several lines, its inner lines indented by `indent` and two spaces more. -/
def prettyFrom (indent : Text) : Json → Text
  | .null => "null"
  | .bool true => "true"
  | .bool false => "false"
  | .string s => quote s
  | .object [] => ['\x7b', '\x7d']
  | .object (e :: es) =>
      '\x7b' :: '\n' :: (Text.join [',', '\n'] (prettyEntries (' ' :: ' ' :: indent) (e :: es))
        ++ '\n' :: indent ++ ['\x7d'])

/-- The entries of an object, each on lines of its own. -/
def prettyEntries (indent : Text) : List (Text × Json) → List Text
  | [] => []
  | (key, value) :: rest =>
      (indent ++ quote key ++ ':' :: ' ' :: prettyFrom indent value) :: prettyEntries indent rest

end

/-- The value over several lines. -/
def pretty (j : Json) : Text :=
  prettyFrom [] j

end Json

/-- The entries as an object whose values are strings. -/
def Json.ofPairs (pairs : List (Text × Text)) : Json :=
  .object (pairs.map fun (key, value) => (key, .string value))

end CrashDigest
