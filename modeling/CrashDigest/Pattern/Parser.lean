import CrashDigest.Pattern.Size

/-!
# The written form of patterns

The usual notation: characters stand for themselves, `.` for any character but
the line feed, `^` and `$` for the ends of the text, `[...]` for a set, `(...)`
and `(?:...)` for a group, `|` for a choice, and `*`, `+`, `?` and `{n,m}` after
an item for repetition, with a further `?` for as few turns as possible. A
backslash takes the special meaning off a punctuation character.

`parse?` goes through the text once. The group being read is a `Group`: its
finished branches and the items of the current one; the groups around it wait
on a stack. A text that is not of this form has no pattern: a repetition with
nothing to repeat, a group or a set that is not closed, a closing parenthesis
too many, a backslash at the end, and a range or a count that runs backwards.

Nor has a text that is nested too deeply, or whose pattern is too large. The
depth is that of the written form: an empty group in a group is two deep.
-/

namespace CrashDigest.Pattern

/-- A pattern, and how deeply its written form is nested. -/
structure Nested where
  pattern : Pattern
  depth : Nat

namespace Nested

/-- Something that has no parts. -/
def leaf (p : Pattern) : Nested := ⟨p, 0⟩

/-- Several parts as one pattern. A part that is alone is no deeper for it. -/
def join (build : List Pattern → Pattern) : List Nested → Nested
  | [] => leaf (build [])
  | [part] => part
  | parts => ⟨build (parts.map pattern), parts.foldl (fun depth part => max depth part.depth) 0 + 1⟩

end Nested

/-- A group that is being read. -/
structure Group where
  /-- Its number, if it has one. -/
  number : Option Nat
  /-- The branches before the last `|`, the latest first. -/
  finished : List Nested
  /-- The items since then, the latest first. -/
  items : List Nested

namespace Group

/-- A group of which nothing has been read. -/
def opened (number : Option Nat) : Group := ⟨number, [], []⟩

/-- The branch that is being read. -/
def current (g : Group) : Nested :=
  .join concat g.items.reverse

/-- What the group holds. -/
def content (g : Group) : Nested :=
  .join choice (g.current :: g.finished).reverse

/-- The group when it is closed. -/
def closed (g : Group) : Nested :=
  let content := g.content
  ⟨match g.number with
    | some number => .group number content.pattern
    | none => content.pattern, content.depth + 1⟩

/-- The group with one more item. -/
def add (g : Group) (item : Nested) : Group :=
  { g with items := item :: g.items }

/-- The group after a `|`. -/
def nextBranch (g : Group) : Group :=
  { g with finished := g.current :: g.finished, items := [] }

end Group

/-! ## Sets -/

/-- What a backslash and a character mean: a set of characters, or nothing known. -/
def escaped (c : Char) : Option CharSet :=
  if c = 'd' then some .digit
  else if c = 'D' then some (.compl .digit)
  else if c = 's' then some .blank
  else if c = 'S' then some (.compl .blank)
  else if c = 'n' then some (.single '\n')
  else if c = 't' then some (.single '\t')
  else if c = 'r' then some (.single '\r')
  else if c = 'f' then some (.single '\x0c')
  else if c = 'v' then some (.single '\x0b')
  else if c = 'a' then some (.single '\x07')
  else if c.isAlphanum || c = '<' || c = '>' || 0x80 ≤ c.toNat then none
  else some (.single c)

/-- The items of a set that have been read: what they hold, and how many there are. -/
structure SetItems where
  set : CharSet
  count : Nat

namespace SetItems

/-- The items with one more. -/
def add (items : SetItems) (set : CharSet) : SetItems :=
  ⟨items.set.union set, items.count + 1⟩

end SetItems

/-- The hyphens at the start of a set, which stand for themselves. -/
def leadingHyphens (items : SetItems) : Text → SetItems × Text
  | '-' :: s => leadingHyphens (items.add (.single '-')) s
  | s => (items, s)

/-- One character of a set or a set named by a backslash, and what follows it. -/
def setItem : Text → Option (CharSet × Text)
  | '\\' :: c :: s => (escaped c).map fun set => (set, s)
  | ['\\'] => none
  | c :: s => some (.single c, s)
  | [] => none

/-- The items of a set up to its closing bracket, added to the ones before them. Every item takes at
least one character, which is what the fuel is for. -/
def setItems : Nat → SetItems → Text → Option (SetItems × Text)
  | 0, _, _ => none
  | _, _, [] => none
  | _, items, ']' :: s => some (items, s)
  | _, _, '[' :: _ => none
  | _, _, '&' :: '&' :: _ => none
  | _, _, '-' :: '-' :: _ => none
  | _, _, '~' :: '~' :: _ => none
  | fuel + 1, items, s =>
      match setItem s with
      | none => none
      | some (set, '-' :: ']' :: s) => setItems fuel (items.add set) ('-' :: ']' :: s)
      | some (set, '-' :: '-' :: s) => setItems fuel (items.add set) ('-' :: '-' :: s)
      | some (first, '-' :: s) =>
          match first.single?, setItem s with
          | some lo, some (last, s) =>
              match last.single? with
              | some hi =>
                  if lo ≤ hi then
                    setItems fuel (items.add (.ofRanges [(lo.toNat, hi.toNat)])) s
                  else none
              | none => none
          | _, _ => none
      | some (set, s) => setItems fuel (items.add set) s

/-- What a set begins with: hyphens or, without them, a closing bracket that is one of its items. -/
def firstItems (s : Text) : SetItems × Text :=
  match s with
  | ']' :: s => (⟨.single ']', 1⟩, s)
  | s => leadingHyphens ⟨.empty, 0⟩ s

/-- The items of a set, after its opening bracket, and what follows it. -/
def bracketed (fuel : Nat) (negated : Bool) (s : Text) : Option (Nested × Text) :=
  let (items, s) := firstItems s
  (setItems fuel items s).map fun (items, s) =>
    (⟨ofSet (if negated then items.set.compl else items.set), if items.count = 1 then 1 else 2⟩, s)

/-! ## Repetitions -/

/-- The greatest count that can be written. -/
def maxCount : Nat := 0xFFFFFFFF

/-- A decimal number between white space, and what follows it. -/
def number (s : Text) : Option (Nat × Text) :=
  let s := s.dropWhile isBlank
  let digits := s.takeWhile Char.isDigit
  let value := digits.foldl (fun n c => 10 * n + (c.toNat - '0'.toNat)) 0
  if digits.isEmpty || maxCount < value then none
  else some (value, (s.dropWhile Char.isDigit).dropWhile isBlank)

/-- How often something is repeated. -/
structure Counts where
  least : Nat
  most : Option Nat

/-- The counts of a repetition after its opening brace. -/
def counts (s : Text) : Option (Counts × Text) :=
  match number s with
  | none => none
  | some (least, '\x7d' :: s) => some (⟨least, some least⟩, s)
  | some (least, ',' :: '\x7d' :: s) => some (⟨least, none⟩, s)
  | some (least, ',' :: s) =>
      match number s with
      | some (most, '\x7d' :: s) => if least ≤ most then some (⟨least, some most⟩, s) else none
      | _ => none
  | some _ => none

/-- A sign of repetition: its counts, and what follows it. -/
def repetition : Text → Option (Option (Counts × Text))
  | '*' :: s => some (some (⟨0, none⟩, s))
  | '+' :: s => some (some (⟨1, none⟩, s))
  | '?' :: s => some (some (⟨0, some 1⟩, s))
  | '\x7b' :: s => some (counts s)
  | _ => none

/-- An item repeated. -/
def Nested.times (item : Nested) (greedy : Bool) (counts : Counts) : Nested :=
  ⟨repeated greedy counts.least counts.most item.pattern, item.depth + 1⟩

/-! ## Patterns -/

/-- An item that begins with a bracket, a backslash or any character without a role of its own,
and what follows it. The fuel is for the items of a set. -/
def item (fuel : Nat) : Text → Option (Nested × Text)
  | '.' :: s => some (.leaf (.one .dot), s)
  | '^' :: s => some (.leaf .start, s)
  | '$' :: s => some (.leaf .stop, s)
  | '[' :: '^' :: s => bracketed fuel true s
  | '[' :: s => bracketed fuel false s
  | '\\' :: c :: s => (escaped c).map fun set => (.leaf (ofSet set), s)
  | ['\\'] => none
  | c :: s => some (.leaf (.word [c]), s)
  | [] => none

/-- Reading on inside the groups of `outer`; `groups` is the number of the last group. Every step
takes at least one character, which is what the fuel is for. -/
def parseFrom : Nat → (groups : Nat) → List Group → Group → Text → Option Nested
  | _, _, [], g, [] => some g.content
  | _, _, _ :: _, _, [] => none
  | 0, _, _, _, _ :: _ => none
  | fuel + 1, groups, outer, g, c :: s =>
      match repetition (c :: s) with
      | some none => none
      | some (some (counts, rest)) =>
          match g.items with
          | [] => none
          | item :: items =>
              let repeated (greedy : Bool) : Group :=
                { g with items := item.times greedy counts :: items }
              match rest with
              | '?' :: rest => parseFrom fuel groups outer (repeated false) rest
              | rest => parseFrom fuel groups outer (repeated true) rest
      | none =>
          match c, s with
          | '(', '?' :: ':' :: s => parseFrom fuel groups (g :: outer) (.opened none) s
          | '(', '?' :: _ => none
          | '(', s => parseFrom fuel (groups + 1) (g :: outer) (.opened (some (groups + 1))) s
          | ')', s =>
              match outer with
              | [] => none
              | around :: outer => parseFrom fuel groups outer (around.add g.closed) s
          | '|', s => parseFrom fuel groups outer g.nextBranch s
          | c, s =>
              match item fuel (c :: s) with
              | none => none
              | some (item, s) => parseFrom fuel groups outer (g.add item) s

/-- How deeply a written form can be nested. -/
def maxDepth : Nat := 250

/-- The pattern that a text describes, if it does describe one. -/
def parse? (s : Text) : Option Pattern :=
  match parseFrom s.length 0 [] (.opened none) s with
  | none => none
  | some ⟨p, depth⟩ => if depth ≤ maxDepth && p.isAffordable then some p else none

end CrashDigest.Pattern
