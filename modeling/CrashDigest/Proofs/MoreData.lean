import CrashDigest.Gzip.Member

/-!
# Reading with more data behind

A reader takes what it needs off the front and never asks how much is left, so
when it succeeds it does the same, with the same result, if more data follows.
That is what lets members stand one behind another, and it is why half a member
cannot pass for a whole one.

Three places do look at what is left: both loops of the decompression take
their fuel from it, an alignment counts the bits that are too many for whole
bytes, and the checksum of a header is of everything that was read before it.
More fuel does no harm, whole bytes do not change the count, and what was read
is the same whatever follows. `Persists` is the relation between a reader and
what it becomes when the data is longer. It is kept by everything that a reader
is made of, and lets these three be different on the two sides.
-/

namespace CrashDigest.Gzip

variable {ι α β : Type} {whole more : List ι}

/-- Whether `r'` makes of each end of `whole` with `more` behind it what `r` makes of it alone. -/
structure Persists (whole more : List ι) (r r' : Reader ι α) : Prop where
  suffix : ∀ {data rest : List ι} {a : α}, data <:+ whole → r data = .ok (a, rest) → rest <:+ data
  append : ∀ {data rest : List ι} {a : α}, data <:+ whole → r data = .ok (a, rest) →
    r' (data ++ more) = .ok (a, rest ++ more)

theorem bind_eq_ok {r : Reader ι α} {f : α → Reader ι β} {data rest : List ι} {b : β} :
    (r >>= f) data = .ok (b, rest) ↔
      ∃ a left, r data = .ok (a, left) ∧ f a left = .ok (b, rest) := by
  show (r data >>= fun (a, left) => f a left) = _ ↔ _
  cases r data with
  | error e =>
      constructor
      · rintro ⟨⟩
      · rintro ⟨_, _, ⟨⟩, _⟩
  | ok found =>
      constructor
      · exact fun h => ⟨found.1, found.2, rfl, h⟩
      · rintro ⟨_, _, ⟨⟩, h⟩
        exact h

namespace Persists

theorem pure (a : α) : Persists whole more (pure a : Reader ι α) (pure a) where
  suffix _ h := by
    cases h
    exact List.suffix_rfl
  append _ h := by
    cases h
    rfl

theorem fail (e : Failure) (r' : Reader ι α) : Persists whole more (fail e) r' where
  suffix _ h := nomatch h
  append _ h := nomatch h

theorem bind {r r' : Reader ι α} {f f' : α → Reader ι β} (hr : Persists whole more r r')
    (hf : ∀ a, Persists whole more (f a) (f' a)) : Persists whole more (r >>= f) (r' >>= f') where
  suffix hdata h := by
    obtain ⟨a, left, hfirst, hsecond⟩ := bind_eq_ok.mp h
    have hleft := hr.suffix hdata hfirst
    exact ((hf a).suffix (hleft.trans hdata) hsecond).trans hleft
  append hdata h := by
    obtain ⟨a, left, hfirst, hsecond⟩ := bind_eq_ok.mp h
    have hleft := (hr.suffix hdata hfirst).trans hdata
    exact bind_eq_ok.mpr ⟨a, _, hr.append hdata hfirst, (hf a).append hleft hsecond⟩

/-- Looking at what is left, which is all that counts from there on. -/
theorem get_bind {f f' : List ι → Reader ι α}
    (hf : ∀ data, data <:+ whole → Persists data more (f data) (f' (data ++ more))) :
    Persists whole more (get >>= f) (get >>= f') where
  suffix {data _ _} hdata h := (hf data hdata).suffix List.suffix_rfl h
  append {data _ _} hdata h := (hf data hdata).append List.suffix_rfl h

theorem ite {c : Prop} [Decidable c] {r r' s s' : Reader ι α} (hr : Persists whole more r r')
    (hs : Persists whole more s s') :
    Persists whole more (if c then r else s) (if c then r' else s') := by
  split
  · exact hr
  · exact hs

theorem except (x : Except Failure α) : Persists whole more (x : Reader ι α) x := by
  cases x with
  | error e => exact fail e _
  | ok a => exact pure a

end Persists

/-! ## Bits -/

section Bits

variable {whole more : List Bool}

theorem persists_bit : Persists whole more bit bit where
  suffix {data _ _} _ h := by
    cases data with
    | nil => cases h
    | cons b bits =>
        cases h
        exact List.suffix_cons _ _
  append {data _ _} _ h := by
    cases data with
    | nil => cases h
    | cons b bits =>
        cases h
        rfl

theorem persists_number (n : Nat) : Persists whole more (number n) (number n) := by
  induction n with
  | zero => exact .pure 0
  | succ n ih => exact .bind persists_bit fun _ => .bind ih fun _ => .pure _

/-- Whole bytes behind the data leave its bits before the next whole byte as many as they were. -/
theorem persists_align (hmore : 8 ∣ more.length) : Persists whole more align align where
  suffix _ h := by
    cases h
    exact List.drop_suffix _ _
  append {data _ _} _ h := by
    cases h
    have hlength : (data ++ more).length % 8 = data.length % 8 := by
      rw [List.length_append]
      omega
    rw [align, hlength, List.drop_append_of_le_length (Nat.mod_le _ _)]

theorem persists_readFrom (symbols : Array Nat) (word first passed : Nat) (counts : List Nat) :
    Persists whole more (HuffmanCode.readFrom symbols word first passed counts)
      (HuffmanCode.readFrom symbols word first passed counts) := by
  induction counts generalizing word first passed with
  | nil => exact .fail _ _
  | cons count counts ih =>
      refine .bind persists_bit fun b => .ite ?_ (ih _ _ _)
      split
      · exact .pure _
      · exact .fail _ _

theorem persists_read (code : HuffmanCode) : Persists whole more code.read code.read :=
  persists_readFrom _ _ _ _ _

theorem persists_tabled (table : Array (Nat × Nat)) (i : Nat) :
    Persists whole more (tabled table i) (tabled table i) := by
  unfold tabled
  split
  · exact .fail _ _
  · exact .bind (persists_number _) fun _ => .pure _

/-- A loop that comes to its end does so with more fuel too. -/
theorem persists_symbolsFrom (literals distances : HuffmanCode) {fuel fuel' : Nat}
    (hle : fuel ≤ fuel') (out : Array UInt8) :
    Persists whole more (symbolsFrom literals distances fuel out)
      (symbolsFrom literals distances fuel' out) := by
  induction fuel generalizing fuel' out with
  | zero => exact .fail _ _
  | succ fuel ih =>
      obtain ⟨extra, rfl⟩ := Nat.exists_eq_add_of_lt hle
      have hrest (out : Array UInt8) := ih (Nat.le_add_right fuel extra) out
      refine .bind (persists_read _) fun symbol => .ite (hrest _) (.ite (.pure _) ?_)
      refine .bind (persists_tabled _ _) fun length => .bind (persists_read _) fun far => ?_
      exact .bind (persists_tabled _ _) fun distance => hrest _

theorem persists_coded (literals distances : HuffmanCode) (out : Array UInt8) :
    Persists whole more (coded literals distances out) (coded literals distances out) :=
  .get_bind fun _ _ => persists_symbolsFrom _ _ (by simp) out

theorem persists_plain (n : Nat) (out : Array UInt8) :
    Persists whole more (plain n out) (plain n out) := by
  induction n generalizing out with
  | zero => exact .pure _
  | succ n ih => exact .bind (persists_number 8) fun _ => ih _

theorem persists_stored (hmore : 8 ∣ more.length) (out : Array UInt8) :
    Persists whole more (stored out) (stored out) :=
  .bind (persists_align hmore) fun _ => .bind (persists_number 16) fun _ =>
    .bind (persists_number 16) fun _ => .ite (persists_plain _ _) (.fail _ _)

theorem persists_lengthLengths (symbols : List Nat) :
    Persists whole more (lengthLengths symbols) (lengthLengths symbols) := by
  induction symbols with
  | nil => exact .pure _
  | cons symbol symbols ih => exact .bind (persists_number 3) fun _ => .bind ih fun _ => .pure _

theorem persists_codeLengths (code : HuffmanCode) (wanted fuel : Nat) (lengths : List Nat) :
    Persists whole more (codeLengths code wanted fuel lengths)
      (codeLengths code wanted fuel lengths) := by
  induction fuel generalizing lengths with
  | zero => exact .fail _ _
  | succ fuel ih =>
      refine .ite (.ite (.pure _) (.fail _ _)) (.bind (persists_read _) fun symbol => ?_)
      refine .ite (ih _) (.ite ?_ (.ite ?_ ?_))
      · split
        · exact .fail _ _
        · exact .bind (persists_number 2) fun _ => ih _
      · exact .bind (persists_number 3) fun _ => ih _
      · exact .bind (persists_number 7) fun _ => ih _

theorem persists_describedCodes : Persists whole more describedCodes describedCodes := by
  refine .bind (persists_number 5) fun literals => .bind (persists_number 5) fun distances =>
    .bind (persists_number 4) fun given => .ite (.fail _ _) ?_
  refine .bind (persists_lengthLengths _) fun table => .bind (.except _) fun code => ?_
  exact .bind (persists_codeLengths _ _ _ _) fun lengths => .bind (.except _) fun far =>
    .bind (.except _) fun near => .pure _

theorem persists_block (hmore : 8 ∣ more.length) (kind : Nat) (out : Array UInt8) :
    Persists whole more (block kind out) (block kind out) :=
  .ite (persists_stored hmore out) (.ite (persists_coded _ _ _)
    (.ite (.bind persists_describedCodes fun _ => persists_coded _ _ _) (.fail _ _)))

theorem persists_blocksFrom (hmore : 8 ∣ more.length) {fuel fuel' : Nat} (hle : fuel ≤ fuel')
    (out : Array UInt8) :
    Persists whole more (blocksFrom fuel out) (blocksFrom fuel' out) := by
  induction fuel generalizing fuel' out with
  | zero => exact .fail _ _
  | succ fuel ih =>
      obtain ⟨extra, rfl⟩ := Nat.exists_eq_add_of_lt hle
      refine .bind persists_bit fun isLast => .bind (persists_number 2) fun kind => ?_
      exact .bind (persists_block hmore _ _) fun out =>
        .ite (.pure _) (ih (Nat.le_add_right fuel extra) _)

theorem persists_inflate (hmore : 8 ∣ more.length) : Persists whole more inflate inflate :=
  .get_bind fun _ _ => persists_blocksFrom hmore (by simp) #[]

end Bits

/-! ## Bytes -/

section Bytes

variable {whole more : List UInt8}

theorem persists_byte : Persists whole more byte byte where
  suffix {data _ _} _ h := by
    cases data with
    | nil => cases h
    | cons b bytes =>
        cases h
        exact List.suffix_cons _ _
  append {data _ _} _ h := by
    cases data with
    | nil => cases h
    | cons b bytes =>
        cases h
        rfl

theorem persists_bytes (n : Nat) : Persists whole more (bytes n) (bytes n) := by
  induction n with
  | zero => exact .pure []
  | succ n ih => exact .bind persists_byte fun _ => .bind ih fun _ => .pure _

theorem persists_skipPastZero : Persists whole more skipPastZero skipPastZero where
  suffix {data _ _} hdata h := by
    clear hdata
    induction data with
    | nil => cases h
    | cons b data ih =>
        rw [skipPastZero] at h
        split at h
        · cases h
          exact List.suffix_cons _ _
        · exact (ih h).trans (List.suffix_cons _ _)
  append {data _ _} hdata h := by
    clear hdata
    induction data with
    | nil => cases h
    | cons b data ih =>
        rw [List.cons_append]
        rw [skipPastZero] at h ⊢
        split at h
        · next hzero =>
            cases h
            rw [if_pos hzero]
        · next hzero =>
            rw [if_neg hzero]
            exact ih h

theorem persists_announced (flags : UInt8) :
    Persists whole more (announced flags) (announced flags) := by
  have hcomment : Persists whole more (if flag flags 4 then skipPastZero else pure ())
      (if flag flags 4 then skipPastZero else pure ()) :=
    .ite persists_skipPastZero (.pure _)
  have hname : Persists whole more
      (do if flag flags 3 then skipPastZero
          if flag flags 4 then skipPastZero)
      (do if flag flags 3 then skipPastZero
          if flag flags 4 then skipPastZero) :=
    .ite (.bind persists_skipPastZero fun _ => hcomment) hcomment
  exact .ite (.bind (persists_bytes 2) fun _ => .bind (persists_bytes _) fun _ => hname) hname

/-- What was read before a rest is the same with more data behind both. -/
theorem take_read {data rest : List UInt8} (h : rest <:+ data) (more : List UInt8) :
    (data ++ more).take ((data ++ more).length - (rest ++ more).length) =
      data.take (data.length - rest.length) := by
  obtain ⟨front, rfl⟩ := h
  have hmore : (front ++ rest ++ more).length - (rest ++ more).length = front.length := by
    simp only [List.length_append]
    omega
  have hdata : (front ++ rest).length - rest.length = front.length := by
    rw [List.length_append, Nat.add_sub_cancel]
  rw [hmore, hdata, List.append_assoc, List.take_left, List.take_left]

theorem persists_header : Persists whole more header header := by
  refine .get_bind fun whole _ => .bind (persists_bytes 10) fun fixed => .ite ?_ (.fail _ _)
  refine .bind (persists_announced _) fun _ => .ite (.get_bind fun rest hrest => ?_) (.pure _)
  rw [take_read hrest more]
  exact .bind (persists_bytes 2) fun check => .ite (.pure _) (.fail _ _)

theorem bitsOf_append (front back : List UInt8) :
    bitsOf (front ++ back) = bitsOf front ++ bitsOf back :=
  List.flatMap_append

theorem length_bitsOf (bytes : List UInt8) : (bitsOf bytes).length = 8 * bytes.length := by
  induction bytes with
  | nil => rfl
  | cons b bytes ih =>
      have hcons : bitsOf (b :: bytes) = bitsOfByte b ++ bitsOf bytes := rfl
      rw [hcons, List.length_append, ih, List.length_cons, bitsOfByte, List.length_map,
        List.length_range]
      omega

/-- The bytes behind the compressed data are counted from the end, which is as far as it was. -/
theorem persists_body : Persists whole more body body where
  suffix {data _ _} _ h := by
    unfold body at h
    split at h
    · cases h
    · cases h
      exact List.drop_suffix _ _
  append {data _ _} _ h := by
    unfold body at h
    split at h
    · cases h
    · next out bits hinflate =>
        cases h
        have hpersists : Persists (bitsOf data) (bitsOf more) inflate inflate :=
          persists_inflate ⟨more.length, length_bitsOf more⟩
        have hbits := (hpersists.suffix List.suffix_rfl hinflate).length_le
        have happend := hpersists.append List.suffix_rfl hinflate
        have hlength : (data ++ more).length - (bits ++ bitsOf more).length / 8 =
            data.length - bits.length / 8 := by
          simp only [List.length_append, length_bitsOf]
          omega
        simp only [body, bitsOf_append, happend, hlength]
        rw [List.drop_append_of_le_length (Nat.sub_le _ _)]

theorem persists_member : Persists whole more member member := by
  refine .bind persists_header fun _ => .bind persists_body fun content => ?_
  exact .bind (persists_bytes 4) fun check => .bind (persists_bytes 4) fun size =>
    .ite (.pure _) (.fail _ _)

end Bytes

end CrashDigest.Gzip
