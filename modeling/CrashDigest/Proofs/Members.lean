import CrashDigest.Proofs.MoreData

/-!
# Members one behind another

What a file of members stands for is what its members stand for, one after the
other, so files can be put together and their contents go along
(`decode_append`). The only thing that has to be there is a file behind the
first one: an empty rest is the end, and not a member.

Because a member that was read is read the same with more behind it, it also
cannot be cut short. Whatever an end of it is missing, the decoder would have
stopped there when all of it was given (`failure_of_cut`).

Decoding counts fuel, which is more than there can be members since each takes
a header. `decode_eq` gets rid of it: from there on decoding is a member and
the decoding of what follows.
-/

namespace CrashDigest.Gzip

variable {data front back rest content : List UInt8}

theorem bytes_eq_ok {n : Nat} (h : bytes n data = .ok (front, rest)) :
    data = front ++ rest ∧ front.length = n := by
  induction n generalizing data front with
  | zero =>
      cases h
      exact ⟨rfl, rfl⟩
  | succ n ih =>
      obtain ⟨b, left, hb, h⟩ := bind_eq_ok.mp h
      obtain ⟨others, _, hothers, h⟩ := bind_eq_ok.mp h
      cases h
      cases data with
      | nil => cases hb
      | cons c data =>
          cases hb
          obtain ⟨rfl, hlength⟩ := ih hothers
          exact ⟨rfl, congrArg (· + 1) hlength⟩

/-! ## One member -/

theorem member_append (h : member data = .ok (content, rest)) (more : List UInt8) :
    member (data ++ more) = .ok (content, rest ++ more) :=
  persists_member.append List.suffix_rfl h

/-- A member starts with the mark of its header. -/
theorem looksCompressed_of_member (h : member data = .ok (content, rest)) :
    looksCompressed data = true := by
  obtain ⟨_, _, h, _⟩ := bind_eq_ok.mp h
  obtain ⟨_, _, hwhole, h⟩ := bind_eq_ok.mp h
  cases hwhole
  obtain ⟨fixed, behind, hfixed, h⟩ := bind_eq_ok.mp h
  obtain ⟨rfl, hlength⟩ := bytes_eq_ok hfixed
  split at h
  · next hmark =>
      rw [looksCompressed, List.take_append_of_le_length (by omega), hmark.1]
      rfl
  · cases h

/-- A member ends with the eight bytes of its trailer, so something of the data is gone. -/
theorem length_lt_of_member (h : member data = .ok (content, rest)) :
    rest.length < data.length := by
  obtain ⟨_, inner, hheader, hinner⟩ := bind_eq_ok.mp h
  obtain ⟨_, trailer, hbody, htrailer⟩ := bind_eq_ok.mp hinner
  obtain ⟨check, behind, hcheck, hbehind⟩ := bind_eq_ok.mp htrailer
  obtain ⟨size, left, hsize, hleft⟩ := bind_eq_ok.mp hbehind
  have hinner_le := (@persists_header _ []).suffix List.suffix_rfl hheader |>.length_le
  have htrailer_le := (@persists_body _ []).suffix List.suffix_rfl hbody |>.length_le
  have hcheck_eq := congrArg List.length (bytes_eq_ok hcheck).1
  have hsize_eq := congrArg List.length (bytes_eq_ok hsize).1
  rw [List.length_append, (bytes_eq_ok hcheck).2] at hcheck_eq
  rw [List.length_append, (bytes_eq_ok hsize).2] at hsize_eq
  split at hleft
  · cases hleft
    omega
  · cases hleft

/-! ## All of them -/

/-- Any fuel that is more than there are bytes will do. -/
theorem membersFrom_congr {fuel fuel' : Nat} (h : data.length < fuel) (h' : data.length < fuel') :
    membersFrom fuel data = membersFrom fuel' data := by
  induction fuel generalizing fuel' data with
  | zero => exact absurd h (Nat.not_lt_zero _)
  | succ fuel ih =>
      obtain ⟨fuel', rfl⟩ := Nat.exists_eq_add_of_lt (Nat.zero_lt_of_lt h')
      rw [Nat.zero_add] at h' ⊢
      rw [membersFrom, membersFrom]
      split
      · rfl
      · rfl
      · next content b rest hmember =>
          have hlt := length_lt_of_member hmember
          have hrest : membersFrom fuel (b :: rest) = membersFrom fuel' (b :: rest) :=
            ih (by omega) (by omega)
          simp only [hrest]

theorem decode_eq (data : List UInt8) :
    decode data =
      match member data with
      | .error e => ⟨[], some e⟩
      | .ok (content, []) => ⟨content, none⟩
      | .ok (content, rest) => ⟨content ++ (decode rest).content, (decode rest).failure⟩ := by
  rw [decode, membersFrom]
  split
  · next hmember => rw [hmember]
  · next hmember => rw [hmember]
  · next content b rest hmember =>
      have hlt := length_lt_of_member hmember
      have hrest : membersFrom data.length (b :: rest) = decode (b :: rest) :=
        membersFrom_congr hlt (Nat.lt_succ_self _)
      simp only [hmember, hrest]

/-- What is decoded in full starts with a member. -/
theorem exists_member_of_decode (h : decode data = ⟨content, none⟩) :
    ∃ first rest, member data = .ok (first, rest) := by
  rw [decode_eq] at h
  cases hmember : member data with
  | error e =>
      rw [hmember] at h
      cases h
  | ok found => exact ⟨found.1, found.2, rfl⟩

theorem ne_nil_of_decode (h : decode data = ⟨content, none⟩) : data ≠ [] := by
  rintro rfl
  cases h

/-- A file behind another one adds what it stands for, and what is wrong with it. -/
theorem decode_append (h : decode front = ⟨content, none⟩) (hback : back ≠ []) :
    decode (front ++ back) = ⟨content ++ (decode back).content, (decode back).failure⟩ := by
  induction hlength : front.length using Nat.strongRecOn generalizing front content with
  | ind n ih =>
      obtain ⟨first, rest, hmember⟩ := exists_member_of_decode h
      rw [decode_eq, hmember] at h
      rw [decode_eq, member_append hmember]
      cases rest with
      | nil =>
          obtain ⟨b, back, rfl⟩ := List.exists_cons_of_ne_nil hback
          cases h
          rfl
      | cons b rest =>
          have hlt := length_lt_of_member hmember
          obtain ⟨hcontent, hfailure⟩ := Decoded.mk.inj h
          have hrest : decode (b :: rest) = ⟨(decode (b :: rest)).content, none⟩ := by
            rw [← hfailure]
          have happend := ih _ (hlength ▸ hlt) hrest rfl
          show Decoded.mk (first ++ (decode (b :: rest ++ back)).content) _ = _
          rw [happend, ← hcontent, List.append_assoc]

theorem decode_flatMap {parts : List (List UInt8 × List UInt8)} (hne : parts ≠ [])
    (hparts : ∀ part ∈ parts, decode part.1 = ⟨part.2, none⟩) :
    decode (parts.flatMap Prod.fst) = ⟨parts.flatMap Prod.snd, none⟩ := by
  induction parts with
  | nil => exact absurd rfl hne
  | cons part parts ih =>
      have hpart := hparts part List.mem_cons_self
      have hrest := fun hne => ih hne fun p hmem => hparts p (List.mem_cons_of_mem _ hmem)
      rw [List.flatMap_cons, List.flatMap_cons]
      cases parts with
      | nil => simpa using hpart
      | cons next parts =>
          have hdecode := hrest (List.cons_ne_nil _ _)
          rw [decode_append hpart (ne_nil_of_decode hdecode), hdecode]

/-- Whether some data is a row of gzip files, at least one, that stand for a content together. -/
def Encodes (data content : List UInt8) : Prop :=
  ∃ parts : List (List UInt8 × List UInt8), parts ≠ [] ∧
    (∀ part ∈ parts, decode part.1 = ⟨part.2, none⟩) ∧
    parts.flatMap Prod.fst = data ∧ parts.flatMap Prod.snd = content

theorem Encodes.decode (h : Encodes data content) : Gzip.decode data = ⟨content, none⟩ := by
  obtain ⟨parts, hne, hparts, rfl, rfl⟩ := h
  exact decode_flatMap hne hparts

theorem Encodes.looksCompressed (h : Encodes data content) :
    Gzip.looksCompressed data = true := by
  obtain ⟨_, _, hmember⟩ := exists_member_of_decode h.decode
  exact looksCompressed_of_member hmember

/-- A member that lacks its end is not decoded in full. -/
theorem failure_of_cut (h : member (front ++ back) = .ok (content, [])) (hback : back ≠ []) :
    ∃ why, (decode front).failure = some why := by
  refine Option.ne_none_iff_exists'.mp fun hnone => ?_
  have hdecode : decode front = ⟨(decode front).content, none⟩ := by rw [← hnone]
  obtain ⟨first, rest, hmember⟩ := exists_member_of_decode hdecode
  have hwhole := member_append hmember back
  rw [h] at hwhole
  obtain ⟨_, hrest⟩ := Prod.mk.inj (Except.ok.inj hwhole)
  exact hback (List.append_eq_nil_iff.mp hrest.symm).2

end CrashDigest.Gzip
