import Mathlib
import SourceLoader.Text.Unicode

/-!
Which bytes are text. A row of bytes is well-formed if it is made of sequences, each of which spells
one code point in as few bytes as it takes. Decoding succeeds on exactly these rows, and encoding
what was read gives the bytes back. There are as many bytes as characters in ASCII text only.
-/

namespace SourceLoader.Text.Utf8

def IsTail (b : UInt8) : Prop := 0x80 ≤ b.toNat ∧ b.toNat < 0xc0

/-- Whether bytes are a sequence for a code point: the bits of the first byte behind its mark, then
six bits of each byte after it. A code point that fits into fewer bytes is not spelled that way, and
neither are surrogates and numbers above the last code point. -/
inductive Spells : Bytes → Nat → Prop
  | one {a : UInt8} (first : a.toNat < 0x80) : Spells [a] a.toNat
  | two {a b : UInt8} {n : Nat} (first : 0xc0 ≤ a.toNat ∧ a.toNat < 0xe0) (second : IsTail b)
      (bits : n = (a.toNat - 0xc0) * 64 + (b.toNat - 0x80)) (long : 0x80 ≤ n) : Spells [a, b] n
  | three {a b c : UInt8} {n : Nat} (first : 0xe0 ≤ a.toNat ∧ a.toNat < 0xf0) (second : IsTail b)
      (third : IsTail c)
      (bits : n = ((a.toNat - 0xe0) * 64 + (b.toNat - 0x80)) * 64 + (c.toNat - 0x80))
      (long : 0x800 ≤ n) (plain : n < 0xd800 ∨ 0xe000 ≤ n) : Spells [a, b, c] n
  | four {a b c d : UInt8} {n : Nat} (first : 0xf0 ≤ a.toNat ∧ a.toNat < 0xf8)
      (second : IsTail b) (third : IsTail c) (fourth : IsTail d)
      (bits : n = (((a.toNat - 0xf0) * 64 + (b.toNat - 0x80)) * 64 + (c.toNat - 0x80)) * 64 +
        (d.toNat - 0x80))
      (long : 0x10000 ≤ n) (last : n ≤ 0x10ffff) : Spells [a, b, c, d] n

inductive WellFormed : Bytes → Prop
  | nil : WellFormed []
  | cons {front back : Bytes} {n : Nat} (spells : Spells front n) (rest : WellFormed back) :
      WellFormed (front ++ back)

variable {position : Nat} {a : UInt8} {rest bytes : Bytes} {text : Text}

theorem Spells.isValidChar {front : Bytes} {n : Nat} (h : Spells front n) : n.isValidChar := by
  cases h with
  | one => exact .inl (by omega)
  | two first second bits =>
      obtain ⟨-, hb⟩ := second
      exact .inl (by omega)
  | three _ second third bits _ plain =>
      obtain ⟨-, hb⟩ := second
      obtain ⟨-, hc⟩ := third
      rcases plain with plain | plain
      · exact .inl (by omega)
      · exact .inr ⟨by omega, by omega⟩
  | four _ _ _ _ _ long last => exact .inr ⟨by omega, by omega⟩

theorem Spells.encode {front : Bytes} {n : Nat} (h : Spells front n) :
    String.utf8EncodeChar (Char.ofNat n) = front := by
  have hn : (Char.ofNat n).val.toNat = n := (Char.toNat_ofNat n).trans (if_pos h.isValidChar)
  unfold String.utf8EncodeChar
  simp only [hn]
  cases h with
  | one =>
      rw [if_pos (by omega)]
      simp
  | two first second bits long =>
      obtain ⟨hb, hb'⟩ := second
      rw [if_neg (by omega), if_pos (by omega)]
      simp [← UInt8.toNat_inj]
      omega
  | three _ second third bits long plain =>
      obtain ⟨hb, hb'⟩ := second
      obtain ⟨hc, hc'⟩ := third
      rw [if_neg (by omega), if_neg (by omega), if_pos (by omega)]
      simp [← UInt8.toNat_inj]
      omega
  | four _ second third fourth bits long last =>
      obtain ⟨hb, hb'⟩ := second
      obtain ⟨hc, hc'⟩ := third
      obtain ⟨hd, hd'⟩ := fourth
      rw [if_neg (by omega), if_neg (by omega), if_neg (by omega)]
      simp [← UInt8.toNat_inj]
      omega

theorem spells_utf8EncodeChar (c : Char) : Spells (String.utf8EncodeChar c) c.toNat := by
  have hvalid : c.toNat < 0xd800 ∨ 0xdfff < c.toNat ∧ c.toNat < 0x110000 := c.valid
  have hval : c.val.toNat = c.toNat := rfl
  unfold String.utf8EncodeChar
  simp only [hval]
  split
  · next h =>
    have hfirst : (UInt8.ofNat c.toNat).toNat = c.toNat := by
      simp
      omega
    have hspells := @Spells.one (UInt8.ofNat c.toNat) (by omega)
    rwa [hfirst] at hspells
  · split
    · exact .two (by simp; omega) (by simp [IsTail]; omega) (by simp; omega) (by omega)
    · split
      · exact .three (by simp; omega) (by simp [IsTail]; omega) (by simp [IsTail]; omega)
          (by simp; omega) (by omega) (by omega)
      · exact .four (by simp; omega) (by simp [IsTail]; omega) (by simp [IsTail]; omega)
          (by simp [IsTail]; omega) (by simp; omega) (by omega) (by omega)

theorem decodeFrom_last_eq_ok {first low high : UInt8} {begun bits : Nat} :
    decodeFrom position (some ⟨first, begun, 1, low, high, bits⟩) bytes = .ok text ↔
      ∃ b rest later, bytes = b :: rest ∧ low ≤ b ∧ b ≤ high ∧
        text = Char.ofNat (bits * 64 + (b.toNat - 0x80)) :: later ∧
        decodeFrom (position + 1) none rest = .ok later := by
  cases bytes with
  | nil => simp [decodeFrom]
  | cons b rest =>
      rw [decodeFrom]
      by_cases hrange : low ≤ b ∧ b ≤ high
      · cases hrest : decodeFrom (position + 1) none rest <;> simp [hrange, hrest, eq_comm]
      · simp only [hrange, if_false, reduceCtorEq, false_iff]
        rintro ⟨_, _, _, hcons, hlow, hhigh, -⟩
        obtain ⟨rfl, rfl⟩ := List.cons.inj hcons
        exact hrange ⟨hlow, hhigh⟩

theorem decodeFrom_inner_eq_ok {first low high : UInt8} {begun missing bits : Nat} :
    decodeFrom position (some ⟨first, begun, missing + 2, low, high, bits⟩) bytes = .ok text ↔
      ∃ b rest, bytes = b :: rest ∧ low ≤ b ∧ b ≤ high ∧
        decodeFrom (position + 1)
          (some ⟨first, begun, missing + 1, 0x80, 0xbf, bits * 64 + (b.toNat - 0x80)⟩) rest =
            .ok text := by
  cases bytes with
  | nil => simp [decodeFrom]
  | cons b rest =>
      rw [decodeFrom]
      by_cases hrange : low ≤ b ∧ b ≤ high
      · simp [hrange]
      · simp only [hrange, if_false, reduceCtorEq, false_iff]
        rintro ⟨_, _, hcons, hlow, hhigh, -⟩
        obtain ⟨rfl, rfl⟩ := List.cons.inj hcons
        exact hrange ⟨hlow, hhigh⟩

theorem decodeFrom_first_eq_ok :
    decodeFrom position none (a :: rest) = .ok text ↔
      (a < 0x80 ∧ ∃ later, text = Char.ofNat a.toNat :: later ∧
        decodeFrom (position + 1) none rest = .ok later) ∨
      ¬ a < 0x80 ∧ ∃ s, Sequence.ofFirst? a position = some s ∧
        decodeFrom (position + 1) (some s) rest = .ok text := by
  rw [decodeFrom]
  by_cases hlow : a < 0x80
  · cases hrest : decodeFrom (position + 1) none rest <;> simp [hlow, eq_comm]
  · cases hfirst : Sequence.ofFirst? a position <;> simp [hlow]

theorem isTail_iff {b : UInt8} : IsTail b ↔ 0x80 ≤ b ∧ b ≤ 0xbf := by
  simp only [IsTail, UInt8.le_iff_toNat_le, UInt8.reduceToNat]
  omega

theorem ofFirst?_eq_some_iff {s : Sequence} :
    Sequence.ofFirst? a position = some s ↔
      (0xc2 ≤ a.toNat ∧ a.toNat < 0xe0) ∧ s = ⟨a, position, 1, 0x80, 0xbf, a.toNat - 0xc0⟩ ∨
      (0xe0 ≤ a.toNat ∧ a.toNat < 0xf0) ∧
        s = ⟨a, position, 2, if a = 0xe0 then 0xa0 else 0x80, if a = 0xed then 0x9f else 0xbf,
          a.toNat - 0xe0⟩ ∨
      (0xf0 ≤ a.toNat ∧ a.toNat < 0xf5) ∧
        s = ⟨a, position, 3, if a = 0xf0 then 0x90 else 0x80, if a = 0xf4 then 0x8f else 0xbf,
          a.toNat - 0xf0⟩ := by
  simp only [Sequence.ofFirst?, UInt8.lt_iff_toNat_lt, UInt8.reduceToNat]
  constructor
  · intro h
    split at h
    · cases h
    split at h
    · exact .inl ⟨by omega, (Option.some.inj h).symm⟩
    split at h
    · exact .inr (.inl ⟨by omega, (Option.some.inj h).symm⟩)
    split at h
    · exact .inr (.inr ⟨by omega, (Option.some.inj h).symm⟩)
    · cases h
  · rintro (⟨ha, rfl⟩ | ⟨ha, rfl⟩ | ⟨ha, rfl⟩)
    · rw [if_neg (by omega), if_pos ha.2]
    · rw [if_neg (by omega), if_neg (by omega), if_pos ha.2]
    · rw [if_neg (by omega), if_neg (by omega), if_neg (by omega), if_pos ha.2]

/-- The range of the second of three bytes leaves out what fits into two, and the surrogates. -/
theorem second_of_three_iff {b c : UInt8} (ha : 0xe0 ≤ a.toNat ∧ a.toNat < 0xf0) (hc : IsTail c)
    {n : Nat} (hn : n = ((a.toNat - 0xe0) * 64 + (b.toNat - 0x80)) * 64 + (c.toNat - 0x80)) :
    ((if a = 0xe0 then 0xa0 else 0x80) ≤ b ∧ b ≤ if a = 0xed then 0x9f else 0xbf) ↔
      IsTail b ∧ 0x800 ≤ n ∧ (n < 0xd800 ∨ 0xe000 ≤ n) := by
  obtain ⟨hc, hc'⟩ := hc
  simp only [IsTail, UInt8.le_iff_toNat_le, ← UInt8.toNat_inj, apply_ite UInt8.toNat,
    UInt8.reduceToNat]
  split_ifs <;> omega

/-- The range of the second of four bytes leaves out what fits into three, and what lies above the
last code point. -/
theorem second_of_four_iff {b c d : UInt8} (ha : 0xf0 ≤ a.toNat ∧ a.toNat < 0xf5) (hc : IsTail c)
    (hd : IsTail d) {n : Nat}
    (hn : n = (((a.toNat - 0xf0) * 64 + (b.toNat - 0x80)) * 64 + (c.toNat - 0x80)) * 64 +
      (d.toNat - 0x80)) :
    ((if a = 0xf0 then 0x90 else 0x80) ≤ b ∧ b ≤ if a = 0xf4 then 0x8f else 0xbf) ↔
      IsTail b ∧ 0x10000 ≤ n ∧ n ≤ 0x10ffff := by
  obtain ⟨hc, hc'⟩ := hc
  obtain ⟨hd, hd'⟩ := hd
  simp only [IsTail, UInt8.le_iff_toNat_le, ← UInt8.toNat_inj, apply_ite UInt8.toNat,
    UInt8.reduceToNat]
  split_ifs <;> omega

theorem exists_spells_of_decodeFrom (h : decodeFrom position none (a :: rest) = .ok text) :
    ∃ front back n later, a :: rest = front ++ back ∧ Spells front n ∧
      text = Char.ofNat n :: later ∧
      decodeFrom (position + front.length) none back = .ok later := by
  rcases decodeFrom_first_eq_ok.1 h with ⟨hlow, later, rfl, hback⟩ | ⟨-, s, hfirst, hmore⟩
  · exact ⟨[a], rest, a.toNat, later, rfl, .one (UInt8.lt_iff_toNat_lt.1 hlow), rfl, hback⟩
  -- Sequences of two, three and four bytes, by what the first of them announces.
  rcases ofFirst?_eq_some_iff.1 hfirst with ⟨ha, rfl⟩ | ⟨ha, rfl⟩ | ⟨ha, rfl⟩
  · obtain ⟨b, back, later, rfl, hb, hb', rfl, hback⟩ := decodeFrom_last_eq_ok.1 hmore
    exact ⟨[a, b], back, _, later, rfl,
      .two ⟨by omega, ha.2⟩ (isTail_iff.2 ⟨hb, hb'⟩) rfl (by omega), rfl, hback⟩
  · obtain ⟨b, rest, rfl, hb, hb', hmore⟩ := decodeFrom_inner_eq_ok.1 hmore
    obtain ⟨c, back, later, rfl, hc, hc', rfl, hback⟩ := decodeFrom_last_eq_ok.1 hmore
    have hthird := isTail_iff.2 ⟨hc, hc'⟩
    obtain ⟨hsecond, hlong, hplain⟩ := (second_of_three_iff ha hthird rfl).1 ⟨hb, hb'⟩
    exact ⟨[a, b, c], back, _, later, rfl, .three ha hsecond hthird rfl hlong hplain, rfl, hback⟩
  · obtain ⟨b, rest, rfl, hb, hb', hmore⟩ := decodeFrom_inner_eq_ok.1 hmore
    obtain ⟨c, rest, rfl, hc, hc', hmore⟩ := decodeFrom_inner_eq_ok.1 hmore
    obtain ⟨d, back, later, rfl, hd, hd', rfl, hback⟩ := decodeFrom_last_eq_ok.1 hmore
    have hthird := isTail_iff.2 ⟨hc, hc'⟩
    have hfourth := isTail_iff.2 ⟨hd, hd'⟩
    obtain ⟨hsecond, hlong, hlast⟩ := (second_of_four_iff ha hthird hfourth rfl).1 ⟨hb, hb'⟩
    exact ⟨[a, b, c, d], back, _, later, rfl,
      .four ⟨ha.1, by omega⟩ hsecond hthird hfourth rfl hlong hlast, rfl, hback⟩

theorem decodeFrom_of_spells {front back : Bytes} {n : Nat} {later : Text} (h : Spells front n)
    (hback : decodeFrom (position + front.length) none back = .ok later) :
    decodeFrom position none (front ++ back) = .ok (Char.ofNat n :: later) := by
  have hmany : ∀ {a : UInt8}, 0x80 ≤ a.toNat → ¬ a < 0x80 := fun ha => by
    simpa [UInt8.lt_iff_toNat_lt] using ha
  -- One case for each length, which reads the bytes from the first on.
  cases h with
  | one first =>
      exact decodeFrom_first_eq_ok.2
        (.inl ⟨UInt8.lt_iff_toNat_lt.2 first, later, rfl, hback⟩)
  | @two a b _ first second bits long =>
      obtain ⟨hb, hb'⟩ := isTail_iff.1 second
      obtain ⟨-, hbits⟩ := second
      exact decodeFrom_first_eq_ok.2 (.inr ⟨hmany (by omega), _,
        ofFirst?_eq_some_iff.2 (.inl ⟨by omega, rfl⟩),
        decodeFrom_last_eq_ok.2 ⟨b, back, later, rfl, hb, hb', by rw [bits], hback⟩⟩)
  | @three a b c _ first second third bits long plain =>
      obtain ⟨hb, hb'⟩ := (second_of_three_iff first third bits).2 ⟨second, long, plain⟩
      obtain ⟨hc, hc'⟩ := isTail_iff.1 third
      exact decodeFrom_first_eq_ok.2 (.inr ⟨hmany (by omega), _,
        ofFirst?_eq_some_iff.2 (.inr (.inl ⟨first, rfl⟩)),
        decodeFrom_inner_eq_ok.2 ⟨b, _, rfl, hb, hb',
          decodeFrom_last_eq_ok.2 ⟨c, back, later, rfl, hc, hc', by rw [bits], hback⟩⟩⟩)
  | @four a b c d _ first second third fourth bits long last =>
      have ha : 0xf0 ≤ a.toNat ∧ a.toNat < 0xf5 := by omega
      obtain ⟨hb, hb'⟩ := (second_of_four_iff ha third fourth bits).2 ⟨second, long, last⟩
      obtain ⟨hc, hc'⟩ := isTail_iff.1 third
      obtain ⟨hd, hd'⟩ := isTail_iff.1 fourth
      exact decodeFrom_first_eq_ok.2 (.inr ⟨hmany (by omega), _,
        ofFirst?_eq_some_iff.2 (.inr (.inr ⟨ha, rfl⟩)),
        decodeFrom_inner_eq_ok.2 ⟨b, _, rfl, hb, hb',
          decodeFrom_inner_eq_ok.2 ⟨c, _, rfl, hc, hc',
            decodeFrom_last_eq_ok.2 ⟨d, back, later, rfl, hd, hd', by rw [bits], hback⟩⟩⟩⟩)

@[simp] theorem encode_cons (c : Char) (t : Text) :
    encode (c :: t) = String.utf8EncodeChar c ++ encode t := rfl

theorem Spells.ne_nil {front : Bytes} {n : Nat} (h : Spells front n) : front ≠ [] := by
  cases h <;> simp

theorem encode_of_decodeFrom (h : decodeFrom position none bytes = .ok text) :
    encode text = bytes := by
  induction hlength : bytes.length using Nat.strong_induction_on
    generalizing position bytes text with
  | h length ih =>
    cases bytes with
    | nil =>
        obtain rfl := Except.ok.inj h
        rfl
    | cons a rest =>
        obtain ⟨front, back, n, later, hsplit, hspells, rfl, hback⟩ :=
          exists_spells_of_decodeFrom h
        have hshort : back.length < length := by
          have hpos := List.length_pos_iff.2 hspells.ne_nil
          rw [← hlength, hsplit, List.length_append]
          omega
        rw [encode_cons, hspells.encode, ih back.length hshort hback rfl, hsplit]

theorem decodeFrom_encode (position : Nat) (t : Text) :
    decodeFrom position none (encode t) = .ok t := by
  induction t generalizing position with
  | nil => rfl
  | cons c t ih =>
      have hread := decodeFrom_of_spells (spells_utf8EncodeChar c)
        (ih (position + (String.utf8EncodeChar c).length))
      rwa [Char.ofNat_toNat] at hread

theorem decode_eq_ok_iff : decode bytes = .ok text ↔ encode text = bytes :=
  ⟨encode_of_decodeFrom, fun h => h ▸ decodeFrom_encode 0 text⟩

theorem wellFormed_encode (t : Text) : WellFormed (encode t) := by
  induction t with
  | nil => exact .nil
  | cons c t ih => exact .cons (spells_utf8EncodeChar c) ih

/-- Exactly the well-formed bytes are encodings. -/
theorem wellFormed_iff : WellFormed bytes ↔ ∃ t, encode t = bytes := by
  constructor
  · intro h
    induction h with
    | nil => exact ⟨[], rfl⟩
    | cons spells _ ih =>
        obtain ⟨t, rfl⟩ := ih
        exact ⟨Char.ofNat _ :: t, by rw [encode_cons, spells.encode]⟩
  · rintro ⟨t, rfl⟩
    exact wellFormed_encode t

theorem exists_decode_iff : (∃ t, decode bytes = .ok t) ↔ WellFormed bytes := by
  simp only [decode_eq_ok_iff, wellFormed_iff]

theorem length_le_length_encode (t : Text) : t.length ≤ (encode t).length := by
  induction t with
  | nil => simp
  | cons c t ih =>
      have hpos := Char.utf8Size_pos c
      simp only [encode_cons, List.length_append, String.length_utf8EncodeChar, List.length_cons]
      omega

theorem length_encode_eq_length_iff (t : Text) :
    (encode t).length = t.length ↔ ∀ c ∈ t, c.toNat < 0x80 := by
  induction t with
  | nil => simp
  | cons c t ih =>
      have hpos := Char.utf8Size_pos c
      have hlong := length_le_length_encode t
      have hc : c.utf8Size = 1 ↔ c.toNat < 0x80 := by
        rw [Char.utf8Size_eq_one_iff, UInt32.le_iff_toNat_le]
        exact Nat.lt_succ_iff.symm
      rw [List.forall_mem_cons, ← hc, ← ih, encode_cons, List.length_append,
        String.length_utf8EncodeChar, List.length_cons]
      omega

end SourceLoader.Text.Utf8
