import Mathlib.Data.List.Basic
import SourceLoader.Json.Basic
import SourceLoader.Json.Reader

/-!
The characters of written JSON and what they are read as. Whatever a text holds, it is written with
printable ASCII characters only, and reading takes exactly these characters off again: an escape is
read as the character that it was written for, also where that takes a pair of code units. Whole
numbers are written without zeros in front, so they are read as well.
-/

namespace SourceLoader.Json

def IsPrintable (c : Char) : Prop := ' ' ≤ c ∧ c ≤ '~'

instance (c : Char) : Decidable (IsPrintable c) := inferInstanceAs (Decidable (_ ∧ _))

/-! ### Hexadecimal digits -/

theorem hexValue?_digitChar {d : Nat} (h : d < 16) : hexValue? d.digitChar = some d := by
  have hall : ∀ d < 16, hexValue? (Nat.digitChar d) = some d := by decide
  exact hall d h

theorem isPrintable_digitChar {d : Nat} (h : d < 16) : IsPrintable d.digitChar := by
  have hall : ∀ d < 16, IsPrintable (Nat.digitChar d) := by decide
  exact hall d h

theorem padded_succ {base width n : Nat} (hbase : 1 < base) (hwidth : 0 < width) :
    Text.padded base (width + 1) n =
      Text.padded base width (n / base) ++ [(n % base).digitChar] := by
  unfold Text.padded
  by_cases h : n < base
  · have hzero : n / base = 0 := Nat.div_eq_of_lt h
    rw [Nat.toDigits_of_lt_base h, hzero, Nat.toDigits_of_lt_base (by omega : 0 < base),
      Nat.mod_eq_of_lt h]
    obtain ⟨w, rfl⟩ := Nat.exists_eq_succ_of_ne_zero (Nat.ne_of_gt hwidth)
    simp [List.replicate_succ']
  · rw [Nat.toDigits_of_base_le hbase (by omega)]
    simp

theorem padded_unit {n : Nat} (h : n < 0x10000) :
    Text.padded 16 4 n =
      [(n / 16 / 16 / 16).digitChar, (n / 16 / 16 % 16).digitChar, (n / 16 % 16).digitChar,
        (n % 16).digitChar] := by
  have hlast : Text.padded 16 1 (n / 16 / 16 / 16) = [(n / 16 / 16 / 16).digitChar] := by
    rw [Text.padded, Nat.toDigits_of_lt_base (by omega)]
    rfl
  rw [padded_succ (by decide) (by decide), padded_succ (by decide) (by decide),
    padded_succ (by decide) (by decide), hlast]
  rfl

theorem readUnit_padded {n : Nat} (h : n < 0x10000) (rest : Text) :
    readUnit (Text.padded 16 4 n ++ rest) = some (n, rest) := by
  have hvalue : ((n / 16 / 16 / 16 * 16 + n / 16 / 16 % 16) * 16 + n / 16 % 16) * 16 + n % 16 =
      n := by omega
  rw [padded_unit h]
  simp [readUnit, hexValue?_digitChar (by omega : n / 16 / 16 / 16 < 16),
    hexValue?_digitChar (Nat.mod_lt _ (by decide : 0 < 16)), hvalue]

theorem isPrintable_of_mem_unitEscape {n : Nat} (h : n < 0x10000) {c : Char}
    (hc : c ∈ unitEscape n) : IsPrintable c := by
  rw [unitEscape, padded_unit h] at hc
  simp only [List.mem_cons, List.not_mem_nil, or_false] at hc
  rcases hc with rfl | rfl | rfl | rfl | rfl | rfl
  · decide
  · decide
  · exact isPrintable_digitChar (by omega)
  · exact isPrintable_digitChar (by omega)
  · exact isPrintable_digitChar (by omega)
  · exact isPrintable_digitChar (by omega)

/-! ### Escapes -/

theorem valid_toNat (c : Char) : c.toNat < 0xd800 ∨ 0xdfff < c.toNat ∧ c.toNat < 0x110000 :=
  c.valid

theorem readCode_unit {t rest : Text} {n : Nat} (hunit : readUnit t = some (n, rest))
    (h : ¬ (0xd800 ≤ n ∧ n < 0xe000)) : readCode t = some (Char.ofNat n, rest) := by
  have hhigh : ¬ (0xd800 ≤ n ∧ n < 0xdc00) := by omega
  have hlow : ¬ (0xdc00 ≤ n ∧ n < 0xe000) := by omega
  simp [readCode, hunit, hhigh, hlow]

theorem readCode_pair {t inner rest : Text} {high low : Nat}
    (hfirst : readUnit t = some (high, '\\' :: 'u' :: inner))
    (hsecond : readUnit inner = some (low, rest)) (hhigh : 0xd800 ≤ high ∧ high < 0xdc00)
    (hlow : 0xdc00 ≤ low ∧ low < 0xe000) :
    readCode t =
      some (Char.ofNat (0x10000 + (high - 0xd800) * 0x400 + (low - 0xdc00)), rest) := by
  unfold readCode
  rw [hfirst]
  simp only [Option.bind_eq_bind, Option.bind_some, if_pos hhigh, hsecond, if_pos hlow,
    Option.pure_def]

theorem readEscape_code (t : Text) : readEscape ('u' :: t) = readCode t := rfl

/-- The escape of a code point is read as the character that it stands for. -/
theorem exists_codeEscape (c : Char) :
    ∃ tail, codeEscape c.toNat = '\\' :: tail ∧
      ∀ rest, readEscape (tail ++ rest) = some (c, rest) := by
  have hvalid := valid_toNat c
  unfold codeEscape
  split
  · next hlow =>
    refine ⟨'u' :: Text.padded 16 4 c.toNat, rfl, fun rest => ?_⟩
    rw [List.cons_append, readEscape_code, readCode_unit (readUnit_padded hlow rest) (by omega),
      Char.ofNat_toNat]
  · next hlow =>
    -- Above the first plane the code point is split into ten bits and ten bits.
    obtain ⟨high, hhigh⟩ : ∃ high, high = 0xd800 + (c.toNat - 0x10000) / 0x400 := ⟨_, rfl⟩
    obtain ⟨low, hlow⟩ : ∃ low, low = 0xdc00 + (c.toNat - 0x10000) % 0x400 := ⟨_, rfl⟩
    have hvalue : 0x10000 + (high - 0xd800) * 0x400 + (low - 0xdc00) = c.toNat := by omega
    refine ⟨'u' :: (Text.padded 16 4 high ++ unitEscape low), ?_, fun rest => ?_⟩
    · simp only [← hhigh, ← hlow]
      rfl
    · have hfirst := readUnit_padded (by omega : high < 0x10000) (unitEscape low ++ rest)
      have hsecond := readUnit_padded (by omega : low < 0x10000) rest
      rw [List.cons_append, readEscape_code, List.append_assoc,
        readCode_pair hfirst hsecond (by omega) (by omega), hvalue, Char.ofNat_toNat]

theorem isPrintable_of_mem_codeEscape {c d : Char} (h : d ∈ codeEscape c.toNat) :
    IsPrintable d := by
  have hvalid := valid_toNat c
  unfold codeEscape at h
  split at h
  · next hlow => exact isPrintable_of_mem_unitEscape hlow h
  · rcases List.mem_append.1 h with h | h
    · exact isPrintable_of_mem_unitEscape (by omega) h
    · exact isPrintable_of_mem_unitEscape (by omega) h

/-! ### Texts -/

/-- How a character is written: behind a backslash by a character of its own, as it is, or by its
number. -/
theorem escapeChar_cases (c : Char) :
    (∃ e, escapeChar c = ['\\', e] ∧ IsPrintable e ∧
        ∀ rest, readEscape (e :: rest) = some (c, rest)) ∨
      (escapeChar c = [c] ∧ c ≠ '"' ∧ c ≠ '\\' ∧ IsPrintable c) ∨
      escapeChar c = codeEscape c.toNat := by
  unfold escapeChar
  split_ifs with hquote hslash hfeed hreturn htab hpage hback hplain
  · exact .inl ⟨'"', rfl, by decide, fun _ => by rw [hquote]; rfl⟩
  · exact .inl ⟨'\\', rfl, by decide, fun _ => by rw [hslash]; rfl⟩
  · exact .inl ⟨'n', rfl, by decide, fun _ => by rw [hfeed]; rfl⟩
  · exact .inl ⟨'r', rfl, by decide, fun _ => by rw [hreturn]; rfl⟩
  · exact .inl ⟨'t', rfl, by decide, fun _ => by rw [htab]; rfl⟩
  · exact .inl ⟨'f', rfl, by decide, fun _ => by rw [hpage]; rfl⟩
  · exact .inl ⟨'b', rfl, by decide, fun _ => by rw [hback]; rfl⟩
  · exact .inr (.inl ⟨rfl, hquote, hslash, hplain⟩)
  · exact .inr (.inr rfl)

theorem escapeChar_ne_nil (c : Char) : escapeChar c ≠ [] := by
  rcases escapeChar_cases c with ⟨e, he, -⟩ | ⟨hc, -⟩ | hcode
  · simp [he]
  · simp [hc]
  · obtain ⟨tail, htail, -⟩ := exists_codeEscape c
    simp [hcode, htail]

theorem isPrintable_of_mem_escapeChar {c d : Char} (h : d ∈ escapeChar c) : IsPrintable d := by
  rcases escapeChar_cases c with ⟨e, he, hprint, -⟩ | ⟨hc, -, -, hprint⟩ | hcode
  · rw [he] at h
    simp only [List.mem_cons, List.not_mem_nil, or_false] at h
    rcases h with rfl | rfl
    · decide
    · exact hprint
  · rw [hc, List.mem_singleton] at h
    exact h ▸ hprint
  · exact isPrintable_of_mem_codeEscape (hcode ▸ h)

theorem readChars_escape {tail rest : Text} {c : Char} (fuel : Nat)
    (h : readEscape tail = some (c, rest)) :
    readChars (fuel + 1) ('\\' :: tail) =
      (readChars fuel rest).map fun r => (c :: r.1, r.2) := by
  cases hrest : readChars fuel rest <;> simp [readChars, h, hrest]

theorem readChars_plain {c : Char} (fuel : Nat) (hquote : c ≠ '"') (hslash : c ≠ '\\')
    (h : IsPrintable c) (rest : Text) :
    readChars (fuel + 1) (c :: rest) =
      (readChars fuel rest).map fun r => (c :: r.1, r.2) := by
  have hblank : ¬ c < ' ' := Char.not_lt.2 h.1
  rw [readChars]
  · cases hrest : readChars fuel rest <;> simp [hblank]
  · exact hquote
  · exact hslash

theorem readChars_escapeChar (c : Char) (fuel : Nat) (rest : Text) :
    readChars (fuel + 1) (escapeChar c ++ rest) =
      (readChars fuel rest).map fun r => (c :: r.1, r.2) := by
  rcases escapeChar_cases c with ⟨e, he, -, hread⟩ | ⟨hc, hquote, hslash, hprint⟩ | hcode
  · rw [he]
    exact readChars_escape fuel (hread rest)
  · rw [hc]
    exact readChars_plain fuel hquote hslash hprint rest
  · obtain ⟨tail, htail, hread⟩ := exists_codeEscape c
    rw [hcode, htail]
    exact readChars_escape fuel (hread rest)

theorem length_le_flatMap_escapeChar (t : Text) : t.length ≤ (t.flatMap escapeChar).length := by
  induction t with
  | nil => simp
  | cons c t ih =>
      have hpos := List.length_pos_iff.2 (escapeChar_ne_nil c)
      simp only [List.flatMap_cons, List.length_append, List.length_cons]
      omega

/-- The characters of a text are read up to its closing quotation mark. -/
theorem readChars_flatMap {fuel : Nat} {t : Text} (h : t.length ≤ fuel) (rest : Text) :
    readChars fuel (t.flatMap escapeChar ++ '"' :: rest) = some (t, rest) := by
  induction t generalizing fuel with
  | nil => simp [readChars]
  | cons c t ih =>
      obtain ⟨fuel, rfl⟩ := Nat.exists_eq_succ_of_ne_zero (by simp at h; omega : fuel ≠ 0)
      have hread := @ih fuel (by simpa using h)
      rw [List.flatMap_cons, List.append_assoc, readChars_escapeChar, hread]
      rfl

/-- A text is read with no more fuel than what follows its first quotation mark is long. -/
theorem readChars_length (t rest : Text) :
    readChars (t.flatMap escapeChar ++ '"' :: rest).length
        (t.flatMap escapeChar ++ '"' :: rest) =
      some (t, rest) := by
  refine readChars_flatMap ?_ rest
  have hlength := length_le_flatMap_escapeChar t
  simp only [List.length_append, List.length_cons]
  omega

/-! ### Numbers -/

theorem isDigit_of_mem_ofNat {n : Nat} {c : Char} (h : c ∈ Text.ofNat n) :
    Text.isDigit c = true :=
  Nat.isDigit_of_mem_toDigits (by decide) (by decide) h

theorem head?_ofNat_ne_zero {n : Nat} (h : n ≠ 0) : (Text.ofNat n).head? ≠ some '0' := by
  induction n using Nat.strongRecOn with
  | ind n ih =>
      unfold Text.ofNat at ih ⊢
      by_cases hsmall : n < 10
      · have hall : ∀ d < 10, d ≠ 0 → Nat.digitChar d ≠ '0' := by decide
        rw [Nat.toDigits_of_lt_base hsmall]
        simpa using hall n hsmall h
      · rw [Nat.toDigits_of_base_le (by decide) (by omega),
          List.head?_append_of_ne_nil _ Nat.toDigits_ne_nil]
        exact ih (n / 10) (by omega) (by omega)

theorem readNat_ofNat (n : Nat) {rest : Text} (h : ∀ c ∈ rest.head?, Text.isDigit c = false) :
    readNat (Text.ofNat n ++ rest) = some (n, rest) := by
  have hdigits : ∀ c ∈ Text.ofNat n, Text.isDigit c = true := fun _ => isDigit_of_mem_ofNat
  have hstop : rest.takeWhile Text.isDigit = [] ∧ rest.dropWhile Text.isDigit = rest := by
    cases rest with
    | nil => simp
    | cons c rest => simp_all
  have hvalue : Text.digitsValue (Text.ofNat n) = n := Nat.ofDigitChars_ten_toDigits
  unfold readNat
  rw [List.takeWhile_append_of_pos hdigits, hstop.1, List.append_nil,
    List.dropWhile_append_of_pos hdigits, hstop.2]
  split
  · next hnil => exact absurd hnil Nat.toDigits_ne_nil
  · next c more hzero =>
    by_cases hn : n = 0
    · subst hn
      cases hzero
    · exact absurd (by rw [hzero]; rfl) (head?_ofNat_ne_zero hn)
  · rw [hvalue]

end SourceLoader.Json
