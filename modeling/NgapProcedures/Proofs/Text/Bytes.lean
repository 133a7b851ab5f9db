import Mathlib.Data.String.Basic

/-! The order of texts is the order of their bytes in UTF-8. The bytes of a character are digits of
its number, the highest first, and the first byte grows with how many there are. So two texts are told
apart by the first character in which they differ, and no later byte matters. -/

namespace NgapProcedures

def bytesOf (s : String) : List UInt8 := s.toByteArray.data.toList

theorem bytesOf_eq (s : String) : bytesOf s = s.toList.flatMap String.utf8EncodeChar := by
  simp [bytesOf, ← String.utf8Encode_toList, List.utf8Encode]

def bytesAfterFirst (n : Nat) : Nat :=
  if n ≤ 0x7f then 0 else if n ≤ 0x7ff then 1 else if n ≤ 0xffff then 2 else 3

def firstByteMark : Nat → Nat
  | 0 => 0
  | 1 => 0xc0
  | 2 => 0xe0
  | _ => 0xf0

/-- a number in `k + 1` bytes: six bits in each but the first, which has the rest and the mark -/
def encoded (mark : Nat) : Nat → Nat → List UInt8
  | 0, n => [UInt8.ofNat (n + mark)]
  | k + 1, n => encoded mark k (n / 64) ++ [UInt8.ofNat (n % 64 + 0x80)]

theorem char_toNat_lt (c : Char) : c.toNat < 0x110000 := by
  have hvalid := c.valid
  simp only [UInt32.isValidChar, Nat.isValidChar] at hvalid
  rcases hvalid with hlow | ⟨-, hhigh⟩
  · exact Nat.lt_trans hlow (by decide)
  · exact hhigh

theorem utf8EncodeChar_eq (c : Char) :
    String.utf8EncodeChar c =
      encoded (firstByteMark (bytesAfterFirst c.toNat)) (bytesAfterFirst c.toNat) c.toNat := by
  have hbound := char_toNat_lt c
  unfold String.utf8EncodeChar bytesAfterFirst
  change (if c.toNat ≤ 0x7f then _ else if c.toNat ≤ 0x7ff then _ else if c.toNat ≤ 0xffff then _
    else _) = _
  split_ifs with h1 h2 h3
  · rfl
  · have hmod : c.toNat / 64 % 32 = c.toNat / 64 := by omega
    simp [encoded, firstByteMark, hmod]
  · have hmod : c.toNat / 4096 % 16 = c.toNat / 4096 := by omega
    simp [encoded, firstByteMark, hmod, Nat.div_div_eq_div_mul]
  · have hmod : c.toNat / 262144 % 8 = c.toNat / 262144 := by omega
    simp [encoded, firstByteMark, hmod, Nat.div_div_eq_div_mul]

theorem ofNat_lt_ofNat {a b : Nat} (h : a < b) (hb : b < 256) : UInt8.ofNat a < UInt8.ofNat b := by
  rw [UInt8.lt_iff_toNat_lt, UInt8.toNat_ofNat', UInt8.toNat_ofNat']
  omega

theorem encoded_eq_cons (mark k n : Nat) :
    ∃ rest, encoded mark k n = UInt8.ofNat (n / 64 ^ k + mark) :: rest := by
  induction k generalizing n with
  | zero => exact ⟨[], by simp [encoded]⟩
  | succ k ih =>
    obtain ⟨rest, hrest⟩ := ih (n / 64)
    refine ⟨rest ++ [UInt8.ofNat (n % 64 + 0x80)], ?_⟩
    rw [encoded, hrest, Nat.div_div_eq_div_mul, ← Nat.pow_succ']
    rfl

/-- the first bytes decide, if they differ -/
theorem encoded_lt_of_first {mark mark' k k' a b : Nat} (h : a / 64 ^ k + mark < b / 64 ^ k' + mark')
    (hb : b / 64 ^ k' + mark' < 256) (s t : List UInt8) :
    encoded mark k a ++ s < encoded mark' k' b ++ t := by
  obtain ⟨rest, hrest⟩ := encoded_eq_cons mark k a
  obtain ⟨rest', hrest'⟩ := encoded_eq_cons mark' k' b
  rw [hrest, hrest', List.cons_append, List.cons_append]
  exact List.cons_lt_cons_iff.2 (.inl (ofNat_lt_ofNat h hb))

/-- in as many bytes the smaller number comes first, by induction on how many follow the first -/
theorem encoded_lt {mark k a b : Nat} (h : a < b) (hb : b / 64 ^ k + mark < 256)
    (s t : List UInt8) : encoded mark k a ++ s < encoded mark k b ++ t := by
  induction k generalizing a b s t with
  | zero => exact encoded_lt_of_first (by simpa using h) hb s t
  | succ k ih =>
    rw [encoded, encoded, List.append_assoc, List.append_assoc]
    have hb' : b / 64 / 64 ^ k + mark < 256 := by
      rwa [Nat.div_div_eq_div_mul, ← Nat.pow_succ']
    rcases Nat.lt_or_eq_of_le (Nat.div_le_div_right (c := 64) (Nat.le_of_lt h)) with hdiv | hdiv
    · exact ih hdiv hb' _ _
    · -- the digits above are the same, so the last one decides
      rw [hdiv]
      have hlast : a % 64 + 0x80 < b % 64 + 0x80 := by omega
      have hsmall : b % 64 + 0x80 < 256 := by omega
      exact List.append_left_lt (List.cons_lt_cons_iff.2 (.inl (ofNat_lt_ofNat hlast hsmall)))

/-- the bytes of the smaller character come first, whatever follows them -/
theorem utf8EncodeChar_append_lt {c d : Char} (h : c < d) (s t : List UInt8) :
    String.utf8EncodeChar c ++ s < String.utf8EncodeChar d ++ t := by
  have hlt : c.toNat < d.toNat := h
  have hd := char_toNat_lt d
  rw [utf8EncodeChar_eq, utf8EncodeChar_eq]
  have hbyte : d.toNat / 64 ^ bytesAfterFirst d.toNat + firstByteMark (bytesAfterFirst d.toNat)
      < 256 := by
    unfold bytesAfterFirst
    split_ifs <;> simp only [firstByteMark] <;> omega
  by_cases hwidth : bytesAfterFirst c.toNat = bytesAfterFirst d.toNat
  · rw [hwidth]
    exact encoded_lt hlt hbyte s t
  · refine encoded_lt_of_first ?_ hbyte s t
    unfold bytesAfterFirst at hwidth ⊢
    split_ifs at hwidth ⊢ <;> simp only [firstByteMark] <;> omega

theorem utf8EncodeChar_ne_nil (c : Char) : String.utf8EncodeChar c ≠ [] := by
  rw [utf8EncodeChar_eq]
  obtain ⟨rest, hrest⟩ := encoded_eq_cons (firstByteMark (bytesAfterFirst c.toNat))
    (bytesAfterFirst c.toNat) c.toNat
  rw [hrest]
  exact List.cons_ne_nil _ _

theorem bytes_lt_of_lt {s t : List Char} (h : s < t) :
    s.flatMap String.utf8EncodeChar < t.flatMap String.utf8EncodeChar := by
  induction h with
  | nil =>
    rename_i d ds
    obtain ⟨b, bs, hb⟩ := List.exists_cons_of_ne_nil (utf8EncodeChar_ne_nil d)
    simp [hb]
  | rel hcd => exact utf8EncodeChar_append_lt hcd _ _
  | cons _ ih => exact List.append_left_lt ih

/-- Texts stand in the order of their bytes. -/
theorem lt_iff_bytesOf_lt (s t : String) : s < t ↔ bytesOf s < bytesOf t := by
  rw [String.lt_iff, bytesOf_eq, bytesOf_eq]
  constructor
  · exact bytes_lt_of_lt
  · intro h
    rcases lt_trichotomy s t with hlt | heq | hgt
    · exact String.lt_iff.1 hlt
    · rw [heq] at h
      exact absurd h (List.lt_irrefl _)
    · exact absurd (bytes_lt_of_lt (String.lt_iff.1 hgt)) (List.lt_asymm h)

end NgapProcedures
