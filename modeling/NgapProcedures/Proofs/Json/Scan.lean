import Mathlib.Order.Basic
import NgapProcedures.Json.Reader

/-! What a JSON text is made of is read back as it was written: whole numbers digit by digit, and
strings character by character, whatever has to be escaped in them. Only a number has to know where it
ends, so what follows it must not go on with it. -/

namespace NgapProcedures

namespace Decimal

theorem isDigit_of_mem_digits {n : Nat} {c : Char} (h : c ∈ digits n) : isDigit c = true := by
  have hdigit := Nat.isDigit_of_mem_toDigits (by decide) (by decide) h
  simpa [isDigit, Char.isDigit, Char.le_def] using hdigit

theorem value_digits (n : Nat) : value (digits n) = n := Nat.ofDigitChars_ten_toDigits

theorem exists_digits_eq_cons (n : Nat) : ∃ c cs, digits n = c :: cs ∧ isDigit c = true := by
  obtain ⟨c, cs, hcons⟩ := List.exists_cons_of_ne_nil (Nat.toDigits_ne_nil (n := n) (b := 10))
  have hmem : c ∈ digits n := by
    rw [digits, hcons]
    exact List.mem_cons_self
  exact ⟨c, cs, hcons, isDigit_of_mem_digits hmem⟩

theorem eq_nil_of_digits_eq_zero_cons {n : Nat} {cs : List Char} (h : digits n = '0' :: cs) :
    cs = [] := by
  induction n using Nat.strongRecOn generalizing cs with
  | ind n ih =>
    rcases Nat.lt_or_ge n 10 with hn | hn
    · have hone : digits n = [Nat.digitChar n] := Nat.toDigits_of_lt_base hn
      rw [hone] at h
      exact (List.cons.inj h).2.symm
    · have hsplit : digits n = digits (n / 10) ++ [Nat.digitChar (n % 10)] :=
        Nat.toDigits_of_base_le (by decide) hn
      obtain ⟨c, ds, hhigh, -⟩ := exists_digits_eq_cons (n / 10)
      rw [hsplit, hhigh, List.cons_append] at h
      obtain ⟨rfl, -⟩ := List.cons.inj h
      obtain rfl := ih (n / 10) (by omega) hhigh
      -- the digits above are a zero alone, but the number is ten at least
      have hvalue := value_digits (n / 10)
      rw [hhigh] at hvalue
      have hzero : value ['0'] = 0 := rfl
      omega

theorem takeDigits_digits_append (n : Nat) {rest : List Char}
    (hrest : ∀ c ∈ rest.head?, isDigit c = false) : takeDigits (digits n ++ rest) = (digits n, rest) := by
  have hdigits : ∀ c ∈ digits n, isDigit c = true := fun c => isDigit_of_mem_digits
  have hstop : rest.takeWhile isDigit = [] ∧ rest.dropWhile isDigit = rest := by
    cases rest with
    | nil => exact ⟨rfl, rfl⟩
    | cons c cs =>
      have hc := hrest c (by simp)
      simp [hc]
  unfold takeDigits
  rw [List.takeWhile_append_of_pos hdigits, List.dropWhile_append_of_pos hdigits, hstop.1, hstop.2,
    List.append_nil]

end Decimal

/-- A value ends with the text, or where an item or a member ends. -/
def EndsValue : List Char → Prop
  | [] => True
  | c :: _ => c = ',' ∨ c = ']' ∨ c = '\x7d'

namespace JsonNumber

/-- a whole number as it is written -/
def ofNat (n : Nat) : JsonNumber := ⟨false, Decimal.digits n, [], none⟩

theorem numeral_ofNat (n : Nat) : (ofNat n).numeral = { digits := n } := by
  simp [ofNat, numeral, Decimal.value_digits]

theorem isInRange_ofNat {n : Nat} (h : n < UInt64.size) : (ofNat n).isInRange = true := by
  refine isInRange_of_lt rfl rfl ?_
  rw [ofNat, Decimal.value_digits]
  exact h

theorem read_digits_append (n : Nat) {rest : List Char} (h : EndsValue rest) :
    read (Decimal.digits n ++ rest) = some (ofNat n, rest) := by
  have hstop : ∀ c ∈ rest.head?, Decimal.isDigit c = false := by
    intro c hc
    cases rest with
    | nil => simp at hc
    | cons d cs =>
      obtain rfl : d = c := by simpa using hc
      rcases h with rfl | rfl | rfl <;> rfl
  have htake := Decimal.takeDigits_digits_append n hstop
  have hfraction : readFraction rest = some ([], rest) := by
    cases rest with
    | nil => rfl
    | cons d cs => rcases h with rfl | rfl | rfl <;> rfl
  have hexponent : readExponent rest = some (none, rest) := by
    cases rest with
    | nil => rfl
    | cons d cs => rcases h with rfl | rfl | rfl <;> rfl
  obtain ⟨c, cs, hcons, hc⟩ := Decimal.exists_digits_eq_cons n
  have hsign : read (Decimal.digits n ++ rest) = readMagnitude false (Decimal.digits n ++ rest) := by
    rw [hcons, List.cons_append]
    unfold read
    split
    · next heq =>
      obtain ⟨rfl, -⟩ := List.cons.inj heq
      cases hc
    · rfl
  rw [hsign, readMagnitude, htake]
  split
  · next heq => simp [hcons] at heq
  · next heq =>
    obtain ⟨heq, -⟩ := Prod.mk.inj heq
    cases Decimal.eq_nil_of_digits_eq_zero_cons heq
  · next whole rest' _ _ heq =>
    obtain ⟨rfl, rfl⟩ := Prod.mk.inj heq
    rw [hfraction, Option.bind_eq_bind, Option.bind_some]
    dsimp only
    rw [hexponent]
    rfl

end JsonNumber

namespace JsonText

open Json (escape hexDigit)

theorem hexValue?_hexDigit {n : Nat} (h : n < 16) : hexValue? (hexDigit n) = some n := by
  have hall : ∀ k : Fin 16, hexValue? (hexDigit k) = some k.val := by decide
  exact hall ⟨n, h⟩

theorem scanString_simpleEscape {e c : Char} (h : simpleEscape? e = some c) (rest : List Char) :
    scanString ('\\' :: e :: rest) =
      (scanString rest).map fun (codes, rest) => (c.toNat :: codes, rest) := by
  rw [scanString]
  · rw [h]
    cases scanString rest <;> rfl
  · -- the other form of escape has `u` there
    rintro a b c' d rest' ⟨⟩
    cases h

theorem scanString_control {n : Nat} (h : n < 0x20) (rest : List Char) :
    scanString ('\\' :: 'u' :: '0' :: '0' :: hexDigit (n / 16) :: hexDigit (n % 16) :: rest) =
      (scanString rest).map fun (codes, rest) => (n :: codes, rest) := by
  have hzero : hexValue? '0' = some 0 := rfl
  have hhigh := hexValue?_hexDigit (n := n / 16) (by omega)
  have hlow := hexValue?_hexDigit (n := n % 16) (by omega)
  have hvalue : ((0 * 16 + 0) * 16 + n / 16) * 16 + n % 16 = n := by omega
  rw [scanString, hzero, hhigh, hlow]
  cases scanString rest with
  | none => rfl
  | some found => exact congrArg (fun code => some (code :: found.1, found.2)) hvalue

theorem scanString_plain {c : Char} (hquote : c ≠ '"') (hslash : c ≠ '\\') (hc : 0x20 ≤ c.toNat)
    (rest : List Char) :
    scanString (c :: rest) =
      (scanString rest).map fun (codes, rest) => (c.toNat :: codes, rest) := by
  rw [scanString]
  · rw [if_neg]
    · cases scanString rest <;> rfl
    · simp [hslash, hc]
  all_goals simp_all

/-- a character is read back from the way it stands in a string -/
theorem scanString_escape (c : Char) (rest : List Char) :
    scanString (escape c ++ rest) =
      (scanString rest).map fun (codes, rest) => (c.toNat :: codes, rest) := by
  unfold escape
  split_ifs with hquote hslash hn hr ht hb hf hcontrol
  · subst hquote
    exact scanString_simpleEscape rfl rest
  · subst hslash
    exact scanString_simpleEscape rfl rest
  · subst hn
    exact scanString_simpleEscape rfl rest
  · subst hr
    exact scanString_simpleEscape rfl rest
  · subst ht
    exact scanString_simpleEscape rfl rest
  · subst hb
    exact scanString_simpleEscape rfl rest
  · subst hf
    exact scanString_simpleEscape rfl rest
  · exact scanString_control hcontrol rest
  · exact scanString_plain hquote hslash (Nat.le_of_not_lt hcontrol) rest

theorem scanString_flatMap_escape (cs rest : List Char) :
    scanString (cs.flatMap escape ++ '"' :: rest) = some (cs.map Char.toNat, rest) := by
  induction cs with
  | nil => simp [scanString]
  | cons c cs ih => simp [scanString_escape, ih]

/-- no character is half of a surrogate pair -/
theorem joinSurrogates_toNat (cs : List Char) : joinSurrogates (cs.map Char.toNat) = some cs := by
  induction cs with
  | nil => rfl
  | cons c cs ih =>
    have hvalid : c.toNat < 0xd800 ∨ 0xdfff < c.toNat ∧ c.toNat < 0x110000 := c.valid
    have hhigh : isHighSurrogate c.toNat = false := by
      simp only [isHighSurrogate, Bool.and_eq_false_iff, decide_eq_false_iff_not]
      omega
    have hlow : isLowSurrogate c.toNat = false := by
      simp only [isLowSurrogate, Bool.and_eq_false_iff, decide_eq_false_iff_not]
      omega
    rw [List.map_cons, joinSurrogates.eq_def]
    simp [hhigh, hlow, ih]

theorem readString_renderString (s : String) (rest : List Char) :
    readString (s.toList.flatMap escape ++ '"' :: rest) = some (some s, rest) := by
  simp [readString, scanString_flatMap_escape, joinSurrogates_toNat]

end JsonText

end NgapProcedures
