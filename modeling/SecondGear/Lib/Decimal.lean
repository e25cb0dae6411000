import Mathlib.Algebra.Group.Nat.Defs
import Mathlib.Data.List.Induction

/-!
# `SecondGear.Lib.Decimal`: decimal numbers as text

What `printf` writes for `%u`, `%ld` and `%0wld`, and how to read it back. `snprintf` cuts a
text that is too long for its buffer.

* `number?_decimal`, `integer?_signed`, `integer?_padded`: what was written is read back.
* `decimal_of_number?`: a text of digits without a leading zero is what `%u` writes for the
  number that it stands for.
* `length_decimal_le`, `length_signed_le`: how long the texts get.
* `not_mem_decimal`, `not_mem_signed`, `not_mem_padded`: a separator does not occur in them.
-/

set_option autoImplicit false

namespace SecondGear.Lib

/-- `snprintf(buf, size, ..)`: the text, and a zero behind it. -/
def snprintf (size : Nat) (text : List Char) : List Char := text.take (size - 1)

/-- A text that is shorter than the buffer is not cut. -/
theorem snprintf_eq {size : Nat} {text : List Char} (h : text.length < size) :
    snprintf size text = text :=
  List.take_of_length_le (by omega)

/-! ### Natural numbers -/

/-- `%u` -/
def decimal (n : Nat) : List Char := Nat.toDigits 10 n

/-- The number that digits stand for. -/
def number? (cs : List Char) : Option Nat :=
  if cs ≠ [] ∧ cs.all Char.isDigit then some (Nat.ofDigitChars 10 cs 0) else none

/-- Zeros in front, up to `w` characters. -/
def zeros (w : Nat) (cs : List Char) : List Char := List.replicate (w - cs.length) '0' ++ cs

theorem isDigit_of_mem_decimal {n : Nat} {c : Char} (h : c ∈ decimal n) : c.isDigit :=
  Nat.isDigit_of_mem_toDigits (by decide) (by decide) h

theorem decimal_ne_nil (n : Nat) : decimal n ≠ [] := Nat.toDigits_ne_nil

theorem not_mem_decimal {c : Char} (h : c.isDigit = false) (n : Nat) : c ∉ decimal n := by
  intro hmem
  rw [isDigit_of_mem_decimal hmem] at h
  cases h

theorem number?_eq_some_iff {cs : List Char} {n : Nat} :
    number? cs = some n ↔
      cs ≠ [] ∧ (∀ c ∈ cs, c.isDigit) ∧ Nat.ofDigitChars 10 cs 0 = n := by
  rw [number?, Option.ite_none_right_eq_some, List.all_eq_true, Option.some.injEq, and_assoc]

/-- What `%u` writes is read back. -/
theorem number?_decimal (n : Nat) : number? (decimal n) = some n :=
  number?_eq_some_iff.mpr ⟨decimal_ne_nil n, fun _ hc => isDigit_of_mem_decimal hc,
    Nat.ofDigitChars_toDigits (by decide) (by decide)⟩

/-- Zeros in front make no difference. -/
theorem number?_zeros (w n : Nat) : number? (zeros w (decimal n)) = some n := by
  refine number?_eq_some_iff.mpr ⟨?_, ?_, ?_⟩
  · exact List.append_ne_nil_of_right_ne_nil _ (decimal_ne_nil n)
  · intro c hc
    rcases List.mem_append.mp hc with hzero | hdigit
    · rw [List.eq_of_mem_replicate hzero]
      rfl
    · exact isDigit_of_mem_decimal hdigit
  · rw [zeros, Nat.ofDigitChars_append, Nat.ofDigitChars_replicate_zero, Nat.mul_zero]
    exact Nat.ofDigitChars_toDigits (by decide) (by decide)

/-- Different numbers are written differently. -/
theorem decimal_injective {m n : Nat} (h : decimal m = decimal n) : m = n := by
  have hread := congrArg number? h
  rwa [number?_decimal, number?_decimal, Option.some.injEq] at hread

/-- A number below `10 ^ k` has at most `k` digits. -/
theorem length_decimal_le {n k : Nat} (hk : 0 < k) (h : n < 10 ^ k) : (decimal n).length ≤ k :=
  (Nat.length_toDigits_le_iff (by decide) hk).mpr h

/-- One digit more. -/
theorem decimal_succ {n d : Nat} (hn : 0 < n) (hd : d < 10) :
    decimal (10 * n + d) = decimal n ++ [d.digitChar] := by
  rw [decimal, ← Nat.toDigits_append_toDigits (by decide) hn hd, Nat.toDigits_of_lt_base hd]
  rfl

/-- Only zero starts with a zero. By induction on the number of digits. -/
theorem head?_decimal_ne {n : Nat} (h : 0 < n) : (decimal n).head? ≠ some '0' := by
  induction n using Nat.strongRecOn with
  | ind n ih =>
      by_cases hlt : n < 10
      · rw [decimal, Nat.toDigits_of_lt_base hlt]
        intro hhead
        have hchar : n.digitChar.toNat = '0'.toNat := congrArg Char.toNat (Option.some.inj hhead)
        rw [Nat.toNat_digitChar_of_lt_ten hlt] at hchar
        exact absurd hchar (by simp; omega)
      · have hmore : decimal n = decimal (n / 10) ++ [(n % 10).digitChar] := by
          rw [← decimal_succ (by omega) (Nat.mod_lt n (by decide)), Nat.div_add_mod]
        obtain ⟨d, ds, hds⟩ := List.exists_cons_of_ne_nil (decimal_ne_nil (n / 10))
        have hhead := ih (n / 10) (by omega) (by omega)
        rw [hds] at hmore hhead
        rw [hmore]
        exact hhead

/-- No text has a leading zero in front of another digit. -/
theorem length_decimal_of_head {n : Nat} (h : (decimal n).head? = some '0') :
    (decimal n).length = 1 := by
  have hzero : n = 0 := Nat.eq_zero_of_not_pos fun hpos => head?_decimal_ne hpos h
  rw [hzero]
  rfl

/-- A digit is the digit of its value. -/
theorem digitChar_of_isDigit {c : Char} (h : c.isDigit) :
    c.toNat - '0'.toNat < 10 ∧ (c.toNat - '0'.toNat).digitChar = c := by
  obtain ⟨hlow, hhigh⟩ : 48 ≤ c.toNat ∧ c.toNat ≤ 57 := by
    simpa [Char.isDigit, UInt32.le_iff_toNat_le] using h
  obtain ⟨d, hd⟩ : ∃ d, c.toNat = d + 48 := ⟨c.toNat - 48, by omega⟩
  have hlt : d < 10 := by omega
  have hsub : c.toNat - '0'.toNat = d := by
    rw [hd]
    exact Nat.add_sub_cancel d 48
  refine ⟨by rw [hsub]; exact hlt, ?_⟩
  rw [hsub]
  exact Char.toNat_inj.mp ((Nat.toNat_digitChar_of_lt_ten hlt).trans (by omega))

/-- A text of digits without a leading zero is the text of its number. By induction on the
text, from its end. -/
theorem decimal_of_number? {cs : List Char} {n : Nat} (h : number? cs = some n)
    (hzero : cs.head? = some '0' → cs.length = 1) : decimal n = cs := by
  obtain ⟨hne, hdigits, rfl⟩ := number?_eq_some_iff.mp h
  clear h
  induction cs using List.reverseRecOn with
  | nil => exact absurd rfl hne
  | append_singleton cs c ih =>
      obtain ⟨hlt, hchar⟩ := digitChar_of_isDigit (hdigits c (by simp))
      have hvalue : Nat.ofDigitChars 10 (cs ++ [c]) 0
          = 10 * Nat.ofDigitChars 10 cs 0 + (c.toNat - '0'.toNat) := by
        rw [Nat.ofDigitChars_append, Nat.ofDigitChars_cons, Nat.ofDigitChars_nil]
      rw [hvalue]
      by_cases hnil : cs = []
      · -- One digit.
        rw [hnil, Nat.ofDigitChars_nil, Nat.mul_zero, Nat.zero_add, List.nil_append, decimal,
          Nat.toDigits_of_lt_base hlt, hchar]
      · have hhead : (cs ++ [c]).head? = cs.head? := by
          obtain ⟨d, ds, rfl⟩ := List.exists_cons_of_ne_nil hnil
          rfl
        have hpos : 0 < cs.length := List.length_pos_iff.mpr hnil
        have hcs : decimal (Nat.ofDigitChars 10 cs 0) = cs := by
          refine ih (fun h0 => ?_) hnil fun d hd => hdigits d (List.mem_append_left _ hd)
          have hone := hzero (hhead.trans h0)
          rw [List.length_append, List.length_singleton] at hone
          omega
        -- The digits in front are not a zero, so their value is not zero.
        have hvalue_pos : 0 < Nat.ofDigitChars 10 cs 0 := by
          refine Nat.pos_of_ne_zero fun h0 => ?_
          rw [h0] at hcs
          have hlong := hzero (hhead.trans (by rw [← hcs]; rfl))
          rw [List.length_append, List.length_singleton] at hlong
          omega
        rw [decimal_succ hvalue_pos hlt, hcs, hchar]

/-! ### Signed numbers -/

/-- `%ld` -/
def signed (i : Int) : List Char :=
  if i < 0 then '-' :: decimal i.natAbs else decimal i.natAbs

/-- `%0wld`: the sign comes in front of the zeros and is one of the `w` characters. -/
def padded (w : Nat) (i : Int) : List Char :=
  if i < 0 then '-' :: zeros (w - 1) (decimal i.natAbs) else zeros w (decimal i.natAbs)

/-- `%wd`: blanks in front, up to `w` characters. -/
def spaced (w : Nat) (i : Int) : List Char :=
  List.replicate (w - (signed i).length) ' ' ++ signed i

/-- The integer that a text stands for. -/
def integer? (cs : List Char) : Option Int :=
  if cs.head? = some '-' then (number? cs.tail).map fun n => -(n : Int)
  else (number? cs).map fun n => (n : Int)

/-- Digits have no sign. -/
theorem head?_ne_of_number? {cs : List Char} {n : Nat} (h : number? cs = some n) :
    cs.head? ≠ some '-' := by
  intro hhead
  have hdigit := (number?_eq_some_iff.mp h).2.1 '-' (List.mem_of_mem_head? hhead)
  exact absurd hdigit (by decide)

theorem integer?_neg {cs : List Char} {n : Nat} (h : number? cs = some n) :
    integer? ('-' :: cs) = some (-(n : Int)) := by
  rw [integer?, List.head?_cons, if_pos rfl, List.tail_cons, h]
  rfl

theorem integer?_nonneg {cs : List Char} {n : Nat} (h : number? cs = some n) :
    integer? cs = some (n : Int) := by
  rw [integer?, if_neg (head?_ne_of_number? h), h]
  rfl

/-- What `%ld` writes is read back. -/
theorem integer?_signed (i : Int) : integer? (signed i) = some i := by
  rw [signed]
  split
  · rw [integer?_neg (number?_decimal _)]
    congr 1
    omega
  · rw [integer?_nonneg (number?_decimal _)]
    congr 1
    omega

/-- What `%0wld` writes is read back. -/
theorem integer?_padded (w : Nat) (i : Int) : integer? (padded w i) = some i := by
  rw [padded]
  split
  · rw [integer?_neg (number?_zeros _ _)]
    congr 1
    omega
  · rw [integer?_nonneg (number?_zeros _ _)]
    congr 1
    omega

theorem not_mem_signed {c : Char} (h : c.isDigit = false) (hsign : c ≠ '-') (i : Int) :
    c ∉ signed i := by
  rw [signed]
  split
  · simp [hsign, not_mem_decimal h]
  · exact not_mem_decimal h _

theorem not_mem_padded {c : Char} (h : c.isDigit = false) (hsign : c ≠ '-') (w : Nat) (i : Int) :
    c ∉ padded w i := by
  have hzero : ∀ k, c ∉ List.replicate k '0' := by
    intro k hmem
    rw [List.eq_of_mem_replicate hmem] at h
    exact absurd h (by decide)
  rw [padded, zeros, zeros]
  split
  · simp [hsign, hzero, not_mem_decimal h]
  · simp [hzero, not_mem_decimal h]

/-- The sign takes one character. -/
theorem length_signed_le {i : Int} {k : Nat} (hk : 0 < k) (h : i.natAbs < 10 ^ k) :
    (signed i).length ≤ k + 1 := by
  have hdigits := length_decimal_le hk h
  rw [signed]
  split
  · exact Nat.succ_le_succ hdigits
  · exact Nat.le_succ_of_le hdigits

theorem length_zeros (w : Nat) (cs : List Char) : (zeros w cs).length = max w cs.length := by
  rw [zeros, List.length_append, List.length_replicate]
  omega

/-- Without too many digits, the text fits in `w` characters, or in one more when the sign
finds no room. -/
theorem length_padded_le {w : Nat} (hw : 0 < w) {i : Int} (h : i.natAbs < 10 ^ w) :
    (padded w i).length ≤ w + 1 := by
  have hdigits := length_decimal_le hw h
  rw [padded]
  split
  · rw [List.length_cons, length_zeros]
    omega
  · rw [length_zeros]
    omega

/-- A number of two digits. -/
theorem length_padded_two {i : Int} (h0 : 0 ≤ i) (h : i < 100) : (padded 2 i).length = 2 := by
  have hdigits := length_decimal_le (n := i.natAbs) (k := 2) (by decide) (by omega)
  rw [padded, if_neg (by omega), length_zeros]
  omega

theorem length_spaced (w : Nat) (i : Int) : (spaced w i).length = max w (signed i).length := by
  rw [spaced, List.length_append, List.length_replicate]
  omega

/-- Behind the blanks comes the number. By induction on the blanks. -/
theorem dropWhile_spaced (w : Nat) (i : Int) (cs : List Char) :
    (spaced w i ++ cs).dropWhile (· = ' ') = signed i ++ cs := by
  have hnot : ' ' ∉ signed i := not_mem_signed (by decide) (by decide) i
  rw [spaced, List.append_assoc]
  induction w - (signed i).length with
  | zero =>
      cases htext : signed i with
      | nil =>
          have hread := integer?_signed i
          rw [htext] at hread
          cases hread
      | cons c rest =>
          rw [htext] at hnot
          have hne : c ≠ ' ' := by
            rintro rfl
            exact hnot List.mem_cons_self
          simp [hne]
  | succ n ih => simpa [List.replicate_succ] using ih

end SecondGear.Lib
