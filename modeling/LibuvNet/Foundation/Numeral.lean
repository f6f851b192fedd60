import Mathlib.Data.Nat.Digits.Defs

/-!
# Padded numerals

A number is printed by its digits in some base, the digits from ten on as lower-case letters, and
filled up with zeros from the left to a width; a number that needs more digits than that is printed
with all of them.  Reading a numeral gives the number back, so numerals tell numbers apart whatever
the width.
-/

namespace LibuvNet.Foundation.Numeral

/-- The value of a digit. -/
def digitValue (digit : Char) : ℕ :=
  if digit.toNat < 'a'.toNat then digit.toNat - '0'.toNat else digit.toNat - 'a'.toNat + 10

theorem digitValue_digitChar {digit : ℕ} (hdigit : digit < 16) :
    digitValue digit.digitChar = digit := by
  revert hdigit
  revert digit
  decide

/-- The number a numeral continues a number to. -/
def read (base : ℕ) (numeral : List Char) (number : ℕ) : ℕ :=
  numeral.foldl (fun number digit ↦ base * number + digitValue digit) number

/-- The digits of a number, filled up with zeros. -/
def padded (base width number : ℕ) : List Char :=
  (Nat.toDigits base number).leftpad width '0'

variable {base : ℕ}

theorem read_append (first second : List Char) (number : ℕ) :
    read base (first ++ second) number = read base second (read base first number) :=
  List.foldl_append

theorem read_replicate_zero (count : ℕ) : read base (List.replicate count '0') 0 = 0 := by
  induction count with
  | zero => rfl
  | succ count ih =>
    have hzero : base * 0 + digitValue '0' = 0 := by rw [Nat.mul_zero]; rfl
    rw [List.replicate_succ, read, List.foldl_cons, hzero]
    exact ih

theorem read_digitChar {digit : ℕ} (hbase : base ≤ 16) (hdigit : digit < base) (number : ℕ) :
    read base [digit.digitChar] number = base * number + digit := by
  rw [read, List.foldl_cons, List.foldl_nil, digitValue_digitChar (hdigit.trans_le hbase)]

theorem read_toDigits (hlow : 1 < base) (hbase : base ≤ 16) (number : ℕ) :
    read base (Nat.toDigits base number) 0 = number := by
  induction number using Nat.strong_induction_on with
  | _ number ih =>
    by_cases hdigit : number < base
    · rw [Nat.toDigits_of_lt_base hdigit, read_digitChar hbase hdigit, Nat.mul_zero, Nat.zero_add]
    · have hle : base ≤ number := Nat.le_of_not_lt hdigit
      have hlt : number / base < number := Nat.div_lt_self (by omega) hlow
      have hmod : number % base < base := Nat.mod_lt number (by omega)
      calc read base (Nat.toDigits base number) 0
          = read base [(number % base).digitChar]
              (read base (Nat.toDigits base (number / base)) 0) := by
            rw [Nat.toDigits_of_base_le hlow hle, read_append]
        _ = base * (number / base) + number % base := by
            rw [ih _ hlt, read_digitChar hbase hmod]
        _ = number := Nat.div_add_mod number base

theorem read_padded (hlow : 1 < base) (hbase : base ≤ 16) (width number : ℕ) :
    read base (padded base width number) 0 = number := by
  rw [padded, List.leftpad, read_append, read_replicate_zero, read_toDigits hlow hbase]

theorem padded_injective (hlow : 1 < base) (hbase : base ≤ 16) (width : ℕ) :
    Function.Injective (padded base width) := by
  intro first second heq
  rw [← read_padded hlow hbase width first, heq, read_padded hlow hbase]

end LibuvNet.Foundation.Numeral
