/-
This file writes natural numbers and integers in decimal notation.
-/

namespace RibStream.Decimal

-- Powers use the core instance, even where another library brings its own.
attribute [local instance (high)] instPowNat

/-- The decimal digits of a number, most significant first. Zero has the digit zero. -/
def digits (value : Nat) : List Nat :=
  if value < 10 then [value] else digits (value / 10) ++ [value % 10]
termination_by value

/-- The number that a list of digits denotes. -/
def value (digits : List Nat) : Nat :=
  digits.foldl (fun total digit => 10 * total + digit) 0

def digitChar (digit : Nat) : Char :=
  Char.ofNat ('0'.toNat + digit)

def natural (number : Nat) : List Char :=
  (digits number).map digitChar

/-- A negative number starts with a minus sign, any other with its first digit. -/
def integer (number : Int) : List Char :=
  if number < 0 then '-' :: natural number.natAbs else natural number.natAbs

theorem value_concat (front : List Nat) (last : Nat) :
    value (front ++ [last]) = 10 * value front + last := by
  simp [value]

theorem value_digits (number : Nat) : value (digits number) = number := by
  fun_induction digits number with
  | case1 number small => simp [value]
  | case2 number large inductionHypothesis =>
      rw [value_concat, inductionHypothesis]
      omega

theorem digit_lt_ten (number digit : Nat) (member : digit ∈ digits number) : digit < 10 := by
  fun_induction digits number with
  | case1 number small => simp_all
  | case2 number large inductionHypothesis =>
      rcases List.mem_append.mp member with front | last
      · exact inductionHypothesis front
      · simp only [List.mem_singleton] at last
        omega

theorem digits_ne_nil (number : Nat) : digits number ≠ [] := by
  unfold digits
  split <;> simp

theorem lt_pow_length_digits (number : Nat) : number < 10 ^ (digits number).length := by
  fun_induction digits number with
  | case1 number small => simpa using small
  | case2 number large inductionHypothesis =>
      rw [List.length_append, List.length_singleton, Nat.pow_succ]
      omega

theorem pow_le_of_length_digits (number : Nat) (positive : 0 < number) :
    10 ^ ((digits number).length - 1) ≤ number := by
  fun_induction digits number with
  | case1 number small =>
      show 1 ≤ number
      exact positive
  | case2 number large inductionHypothesis =>
      have front := inductionHypothesis (by omega)
      have nonempty := List.length_pos_iff.mpr (digits_ne_nil (number / 10))
      rw [List.length_append, List.length_singleton, Nat.add_sub_cancel]
      calc 10 ^ (digits (number / 10)).length
          = 10 ^ ((digits (number / 10)).length - 1) * 10 := by
            rw [← Nat.pow_succ]
            congr 1
            omega
        _ ≤ number / 10 * 10 := Nat.mul_le_mul_right 10 front
        _ ≤ number := Nat.div_mul_le_self number 10

end RibStream.Decimal
