/-
This file reads decimal numerals and says which number they denote.
A numeral has an optional sign, digits with an optional point among them, and an optional exponent.
-/

import Mathlib.Algebra.Order.Field.Power
import Mathlib.Data.Rat.Cast.Order
import Mathlib.Tactic.Ring
import RibStream.Decimal.General

namespace RibStream

/-- The number `coefficient * 10 ^ exponent` or its opposite. Zero has a sign too. -/
structure Numeral where
  negative : Bool
  coefficient : Nat
  exponent : Int
deriving DecidableEq

namespace Numeral

def magnitude (numeral : Numeral) : ℚ :=
  numeral.coefficient * 10 ^ numeral.exponent

/-- The number with its sign. -/
def number (numeral : Numeral) : ℚ :=
  if numeral.negative then -numeral.magnitude else numeral.magnitude

def digitOf (character : Char) : Nat :=
  character.toNat - '0'.toNat

/-- The digits at the front of a text, and what follows. -/
def readDigits (text : List Char) : List Nat × List Char :=
  ((text.takeWhile Char.isDigit).map digitOf, text.dropWhile Char.isDigit)

/-- The digits after the point. A text without a point has none. -/
def readFraction : List Char → List Nat × List Char
  | '.' :: text => readDigits text
  | text => ([], text)

/-- The exponent at the end of a numeral. It is zero if it is not written. -/
def readExponent? : List Char → Option Int
  | [] => some 0
  | 'e' :: sign :: text =>
      match readDigits text with
      | (digit :: digits, []) =>
          if sign = '+' then some (Decimal.value (digit :: digits))
          else if sign = '-' then some (-(Decimal.value (digit :: digits) : Int))
          else none
      | _ => none
  | _ => none

def readUnsigned? (negative : Bool) (text : List Char) : Option Numeral :=
  match readDigits text with
  | ([], _) => none
  | (whole, text) =>
      let (fraction, text) := readFraction text
      (readExponent? text).map fun exponent =>
        ⟨negative, Decimal.value (whole ++ fraction), exponent - fraction.length⟩

/-- Reads a whole text as one numeral. -/
def read? : List Char → Option Numeral
  | '-' :: text => readUnsigned? true text
  | text => readUnsigned? false text

end Numeral

namespace Decimal

/-- The digits are those of the decimal system. -/
def AllDigits (digits : List Nat) : Prop :=
  ∀ digit ∈ digits, digit < 10

theorem isDigit_digitChar (digit : Nat) (small : digit < 10) :
    (digitChar digit).isDigit = true := by
  have table : ∀ digit : Fin 10, (digitChar digit.val).isDigit = true := by decide
  exact table ⟨digit, small⟩

theorem digitOf_digitChar (digit : Nat) (small : digit < 10) :
    Numeral.digitOf (digitChar digit) = digit := by
  have table : ∀ digit : Fin 10, Numeral.digitOf (digitChar digit.val) = digit.val := by decide
  exact table ⟨digit, small⟩

theorem map_digitOf (digits : List Nat) (valid : AllDigits digits) :
    (digits.map digitChar).map Numeral.digitOf = digits := by
  induction digits with
  | nil => rfl
  | cons digit digits inductionHypothesis =>
      have first := digitOf_digitChar digit (valid digit List.mem_cons_self)
      have rest := inductionHypothesis fun other member => valid other (List.mem_cons_of_mem _ member)
      rw [List.map_cons, List.map_cons, first, rest]

theorem foldl_value (digits : List Nat) (start : Nat) :
    digits.foldl (fun total digit => 10 * total + digit) start =
      start * 10 ^ digits.length + value digits := by
  induction digits generalizing start with
  | nil => simp [value]
  | cons digit digits inductionHypothesis =>
      have zero := inductionHypothesis (10 * 0 + digit)
      rw [value, List.foldl_cons, List.foldl_cons, inductionHypothesis, zero, List.length_cons,
        Nat.pow_succ]
      ring

theorem value_append (front back : List Nat) :
    value (front ++ back) = value front * 10 ^ back.length + value back := by
  rw [value, List.foldl_append, foldl_value]
  rfl

theorem value_replicate_zero (count : Nat) : value (List.replicate count 0) = 0 := by
  induction count with
  | zero => rfl
  | succ count inductionHypothesis =>
      rw [List.replicate_succ', value_concat, inductionHypothesis]

theorem allDigits_append {front back : List Nat} (first : AllDigits front)
    (second : AllDigits back) : AllDigits (front ++ back) := by
  intro digit member
  rcases List.mem_append.mp member with inFront | inBack
  · exact first digit inFront
  · exact second digit inBack

theorem allDigits_replicate_zero (count : Nat) : AllDigits (List.replicate count 0) := by
  intro digit member
  rw [List.eq_of_mem_replicate member]
  decide

/-- The zeros at the end are all that is dropped. -/
theorem dropTrailingZeros_append (digits : List Nat) :
    ∃ count, digits = dropTrailingZeros digits ++ List.replicate count 0 := by
  generalize splitAt : digits.reverse.takeWhile (· == 0) = zeros
  have allZero : ∀ digit ∈ zeros, digit = 0 := by
    intro digit member
    have all : zeros.all (· == 0) = true := splitAt ▸ List.all_takeWhile
    exact eq_of_beq (List.all_eq_true.mp all digit member)
  refine ⟨zeros.length, ?_⟩
  have split : zeros ++ digits.reverse.dropWhile (· == 0) = digits.reverse :=
    splitAt ▸ List.takeWhile_append_dropWhile
  rw [← List.reverse_inj, ← split, dropTrailingZeros, List.reverse_append, List.reverse_reverse,
    List.reverse_replicate]
  exact congrArg (· ++ _) (List.eq_replicate_of_mem allZero)

theorem allDigits_dropTrailingZeros {digits : List Nat} (valid : AllDigits digits) :
    AllDigits (dropTrailingZeros digits) := by
  obtain ⟨count, split⟩ := dropTrailingZeros_append digits
  intro digit member
  apply valid
  rw [split]
  exact List.mem_append_left _ member

/-- The mark of an exponent is a letter, a sign and digits that denote the size of the exponent. -/
theorem exponentMark_spec (width : Nat) (exponent : Int) :
    ∃ mark, exponentMark width exponent =
        'e' :: (if exponent < 0 then '-' else '+') :: mark.map digitChar ∧
      AllDigits mark ∧ value mark = exponent.natAbs ∧ mark ≠ [] ∧ width ≤ mark.length := by
  refine ⟨_, rfl, allDigits_append (allDigits_replicate_zero _) (digit_lt_ten _), ?_, ?_, ?_⟩
  · rw [value_append, value_replicate_zero, Nat.zero_mul, Nat.zero_add, value_digits]
  · exact List.append_ne_nil_of_right_ne_nil _ (digits_ne_nil _)
  · rw [List.length_append, List.length_replicate]
    omega

end Decimal

namespace Numeral

open Decimal

/-- The text does not go on with another digit. -/
def EndsDigits (text : List Char) : Prop :=
  ∀ next ∈ text.head?, next.isDigit = false

theorem readDigits_append (digits : List Nat) (valid : AllDigits digits) (rest : List Char)
    (ends : EndsDigits rest) : readDigits (digits.map digitChar ++ rest) = (digits, rest) := by
  have isDigits : ∀ character ∈ digits.map digitChar, character.isDigit = true := by
    intro character member
    obtain ⟨digit, inside, rfl⟩ := List.mem_map.mp member
    exact isDigit_digitChar digit (valid digit inside)
  have stops : rest.takeWhile Char.isDigit = [] ∧ rest.dropWhile Char.isDigit = rest := by
    cases rest with
    | nil => exact ⟨rfl, rfl⟩
    | cons next rest =>
        have other : next.isDigit = false := ends next rfl
        simp [other]
  rw [readDigits, List.takeWhile_append_of_pos isDigits, List.dropWhile_append_of_pos isDigits,
    stops.1, stops.2, List.append_nil, map_digitOf digits valid]

/-- An exponent mark can be read back. -/
theorem readExponent?_exponentMark (width : Nat) (exponent : Int) :
    readExponent? (exponentMark width exponent) = some exponent := by
  obtain ⟨mark, written, valid, denotes, nonempty, -⟩ := exponentMark_spec width exponent
  have read : readDigits (mark.map digitChar) = (mark, []) := by
    have whole := readDigits_append mark valid [] (fun _ absent => by cases absent)
    rwa [List.append_nil] at whole
  obtain ⟨first, others, rfl⟩ := List.exists_cons_of_ne_nil nonempty
  rw [written]
  by_cases negative : exponent < 0
  · simp only [if_pos negative, readExponent?, read, denotes]
    have opposite : -((exponent.natAbs : Nat) : Int) = exponent := by omega
    exact congrArg some opposite
  · simp only [if_neg negative, readExponent?, read, denotes]
    have itself : ((exponent.natAbs : Nat) : Int) = exponent := by omega
    exact congrArg some itself

/-- The fraction ends where the mark of the exponent begins. -/
theorem readFraction_fraction (after : List Nat) (valid : AllDigits after) (mark : List Char)
    (marks : ∀ next ∈ mark.head?, next = 'e') :
    readFraction (fraction after ++ mark) = (dropTrailingZeros after, mark) := by
  have ends : EndsDigits mark := by
    intro next first
    rw [marks next first]
    decide
  have keptValid := allDigits_dropTrailingZeros valid
  rw [fraction]
  cases kept : dropTrailingZeros after with
  | nil =>
      cases mark with
      | nil => rfl
      | cons next mark =>
          have letter : next = 'e' := marks next rfl
          rw [letter]
          rfl
  | cons digit digits =>
      rw [kept] at keptValid
      exact readDigits_append (digit :: digits) keptValid mark ends

/-- The first character after the whole digits is a point or the mark of the exponent. -/
theorem endsDigits_fraction (after : List Nat) (mark : List Char)
    (marks : ∀ next ∈ mark.head?, next = 'e') : EndsDigits (fraction after ++ mark) := by
  intro next first
  rw [fraction] at first
  cases kept : dropTrailingZeros after with
  | nil =>
      rw [kept] at first
      rw [marks next first]
      decide
  | cons digit digits =>
      rw [kept] at first
      cases first
      decide

/-- Zeros at the end of the fraction do not count. -/
theorem magnitude_dropTrailingZeros (negative : Bool) (whole after : List Nat) (exponent : Int) :
    magnitude ⟨negative, value (whole ++ dropTrailingZeros after),
        exponent - (dropTrailingZeros after).length⟩ =
      value (whole ++ after) * 10 ^ (exponent - after.length) := by
  obtain ⟨count, split⟩ := dropTrailingZeros_append after
  generalize dropTrailingZeros after = kept at split ⊢
  subst split
  have ten : (10 : ℚ) ≠ 0 := by norm_num
  have scale : exponent - (kept.length : Int) =
      exponent - ((kept ++ List.replicate count 0).length : Int) + (count : Int) := by
    rw [List.length_append, List.length_replicate]
    push_cast
    ring
  rw [magnitude, scale, zpow_add₀ ten, zpow_natCast, ← List.append_assoc,
    value_append _ (List.replicate _ _), value_replicate_zero, List.length_replicate]
  push_cast
  ring

/-- Digits with a point among them are read as what they denote. -/
theorem readUnsigned?_digits (negative : Bool) (whole after : List Nat) (mark : List Char)
    (exponent : Int) (nonempty : whole ≠ []) (wholeValid : AllDigits whole)
    (afterValid : AllDigits after) (marks : ∀ next ∈ mark.head?, next = 'e')
    (read : readExponent? mark = some exponent) :
    ∃ numeral, readUnsigned? negative (whole.map digitChar ++ (fraction after ++ mark)) =
        some numeral ∧ numeral.negative = negative ∧
      numeral.magnitude = value (whole ++ after) * 10 ^ (exponent - after.length) := by
  refine ⟨_, ?_, rfl, magnitude_dropTrailingZeros negative whole after exponent⟩
  have digits := readDigits_append whole wholeValid (fraction after ++ mark)
    (endsDigits_fraction after mark marks)
  obtain ⟨first, others, rfl⟩ := List.exists_cons_of_ne_nil nonempty
  rw [readUnsigned?, digits]
  simp only [readFraction_fraction after afterValid mark marks, read, Option.map_some]

/-- The characters that a numeral is made of. -/
def isPart (character : Char) : Bool :=
  character.isDigit || ['-', '+', '.', 'e'].contains character

theorem isPart_of_isDigit {character : Char} (digit : character.isDigit = true) :
    isPart character = true := by
  rw [isPart, digit, Bool.true_or]

/-- What is read as digits consists of digits up to the rest. -/
theorem isPart_of_readDigits {text : List Char}
    (rest : ∀ character ∈ (readDigits text).2, isPart character = true) :
    ∀ character ∈ text, isPart character = true := by
  intro character member
  rw [← List.takeWhile_append_dropWhile (p := Char.isDigit) (l := text)] at member
  rcases List.mem_append.mp member with digit | other
  · exact isPart_of_isDigit (List.all_eq_true.mp List.all_takeWhile character digit)
  · exact rest character other

theorem isPart_of_readFraction {text : List Char}
    (rest : ∀ character ∈ (readFraction text).2, isPart character = true) :
    ∀ character ∈ text, isPart character = true := by
  unfold readFraction at rest
  split at rest
  · intro character member
    rcases List.mem_cons.mp member with rfl | after
    · decide
    · exact isPart_of_readDigits rest character after
  · exact rest

theorem isPart_of_readExponent? {text : List Char} {exponent : Int}
    (read : readExponent? text = some exponent) : ∀ character ∈ text, isPart character = true := by
  unfold readExponent? at read
  split at read
  · intro character absent
    cases absent
  · rename_i sign text
    split at read
    · rename_i digit digits readAll
      have signed : sign = '+' ∨ sign = '-' := by
        by_contra other
        rw [not_or] at other
        rw [if_neg other.1, if_neg other.2] at read
        cases read
      have written : ∀ character ∈ text, isPart character = true := by
        apply isPart_of_readDigits
        rw [readAll]
        intro character absent
        cases absent
      intro character member
      rcases List.mem_cons.mp member with rfl | after
      · decide
      · rcases List.mem_cons.mp after with rfl | later
        · rcases signed with rfl | rfl <;> decide
        · exact written character later
    · cases read
  · cases read

/-- What is read as a numeral has at least one character, and each is part of a numeral. -/
theorem isPart_of_read? {text : List Char} {numeral : Numeral} (read : read? text = some numeral) :
    text ≠ [] ∧ ∀ character ∈ text, isPart character = true := by
  have unsigned {negative : Bool} {text : List Char}
      (read : readUnsigned? negative text = some numeral) :
      text ≠ [] ∧ ∀ character ∈ text, isPart character = true := by
    unfold readUnsigned? at read
    split at read
    · cases read
    · rename_i whole after nonempty digits
      obtain ⟨exponent, ended, -⟩ := Option.map_eq_some_iff.mp read
      constructor
      · intro empty
        rw [empty] at digits
        exact nonempty (congrArg Prod.fst digits).symm
      · apply isPart_of_readDigits
        rw [digits]
        exact isPart_of_readFraction (isPart_of_readExponent? ended)
  unfold read? at read
  split at read
  · obtain ⟨-, parts⟩ := unsigned read
    refine ⟨List.cons_ne_nil _ _, ?_⟩
    intro character member
    rcases List.mem_cons.mp member with rfl | after
    · decide
    · exact parts character after
  · exact unsigned read

end Numeral

end RibStream
