/-
This file proves that words are written in as few bytes as possible and that they can be read back.
The first byte tells how many bytes follow. It stays in the range of its opcode, and no two opcodes
have a first byte in common.
-/

import Mathlib.Algebra.Group.Int.Defs
import Mathlib.Order.Bounds.Defs
import RibStream.Proofs.Binary.Lexeme

namespace RibStream.Binary

namespace Opcode

/-- The opcodes in front of a word. -/
def sized : List Opcode :=
  [int, longString, floatArray]

theorem span_of_sized {opcode : Opcode} (member : opcode ∈ sized) : opcode.span = 4 := by
  revert member
  cases opcode <;> decide

/-- The byte is one of the first bytes of an opcode. -/
def Covers (opcode : Opcode) (byte : UInt8) : Prop :=
  opcode.byte.toNat ≤ byte.toNat ∧ byte.toNat < opcode.byte.toNat + opcode.span

instance (opcode : Opcode) (byte : UInt8) : Decidable (opcode.Covers byte) :=
  inferInstanceAs (Decidable (_ ∧ _))

/-- The first bytes of an opcode are counted upwards without passing the largest byte. -/
theorem toNat_add_place (opcode : Opcode) {place : Nat} (inside : place < opcode.span) :
    (opcode.byte + UInt8.ofNat place).toNat = opcode.byte.toNat + place := by
  have room : opcode.byte.toNat + opcode.span ≤ 256 := by cases opcode <;> decide
  have small : place < UInt8.size := by
    rw [UInt8.size]
    omega
  rw [UInt8.toNat_add, UInt8.toNat_ofNat_of_lt' small]
  exact Nat.mod_eq_of_lt (by omega)

theorem covers_add (opcode : Opcode) {place : Nat} (inside : place < opcode.span) :
    opcode.Covers (opcode.byte + UInt8.ofNat place) := by
  rw [Covers, toNat_add_place opcode inside]
  omega

theorem Covers.known {opcode : Opcode} {byte : UInt8} (covers : opcode.Covers byte) :
    ofByte? byte = some (opcode, byte.toNat - opcode.byte.toNat) := by
  obtain ⟨least, last⟩ := covers
  have inside : byte.toNat - opcode.byte.toNat < opcode.span := by omega
  have counted : opcode.byte + UInt8.ofNat (byte.toNat - opcode.byte.toNat) = byte := by
    apply UInt8.toNat_inj.mp
    rw [toNat_add_place opcode inside]
    omega
  rw [← ofByte?_add opcode _ inside, counted]

/-- No two opcodes have a first byte in common. -/
theorem Covers.unique {opcode other : Opcode} {byte : UInt8} (covers : opcode.Covers byte)
    (others : other.Covers byte) : opcode = other := by
  have same := covers.known.symm.trans others.known
  exact (Prod.mk.inj (Option.some.inj same)).1

end Opcode

/-- A word after the opcode that tells its width. The bytes that are missing in front are zero. -/
def readWord? : Reader (Opcode × UInt32)
  | [] => none
  | first :: bytes => do
      let (opcode, place) ← Opcode.ofByte? first
      if opcode ∈ Opcode.sized then
        let (digits, rest) ← readBytes? (place + 1) bytes
        return ((opcode, UInt32.ofNat (ofBigEndian (digits.leftpad 4 0))), rest)
      else none

/-- An integer is the word with its bit pattern. -/
def readInt? : Reader Int32 := fun bytes => do
  let ((opcode, value), rest) ← readWord? bytes
  if opcode = .int then return (value.toInt32, rest) else none

/-- The number of bytes from the first one on that is not zero, at least one. -/
def significant (bytes : List UInt8) : Nat :=
  match bytes.findIdx? (· != 0) with
  | some first => bytes.length - first
  | none => 1

/-- The bytes of a word after its first one: as few as hold its value, most significant first. -/
structure Shortest (value : UInt32) (digits : List UInt8) : Prop where
  number : ofBigEndian digits = value.toNat
  least : IsLeast {count | 1 ≤ count ∧ value.toNat < 256 ^ count} digits.length
  nonzero : digits.length = significant (bigEndian 4 value.toNat)
  last : digits = (bigEndian 4 value.toNat).drop (4 - digits.length)

/-- The bytes in front of those that hold the number are zero. -/
theorem bigEndian_add (more width : Nat) {value : Nat} (fits : value < 256 ^ width) :
    bigEndian (more + width) value = List.replicate more 0 ++ bigEndian width value := by
  induction more with
  | zero => rw [Nat.zero_add, List.replicate_zero, List.nil_append]
  | succ more inductionHypothesis =>
      have larger : value < 256 ^ (more + width) :=
        Nat.lt_of_lt_of_le fits (Nat.pow_le_pow_right (by decide) (Nat.le_add_left _ _))
      rw [Nat.succ_add, bigEndian, inductionHypothesis, Nat.div_eq_of_lt larger,
        List.replicate_succ, List.cons_append]
      rfl

theorem bigEndian_four (value : UInt32) : bigEndian 4 value.toNat =
    List.replicate (4 - width value) 0 ++ bigEndian (width value) value.toNat := by
  rw [← bigEndian_add _ _ (lt_pow_width value), Nat.sub_add_cancel (width_le value)]

theorem width_le_iff (value : UInt32) {count : Nat} (positive : 0 < count) :
    width value ≤ count ↔ value.toNat < 256 ^ count := by
  constructor
  · intro narrow
    exact Nat.lt_of_lt_of_le (lt_pow_width value) (Nat.pow_le_pow_right (by decide) narrow)
  · intro enough
    apply Nat.le_of_not_lt
    intro fewer
    have needed := pow_le_of_width value (Nat.lt_of_le_of_lt positive fewer)
    have smaller : 256 ^ count ≤ 256 ^ (width value - 1) :=
      Nat.pow_le_pow_right (by decide) (Nat.le_sub_one_of_lt fewer)
    exact absurd enough (Nat.not_lt.mpr (Nat.le_trans smaller needed))

/-- The width is the smallest number of bytes that hold the word. -/
theorem isLeast_width (value : UInt32) :
    IsLeast {count | 1 ≤ count ∧ value.toNat < 256 ^ count} (width value) := by
  refine ⟨⟨width_pos value, lt_pow_width value⟩, ?_⟩
  rintro count ⟨positive, enough⟩
  exact (width_le_iff value positive).mpr enough

/-- The first byte that is written is not zero, except for the word zero. -/
theorem head_bigEndian_width {value : UInt32} (nonzero : value ≠ 0) :
    ∃ first digits, bigEndian (width value) value.toNat = first :: digits ∧ first ≠ 0 := by
  obtain ⟨count, counted⟩ := Nat.exists_eq_succ_of_ne_zero (Nat.ne_of_gt (width_pos value))
  have enough := lt_pow_width value
  have needed : 256 ^ count ≤ value.toNat := by
    rcases Nat.eq_zero_or_pos count with rfl | positive
    · rw [Nat.pow_zero, Nat.succ_le_iff, Nat.pos_iff_ne_zero]
      intro zero
      exact nonzero (UInt32.toNat_inj.mp zero)
    · rw [← Nat.not_lt, ← width_le_iff value positive, counted]
      exact Nat.not_succ_le_self count
  rw [counted]
  refine ⟨_, _, rfl, ?_⟩
  intro zero
  have digit := congrArg UInt8.toNat zero
  rw [counted, Nat.pow_succ] at enough
  have below : value.toNat / 256 ^ count < 256 := Nat.div_lt_of_lt_mul enough
  have above : 0 < value.toNat / 256 ^ count :=
    Nat.div_pos needed (Nat.pow_pos (by decide))
  rw [UInt8.toNat_ofNat_of_lt' below] at digit
  exact absurd digit (Nat.ne_of_gt above)

/-- The width can be seen from the first byte that is not zero. -/
theorem significant_bigEndian (value : UInt32) :
    significant (bigEndian 4 value.toNat) = width value := by
  by_cases zero : value = 0
  · subst zero
    rfl
  · obtain ⟨first, digits, written, notZero⟩ := head_bigEndian_width zero
    have found : (bigEndian 4 value.toNat).findIdx? (· != 0) = some (4 - width value) := by
      have start : (first :: digits).findIdx? (· != 0) = some 0 := by
        rw [List.findIdx?_cons, if_pos (bne_iff_ne.mpr notZero)]
      rw [bigEndian_four, written, List.findIdx?_append, List.findIdx?_replicate, start]
      simp
    rw [significant, found, length_bigEndian]
    exact Nat.sub_sub_self (width_le value)

theorem shortest_bigEndian (value : UInt32) : Shortest value (bigEndian (width value) value.toNat) where
  number := ofBigEndian_bigEndian _ _ (lt_pow_width value)
  least := by
    rw [length_bigEndian]
    exact isLeast_width value
  nonzero := by rw [length_bigEndian, significant_bigEndian]
  last := by
    rw [length_bigEndian, bigEndian_four, List.drop_left' List.length_replicate]

/-- The missing bytes are the zeros in front. -/
theorem leftpad_bigEndian (value : UInt32) :
    (bigEndian (width value) value.toNat).leftpad 4 0 = bigEndian 4 value.toNat := by
  rw [List.leftpad, length_bigEndian, bigEndian_four]

theorem width_lt_span {opcode : Opcode} (sized : opcode ∈ Opcode.sized) (value : UInt32) :
    width value - 1 < opcode.span := by
  have positive := width_pos value
  have narrow := width_le value
  rw [Opcode.span_of_sized sized]
  omega

theorem readWord?_word {opcode : Opcode} (sized : opcode ∈ Opcode.sized) (value : UInt32)
    (rest : List UInt8) : readWord? (word opcode value ++ rest) = some ((opcode, value), rest) := by
  have taken : readBytes? (width value - 1 + 1) (bigEndian (width value) value.toNat ++ rest) =
      some (bigEndian (width value) value.toNat, rest) := by
    have front := readBytes?_append (bigEndian (width value) value.toNat) rest
    rw [length_bigEndian] at front
    rw [Nat.sub_add_cancel (width_pos value), front]
  have read : UInt32.ofNat (ofBigEndian ((bigEndian (width value) value.toNat).leftpad 4 0)) =
      value := by
    have fits : value.toNat < 256 ^ 4 := value.toNat_lt
    rw [leftpad_bigEndian, ofBigEndian_bigEndian 4 _ fits, UInt32.ofNat_toNat]
  rw [word, List.cons_append, readWord?, Opcode.ofByte?_add opcode _ (width_lt_span sized value),
    Option.bind_eq_bind, Option.bind_some]
  simp only [if_pos sized, taken]
  rw [Option.bind_eq_bind, Option.bind_some, read]
  rfl

/-- Words that begin the same bytes are the same word. -/
theorem word_append_injective {opcode other : Opcode} (sized : opcode ∈ Opcode.sized)
    (otherSized : other ∈ Opcode.sized) {value otherValue : UInt32} {rest otherRest : List UInt8}
    (same : word opcode value ++ rest = word other otherValue ++ otherRest) :
    opcode = other ∧ value = otherValue ∧ rest = otherRest := by
  have read := readWord?_word sized value rest
  rw [same, readWord?_word otherSized] at read
  obtain ⟨words, rests⟩ := Prod.mk.inj (Option.some.inj read)
  obtain ⟨opcodes, values⟩ := Prod.mk.inj words
  exact ⟨opcodes.symm, values.symm, rests.symm⟩

theorem readInt?_int (number : Int32) (rest : List UInt8) :
    readInt? (int number ++ rest) = some (number, rest) := by
  rw [readInt?, int, readWord?_word (by decide), Option.bind_eq_bind, Option.bind_some]
  simp only [if_true, Int32.toInt32_toUInt32]
  rfl

/-- The bit pattern of an integer is its two's complement. -/
theorem toNat_toUInt32 (number : Int32) :
    (number.toUInt32.toNat : Int) = number.toInt % 2 ^ 32 := by
  have signed : number.toInt = if 2 * number.toUInt32.toNat < 2 ^ 32 then
      (number.toUInt32.toNat : Int) else number.toUInt32.toNat - (2 ^ 32 : Nat) :=
    BitVec.toInt_eq_toNat_cond number.toBitVec
  have bound := number.toUInt32.toNat_lt
  split at signed <;> omega

/-- The bit pattern of a negative integer begins with a one, so no byte can be left out. -/
theorem length_int_of_neg {number : Int32} (negative : number < 0) : (int number).length = 1 + 4 := by
  have sign : number.toInt < 0 := Int32.lt_iff_toInt_lt.mp negative
  have least := number.le_toInt
  have pattern := toNat_toUInt32 number
  have large : ¬number.toUInt32.toNat < 256 ^ 3 := by omega
  have four : width number.toUInt32 = 4 := by
    rw [← width_le_iff _ (by decide), Nat.not_le] at large
    exact Nat.le_antisymm (width_le _) large
  rw [int, word, List.length_cons, length_bigEndian, four]

theorem int_injective {number other : Int32} (same : int number = int other) : number = other := by
  have read := readInt?_int number []
  rw [same, readInt?_int] at read
  exact (Prod.mk.inj (Option.some.inj read)).1.symm

theorem word_eq_cons {opcode : Opcode} (sized : opcode ∈ Opcode.sized) (value : UInt32) :
    ∃ first digits, word opcode value = first :: digits ∧ Shortest value digits ∧
      digits.length ≤ 4 ∧ first.toNat = opcode.byte.toNat + (digits.length - 1) ∧
      opcode.Covers first := by
  have inside := width_lt_span sized value
  refine ⟨_, _, rfl, shortest_bigEndian value, ?_, ?_, opcode.covers_add inside⟩
  · rw [length_bigEndian]
    exact width_le value
  · rw [length_bigEndian]
    exact opcode.toNat_add_place inside

theorem string_eq_cons {text : String} (short : (Text.bytes text).length ≤ longestShortString) :
    ∃ first, string text = .whole (first :: Text.bytes text) ∧
      first.toNat = Opcode.shortString.byte.toNat + (Text.bytes text).length ∧
      Opcode.shortString.Covers first := by
  have inside : (Text.bytes text).length < Opcode.shortString.span := Nat.lt_succ_of_le short
  refine ⟨_, ?_, Opcode.shortString.toNat_add_place inside, Opcode.shortString.covers_add inside⟩
  rw [string, if_pos short]

/-- Words take as few bytes as possible and are read back from them, whatever follows. Integers are
words by their bit pattern. The first bytes of words and of short strings stay in the range of their
opcode, and the ranges do not meet. -/
theorem word_decodes_uniquely {opcode : Opcode} (sized : opcode ∈ Opcode.sized) (value : UInt32)
    (rest : List UInt8) :
    (∃ first digits, word opcode value = first :: digits ∧ Shortest value digits ∧
        digits.length ≤ 4 ∧ first.toNat = opcode.byte.toNat + (digits.length - 1) ∧
        opcode.Covers first) ∧
      readWord? (word opcode value ++ rest) = some ((opcode, value), rest) ∧
      (∀ other ∈ Opcode.sized, ∀ otherValue otherRest,
        word opcode value ++ rest = word other otherValue ++ otherRest →
          opcode = other ∧ value = otherValue ∧ rest = otherRest) ∧
      (∀ number : Int32, readInt? (int number ++ rest) = some (number, rest) ∧
        (∃ bits, int number = word .int bits ∧ (bits.toNat : Int) = number.toInt % 2 ^ 32) ∧
        (number < 0 → (int number).length = 1 + 4) ∧
        ∀ other, int number = int other → number = other) ∧
      (∀ text, (Text.bytes text).length ≤ longestShortString →
        ∃ first, string text = .whole (first :: Text.bytes text) ∧
          first.toNat = Opcode.shortString.byte.toNat + (Text.bytes text).length ∧
          Opcode.shortString.Covers first) ∧
      ∀ (byte : UInt8) (first second : Opcode),
        first.Covers byte → second.Covers byte → first = second := by
  refine ⟨word_eq_cons sized value, readWord?_word sized value rest, ?_, ?_, ?_, ?_⟩
  · intro other otherSized otherValue otherRest same
    exact word_append_injective sized otherSized same
  · intro number
    exact ⟨readInt?_int number rest, ⟨_, rfl, toNat_toUInt32 number⟩, length_int_of_neg,
      fun _ => int_injective⟩
  · intro text short
    exact string_eq_cons short
  · intro byte first second covers others
    exact covers.unique others

/-- A count with zeros inside, the integer whose bits are all ones, and the longest short string. -/
theorem word_decodes_uniquely_boundaries :
    (Opcode.floatArray ∈ Opcode.sized ∧ (-1 : Int32) < 0 ∧
      (Text.bytes "fifteen letters").length ≤ longestShortString) ∧
    (∃ digits, word .floatArray 0x01000000 = 0o313 :: digits ∧ Shortest 0x01000000 digits) ∧
    readWord? [0o313, 1, 0, 0, 0, 7] = some ((.floatArray, 0x01000000), [7]) ∧
    readInt? (int (-1) ++ [7]) = some (-1, [7]) ∧ (int (-1)).length = 1 + 4 ∧
    ∃ first, string "fifteen letters" = .whole (first :: Text.bytes "fifteen letters") ∧
      first.toNat = 0o237 := by
  have hypotheses : Opcode.floatArray ∈ Opcode.sized ∧ (-1 : Int32) < 0 ∧
      (Text.bytes "fifteen letters").length ≤ longestShortString := by decide
  obtain ⟨⟨first, digits, written, shortest, -⟩, read, -, ints, strings, -⟩ :=
    word_decodes_uniquely hypotheses.1 0x01000000 [7]
  obtain ⟨readInt, -, negative, -⟩ := ints (-1)
  obtain ⟨start, short, place, -⟩ := strings "fifteen letters" hypotheses.2.2
  have opening : first = 0o313 := (List.cons.inj written).1.symm
  rw [opening] at written
  exact ⟨hypotheses, ⟨digits, written, shortest⟩, read, readInt, negative hypotheses.2.1,
    start, short, place⟩

end RibStream.Binary
