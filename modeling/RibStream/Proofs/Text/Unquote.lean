/-
This file undoes the escapes of a quoted string.
The string ends at the first quote that no backslash precedes, whatever follows.
-/

import RibStream.Text.Quoted

namespace RibStream.Text

/-- The byte that a letter names after a backslash. -/
def unescapeLetter (letter : UInt8) : Option UInt8 :=
  match letter with
  | 0x22 => some 0x22
  | 0x5C => some 0x5C
  | 0x6E => some 0x0A
  | 0x72 => some 0x0D
  | 0x74 => some 0x09
  | 0x62 => some 0x08
  | 0x66 => some 0x0C
  | _ => none

/-- The byte that three octal digits denote. -/
def ofOctal? (first second third : UInt8) : Option UInt8 :=
  if [first, second, third].all fun digit => 0x30 ≤ digit && digit ≤ 0x37 then
    some ((first - 0x30) * 64 + (second - 0x30) * 8 + (third - 0x30))
  else none

/-- The bytes up to the closing quote, and what follows it. -/
def readBody? : List UInt8 → Option (List UInt8 × List UInt8)
  | [] => none
  | first :: rest =>
      if first = quote then some ([], rest)
      else if first = backslash then
        match rest with
        | [] => none
        | letter :: rest =>
            match unescapeLetter letter, rest with
            | some byte, rest => (readBody? rest).map fun (bytes, rest) => (byte :: bytes, rest)
            | none, second :: third :: rest =>
                match ofOctal? letter second third with
                | some byte => (readBody? rest).map fun (bytes, rest) => (byte :: bytes, rest)
                | none => none
            | none, _ => none
      else (readBody? rest).map fun (bytes, rest) => (first :: bytes, rest)

/-- A quoted string at the front of the bytes. -/
def readQuoted? : List UInt8 → Option (List UInt8 × List UInt8)
  | [] => none
  | first :: rest => if first = quote then readBody? rest else none

/-- A byte is named by the letter that stands for it. -/
theorem unescapeLetter_of_escapeLetter {byte letter : UInt8}
    (named : escapeLetter byte = some letter) : unescapeLetter letter = some byte := by
  unfold escapeLetter at named
  split at named <;> cases named <;> rfl

/-- Both bytes with a meaning of their own are escaped. -/
theorem not_special_of_escapeLetter_eq_none {byte : UInt8} (unnamed : escapeLetter byte = none) :
    byte ≠ quote ∧ byte ≠ backslash := by
  constructor
  · rintro rfl
    cases unnamed
  · rintro rfl
    cases unnamed

/-- Three octal digits give back every byte, and no letter starts like them. -/
theorem ofOctal?_octal (byte : UInt8) :
    unescapeLetter (0x30 + byte / 64) = none ∧
      ofOctal? (0x30 + byte / 64) (0x30 + byte / 8 % 8) (0x30 + byte % 8) = some byte := by
  have table : ∀ index : Fin 256,
      unescapeLetter (0x30 + UInt8.ofNat index.val / 64) = none ∧
        ofOctal? (0x30 + UInt8.ofNat index.val / 64) (0x30 + UInt8.ofNat index.val / 8 % 8)
          (0x30 + UInt8.ofNat index.val % 8) = some (UInt8.ofNat index.val) := by
    decide +kernel
  have row := table ⟨byte.toNat, byte.toNat_lt⟩
  rwa [UInt8.ofNat_toNat] at row

theorem readBody?_quote (rest : List UInt8) : readBody? (quote :: rest) = some ([], rest) := by
  unfold readBody?
  exact if_pos rfl

theorem readBody?_letter {byte letter : UInt8} (named : unescapeLetter letter = some byte)
    (rest : List UInt8) : readBody? (backslash :: letter :: rest) =
      (readBody? rest).map fun (bytes, rest) => (byte :: bytes, rest) := by
  have other : backslash ≠ quote := by decide
  conv =>
    lhs
    unfold readBody?
  rw [if_neg other, if_pos rfl]
  simp only [named]

theorem readBody?_octal {byte first second third : UInt8} (noLetter : unescapeLetter first = none)
    (denoted : ofOctal? first second third = some byte) (rest : List UInt8) :
    readBody? (backslash :: first :: second :: third :: rest) =
      (readBody? rest).map fun (bytes, rest) => (byte :: bytes, rest) := by
  have other : backslash ≠ quote := by decide
  conv =>
    lhs
    unfold readBody?
  rw [if_neg other, if_pos rfl]
  simp only [noLetter, denoted]

theorem readBody?_plain {byte : UInt8} (noQuote : byte ≠ quote) (noBackslash : byte ≠ backslash)
    (rest : List UInt8) : readBody? (byte :: rest) =
      (readBody? rest).map fun (bytes, rest) => (byte :: bytes, rest) := by
  conv =>
    lhs
    unfold readBody?
  rw [if_neg noQuote, if_neg noBackslash]

/-- The escape of a byte is read as this byte, whatever comes after it. -/
theorem readBody?_escapeByte (byte : UInt8) (rest : List UInt8) :
    readBody? (escapeByte byte ++ rest) =
      (readBody? rest).map fun (bytes, rest) => (byte :: bytes, rest) := by
  rw [escapeByte]
  cases named : escapeLetter byte with
  | some letter => exact readBody?_letter (unescapeLetter_of_escapeLetter named) rest
  | none =>
      dsimp only
      split
      · obtain ⟨noQuote, noBackslash⟩ := not_special_of_escapeLetter_eq_none named
        exact readBody?_plain noQuote noBackslash rest
      · obtain ⟨noLetter, denoted⟩ := ofOctal?_octal byte
        exact readBody?_octal noLetter denoted rest

/-- Reading stops exactly at the closing quote. -/
theorem readBody?_flatMap (bytes rest : List UInt8) :
    readBody? (bytes.flatMap escapeByte ++ quote :: rest) = some (bytes, rest) := by
  induction bytes with
  | nil => exact readBody?_quote rest
  | cons byte bytes inductionHypothesis =>
      rw [List.flatMap_cons, List.append_assoc, readBody?_escapeByte, inductionHypothesis]
      rfl

theorem readQuoted?_quoted (bytes rest : List UInt8) :
    readQuoted? (quoted bytes ++ rest) = some (bytes, rest) := by
  rw [quoted, List.cons_append, List.append_assoc, readQuoted?, if_pos rfl]
  exact readBody?_flatMap bytes rest

end RibStream.Text
