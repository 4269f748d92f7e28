/-
This file writes byte strings between double quotes.
Bytes that could end the string or the line are replaced by escapes.
-/

namespace RibStream.Text

def quote : UInt8 := 0x22

def backslash : UInt8 := 0x5C

/-- The letter that names a byte after a backslash, for the bytes that have one. -/
def escapeLetter (byte : UInt8) : Option UInt8 :=
  match byte with
  | 0x22 => some 0x22
  | 0x5C => some 0x5C
  | 0x0A => some 0x6E
  | 0x0D => some 0x72
  | 0x09 => some 0x74
  | 0x08 => some 0x62
  | 0x0C => some 0x66
  | _ => none

/-- Three octal digits. -/
def octal (byte : UInt8) : List UInt8 :=
  [0x30 + byte / 64, 0x30 + byte / 8 % 8, 0x30 + byte % 8]

/-- The bytes that stand for themselves unless a letter names them. -/
def isPlain (byte : UInt8) : Bool :=
  32 ≤ byte && byte ≤ 176

def escapeByte (byte : UInt8) : List UInt8 :=
  match escapeLetter byte with
  | some letter => [backslash, letter]
  | none => if isPlain byte then [byte] else backslash :: octal byte

def quoted (bytes : List UInt8) : List UInt8 :=
  quote :: (bytes.flatMap escapeByte ++ [quote])

/-- Only plain bytes are written between the quotes. -/
theorem isPlain_of_mem_escapeByte (byte written : UInt8) (member : written ∈ escapeByte byte) :
    isPlain written = true := by
  have table : ∀ index : Fin 256, (escapeByte (UInt8.ofNat index.val)).all isPlain = true := by
    decide +kernel
  have row := table ⟨byte.toNat, byte.toNat_lt⟩
  rw [UInt8.ofNat_toNat] at row
  exact List.all_eq_true.mp row written member

theorem isPlain_of_mem_quoted (bytes : List UInt8) (written : UInt8)
    (member : written ∈ quoted bytes) : isPlain written = true := by
  simp only [quoted, List.mem_cons, List.mem_append, List.mem_flatMap, List.not_mem_nil,
    or_false] at member
  rcases member with opening | ⟨byte, -, escaped⟩ | closing
  · rw [opening]
    decide
  · exact isPlain_of_mem_escapeByte byte written escaped
  · rw [closing]
    decide

end RibStream.Text
