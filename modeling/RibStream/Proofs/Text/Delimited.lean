/-
This file finds the end of a quoted string without knowing what its escapes mean.
A backslash and the byte after it are passed over, and the first quote that is left is the end.
-/

import RibStream.Encoding.Ascii
import RibStream.Proofs.Text.Unquote
import Mathlib.Data.List.Induction

namespace RibStream

namespace Text

/-- The number of backslashes at the end of the bytes. -/
def trailingBackslashes (bytes : List UInt8) : Nat :=
  (bytes.reverse.takeWhile (· == backslash)).length

/-- The next byte is escaped. Backslashes escape each other in pairs. -/
def EndsInEscape (bytes : List UInt8) : Prop :=
  trailingBackslashes bytes % 2 = 1

/-- Every quote is escaped, and so is every backslash at the end. -/
structure Delimited (body : List UInt8) : Prop where
  quotes : ∀ before after, body = before ++ quote :: after → EndsInEscape before
  closed : ¬EndsInEscape body

/-- The bytes up to the first quote that is not escaped, and what follows it. -/
def scan? : List UInt8 → Option (List UInt8 × List UInt8)
  | [] => none
  | first :: rest =>
      if first = quote then some ([], rest)
      else if first = backslash then
        match rest with
        | [] => none
        | second :: rest => (scan? rest).map fun (body, rest) => (first :: second :: body, rest)
      else (scan? rest).map fun (body, rest) => (first :: body, rest)

/-! The number of backslashes is counted from the end, but its parity can be kept along the way. -/

def escapeStep (pending : Bool) (byte : UInt8) : Bool :=
  !pending && byte == backslash

theorem trailingBackslashes_concat (bytes : List UInt8) (last : UInt8) :
    trailingBackslashes (bytes ++ [last]) =
      if last = backslash then trailingBackslashes bytes + 1 else 0 := by
  rw [trailingBackslashes, List.reverse_append, List.reverse_singleton, List.singleton_append,
    List.takeWhile_cons]
  by_cases same : last = backslash <;> simp [same, trailingBackslashes]

theorem endsInEscape_concat (bytes : List UInt8) (last : UInt8) :
    EndsInEscape (bytes ++ [last]) ↔ last = backslash ∧ ¬EndsInEscape bytes := by
  rw [EndsInEscape, EndsInEscape, trailingBackslashes_concat]
  by_cases same : last = backslash
  · rw [if_pos same]
    simp only [same, true_and]
    omega
  · rw [if_neg same]
    simp only [same, false_and, iff_false]
    omega

theorem escapeStep_eq_true_iff (pending : Bool) (byte : UInt8) :
    escapeStep pending byte = true ↔ byte = backslash ∧ ¬pending = true := by
  simp [escapeStep, and_comm]

theorem endsInEscape_iff (bytes : List UInt8) :
    EndsInEscape bytes ↔ bytes.foldl escapeStep false = true := by
  induction bytes using List.reverseRecOn with
  | nil => simp [EndsInEscape, trailingBackslashes]
  | append_singleton bytes last inductionHypothesis =>
      rw [endsInEscape_concat, inductionHypothesis, List.foldl_append, List.foldl_cons,
        List.foldl_nil, escapeStep_eq_true_iff]

/-- A byte that escapes nothing does not change what comes after it. -/
theorem endsInEscape_plain {byte : UInt8} (noBackslash : byte ≠ backslash) (bytes : List UInt8) :
    EndsInEscape (byte :: bytes) ↔ EndsInEscape bytes := by
  have done : escapeStep false byte = false := by simp [escapeStep, noBackslash]
  rw [endsInEscape_iff, endsInEscape_iff, List.foldl_cons, done]

/-- Neither does a backslash together with the byte that it escapes. -/
theorem endsInEscape_escape (byte : UInt8) (bytes : List UInt8) :
    EndsInEscape (backslash :: byte :: bytes) ↔ EndsInEscape bytes := by
  have done : escapeStep (escapeStep false backslash) byte = false := rfl
  rw [endsInEscape_iff, endsInEscape_iff, List.foldl_cons, List.foldl_cons, done]

theorem not_endsInEscape_nil : ¬EndsInEscape [] := by
  rw [endsInEscape_iff]
  exact nofun

theorem endsInEscape_backslash : EndsInEscape [backslash] := by
  rw [endsInEscape_iff]
  rfl

theorem scan?_quote (rest : List UInt8) : scan? (quote :: rest) = some ([], rest) := by
  unfold scan?
  exact if_pos rfl

theorem scan?_plain {byte : UInt8} (noQuote : byte ≠ quote) (noBackslash : byte ≠ backslash)
    (rest : List UInt8) : scan? (byte :: rest) =
      (scan? rest).map fun (body, rest) => (byte :: body, rest) := by
  conv =>
    lhs
    unfold scan?
  rw [if_neg noQuote, if_neg noBackslash]

theorem scan?_escape (byte : UInt8) (rest : List UInt8) : scan? (backslash :: byte :: rest) =
    (scan? rest).map fun (body, rest) => (backslash :: byte :: body, rest) := by
  have other : backslash ≠ quote := by decide
  conv =>
    lhs
    unfold scan?
  rw [if_neg other, if_pos rfl]

/-- Bytes that fall into plain bytes and escapes. -/
inductive Escapes : List UInt8 → Prop where
  | nil : Escapes []
  | plain {byte : UInt8} {rest : List UInt8} (noQuote : byte ≠ quote)
      (noBackslash : byte ≠ backslash) (escapes : Escapes rest) : Escapes (byte :: rest)
  | escape (byte : UInt8) {rest : List UInt8} (escapes : Escapes rest) :
      Escapes (backslash :: byte :: rest)

namespace Escapes

variable {body : List UInt8}

theorem append {other : List UInt8} (escapes : Escapes body) (others : Escapes other) :
    Escapes (body ++ other) := by
  induction escapes with
  | nil => exact others
  | plain noQuote noBackslash _ inductionHypothesis =>
      exact .plain noQuote noBackslash inductionHypothesis
  | escape byte _ inductionHypothesis => exact .escape byte inductionHypothesis

theorem not_endsInEscape (escapes : Escapes body) : ¬EndsInEscape body := by
  induction escapes with
  | nil => exact not_endsInEscape_nil
  | plain _ noBackslash _ inductionHypothesis => rwa [endsInEscape_plain noBackslash]
  | escape byte _ inductionHypothesis => rwa [endsInEscape_escape]

/-- A quote can only be the second byte of an escape. -/
theorem endsInEscape_of_quote (escapes : Escapes body) {before after : List UInt8}
    (split : body = before ++ quote :: after) : EndsInEscape before := by
  induction escapes generalizing before with
  | nil => simp at split
  | plain noQuote noBackslash _ inductionHypothesis =>
      cases before with
      | nil => exact absurd (List.cons.inj split).1 noQuote
      | cons first before =>
          obtain ⟨rfl, inRest⟩ := List.cons.inj split
          exact (endsInEscape_plain noBackslash before).mpr (inductionHypothesis inRest)
  | escape byte _ inductionHypothesis =>
      match before with
      | [] => exact absurd (List.cons.inj split).1 (by decide)
      | [first] =>
          rw [← (List.cons.inj split).1]
          exact endsInEscape_backslash
      | first :: second :: before =>
          obtain ⟨start, inTail⟩ := List.cons.inj split
          obtain ⟨-, inRest⟩ := List.cons.inj inTail
          rw [← start]
          exact (endsInEscape_escape second before).mpr (inductionHypothesis inRest)

theorem scan?_append (escapes : Escapes body) (rest : List UInt8) :
    scan? (body ++ quote :: rest) = some (body, rest) := by
  induction escapes with
  | nil => exact scan?_quote rest
  | plain noQuote noBackslash _ inductionHypothesis =>
      rw [List.cons_append, scan?_plain noQuote noBackslash, inductionHypothesis]
      rfl
  | escape byte _ inductionHypothesis =>
      rw [List.cons_append, List.cons_append, scan?_escape, inductionHypothesis]
      rfl

end Escapes

namespace Delimited

variable {first second : UInt8} {rest : List UInt8}

theorem first_ne_quote (delimited : Delimited (first :: rest)) : first ≠ quote := by
  rintro rfl
  exact not_endsInEscape_nil (delimited.quotes [] rest rfl)

theorem of_plain (noBackslash : first ≠ backslash) (delimited : Delimited (first :: rest)) :
    Delimited rest where
  quotes := by
    intro before after split
    have escaped := delimited.quotes (first :: before) after (by rw [split, List.cons_append])
    rwa [endsInEscape_plain noBackslash] at escaped
  closed := by
    intro escaped
    exact delimited.closed ((endsInEscape_plain noBackslash rest).mpr escaped)

theorem of_escape (delimited : Delimited (backslash :: second :: rest)) : Delimited rest where
  quotes := by
    intro before after split
    have escaped := delimited.quotes (backslash :: second :: before) after
      (by rw [split, List.cons_append, List.cons_append])
    rwa [endsInEscape_escape] at escaped
  closed := by
    intro escaped
    exact delimited.closed ((endsInEscape_escape second rest).mpr escaped)

theorem escapes : {body : List UInt8} → Delimited body → Escapes body
  | [], _ => .nil
  | [first], delimited => by
      have noBackslash : first ≠ backslash := by
        rintro rfl
        exact delimited.closed endsInEscape_backslash
      exact .plain delimited.first_ne_quote noBackslash .nil
  | first :: second :: rest, delimited => by
      by_cases start : first = backslash
      · subst start
        exact .escape second delimited.of_escape.escapes
      · exact .plain delimited.first_ne_quote start (delimited.of_plain start).escapes

end Delimited

theorem Escapes.delimited {body : List UInt8} (escapes : Escapes body) : Delimited body :=
  ⟨fun _ _ => escapes.endsInEscape_of_quote, escapes.not_endsInEscape⟩

/-- The scan only passes over plain bytes and escapes. -/
theorem escapes_of_scan? {bytes body rest : List UInt8} (found : scan? bytes = some (body, rest)) :
    bytes = body ++ quote :: rest ∧ Escapes body := by
  fun_induction scan? bytes generalizing body with
  | case1 => cases found
  | case2 rest =>
      cases found
      exact ⟨rfl, .nil⟩
  | case3 => cases found
  | case4 second tail _ inductionHypothesis =>
      obtain ⟨⟨inner, after⟩, inTail, same⟩ := Option.map_eq_some_iff.mp found
      cases same
      obtain ⟨rfl, escapes⟩ := inductionHypothesis inTail
      exact ⟨rfl, .escape second escapes⟩
  | case5 first tail noQuote noBackslash inductionHypothesis =>
      obtain ⟨⟨inner, after⟩, inTail, same⟩ := Option.map_eq_some_iff.mp found
      cases same
      obtain ⟨rfl, escapes⟩ := inductionHypothesis inTail
      exact ⟨rfl, .plain noQuote noBackslash escapes⟩

/-- The scan stops at the end of a delimited body, and nowhere else. -/
theorem scan?_eq_some_iff {bytes body rest : List UInt8} :
    scan? bytes = some (body, rest) ↔ bytes = body ++ quote :: rest ∧ Delimited body := by
  constructor
  · intro found
    obtain ⟨split, escapes⟩ := escapes_of_scan? found
    exact ⟨split, escapes.delimited⟩
  · rintro ⟨rfl, delimited⟩
    exact delimited.escapes.scan?_append rest

/-- Octal digits are neither quotes nor backslashes. -/
theorem octal_digits_plain (byte : UInt8) {digit : UInt8} (member : digit ∈ octal byte) :
    digit ≠ quote ∧ digit ≠ backslash := by
  have table : ∀ index : Fin 256, (octal (UInt8.ofNat index.val)).all
      (fun digit => digit != quote && digit != backslash) = true := by
    decide +kernel
  have row := table ⟨byte.toNat, byte.toNat_lt⟩
  rw [UInt8.ofNat_toNat] at row
  have plain := List.all_eq_true.mp row digit member
  rwa [Bool.and_eq_true, bne_iff_ne, bne_iff_ne] at plain

/-- A byte is written as itself or as one escape. -/
theorem escapes_escapeByte (byte : UInt8) : Escapes (escapeByte byte) := by
  rw [escapeByte]
  cases named : escapeLetter byte with
  | some letter => exact .escape letter .nil
  | none =>
      dsimp only
      split
      · obtain ⟨noQuote, noBackslash⟩ := not_special_of_escapeLetter_eq_none named
        exact .plain noQuote noBackslash .nil
      · obtain ⟨secondNoQuote, secondNoBackslash⟩ := octal_digits_plain byte
          (show 0x30 + byte / 8 % 8 ∈ octal byte from List.mem_cons_of_mem _ List.mem_cons_self)
        obtain ⟨thirdNoQuote, thirdNoBackslash⟩ := octal_digits_plain byte
          (show 0x30 + byte % 8 ∈ octal byte by simp [octal])
        exact .escape _ (.plain secondNoQuote secondNoBackslash
          (.plain thirdNoQuote thirdNoBackslash .nil))

theorem escapes_flatMap (bytes : List UInt8) : Escapes (bytes.flatMap escapeByte) := by
  induction bytes with
  | nil => exact .nil
  | cons byte bytes inductionHypothesis =>
      rw [List.flatMap_cons]
      exact (escapes_escapeByte byte).append inductionHypothesis

end Text

/-- Two texts whose strings start the same bytes are the same text. -/
theorem Ascii.string_append_injective {left right : String} {rest otherRest : List UInt8}
    (same : string left ++ rest = string right ++ otherRest) : left = right ∧ rest = otherRest := by
  have read := Text.readQuoted?_quoted (Text.bytes left) rest
  rw [← Ascii.string, same, Ascii.string, Text.readQuoted?_quoted] at read
  obtain ⟨bytes, rests⟩ := Prod.mk.inj (Option.some.inj read)
  exact ⟨Text.bytes_injective bytes.symm, rests.symm⟩

/-- A string ends at its last byte, whatever its text is and whatever follows it, and the text can
be read back from it. -/
theorem Ascii.string_delimited (value : String) :
    ∃ body, string value = Text.quote :: (body ++ [Text.quote]) ∧
      (∀ byte ∈ body, 32 ≤ byte ∧ byte ≤ 176) ∧ Text.Delimited body ∧
      (∀ rest, Text.scan? (body ++ Text.quote :: rest) = some (body, rest)) ∧
      (∀ rest, Text.readBody? (body ++ Text.quote :: rest) = some (Text.bytes value, rest)) ∧
      (∀ other rest otherRest,
        string value ++ rest = string other ++ otherRest → value = other ∧ rest = otherRest) := by
  have escapes := Text.escapes_flatMap (Text.bytes value)
  refine ⟨(Text.bytes value).flatMap Text.escapeByte, rfl, ?_, escapes.delimited,
    escapes.scan?_append, Text.readBody?_flatMap (Text.bytes value), ?_⟩
  · intro written member
    obtain ⟨byte, -, inEscape⟩ := List.mem_flatMap.mp member
    have plain := Text.isPlain_of_mem_escapeByte byte written inEscape
    rwa [Text.isPlain, Bool.and_eq_true, decide_eq_true_iff, decide_eq_true_iff] at plain
  · intro other rest otherRest same
    exact string_append_injective same

/-- An octal escape has three digits, so that the digit after it is not taken for a part of it. -/
example : Ascii.string "\x01\x37" = [0x22, 0x5C, 0x30, 0x30, 0x31, 0x37, 0x22] := by
  decide +kernel

end RibStream
