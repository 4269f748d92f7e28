/-
This file says what trimming and the split into words do to a text, and what is left of the text when
all white space is taken away.
-/

import Mathlib.Data.List.TakeWhile
import RibStream.Text.Blank

namespace RibStream.Text

/-- The text has no white space in it. -/
def Unbroken (text : List Char) : Prop :=
  ∀ character ∈ text, isBlank character = false

-- The instance is named, because one that goes through all characters that exist could be found first.
instance (text : List Char) : Decidable (Unbroken text) :=
  List.decidableBAll (isBlank · = false) text

/-- The characters that are not white space. -/
def letters (text : List Char) : List Char :=
  text.filter (!isBlank ·)

theorem isBlank_space : isBlank ' ' = true := by decide

theorem isBlank_eq_false_of_isDigit {character : Char} (digit : character.isDigit = true) :
    isBlank character = false := by
  obtain ⟨least, greatest⟩ : 48 ≤ character.toNat ∧ character.toNat ≤ 57 :=
    Char.isDigit_iff_toNat.mp digit
  simp [isBlank, blankRanges]
  omega

theorem unbroken_append {front back : List Char} :
    Unbroken (front ++ back) ↔ Unbroken front ∧ Unbroken back :=
  List.forall_mem_append

theorem unbroken_reverse {text : List Char} : Unbroken text.reverse ↔ Unbroken text := by
  simp [Unbroken]

theorem letters_space (text : List Char) : letters (' ' :: text) = letters text := by
  simp [letters, isBlank_space]

theorem letters_append (front back : List Char) :
    letters (front ++ back) = letters front ++ letters back :=
  List.filter_append front back

theorem letters_reverse (text : List Char) : letters text.reverse = (letters text).reverse :=
  List.filter_reverse

theorem Unbroken.letters_eq {text : List Char} (unbroken : Unbroken text) : letters text = text := by
  apply List.filter_eq_self.mpr
  intro character member
  simp [unbroken character member]

/-- Trimming takes away nothing but white space. -/
theorem letters_dropWhile (text : List Char) : letters (text.dropWhile isBlank) = letters text := by
  induction text with
  | nil => rfl
  | cons first rest inductionHypothesis =>
      by_cases blank : isBlank first = true
      · rw [List.dropWhile_cons_of_pos blank, inductionHypothesis]
        simp [letters, blank]
      · rw [List.dropWhile_cons_of_neg blank]

theorem letters_trim (text : List Char) : letters (trim text) = letters text := by
  rw [trim, trimRight, trimLeft, letters_reverse, letters_dropWhile, letters_reverse,
    List.reverse_reverse, letters_dropWhile]

/-- There is nothing to trim at the front of a text that starts with a letter. -/
theorem trimLeft_eq_self {text : List Char} (starts : ∀ first ∈ text.head?, isBlank first = false) :
    trimLeft text = text := by
  cases text with
  | nil => rfl
  | cons first rest =>
      have letter := starts first rfl
      simp [trimLeft, letter]

theorem trim_eq_self {text : List Char} (starts : ∀ first ∈ text.head?, isBlank first = false)
    (ends : ∀ last ∈ text.getLast?, isBlank last = false) : trim text = text := by
  have atEnd : trimLeft text.reverse = text.reverse := by
    apply trimLeft_eq_self
    rw [List.head?_reverse]
    exact ends
  rw [trim, trimLeft_eq_self starts, trimRight]
  rw [trimLeft] at atEnd
  rw [atEnd, List.reverse_reverse]

theorem Unbroken.trim_eq {text : List Char} (unbroken : Unbroken text) : trim text = text :=
  trim_eq_self (fun first starts => unbroken first (List.mem_of_mem_head? starts))
    (fun last ends => unbroken last (List.mem_of_mem_getLast? ends))

/-- What is left after trimming does not end with white space. -/
theorem isBlank_getLast_trim {text : List Char} {last : Char}
    (ends : last ∈ (trim text).getLast?) : isBlank last = false := by
  rw [trim, trimRight, List.getLast?_reverse] at ends
  have stops := List.head?_dropWhile_not isBlank (trimLeft text).reverse
  rw [Option.mem_def.mp ends] at stops
  exact stops

/-- A word takes up everything before the first white space. -/
theorem Unbroken.takeWhile_append {word : List Char} (unbroken : Unbroken word) {blank : Char}
    (white : isBlank blank = true) (rest : List Char) :
    (word ++ blank :: rest).takeWhile (!isBlank ·) = word ∧
      (word ++ blank :: rest).dropWhile (!isBlank ·) = blank :: rest := by
  have all : ∀ character ∈ word, (!isBlank character) = true := by
    intro character member
    rw [unbroken character member]
    rfl
  rw [List.takeWhile_append_of_pos all, List.dropWhile_append_of_pos all]
  simp [white]

theorem firstWord_append {word : List Char} (unbroken : Unbroken word) {blank : Char}
    (white : isBlank blank = true) (rest : List Char) :
    firstWord (word ++ blank :: rest) = (word, blank :: rest) := by
  obtain ⟨taken, dropped⟩ := unbroken.takeWhile_append white rest
  rw [firstWord, taken, dropped]

theorem lastWord_append (front : List Char) {blank : Char} (white : isBlank blank = true)
    {word : List Char} (unbroken : Unbroken word) :
    lastWord (front ++ blank :: word) = (front ++ [blank], word) := by
  obtain ⟨taken, dropped⟩ :=
    (unbroken_reverse.mpr unbroken).takeWhile_append white front.reverse
  have reversed : (front ++ blank :: word).reverse = word.reverse ++ blank :: front.reverse := by
    simp
  rw [lastWord, reversed, taken, dropped]
  simp

/-- A text without white space is one word. -/
theorem Unbroken.lastWord_eq {text : List Char} (unbroken : Unbroken text) :
    lastWord text = ([], text) := by
  have all : ∀ character ∈ text.reverse, (!isBlank character) = true := by
    intro character member
    rw [unbroken_reverse.mpr unbroken character member]
    rfl
  rw [lastWord, List.takeWhile_eq_self_iff.mpr all, List.dropWhile_eq_nil_iff.mpr all]
  simp

theorem unbroken_lastWord (text : List Char) : Unbroken (lastWord text).2 := by
  apply unbroken_reverse.mpr
  intro character member
  simpa using List.mem_takeWhile_imp member

/-- The last word of a text that does not end with white space has a letter. -/
theorem lastWord_ne_nil {text : List Char} (nonempty : text ≠ [])
    (ends : ∀ last ∈ text.getLast?, isBlank last = false) : (lastWord text).2 ≠ [] := by
  have letter : isBlank (text.getLast nonempty) = false :=
    ends _ (List.getLast?_eq_some_getLast nonempty)
  rw [← List.dropLast_concat_getLast nonempty]
  simp [lastWord, letter]

theorem mem_letters {text : List Char} {character : Char} :
    character ∈ letters text ↔ character ∈ text ∧ isBlank character = false := by
  simp [letters]

theorem letters_eq_nil_iff {text : List Char} :
    letters text = [] ↔ ∀ character ∈ text, isBlank character = true := by
  simp [letters]

/-- A letter splits a text at the same place as it splits the letters of the text. -/
theorem letters_eq_append_cons_iff {text front back : List Char} {letter : Char}
    (visible : isBlank letter = false) :
    letters text = front ++ letter :: back ↔
      ∃ before after, text = before ++ letter :: after ∧ letters before = front ∧
        letters after = back := by
  constructor
  · intro equal
    obtain ⟨before, others, rfl, rfl, ends⟩ := List.filter_eq_append_iff.mp equal
    obtain ⟨gap, after, rfl, blank, -, rfl⟩ := List.filter_eq_cons_iff.mp ends
    have white : letters gap = [] := List.filter_eq_nil_iff.mpr blank
    refine ⟨before ++ gap, after, (List.append_assoc ..).symm, ?_, rfl⟩
    rw [letters_append, white, List.append_nil, letters]
  · rintro ⟨before, after, rfl, rfl, rfl⟩
    rw [letters_append]
    simp [letters, visible]

/-- A letter comes after all white space in front. -/
theorem append_eq_append_cons {blanks text front back : List Char} {letter : Char}
    (white : letters blanks = []) (visible : isBlank letter = false)
    (equal : blanks ++ text = front ++ letter :: back) :
    ∃ rest, front = blanks ++ rest ∧ text = rest ++ letter :: back := by
  rcases List.append_eq_append_iff.mp equal with ⟨rest, split⟩ | ⟨others, rfl, split⟩
  · exact ⟨rest, split⟩
  · cases others with
    | nil => exact ⟨[], by simp, split.symm⟩
    | cons first others =>
        obtain ⟨rfl, -⟩ := List.cons.inj split
        have blank := letters_eq_nil_iff.mp white letter (by simp)
        rw [visible] at blank
        cases blank

theorem trimLeft_append {blanks : List Char} (white : letters blanks = []) (text : List Char) :
    trimLeft (blanks ++ text) = trimLeft text :=
  List.dropWhile_append_of_pos (letters_eq_nil_iff.mp white)

theorem trim_append {blanks : List Char} (white : letters blanks = []) (text : List Char) :
    trim (blanks ++ text) = trim text := by
  rw [trim, trimLeft_append white, trim]

theorem trim_eq_nil {blanks : List Char} (white : letters blanks = []) : trim blanks = [] := by
  rw [← List.append_nil blanks, trim_append white]
  rfl

/-- What trimming leaves of a text are its letters, unless white space stands between them. -/
theorem trim_eq_letters {text : List Char} (unbroken : Unbroken (trim text)) :
    trim text = letters text := by
  rw [← unbroken.letters_eq, letters_trim]

/-- The text begins with its first word, so its letters do. -/
theorem firstWord_prefix_letters (text : List Char) :
    (firstWord (trimLeft text)).1 <+: letters text := by
  have word : Unbroken (firstWord (trimLeft text)).1 := by
    intro character member
    simpa using List.mem_takeWhile_imp member
  have split := congrArg letters (append_firstWord (trimLeft text))
  rw [letters_append, word.letters_eq, trimLeft, letters_dropWhile] at split
  exact ⟨_, split⟩

end RibStream.Text
