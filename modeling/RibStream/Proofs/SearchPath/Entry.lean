/-
This file says what an entry of a search path looks like and how a text is divided into entries.
A text is divided in one way only, and splitting finds it.
-/

import RibStream.SearchPath

namespace RibStream.SearchPath

def isSeparator (character : Char) : Bool :=
  character == ':' || character == ';'

/-- A colon between these two belongs to a drive letter. -/
def InDrive (before after : List Char) : Prop :=
  ∃ letter slash rest, before = [letter] ∧ letter.isAlpha = true ∧ after = slash :: rest ∧
    (slash = '/' ∨ slash = '\\')

/-- An entry is not empty, and its only colon is that of a drive letter. -/
structure IsEntry (entry : List Char) : Prop where
  nonempty : entry ≠ []
  noSemicolon : ';' ∉ entry
  colons : ∀ before after, entry = before ++ ':' :: after → InDrive before after

/-- The character ends the entry before it. -/
def Separates (entry : List Char) (character : Char) (rest : List Char) : Prop :=
  character = ';' ∨ character = ':' ∧ ¬InDrive entry rest

/-- The text after an entry is empty or begins with a separator. -/
def Ends (entry text : List Char) : Prop :=
  ∀ next rest, text = next :: rest → Separates entry next rest

/-- The entries in their order make up the text, with separators between and around them. -/
inductive Divided : List (List Char) → List Char → Prop where
  | nil : Divided [] []
  | separator {entries : List (List Char)} {text : List Char} (character : Char)
      (separates : isSeparator character = true) (divided : Divided entries text) :
      Divided entries (character :: text)
  | entry {entry : List Char} {entries : List (List Char)} {text : List Char}
      (isEntry : IsEntry entry) (ends : Ends entry text) (divided : Divided entries text) :
      Divided (entry :: entries) (entry ++ text)

theorem inDrive_iff (before after : List Char) :
    InDrive before after ↔ isDriveColon before.reverse after = true := by
  constructor
  · rintro ⟨letter, slash, rest, rfl, alpha, rfl, slashes⟩
    rw [List.reverse_singleton, isDriveColon, Bool.and_eq_true, Bool.or_eq_true, beq_iff_eq,
      beq_iff_eq]
    exact ⟨alpha, slashes⟩
  · intro found
    unfold isDriveColon at found
    split at found
    · rename_i letter slash rest read
      rw [Bool.and_eq_true, Bool.or_eq_true, beq_iff_eq, beq_iff_eq] at found
      exact ⟨letter, slash, rest, List.reverse_eq_iff.mp read, found.1, rfl, found.2⟩
    · cases found

instance (before after : List Char) : Decidable (InDrive before after) :=
  decidable_of_iff _ (inDrive_iff before after).symm

instance (entry : List Char) (character : Char) (rest : List Char) :
    Decidable (Separates entry character rest) :=
  inferInstanceAs (Decidable (_ ∨ _))

theorem InDrive.append {before after : List Char} (drive : InDrive before after)
    (text : List Char) : InDrive before (after ++ text) := by
  obtain ⟨letter, slash, rest, single, alpha, rfl, slashes⟩ := drive
  exact ⟨letter, slash, rest ++ text, single, alpha, rfl, slashes⟩

/-- A separator is no slash, so the slash stands before it. -/
theorem InDrive.of_append {before after text : List Char} (drive : InDrive before (after ++ text))
    (separated : ∀ next rest, text = next :: rest → isSeparator next = true) :
    InDrive before after := by
  obtain ⟨letter, slash, rest, single, alpha, follows, slashes⟩ := drive
  cases after with
  | nil =>
      have separates := separated slash rest follows
      rcases slashes with rfl | rfl <;> cases separates
  | cons first after =>
      obtain ⟨rfl, -⟩ := List.cons.inj follows
      exact ⟨letter, first, after, single, alpha, rfl, slashes⟩

theorem not_inDrive_nil (after : List Char) : ¬InDrive [] after := by
  rintro ⟨letter, slash, rest, read, -⟩
  cases read

/-- No drive letter stands at the beginning of an entry. -/
theorem separates_nil {character : Char} (separates : isSeparator character = true)
    (rest : List Char) : Separates [] character rest := by
  rw [isSeparator, Bool.or_eq_true, beq_iff_eq, beq_iff_eq] at separates
  rcases separates with colon | semicolon
  · exact .inr ⟨colon, not_inDrive_nil rest⟩
  · exact .inl semicolon

theorem Separates.isSeparator {entry rest : List Char} {character : Char}
    (separates : Separates entry character rest) : isSeparator character = true := by
  rcases separates with rfl | ⟨rfl, -⟩ <;> rfl

/-! The scan keeps the part of an entry that has been read, last character first. -/

theorem separates_iff (entry : List Char) (character : Char) (rest : List Char) :
    Separates entry.reverse character rest ↔
      (character = ';' || character = ':' && !isDriveColon entry rest) = true := by
  rw [Separates, inDrive_iff, List.reverse_reverse]
  simp

/-- The pieces that are not empty. -/
def entriesFrom (entry text : List Char) : List (List Char) :=
  (piecesFrom entry text).filter (!·.isEmpty)

theorem split_eq (text : String) : split text = (entriesFrom [] text.toList).map String.ofList :=
  rfl

theorem entriesFrom_nil (entry : List Char) :
    entriesFrom entry [] = [entry.reverse].filter (!·.isEmpty) := by
  rw [entriesFrom, piecesFrom]

theorem entriesFrom_of_separates {entry rest : List Char} {character : Char}
    (separates : Separates entry.reverse character rest) :
    entriesFrom entry (character :: rest) =
      [entry.reverse].filter (!·.isEmpty) ++ entriesFrom [] rest := by
  rw [entriesFrom, piecesFrom, if_pos ((separates_iff entry character rest).mp separates),
    ← List.singleton_append, List.filter_append]
  rfl

theorem entriesFrom_of_not_separates {entry rest : List Char} {character : Char}
    (belongs : ¬Separates entry.reverse character rest) :
    entriesFrom entry (character :: rest) = entriesFrom (character :: entry) rest := by
  rw [entriesFrom, piecesFrom, if_neg (mt (separates_iff entry character rest).mpr belongs)]
  rfl

/-- Separators without an entry between them are passed over. -/
theorem entriesFrom_separator {character : Char} (separates : isSeparator character = true)
    (rest : List Char) : entriesFrom [] (character :: rest) = entriesFrom [] rest := by
  have start : Separates [].reverse character rest := separates_nil separates rest
  rw [entriesFrom_of_separates start]
  rfl

/-- Where an entry ends, the scan starts again. -/
theorem entriesFrom_of_ends {entry text : List Char} (ends : Ends entry.reverse text) :
    entriesFrom entry text = [entry.reverse].filter (!·.isEmpty) ++ entriesFrom [] text := by
  cases text with
  | nil => simp [entriesFrom_nil]
  | cons next rest =>
      have separates := ends next rest rfl
      rw [entriesFrom_of_separates separates, entriesFrom_separator separates.isSeparator]

/-- The characters of an entry stay together. -/
theorem entriesFrom_append {entry tail : List Char} (isEntry : IsEntry (entry.reverse ++ tail))
    (text : List Char) : entriesFrom entry (tail ++ text) = entriesFrom (tail.reverse ++ entry) text := by
  induction tail generalizing entry with
  | nil => rfl
  | cons character tail inductionHypothesis =>
      have belongs : ¬Separates entry.reverse character (tail ++ text) := by
        rintro (rfl | ⟨rfl, noDrive⟩)
        · exact isEntry.noSemicolon (List.mem_append_right _ List.mem_cons_self)
        · exact noDrive ((isEntry.colons _ _ rfl).append text)
      have whole : IsEntry ((character :: entry).reverse ++ tail) := by
        rwa [List.reverse_cons, List.append_assoc]
      rw [List.cons_append, entriesFrom_of_not_separates belongs, inductionHypothesis whole,
        List.reverse_cons, List.append_assoc]
      rfl

/-- The scan finds every division, so there is only one. -/
theorem Divided.entriesFrom_eq {entries : List (List Char)} {text : List Char}
    (divided : Divided entries text) : entriesFrom [] text = entries := by
  induction divided with
  | nil => rfl
  | @separator entries text character separates _ inductionHypothesis =>
      rw [entriesFrom_separator separates, inductionHypothesis]
  | @entry entry entries text isEntry ends _ inductionHypothesis =>
      have whole : IsEntry ([].reverse ++ entry) := isEntry
      have nonempty : [entry].filter (!·.isEmpty) = [entry] := by
        simpa using isEntry.nonempty
      rw [← List.reverse_reverse entry] at ends
      rw [entriesFrom_append whole, List.append_nil, entriesFrom_of_ends ends, List.reverse_reverse,
        nonempty, inductionHypothesis]
      rfl

/-- The beginning of an entry, as far as it can be told before the rest of it has been read. -/
structure Opens (read text : List Char) : Prop where
  noSemicolon : ';' ∉ read
  colons : ∀ before after, read = before ++ ':' :: after → InDrive before (after ++ text)

namespace Opens

variable {read text : List Char}

theorem nil (text : List Char) : Opens [] text where
  noSemicolon := List.not_mem_nil
  colons := by
    intro before after same
    simp at same

theorem concat {character : Char} (opens : Opens read (character :: text))
    (belongs : ¬Separates read character text) : Opens (read ++ [character]) text where
  noSemicolon := by
    intro member
    rcases List.mem_append.mp member with inside | last
    · exact opens.noSemicolon inside
    · exact belongs (.inl (List.mem_singleton.mp last).symm)
  colons := by
    intro before after same
    rcases List.eq_nil_or_concat after with rfl | ⟨front, last, rfl⟩
    · obtain ⟨rfl, colon⟩ := List.append_inj' same rfl
      apply Decidable.byContradiction
      intro noDrive
      exact belongs (.inr ⟨(List.cons.inj colon).1, noDrive⟩)
    · rw [List.concat_eq_append, ← List.cons_append, ← List.append_assoc] at same
      obtain ⟨inside, lasts⟩ := List.append_inj' same rfl
      rw [List.concat_eq_append, ← (List.cons.inj lasts).1, List.append_assoc]
      exact opens.colons before front inside

/-- What has been read up to a separator is an entry. -/
theorem isEntry (opens : Opens read text) (nonempty : read ≠ []) (ends : Ends read text) :
    IsEntry read where
  nonempty := nonempty
  noSemicolon := opens.noSemicolon
  colons := by
    intro before after same
    exact (opens.colons before after same).of_append fun next rest start =>
      (ends next rest start).isSeparator

theorem divided {entries : List (List Char)} (opens : Opens read text) (ends : Ends read text)
    (divided : Divided entries text) :
    Divided ([read].filter (!·.isEmpty) ++ entries) (read ++ text) := by
  cases read with
  | nil => exact divided
  | cons first read => exact .entry (opens.isEntry (List.cons_ne_nil _ _) ends) ends divided

end Opens

/-- The scan divides the text, provided that what it has read so far is the beginning of an entry. -/
theorem divided_entriesFrom {entry text : List Char} (opens : Opens entry.reverse text) :
    Divided (entriesFrom entry text) (entry.reverse ++ text) := by
  induction text generalizing entry with
  | nil =>
      rw [entriesFrom_nil, ← List.append_nil (List.filter _ _)]
      exact opens.divided nofun .nil
  | cons character text inductionHypothesis =>
      by_cases separates : Separates entry.reverse character text
      · have ends : Ends entry.reverse (character :: text) := by
          rintro next rest same
          cases same
          exact separates
        have rest : Divided (entriesFrom [] text) text := inductionHypothesis (Opens.nil text)
        rw [entriesFrom_of_separates separates]
        exact opens.divided ends (.separator character separates.isSeparator rest)
      · have read : Opens (character :: entry).reverse text := by
          rw [List.reverse_cons]
          exact opens.concat separates
        have divided := inductionHypothesis read
        rw [List.reverse_cons, List.append_assoc] at divided
        rw [entriesFrom_of_not_separates separates]
        exact divided

theorem entriesFrom_eq_iff {entries : List (List Char)} {text : List Char} :
    entriesFrom [] text = entries ↔ Divided entries text := by
  constructor
  · rintro rfl
    exact divided_entriesFrom (Opens.nil text)
  · exact Divided.entriesFrom_eq

end RibStream.SearchPath
