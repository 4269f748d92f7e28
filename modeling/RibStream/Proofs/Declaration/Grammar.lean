/-
This file states the grammar of type specifications and proves how much of it is read.
Every text of the grammar is read as what it says. White space is ignored even inside of a keyword or
a numeral, so that texts are read which are not in the grammar.
-/

import RibStream.Proofs.Declaration.Qualified

namespace RibStream

open Text

/-- A character that ends a keyword or a numeral. -/
def isBracket (character : Char) : Bool :=
  character == '[' || character == ']'

/-- The text is a numeral for the size. A plus sign may stand in front. -/
def IsSize (text : List Char) (size : UInt32) : Prop :=
  ∃ numeral, (text = numeral ∨ text = '+' :: numeral) ∧ numeral ≠ [] ∧
    (∀ digit ∈ numeral, digit.isDigit = true) ∧
    Decimal.value (numeral.map fun digit => digit.toNat - '0'.toNat) = size.toNat

namespace IsSize

variable {text : List Char} {size : UInt32}

theorem isDigit_or_plus (written : IsSize text size) :
    ∀ character ∈ text, character.isDigit = true ∨ character = '+' := by
  obtain ⟨numeral, rfl | rfl, -, digits, -⟩ := written
  · exact fun character member => .inl (digits character member)
  · rintro character (- | ⟨-, member⟩)
    · exact .inr rfl
    · exact .inl (digits character member)

theorem unbroken (written : IsSize text size) : Unbroken text := by
  intro character member
  rcases written.isDigit_or_plus character member with digit | rfl
  · exact isBlank_eq_false_of_isDigit digit
  · decide

theorem not_isBracket (written : IsSize text size) :
    ∀ character ∈ text, isBracket character = false := by
  intro character member
  rw [Bool.eq_false_iff]
  intro bracket
  have letter := written.isDigit_or_plus character member
  rcases Bool.or_eq_true_iff.mp bracket with equal | equal <;> cases eq_of_beq equal <;>
    exact absurd letter (by decide)

end IsSize

theorem readSize?_plus {numeral : List Char} (nonempty : numeral ≠ [])
    (digits : ∀ digit ∈ numeral, digit.isDigit = true) :
    readSize? ('+' :: numeral) = readSize? numeral := by
  have valid : (numeral.isEmpty || !numeral.all Char.isDigit) = false := by
    simpa [nonempty] using digits
  rw [readSize?_of_digits nonempty digits, readSize?]
  dsimp only
  rw [valid]
  rfl

/-- Only the digits after the sign are looked at. -/
theorem readSize?_unsigned (text : List Char) :
    ∃ numeral, (text = numeral ∨ text = '+' :: numeral) ∧
      readSize? text =
        if numeral.isEmpty || !numeral.all Char.isDigit then none
        else
          let size := Decimal.value (numeral.map fun digit => digit.toNat - '0'.toNat)
          if size < UInt32.size then some (UInt32.ofNat size) else none := by
  rw [readSize?.eq_def]
  split
  · exact ⟨_, .inr rfl, rfl⟩
  · exact ⟨_, .inl rfl, rfl⟩

theorem readSize?_eq_some_iff {text : List Char} {size : UInt32} :
    readSize? text = some size ↔ IsSize text size := by
  constructor
  · intro read
    obtain ⟨numeral, signed, equation⟩ := readSize?_unsigned text
    rw [equation] at read
    split at read
    · cases read
    · rename_i valid
      simp only [Bool.or_eq_true, List.isEmpty_iff, Bool.not_eq_true', not_or,
        Bool.not_eq_false, List.all_eq_true] at valid
      dsimp only at read
      split at read
      · rename_i fits
        cases read
        exact ⟨numeral, signed, valid.1, valid.2, (UInt32.toNat_ofNat_of_lt' fits).symm⟩
      · cases read
  · rintro ⟨numeral, signed, nonempty, digits, denotes⟩
    have read : readSize? numeral = some size := by
      rw [readSize?_of_digits nonempty digits]
      simp only [denotes, size.toNat_lt_size, if_true, UInt32.ofNat_toNat]
    rcases signed with rfl | rfl
    · exact read
    · rw [readSize?_plus nonempty digits, read]

/-- All words that name an element type. -/
def ElementType.words : List (List Char) :=
  "int".toList :: all.map (·.keyword.toList)

/-- The text is a keyword for the element type. Only integers have two. -/
def IsKeyword (text : List Char) (element : ElementType) : Prop :=
  text = element.keyword.toList ∨ element = .integer ∧ text = "int".toList

namespace IsKeyword

variable {text : List Char} {element : ElementType}

theorem mem_words (written : IsKeyword text element) : text ∈ ElementType.words := by
  obtain rfl | ⟨-, rfl⟩ := written
  · cases element <;> decide
  · exact List.mem_cons_self

theorem unbroken (written : IsKeyword text element) : Unbroken text :=
  (by decide : ∀ word ∈ ElementType.words, Unbroken word) text written.mem_words

theorem ne_nil (written : IsKeyword text element) : text ≠ [] :=
  (by decide : ∀ word ∈ ElementType.words, word ≠ []) text written.mem_words

theorem not_isBracket (written : IsKeyword text element) :
    ∀ character ∈ text, isBracket character = false := by
  have clear : ∀ word ∈ ElementType.words, word.all (!isBracket ·) = true := by decide
  intro character member
  simpa using List.all_eq_true.mp (clear text written.mem_words) character member

/-- The keywords of the classes begin in another way. -/
theorem not_prefix (written : IsKeyword text element) (variableClass : VariableClass) :
    ¬ variableClass.keyword.toList <+: text ∧ ¬ text <+: variableClass.keyword.toList := by
  have apart : ∀ word ∈ ElementType.words, ¬ variableClass.keyword.toList <+: word ∧
      ¬ word <+: variableClass.keyword.toList := by
    cases variableClass <;> decide
  exact apart text written.mem_words

end IsKeyword

theorem ElementType.ofKeyword?_eq_some_iff {text : List Char} {element : ElementType} :
    ofKeyword? (String.ofList text) = some element ↔ IsKeyword text element := by
  constructor
  · intro read
    rw [ofKeyword?] at read
    split at read
    · rename_i short
      cases read
      exact .inr ⟨rfl, by rw [← short, String.toList_ofList]⟩
    · have found := List.find?_some read
      exact .inl (by rw [eq_of_beq found, String.toList_ofList])
  · rintro (rfl | ⟨rfl, rfl⟩)
    · rw [String.ofList_toList, ofKeyword?_keyword]
    · decide

theorem VariableClass.keyword_of_ofKeyword? {word : String} {variableClass : VariableClass}
    (read : ofKeyword? word = some variableClass) : variableClass.keyword = word := by
  rw [ofKeyword?] at read
  have found := List.find?_some read
  exact eq_of_beq found

/-- An element type without blanks is a keyword, alone or with a numeral in brackets. -/
theorem readElement?_eq_some_iff {text : List Char} {element : ElementType} {size : UInt32} :
    readElement? text = some (element, size) ↔
      (IsKeyword text element ∧ size = 1) ∨
      ∃ word numeral, text = word ++ '[' :: (numeral ++ [']']) ∧ IsKeyword word element ∧
        IsSize numeral size := by
  have clear {word : List Char} (keyword : IsKeyword word element) :
      ∀ character ∈ word, (character != '[') = true := by
    intro character member
    have letter := keyword.not_isBracket character member
    simp only [isBracket, Bool.or_eq_false_iff] at letter
    rw [bne, letter.1]
    rfl
  constructor
  · intro read
    have parts : text.takeWhile (· != '[') ++ text.dropWhile (· != '[') = text :=
      List.takeWhile_append_dropWhile
    rw [readElement?] at read
    split at read
    · rename_i single
      obtain ⟨_, word, ⟨⟩⟩ := Option.map_eq_some_iff.mp read
      rw [single, List.append_nil] at parts
      rw [parts] at word
      exact .inl ⟨ElementType.ofKeyword?_eq_some_iff.mp word, rfl⟩
    · rename_i bracket inside array
      have opened : bracket = '[' := by
        have stops := List.head?_dropWhile_not (· != '[') text
        rw [array] at stops
        simpa using stops
      rw [array, opened] at parts
      split at read
      · rename_i closed
        obtain ⟨numeral, rfl⟩ := List.getLast?_eq_some_iff.mp closed
        rw [List.dropLast_concat] at read
        obtain ⟨_, number, typed⟩ := Option.bind_eq_some_iff.mp read
        obtain ⟨_, word, ⟨⟩⟩ := Option.bind_eq_some_iff.mp typed
        exact .inr ⟨_, numeral, parts.symm, ElementType.ofKeyword?_eq_some_iff.mp word,
          readSize?_eq_some_iff.mp number⟩
      · cases read
  · rintro (⟨keyword, rfl⟩ | ⟨word, numeral, rfl, keyword, number⟩)
    · rw [readElement?, List.takeWhile_eq_self_iff.mpr (clear keyword),
        List.dropWhile_eq_nil_iff.mpr (clear keyword),
        ElementType.ofKeyword?_eq_some_iff.mpr keyword]
      rfl
    · rw [readElement?, List.takeWhile_append_of_pos (clear keyword),
        List.dropWhile_append_of_pos (clear keyword), List.takeWhile_cons_of_neg (by simp),
        List.dropWhile_cons_of_neg (by simp), List.append_nil,
        ElementType.ofKeyword?_eq_some_iff.mpr keyword]
      simp [readSize?_eq_some_iff.mpr number]

/-- A way to take white space away from a text. It takes away all that stands in front, and all that
there is if it leaves a single word. -/
structure IsCleaning (clean : List Char → List Char) : Prop where
  append_left : ∀ {blanks} text, letters blanks = [] → clean (blanks ++ text) = clean text
  eq_letters : ∀ {text}, Unbroken (clean text) → clean text = letters text

theorem isCleaning_trim : IsCleaning trim :=
  ⟨fun text white => trim_append white text, trim_eq_letters⟩

theorem isCleaning_letters : IsCleaning letters :=
  ⟨fun text white => by rw [letters_append, white, List.nil_append], fun _ => rfl⟩

/-- A text for an element type: a keyword, or a keyword and a numeral in brackets. They are what is
left of their parts of the text when these are cleaned of white space. -/
inductive IsElement (clean : List Char → List Char) (text : List Char) : ElementType → UInt32 → Prop
  | single {element : ElementType} (keyword : IsKeyword (clean text) element) :
      IsElement clean text element 1
  | array {front inside back : List Char} {element : ElementType} {size : UInt32}
      (parts : text = front ++ '[' :: (inside ++ ']' :: back))
      (keyword : IsKeyword (clean front) element) (numeral : IsSize (clean inside) size)
      (white : letters back = []) : IsElement clean text element size

/-- A text for a type: the text for an element type, in front of which the keyword of a class and white
space may stand. If there is no class, the type is uniform. -/
inductive IsTypeSpec (clean : List Char → List Char) (text : List Char) : TypeSpec → Prop
  | unclassed {element : ElementType} {size : UInt32} (typed : IsElement clean text element size) :
      IsTypeSpec clean text ⟨.uniform, element, size⟩
  | classed {before rest : List Char} {blank : Char} {variableClass : VariableClass}
      {element : ElementType} {size : UInt32}
      (parts : text = before ++ (variableClass.keyword.toList ++ blank :: rest))
      (white : letters before = []) (apart : isBlank blank = true)
      (typed : IsElement clean rest element size) :
      IsTypeSpec clean text ⟨variableClass, element, size⟩

/-- There is no white space inside of the words that the brackets separate. -/
def PiecesUnbroken (text : List Char) : Prop :=
  ∀ piece ∈ text.splitOnP isBracket, Unbroken (trim piece)

instance (text : List Char) : Decidable (PiecesUnbroken text) :=
  List.decidableBAll (fun piece => Unbroken (trim piece)) _

theorem isBracket_eq_false {text : List Char}
    (clear : ∀ character ∈ letters text, isBracket character = false) :
    ∀ character ∈ text, isBracket character = false := by
  intro character member
  cases blank : isBlank character with
  | false => exact clear character (mem_letters.mpr ⟨member, blank⟩)
  | true =>
      rw [Bool.eq_false_iff]
      intro bracket
      rcases Bool.or_eq_true_iff.mp bracket with equal | equal <;> cases eq_of_beq equal <;>
        exact absurd blank (by decide)

namespace IsElement

variable {clean : List Char → List Char} {text : List Char} {element : ElementType} {size : UInt32}

/-- White space may be put in front. -/
theorem append_left (cleaning : IsCleaning clean) {blanks : List Char} (white : letters blanks = []) :
    IsElement clean (blanks ++ text) element size ↔ IsElement clean text element size := by
  constructor
  · generalize whole : blanks ++ text = padded
    rintro (keyword | ⟨rfl, keyword, number, ends⟩)
    · rw [← whole, cleaning.append_left text white] at keyword
      exact .single keyword
    · obtain ⟨front, rfl, rfl⟩ := append_eq_append_cons white (by decide) whole
      rw [cleaning.append_left front white] at keyword
      exact .array rfl keyword number ends
  · rintro (keyword | ⟨rfl, keyword, number, ends⟩)
    · rw [← cleaning.append_left text white] at keyword
      exact .single keyword
    · rw [← cleaning.append_left _ white] at keyword
      exact .array (List.append_assoc ..).symm keyword number ends

/-- What is left in any way of cleaning is left if all white space is taken away. -/
theorem toLetters (cleaning : IsCleaning clean) (written : IsElement clean text element size) :
    IsElement letters text element size := by
  cases written with
  | single keyword =>
      rw [cleaning.eq_letters keyword.unbroken] at keyword
      exact .single keyword
  | array parts keyword number white =>
      rw [cleaning.eq_letters keyword.unbroken] at keyword
      rw [cleaning.eq_letters number.unbroken] at number
      exact .array parts keyword number white

theorem exists_keyword (written : IsElement letters text element size) :
    ∃ word, IsKeyword word element ∧ word <+: letters text := by
  cases written with
  | single keyword => exact ⟨_, keyword, List.prefix_refl _⟩
  | array parts keyword number white =>
      refine ⟨_, keyword, ?_⟩
      rw [parts, letters_append]
      exact List.prefix_append _ _

theorem ne_nil (written : IsElement letters text element size) : text ≠ [] := by
  rintro rfl
  obtain ⟨word, keyword, starts⟩ := written.exists_keyword
  exact keyword.ne_nil (List.prefix_nil.mp starts)

/-- Without white space, a text for an element type is what is read. -/
theorem letters_iff :
    IsElement letters text element size ↔ readElement? (letters text) = some (element, size) := by
  have opening : isBlank '[' = false := by decide
  have closing : isBlank ']' = false := by decide
  rw [readElement?_eq_some_iff]
  constructor
  · rintro (keyword | ⟨rfl, keyword, number, white⟩)
    · exact .inl ⟨keyword, rfl⟩
    · refine .inr ⟨_, _, ?_, keyword, number⟩
      exact (letters_eq_append_cons_iff opening).mpr ⟨_, _, rfl, rfl,
        (letters_eq_append_cons_iff closing).mpr ⟨_, _, rfl, rfl, white⟩⟩
  · rintro (⟨keyword, rfl⟩ | ⟨word, numeral, split, keyword, number⟩)
    · exact .single keyword
    · obtain ⟨front, others, rfl, rfl, rest⟩ := (letters_eq_append_cons_iff opening).mp split
      obtain ⟨inside, back, rfl, rfl, white⟩ := (letters_eq_append_cons_iff closing).mp rest
      exact .array rfl keyword number white

theorem splitOnP_single (keyword : IsKeyword (letters text) element) :
    text.splitOnP isBracket = [text] :=
  List.splitOnP_eq_singleton (isBracket_eq_false keyword.not_isBracket)

theorem splitOnP_array {front inside back : List Char} (keyword : IsKeyword (letters front) element)
    (number : IsSize (letters inside) size) (white : letters back = []) :
    (front ++ '[' :: (inside ++ ']' :: back)).splitOnP isBracket = [front, inside, back] := by
  have clear : ∀ character ∈ back, isBracket character = false :=
    isBracket_eq_false (by simp [white])
  rw [List.splitOnP_append_cons_of_forall_mem (isBracket_eq_false keyword.not_isBracket) '[' rfl,
    List.splitOnP_append_cons_of_forall_mem (isBracket_eq_false number.not_isBracket) ']' rfl,
    List.splitOnP_eq_singleton clear]

/-- It makes no difference to unbroken words which white space is taken away. -/
theorem trim_iff :
    IsElement trim text element size ↔ IsElement letters text element size ∧ PiecesUnbroken text := by
  -- The letters decide where the pieces end, so the pieces are the parts of the text.
  constructor
  · rintro (keyword | ⟨rfl, keyword, number, white⟩)
    · have unbroken := keyword.unbroken
      rw [trim_eq_letters unbroken] at keyword
      refine ⟨.single keyword, ?_⟩
      rw [PiecesUnbroken, splitOnP_single keyword]
      simpa using unbroken
    · have frontUnbroken := keyword.unbroken
      have insideUnbroken := number.unbroken
      rw [trim_eq_letters frontUnbroken] at keyword
      rw [trim_eq_letters insideUnbroken] at number
      have backUnbroken : Unbroken (trim _) := trim_eq_nil white ▸ List.forall_mem_nil _
      refine ⟨.array rfl keyword number white, ?_⟩
      rw [PiecesUnbroken, splitOnP_array keyword number white]
      simpa using ⟨frontUnbroken, insideUnbroken, backUnbroken⟩
  · rintro ⟨keyword | ⟨rfl, keyword, number, white⟩, unbroken⟩
    · rw [PiecesUnbroken, splitOnP_single keyword] at unbroken
      rw [← trim_eq_letters (unbroken text (by simp))] at keyword
      exact .single keyword
    · rw [PiecesUnbroken, splitOnP_array keyword number white] at unbroken
      rw [← trim_eq_letters (unbroken _ (by simp))] at keyword
      rw [← trim_eq_letters (unbroken _ (by simp))] at number
      exact .array rfl keyword number white

end IsElement

namespace TypeSpec

/-- What is split off is the keyword of a class, after which the text ends or white space follows. -/
theorem readClass_cases (text : List Char) :
    readClass text = (.uniform, text) ∨ ∃ variableClass rest,
      readClass text = (variableClass, rest) ∧ text = variableClass.keyword.toList ++ rest ∧
        ∀ first ∈ rest.head?, isBlank first = true := by
  rw [readClass]
  split
  · rename_i variableClass read
    refine .inr ⟨variableClass, _, rfl, ?_, ?_⟩
    · rw [VariableClass.keyword_of_ofKeyword? read, String.toList_ofList, append_firstWord]
    · intro first starts
      have head : (text.dropWhile (!isBlank ·)).head? = some first := starts
      have stops := List.head?_dropWhile_not (!isBlank ·) text
      rw [head] at stops
      simpa using stops
  · exact .inl rfl

theorem readClass_classed {before rest : List Char} {blank : Char} (variableClass : VariableClass)
    (white : letters before = []) (apart : isBlank blank = true) :
    readClass (trimLeft (before ++ (variableClass.keyword.toList ++ blank :: rest))) =
      (variableClass, blank :: rest) := by
  have starts : ∀ first ∈ (variableClass.keyword.toList ++ blank :: rest).head?,
      isBlank first = false := by
    cases variableClass <;> rintro first ⟨⟩ <;> decide
  rw [trimLeft_append white, trimLeft_eq_self starts, readClass,
    firstWord_append variableClass.unbroken_keyword apart, String.ofList_toList,
    VariableClass.ofKeyword?_keyword]

/-- A text that begins with an element type does not begin with a class. -/
theorem readClass_unclassed {text : List Char} {element : ElementType} {size : UInt32}
    (typed : IsElement letters text element size) :
    readClass (trimLeft text) = (.uniform, trimLeft text) := by
  rw [readClass]
  split
  · rename_i variableClass read
    exfalso
    obtain ⟨word, keyword, starts⟩ := typed.exists_keyword
    -- Both keywords begin the letters of the text, so one of them begins the other.
    have first : variableClass.keyword.toList <+: letters text := by
      rw [VariableClass.keyword_of_ofKeyword? read, String.toList_ofList]
      exact firstWord_prefix_letters text
    rcases List.prefix_or_prefix_of_prefix first starts with inside | outside
    · exact (keyword.not_prefix variableClass).1 inside
    · exact (keyword.not_prefix variableClass).2 outside
  · rfl

/-- The class is split off in the same way whatever other white space is taken away. -/
theorem isTypeSpec_iff {clean : List Char → List Char} (cleaning : IsCleaning clean)
    {text : List Char} {spec : TypeSpec} :
    IsTypeSpec clean text spec ↔
      (readClass (trimLeft text)).1 = spec.variableClass ∧
        IsElement clean (readClass (trimLeft text)).2 spec.element spec.arraySize := by
  obtain ⟨blanks, white, trimmed⟩ : ∃ blanks, letters blanks = [] ∧
      text = blanks ++ trimLeft text :=
    ⟨text.takeWhile isBlank, letters_eq_nil_iff.mpr fun _ => List.mem_takeWhile_imp,
      List.takeWhile_append_dropWhile.symm⟩
  constructor
  · rintro (typed | ⟨rfl, before, apart, typed⟩)
    · rw [readClass_unclassed (typed.toLetters cleaning)]
      rw [trimmed, IsElement.append_left cleaning white] at typed
      exact ⟨rfl, typed⟩
    · have alone : letters [_] = [] := List.filter_eq_nil_iff.mpr (by simpa using apart)
      rw [readClass_classed _ before apart]
      exact ⟨rfl, (IsElement.append_left cleaning alone).mpr typed⟩
  · rintro ⟨classed, typed⟩
    obtain ⟨variableClass, element, size⟩ := spec
    obtain unclassed | ⟨found, rest, split, parts, apart⟩ := readClass_cases (trimLeft text)
    · rw [unclassed] at classed typed
      cases classed
      rw [← IsElement.append_left cleaning white, ← trimmed] at typed
      exact .unclassed typed
    · rw [split] at classed typed
      cases classed
      cases rest with
      | nil => exact absurd rfl (typed.toLetters cleaning).ne_nil
      | cons blank rest =>
          have gap : isBlank blank = true := apart blank rfl
          have alone : letters [blank] = [] := by simp [letters, gap]
          rw [parts] at trimmed
          exact .classed trimmed white gap ((IsElement.append_left cleaning alone).mp typed)

theorem ofChars?_eq_some_iff {text : List Char} {spec : TypeSpec} :
    ofChars? text = some spec ↔ IsTypeSpec letters text spec := by
  rw [isTypeSpec_iff isCleaning_letters, IsElement.letters_iff, ofChars?]
  constructor
  · intro read
    obtain ⟨_, typed, ⟨⟩⟩ := Option.map_eq_some_iff.mp read
    exact ⟨rfl, typed⟩
  · rintro ⟨classed, typed⟩
    obtain ⟨variableClass, element, size⟩ := spec
    cases classed
    exact Option.map_eq_some_iff.mpr ⟨_, typed, rfl⟩

/-- There is no white space inside of the words after the class. -/
def WordsUnbroken (text : List Char) : Prop :=
  PiecesUnbroken (readClass (trimLeft text)).2

instance (text : List Char) : Decidable (WordsUnbroken text) :=
  inferInstanceAs (Decidable (PiecesUnbroken _))

theorem isTypeSpec_trim_iff {text : List Char} {spec : TypeSpec} :
    IsTypeSpec trim text spec ↔ ofChars? text = some spec ∧ WordsUnbroken text := by
  rw [ofChars?_eq_some_iff, isTypeSpec_iff isCleaning_trim, isTypeSpec_iff isCleaning_letters,
    IsElement.trim_iff, and_assoc, WordsUnbroken]

/-- The grammar, in which white space stands around keywords and numerals only, has exactly those of
the texts that are read whose words are unbroken, and each of them is read as what it says. Whatever
else is read is in the grammar once the white space inside of its words is taken away. -/
theorem ofString?_grammar (text : String) (spec : TypeSpec) :
    (IsTypeSpec trim text.toList spec ↔ ofString? text = some spec ∧ WordsUnbroken text.toList) ∧
      (ofString? text = some spec ↔ IsTypeSpec letters text.toList spec) :=
  ⟨isTypeSpec_trim_iff, ofChars?_eq_some_iff⟩

/-- A broken keyword and a broken numeral are read, although the grammar does not have them. -/
theorem not_isTypeSpec_broken :
    (ofString? "floa t" = some (.uniform .float) ∧ ¬ ∃ spec, IsTypeSpec trim "floa t".toList spec) ∧
      ofString? "float[1 2]" = some ⟨.uniform, .float, 12⟩ ∧
        ¬ ∃ spec, IsTypeSpec trim "float[1 2]".toList spec := by
  have keyword : ¬ WordsUnbroken "floa t".toList := by decide +kernel
  have numeral : ¬ WordsUnbroken "float[1 2]".toList := by decide +kernel
  refine ⟨⟨by decide +kernel, ?_⟩, by decide +kernel, ?_⟩
  · rintro ⟨spec, written⟩
    exact keyword (isTypeSpec_trim_iff.mp written).2
  · rintro ⟨spec, written⟩
    exact numeral (isTypeSpec_trim_iff.mp written).2

end TypeSpec

end RibStream
