/-
This file says what a reader sees of the comments in a text.
The text of a comment is written as it is, so only its first line is marked as a comment.
-/

import RibStream.Proofs.Ascii.Reading

namespace RibStream.Ascii

/-- The lines from which a reader takes its requests. -/
def requestLines (bytes : List UInt8) : List (List UInt8) :=
  (bytes.splitOn newline).filter (!isIdle ·)

/-- Whatever comes next starts a line of its own. -/
def WholeLines (bytes : List UInt8) : Prop :=
  ∀ last ∈ bytes.getLast?, last = newline

instance (bytes : List UInt8) : Decidable (WholeLines bytes) :=
  inferInstanceAs (Decidable (∀ last ∈ bytes.getLast?, _))

/-- The part of a text that stands behind the mark of the comment. -/
def firstLine (text : String) : List UInt8 :=
  ((Text.bytes text).splitOn newline).headD []

/-- The lines of a text that do not stand behind the mark. -/
def furtherLines (text : String) : List (List UInt8) :=
  ((Text.bytes text).splitOn newline).tail

/-- A reader skips whatever is written for the comment. -/
def StaysComment (text : String) : Prop :=
  ∀ line ∈ furtherLines text, isIdle line = true

instance (text : String) : Decidable (StaysComment text) :=
  inferInstanceAs (Decidable (∀ line ∈ furtherLines text, _))

theorem requestLines_nil : requestLines [] = [] := by
  rw [requestLines, List.splitOn_nil]
  rfl

theorem requestLines_break (front back : List UInt8) :
    requestLines (front ++ newline :: back) = requestLines front ++ requestLines back := by
  rw [requestLines, List.splitOn_append_cons_self, List.filter_append]
  rfl

theorem wholeLines_nil : WholeLines [] := nofun

theorem wholeLines_concat (front : List UInt8) : WholeLines (front ++ [newline]) := by
  intro last member
  rw [List.getLast?_concat] at member
  exact (Option.some.inj member).symm

theorem WholeLines.requestLines_append {front : List UInt8} (whole : WholeLines front)
    (back : List UInt8) : requestLines (front ++ back) = requestLines front ++ requestLines back := by
  rcases List.eq_nil_or_concat' front with rfl | ⟨before, last, rfl⟩
  · rw [requestLines_nil]
    rfl
  · have ends : last = newline := whole last List.getLast?_concat
    rw [ends, List.append_assoc, List.singleton_append, requestLines_break, requestLines_break,
      requestLines_nil, List.append_nil]

/-- Bytes without a newline become the beginning of the first line. -/
theorem splitOn_append {front : List UInt8} (free : newline ∉ front) (bytes : List UInt8) :
    (front ++ bytes).splitOn newline = (bytes.splitOn newline).modifyHead (front ++ ·) := by
  induction front with
  | nil =>
      rw [List.nil_append]
      cases bytes.splitOn newline <;> rfl
  | cons byte front inductionHypothesis =>
      rw [List.mem_cons, not_or] at free
      rw [List.cons_append, List.splitOn_cons_eq_if_modifyHead,
        if_neg (by simpa using Ne.symm free.1), inductionHypothesis free.2, List.modifyHead_modifyHead]
      rfl

theorem splitOn_text (text : String) :
    (Text.bytes text).splitOn newline = firstLine text :: furtherLines text := by
  rw [firstLine, furtherLines]
  cases split : (Text.bytes text).splitOn newline with
  | nil => exact absurd split (List.splitOn_ne_nil _ _)
  | cons first further => rfl

/-- A text of one line has no further ones. -/
theorem furtherLines_eq_nil_iff (text : String) :
    furtherLines text = [] ↔ newline ∉ Text.bytes text := by
  constructor
  · intro single inside
    obtain ⟨front, back, split⟩ := List.append_of_mem inside
    have lines := splitOn_text text
    rw [split, List.splitOn_append_cons_self, single] at lines
    have counted := congrArg List.length lines
    have front := List.length_pos_of_ne_nil (List.splitOn_ne_nil newline front)
    have back := List.length_pos_of_ne_nil (List.splitOn_ne_nil newline back)
    rw [List.length_append, List.length_singleton] at counted
    omega
  · intro free
    rw [furtherLines, List.splitOn_eq_singleton free]
    rfl

theorem record_comment (depth : Nat) (text : String) : record depth "comment" text =
    indentation depth ++ hash :: Text.bytes text ++ [newline] := by
  rw [record, if_pos rfl, List.append_assoc, List.cons_append]

theorem newline_not_mem_mark (depth : Nat) : newline ∉ indentation depth ++ [hash] := by
  rw [List.mem_append, not_or]
  exact ⟨newline_not_mem_indentation depth, by decide⟩

/-- The lines of a comment. Only the first one is marked. -/
theorem splitOn_comment (depth : Nat) (text : String) :
    (indentation depth ++ hash :: Text.bytes text).splitOn newline =
      (indentation depth ++ hash :: firstLine text) :: furtherLines text := by
  have marked := splitOn_append (newline_not_mem_mark depth) (Text.bytes text)
  rw [splitOn_text, List.modifyHead_cons] at marked
  rwa [List.append_assoc, List.append_assoc] at marked

/-- A comment adds one line more than its text has breaks. -/
theorem count_comment (depth : Nat) (text : String) :
    (record depth "comment" text).count newline = (Text.bytes text).count newline + 1 := by
  have mark : (indentation depth).count newline = 0 :=
    List.count_eq_zero.mpr (newline_not_mem_indentation depth)
  have other : (hash == newline) = false := by decide
  rw [record_comment, List.count_append, List.count_append, mark, List.count_cons, other,
    List.count_singleton_self]
  simp

theorem isIdle_comment (depth : Nat) (rest : List UInt8) :
    isIdle (indentation depth ++ hash :: rest) = true := by
  rw [isIdle, skipSpaces_indentation depth (by decide)]
  rfl

theorem wholeLines_comment (depth : Nat) (text : String) :
    WholeLines (record depth "comment" text) := by
  rw [record_comment]
  exact wholeLines_concat _

/-- A reader sees the further lines of a comment unless it would skip them anyway. -/
theorem requestLines_comment (depth : Nat) (text : String) :
    requestLines (record depth "comment" text) = (furtherLines text).filter (!isIdle ·) := by
  have first := isIdle_comment depth (firstLine text)
  rw [record_comment, requestLines_break, requestLines_nil, List.append_nil, requestLines,
    splitOn_comment, List.filter_cons_of_neg (by simp [first])]

theorem requestLines_comment_eq_nil_iff (depth : Nat) (text : String) :
    requestLines (record depth "comment" text) = [] ↔ StaysComment text := by
  rw [requestLines_comment, List.filter_eq_nil_iff]
  simp [StaysComment]

/-- A part of the output: bytes that are always written, or a comment that can be left out. -/
inductive Passage where
  | kept (bytes : List UInt8)
  | comment (depth : Nat) (text : String)

namespace Passage

def withComment : Passage → List UInt8
  | kept bytes => bytes
  | comment depth text => record depth "comment" text

def withoutComment : Passage → List UInt8
  | kept bytes => bytes
  | comment _ _ => []

/-- The bytes are whole lines, and the comment is one of those that can be left out. -/
def Whole (optional : String → Prop) : Passage → Prop
  | kept bytes => WholeLines bytes
  | comment _ text => optional text

end Passage

/-- Comments add lines for a reader and take none away. -/
theorem sublist_passages {optional : String → Prop} {passages : List Passage}
    (whole : ∀ passage ∈ passages, passage.Whole optional) :
    (requestLines (passages.flatMap Passage.withoutComment)).Sublist
      (requestLines (passages.flatMap Passage.withComment)) := by
  induction passages with
  | nil => exact List.Sublist.refl _
  | cons passage passages inductionHypothesis =>
      have later := inductionHypothesis fun other member =>
        whole other (List.mem_cons_of_mem _ member)
      rw [List.flatMap_cons, List.flatMap_cons]
      cases passage with
      | kept bytes =>
          have lines : WholeLines bytes := whole _ List.mem_cons_self
          rw [Passage.withComment, Passage.withoutComment, lines.requestLines_append,
            lines.requestLines_append]
          exact later.append_left _
      | comment depth text =>
          rw [Passage.withComment, (wholeLines_comment depth text).requestLines_append]
          exact later.trans (List.sublist_append_right _ _)

/-- A reader sees the same lines with and without the comments exactly if all of them stay comments. -/
theorem requestLines_passages {optional : String → Prop} {passages : List Passage}
    (whole : ∀ passage ∈ passages, passage.Whole optional) :
    requestLines (passages.flatMap Passage.withComment) =
        requestLines (passages.flatMap Passage.withoutComment) ↔
      ∀ depth text, .comment depth text ∈ passages → StaysComment text := by
  induction passages with
  | nil => simp
  | cons passage passages inductionHypothesis =>
      have others (other : Passage) (member : other ∈ passages) : other.Whole optional :=
        whole other (List.mem_cons_of_mem _ member)
      rw [List.flatMap_cons, List.flatMap_cons]
      cases passage with
      | kept bytes =>
          have lines : WholeLines bytes := whole _ List.mem_cons_self
          rw [Passage.withComment, Passage.withoutComment, lines.requestLines_append,
            lines.requestLines_append, List.append_cancel_left_eq, inductionHypothesis others]
          simp
      | comment depth text =>
          have fewer := (sublist_passages others).length_le
          rw [Passage.withComment, Passage.withoutComment, List.nil_append,
            (wholeLines_comment depth text).requestLines_append]
          constructor
          · intro same
            have counted := congrArg List.length same
            rw [List.length_append] at counted
            have nothing : requestLines (record depth "comment" text) = [] :=
              List.length_eq_zero_iff.mp (by omega)
            rw [nothing, List.nil_append] at same
            intro otherDepth otherText member
            rcases List.mem_cons.mp member with own | later
            · cases own
              exact (requestLines_comment_eq_nil_iff depth text).mp nothing
            · exact (inductionHypothesis others).mp same otherDepth otherText later
          · intro stay
            have own := stay depth text List.mem_cons_self
            rw [(requestLines_comment_eq_nil_iff depth text).mpr own, List.nil_append]
            exact (inductionHypothesis others).mpr fun otherDepth otherText member =>
              stay otherDepth otherText (List.mem_cons_of_mem _ member)

end RibStream.Ascii
