/-
This file says what an encoding does with requests whose names are those of a writer.
There are fewer of them than codes, so a code never lacks, and only a length can be too great.
-/

import RibStream.Encoding
import RibStream.Proofs.Binary.Known
import RibStream.Proofs.Request.Names

namespace RibStream

namespace Encoded

/-- Where the encoder stops, a length did not fit. -/
def StopsAtLength (encoded : Encoded) : Prop :=
  ∀ error, encoded.stop = some error → ∃ count, error = .lengthExceeded count

theorem stopsAtLength_whole (bytes : List UInt8) : (whole bytes).StopsAtLength :=
  fun _ stopped => absurd stopped (by simp)

theorem stop_append (first second : Encoded) :
    (first ++ second).stop = first.stop.or second.stop := by
  obtain ⟨bytes, _ | error⟩ := first <;> rfl

theorem StopsAtLength.append {first second : Encoded} (front : first.StopsAtLength)
    (back : second.StopsAtLength) : (first ++ second).StopsAtLength := by
  intro error stopped
  rw [stop_append, Option.or_eq_some_iff] at stopped
  rcases stopped with early | ⟨-, late⟩
  · exact front error early
  · exact back error late

theorem StopsAtLength.concat {pieces : List Encoded} (each : ∀ piece ∈ pieces, piece.StopsAtLength) :
    (Encoded.concat pieces).StopsAtLength := by
  induction pieces with
  | nil => exact stopsAtLength_whole []
  | cons piece pieces inductionHypothesis =>
      exact (each piece List.mem_cons_self).append
        (inductionHypothesis fun other member => each other (.tail _ member))

/-- Pieces are put out to their end if each of them is. -/
theorem stop_concat_eq_none_iff (pieces : List Encoded) :
    (Encoded.concat pieces).stop = none ↔ ∀ piece ∈ pieces, piece.stop = none := by
  induction pieces with
  | nil => simp
  | cons piece pieces inductionHypothesis =>
      rw [concat_cons, stop_append, Option.or_eq_none_iff, inductionHypothesis, List.forall_mem_cons]

theorem result_eq_ok_iff (encoded : Encoded) : encoded.result = .ok () ↔ encoded.stop = none := by
  obtain ⟨bytes, _ | error⟩ := encoded <;> simp [result]

end Encoded

namespace Binary

theorem stopsAtLength_length (opcode : Opcode) (count : Nat) :
    (length opcode count).StopsAtLength := by
  rw [length]
  split
  · exact Encoded.stopsAtLength_whole _
  · intro error stopped
    exact ⟨count, (Option.some.inj stopped).symm⟩

theorem stopsAtLength_string (value : String) : (string value).StopsAtLength := by
  rw [string]
  split
  · exact Encoded.stopsAtLength_whole _
  · exact (stopsAtLength_length _ _).append (Encoded.stopsAtLength_whole _)

theorem stopsAtLength_array {items : List Encoded} (each : ∀ item ∈ items, item.StopsAtLength) :
    (array items).StopsAtLength :=
  (Encoded.stopsAtLength_whole _).append ((Encoded.StopsAtLength.concat each).append
    (Encoded.stopsAtLength_whole _))

theorem stopsAtLength_token (token : Token) : (Binary.token token).StopsAtLength := by
  cases token with
  | int value => exact Encoded.stopsAtLength_whole _
  | float value => exact Encoded.stopsAtLength_whole _
  | string value => exact stopsAtLength_string value
  | ints values =>
      apply stopsAtLength_array
      intro item member
      obtain ⟨value, -, rfl⟩ := List.mem_map.mp member
      exact Encoded.stopsAtLength_whole _
  | floats values => exact (stopsAtLength_length _ _).append (Encoded.stopsAtLength_whole _)
  | strings values =>
      apply stopsAtLength_array
      intro item member
      obtain ⟨value, -, rfl⟩ := List.mem_map.mp member
      exact stopsAtLength_string value

/-- A lexeme is put out to its end exactly if its length fits. -/
theorem Lexeme.stop_encoded_iff (lexeme : Lexeme) : lexeme.encoded.stop = none ↔ lexeme.Fits := by
  refine ⟨fun ended => ?_, fun fits => congrArg Encoded.stop (encoded_of_fits fits)⟩
  apply Decidable.byContradiction
  intro exceeds
  cases lexeme with
  | string value =>
      rw [encoded, string_of_not_fits exceeds] at ended
      cases ended
  | floats values =>
      rw [encoded, floatArray_of_not_fits exceeds] at ended
      cases ended
  | defineRequest code name =>
      rw [encoded, Binary.defineRequest, string_of_not_fits exceeds] at ended
      cases ended
  | _ => exact exceeds trivial

theorem stop_token_iff (token : Token) : (Binary.token token).stop = none ↔ token.Fits := by
  rw [token.binary_eq, Encoded.stop_concat_eq_none_iff, token.fits_iff, List.forall_mem_map]
  exact forall₂_congr fun lexeme _ => lexeme.stop_encoded_iff

/-- Every code belongs to the name of a request, and no name has two. -/
def CodeTable.Named (table : CodeTable) : Prop :=
  ∃ names, table = .ofNames names ∧ names.Nodup ∧ names ⊆ Request.names

namespace CodeTable

theorem named_empty : empty.Named :=
  ⟨[], rfl, List.nodup_nil, List.nil_subset _⟩

/-- There are fewer names of requests than codes. -/
theorem length_lt_capacity {names : List String} (distinct : names.Nodup)
    (inside : names ⊆ Request.names) : names.length < capacity := by
  have fewer : names.length ≤ Request.names.length :=
    (List.subperm_of_subset distinct inside).length_le
  exact lt_of_le_of_lt fewer (by decide)

end CodeTable

/-- Names of requests are short. -/
theorem textFits_of_mem {name : String} (known : name ∈ Request.names) : TextFits name := by
  have table : (Request.names.all fun name => (Text.bytes name).length < lengthLimit) = true := by
    decide +kernel
  exact of_decide_eq_true (List.all_eq_true.mp table name known)

end Binary

namespace Encoding

/-- The table of a binary encoding holds names of requests. -/
def Named : Encoding → Prop
  | ascii _ => True
  | binary codes => codes.Named

theorem named_enter {encoding : Encoding} (named : encoding.Named) : encoding.enter.Named := by
  cases encoding <;> exact named

theorem named_leave {encoding : Encoding} (named : encoding.Named) : encoding.leave.Named := by
  cases encoding <;> exact named

/-- The lengths in a token fit. Text has no lengths. -/
def Fits : Encoding → Token → Prop
  | ascii _, _ => True
  | binary _, token => token.Fits

theorem fits_of_fits (encoding : Encoding) {token : Token} (fits : token.Fits) :
    encoding.Fits token := by
  cases encoding with
  | ascii depth => trivial
  | binary codes => exact fits

theorem stopsAtLength_arguments (encoding : Encoding) (tokens : List Token) :
    (encoding.arguments tokens).StopsAtLength := by
  apply Encoded.StopsAtLength.concat
  intro piece member
  obtain ⟨token, -, rfl⟩ := List.mem_map.mp member
  refine (Encoded.stopsAtLength_whole _).append ?_
  cases encoding with
  | ascii depth => exact Encoded.stopsAtLength_whole _
  | binary codes => exact Binary.stopsAtLength_token token

theorem stop_arguments_iff (encoding : Encoding) (tokens : List Token) :
    (encoding.arguments tokens).stop = none ↔ ∀ token ∈ tokens, encoding.Fits token := by
  rw [arguments, Encoded.stop_concat_eq_none_iff, List.forall_mem_map]
  apply forall₂_congr
  intro token _
  rw [Encoded.stop_append, Encoded.stop_whole, Option.none_or]
  cases encoding with
  | ascii depth => exact iff_of_true rfl trivial
  | binary codes => exact Binary.stop_token_iff token

/-- Whatever the table and the name, a request stops only at a length or for want of a code. -/
theorem stop_request {encoding : Encoding} {name : String} {tokens : List Token} {error : Error}
    (stopped : (encoding.request name tokens).1.stop = some error) :
    (∃ count, error = .lengthExceeded count) ∨ error = .requestCodeOverflow name := by
  have begins : (∀ error, (encoding.beginRequest name).1.stop = some error →
      (∃ count, error = .lengthExceeded count) ∨ error = .requestCodeOverflow name) := by
    intro error stopped
    cases encoding with
    | ascii depth => cases stopped
    | binary codes =>
        rw [beginRequest, Binary.beginRequest] at stopped
        cases known : codes.code? name with
        | some code =>
            rw [known] at stopped
            cases stopped
        | none =>
            rw [known] at stopped
            dsimp only at stopped
            split at stopped
            · have definition := ((Encoded.stopsAtLength_whole [Binary.Opcode.defineRequest.byte,
                UInt8.ofNat codes.next]).append (Binary.stopsAtLength_string name)).append
                (Encoded.stopsAtLength_whole (Binary.useRequest (UInt8.ofNat codes.next)))
              exact .inl (definition error stopped)
            · exact .inr (Option.some.inj stopped).symm
  rw [request, Encoded.stop_append, Encoded.stop_append, Encoded.stop_whole, Option.or_none,
    Option.or_eq_some_iff] at stopped
  rcases stopped with opening | ⟨-, arguments⟩
  · exact begins error opening
  · exact .inl (stopsAtLength_arguments _ tokens error arguments)

/-- A request of a writer can always be begun. -/
theorem exists_beginRequest {encoding : Encoding} (named : encoding.Named) {name : String}
    (known : name ∈ Request.names) :
    ∃ bytes next, encoding.beginRequest name = (.whole bytes, next) ∧ next.Named ∧
      ∀ token, next.Fits token = encoding.Fits token := by
  cases encoding with
  | ascii depth => exact ⟨_, _, rfl, trivial, fun _ => rfl⟩
  | binary codes =>
      obtain ⟨names, rfl, distinct, inside⟩ := named
      have room := Binary.CodeTable.length_lt_capacity distinct inside
      obtain ⟨lexemes, codes, begun, -, after, -⟩ := Binary.steps_beginRequest
        (.start ((Binary.CodeTable.ofNames names).codes.map Prod.swap))
        (Binary.known_ofNames distinct (Nat.le_of_lt room)) rfl (Binary.textFits_of_mem known)
        (.inr room)
      have nextInside : Binary.withName names name ⊆ Request.names := by
        intro other member
        rcases Binary.mem_withName.mp member with earlier | rfl
        · exact inside earlier
        · exact known
      exact ⟨lexemes.flatMap Binary.Lexeme.bytes, .binary (.ofNames (Binary.withName names name)),
        by rw [beginRequest, begun], ⟨_, rfl, after.distinct, nextInside⟩, fun _ => rfl⟩

/-- What a request of a writer puts out: all of it if every length fits, and otherwise what comes
before the first that does not. -/
theorem request_named {encoding : Encoding} (named : encoding.Named) {name : String}
    (known : name ∈ Request.names) (tokens : List Token) :
    (encoding.request name tokens).2.Named ∧ (encoding.request name tokens).1.StopsAtLength ∧
      ((encoding.request name tokens).1.stop = none ↔ ∀ token ∈ tokens, encoding.Fits token) := by
  obtain ⟨bytes, next, begun, nextNamed, fits⟩ := exists_beginRequest named known
  rw [request, begun]
  refine ⟨nextNamed, ?_, ?_⟩
  · exact ((Encoded.stopsAtLength_whole bytes).append (next.stopsAtLength_arguments tokens)).append
      (Encoded.stopsAtLength_whole _)
  · rw [Encoded.stop_append, Encoded.stop_append, Encoded.stop_whole, Encoded.stop_whole,
      Option.none_or, Option.or_none, stop_arguments_iff]
    exact forall₂_congr fun token _ => iff_of_eq (fits token)

end Encoding

end RibStream
