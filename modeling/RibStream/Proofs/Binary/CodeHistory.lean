/-
This file follows the table of request codes and the output through every run of a formatter.
As long as the sink accepts everything, a definition stands right before the first use of its code.
Only a name whose length cannot be written gets a code without a whole definition.
-/

import RibStream.Proofs.Binary.Interrupted
import RibStream.Proofs.Binary.RoundTrip
import Mathlib.Data.List.Induction
import Mathlib.Data.List.TakeWhile

namespace RibStream

/-- The tokens that a call prints. -/
def Call.tokens : Call → List Token
  | .print tokens => tokens
  | _ => []

/-- The name of the request that a step has begun. -/
def Step.begun? (step : Step) : Option String :=
  match step.call, step.result with
  | .beginRequest name, .ok () => some name
  | _, _ => none

/-- The name for which there is a code after the step. The only one without is a name that comes when
no code is left. -/
def Step.named? (step : Step) : Option String :=
  match step.call, step.result with
  | .beginRequest _, .error (.requestCodeOverflow _) => none
  | .beginRequest name, _ => some name
  | _, _ => none

namespace Binary

namespace Lexeme

def used? : Lexeme → Option UInt8
  | useRequest code => some code
  | _ => none

def defined? : Lexeme → Option (UInt8 × String)
  | defineRequest code name => some (code, name)
  | _ => none

/-- The lexeme belongs to a token. -/
def isPrinted (lexeme : Lexeme) : Bool :=
  lexeme.used?.isNone && lexeme.defined?.isNone

theorem isPrinted_of_mem_lexemes (token : Token) {lexeme : Lexeme} (member : lexeme ∈ token.lexemes) :
    lexeme.isPrinted = true := by
  cases token with
  | ints values | strings values =>
      simp only [Token.lexemes, List.mem_cons, List.mem_append, List.mem_map, List.not_mem_nil,
        or_false] at member
      rcases member with rfl | ⟨value, -, rfl⟩ | rfl <;> rfl
  | _ =>
      rw [Token.lexemes, List.mem_singleton] at member
      rw [member]
      rfl

/-- Every definition comes before all uses of its code, and right before the first one unless the name
is too long. -/
def DefinedAtFirstUse (lexemes : List Lexeme) : Prop :=
  ∀ front code name rest, lexemes = front ++ defineRequest code name :: rest →
    useRequest code ∉ front ∧ (TextFits name → ∃ later, rest = useRequest code :: later)

theorem DefinedAtFirstUse.append {lexemes added : List Lexeme} (placed : DefinedAtFirstUse lexemes)
    (addedPlaced : ∀ front code name rest, added = front ++ defineRequest code name :: rest →
      useRequest code ∉ lexemes ++ front ∧
        (TextFits name → ∃ later, rest = useRequest code :: later)) :
    DefinedAtFirstUse (lexemes ++ added) := by
  intro front code name rest split
  obtain ⟨middle, rfl, same⟩ | ⟨middle, rfl, same⟩ := List.append_eq_append_iff.mp split
  · exact addedPlaced middle code name rest same
  · rw [List.cons_eq_append_iff] at same
    obtain ⟨rfl, rfl⟩ | ⟨before, rfl, rfl⟩ := same
    · simpa only [List.append_nil] using addedPlaced [] code name rest rfl
    · obtain ⟨unused, next⟩ := placed front code name before rfl
      refine ⟨unused, fun fits => ?_⟩
      obtain ⟨later, rfl⟩ := next fits
      exact ⟨later ++ added, rfl⟩

/-- The bytes of a lexeme that does not fit are those before its length, which no token has. -/
theorem bytes_of_not_fits {lexeme : Lexeme} (printed : lexeme.isPrinted = true)
    (exceeds : ¬ lexeme.Fits) : ∃ error, lexeme.encoded = .fail error := by
  cases lexeme with
  | string value => exact ⟨_, string_of_not_fits exceeds⟩
  | floats values => exact ⟨_, floatArray_of_not_fits exceeds⟩
  | defineRequest code name => cases printed
  | _ => exact absurd trivial exceeds

/-- The lexemes of tokens are put out up to the first one that does not fit. -/
theorem concat_encoded_of_isPrinted {lexemes : List Lexeme}
    (printed : ∀ lexeme ∈ lexemes, lexeme.isPrinted = true) :
    (Encoded.concat (lexemes.map encoded)).bytes =
        (lexemes.takeWhile fun lexeme => decide lexeme.Fits).flatMap bytes ∧
      ((Encoded.concat (lexemes.map encoded)).result = .ok () ↔
        ∀ lexeme ∈ lexemes, lexeme.Fits) := by
  induction lexemes with
  | nil => simp
  | cons lexeme lexemes inductionHypothesis =>
      obtain ⟨others, success⟩ := inductionHypothesis fun other member =>
        printed other (List.mem_cons_of_mem _ member)
      rw [List.map_cons, Encoded.concat_cons]
      by_cases fits : lexeme.Fits
      · rw [encoded_of_fits fits, Encoded.whole_append, List.takeWhile_cons_of_pos (by simpa),
          List.flatMap_cons, ← others, List.forall_mem_cons, and_iff_right fits, ← success]
        exact ⟨rfl, Iff.rfl⟩
      · obtain ⟨error, failed⟩ := bytes_of_not_fits (printed lexeme List.mem_cons_self) fits
        rw [failed, Encoded.fail_append, List.takeWhile_cons_of_neg (by simpa), List.forall_mem_cons]
        refine ⟨rfl, fun success => ?_, fun both => absurd both.1 fits⟩
        cases success

end Lexeme

namespace CodeTable

/-- The names with their codes, in the order of the codes. -/
def definitions (names : List String) : List (UInt8 × String) :=
  names.mapIdx fun index name => (UInt8.ofNat index, name)

/-- Codes and names are a bijection, and the codes are the numbers below that of the names. -/
theorem code?_eq_some_iff {names : List String} (distinct : names.Nodup)
    (bounded : names.length ≤ capacity) (name : String) (code : UInt8) :
    (ofNames names).code? name = some code ↔ names[code.toNat]? = some name := by
  have limit : capacity = 256 := rfl
  constructor
  · intro known
    obtain ⟨index, found, rfl⟩ := getElem?_of_code? known
    have inside := (List.getElem?_eq_some_iff.mp found).1
    rw [UInt8.toNat_ofNat', Nat.mod_eq_of_lt (by omega), found]
  · intro found
    obtain ⟨other, known⟩ := code?_of_mem (List.mem_of_getElem? found)
    obtain ⟨index, place, rfl⟩ := getElem?_of_code? known
    obtain ⟨inside, same⟩ := List.getElem?_eq_some_iff.mp found
    obtain ⟨otherInside, otherSame⟩ := List.getElem?_eq_some_iff.mp place
    have equal : index = code.toNat :=
      (List.Nodup.getElem_inj_iff distinct).mp (otherSame.trans same.symm)
    rw [known, equal, UInt8.ofNat_toNat]

theorem definitions_concat (names : List String) (name : String) :
    definitions (names ++ [name]) = definitions names ++ [(UInt8.ofNat names.length, name)] := by
  rw [definitions, List.mapIdx_concat, definitions]

/-- A code stays with its name. -/
theorem code?_perform {stream : Stream} {names : List String} {next : CodeTable} {call : Call}
    (binary : stream.encoding = .binary (.ofNames names))
    (performed : (stream.perform call).2.encoding = .binary next) {name : String} {code : UInt8}
    (known : (ofNames names).code? name = some code) : next.code? name = some code := by
  by_cases begins : ∃ other, call = .beginRequest other
  · obtain ⟨other, rfl⟩ := begins
    rw [encoding_beginRequest other binary, Encoding.binary.injEq] at performed
    rcases beginRequest_cases names other with ⟨_, -, begun⟩ | ⟨absent, -, begun⟩ | ⟨-, -, begun⟩
    · rwa [← performed, begun]
    · have different : name ≠ other := fun same => absent (same ▸ mem_of_code? known)
      rw [← performed, begun, code?_concat absent, if_neg different, known]
    · rwa [← performed, begun]
  · rw [encoding_perform binary call fun other same => begins ⟨other, same⟩,
      Encoding.binary.injEq] at performed
    rwa [← performed]

/-- No call changes a code, whatever the sink does with its bytes. -/
theorem code?_after (calls : List Call) {stream : Stream} {names : List String} {next : CodeTable}
    (binary : stream.encoding = .binary (.ofNames names))
    (final : (stream.after calls).encoding = .binary next) {name : String} {code : UInt8}
    (known : (ofNames names).code? name = some code) : next.code? name = some code := by
  induction calls generalizing stream names with
  | nil =>
      have same : Encoding.binary (.ofNames names) = .binary next := binary.symm.trans final
      rwa [← Encoding.binary.inj same]
  | cons call calls inductionHypothesis =>
      obtain ⟨middle, performed⟩ := exists_encoding_perform binary call
      exact inductionHypothesis performed final (code?_perform binary performed known)

end CodeTable

/-- The lexemes that a call prints, up to the first one whose length cannot be written. -/
def printedBy (call : Call) : List Lexeme :=
  (call.tokens.flatMap Token.lexemes).takeWhile fun lexeme => decide lexeme.Fits

theorem isPrinted_of_mem_printedBy {call : Call} {lexeme : Lexeme}
    (member : lexeme ∈ printedBy call) : lexeme.isPrinted = true := by
  obtain ⟨token, -, inside⟩ := List.mem_flatMap.mp (List.takeWhile_subset _ member)
  exact Lexeme.isPrinted_of_mem_lexemes token inside

theorem fits_of_mem_printedBy {call : Call} {lexeme : Lexeme} (member : lexeme ∈ printedBy call) :
    lexeme.Fits := by
  have fits := List.mem_takeWhile_imp member
  exact of_decide_eq_true fits

/-- What a call adds to the output as long as the sink accepts everything: the use of a known code, a
definition and its use, a definition that is cut at its name, nothing when there is no code left, or
tokens. The names in the table are given before and after the call. -/
inductive Adds (names : List String) : Step → List String → List Lexeme → Prop
  | known {name : String} {code : UInt8}
      (known : (CodeTable.ofNames names).code? name = some code) :
      Adds names ⟨.beginRequest name, .ok (), useRequest code⟩ names [.useRequest code]
  | new {name : String} (absent : name ∉ names) (room : names.length < CodeTable.capacity)
      (fits : TextFits name) :
      Adds names ⟨.beginRequest name, .ok (), (introduce names name).bytes⟩ (names ++ [name])
        [.defineRequest (UInt8.ofNat names.length) name, .useRequest (UInt8.ofNat names.length)]
  | cut {name : String} (absent : name ∉ names) (room : names.length < CodeTable.capacity)
      (exceeds : ¬ TextFits name) :
      Adds names
        ⟨.beginRequest name, .error (.lengthExceeded (Text.bytes name).length),
          [Opcode.defineRequest.byte, UInt8.ofNat names.length]⟩
        (names ++ [name]) [.defineRequest (UInt8.ofNat names.length) name]
  | full {name : String} (absent : name ∉ names) (full : ¬ names.length < CodeTable.capacity) :
      Adds names ⟨.beginRequest name, .error (.requestCodeOverflow name), []⟩ names []
  | tokens {call : Call} {result : Except Error Unit} (other : ∀ name, call ≠ .beginRequest name)
      (success : result = .ok () ↔ ∀ token ∈ call.tokens, token.Fits) :
      Adds names ⟨call, result, (printedBy call).flatMap Lexeme.bytes⟩ names (printedBy call)

/-- The names in the table and the lexemes in the output are those of the given steps. The bytes of a
definition that is cut are its opcode and its code. -/
structure Coded (steps : List Step) (names : List String) (lexemes : List Lexeme) : Prop where
  accepted : steps.flatMap Step.accepted = lexemes.flatMap Lexeme.bytes
  /-- The names are numbered in the order of their first use. -/
  numbered : names = (steps.filterMap Step.named?).eraseDups
  distinct : names.Nodup
  bounded : names.length ≤ CodeTable.capacity
  /-- Only a name that is too long has a code without having been begun. -/
  begun : ∀ name ∈ names, TextFits name → name ∈ steps.filterMap Step.begun?
  /-- Each request that was begun uses the code of its name once. -/
  uses : (lexemes.filterMap Lexeme.used?).map some =
    (steps.filterMap Step.begun?).map (CodeTable.ofNames names).code?
  /-- Each name is defined once. -/
  definitions : lexemes.filterMap Lexeme.defined? = CodeTable.definitions names
  placed : Lexeme.DefinedAtFirstUse lexemes
  /-- The other lexemes are those of the tokens. -/
  printed : lexemes.filter Lexeme.isPrinted = steps.flatMap fun step => printedBy step.call

theorem Coded.empty : Coded [] [] [] where
  accepted := rfl
  numbered := rfl
  distinct := List.nodup_nil
  bounded := Nat.zero_le _
  begun := fun name absent => absurd absent List.not_mem_nil
  uses := rfl
  definitions := rfl
  placed := by
    intro front code name rest split
    simp at split
  printed := rfl

/-- The code of a name was used by a request with this name. -/
theorem Coded.exists_of_used {steps : List Step} {names : List String} {lexemes : List Lexeme}
    (coded : Coded steps names lexemes) {code : UInt8} (used : .useRequest code ∈ lexemes) :
    ∃ name, (CodeTable.ofNames names).code? name = some code := by
  have member : some code ∈ (lexemes.filterMap Lexeme.used?).map some :=
    List.mem_map_of_mem (List.mem_filterMap.mpr ⟨_, used, rfl⟩)
  rw [coded.uses] at member
  obtain ⟨name, -, known⟩ := List.mem_map.mp member
  exact ⟨name, known⟩

/-- The next code is not in use. -/
theorem Coded.next_unused {steps : List Step} {names : List String} {lexemes : List Lexeme}
    (coded : Coded steps names lexemes) (room : names.length < CodeTable.capacity) :
    .useRequest (UInt8.ofNat names.length) ∉ lexemes := by
  intro used
  obtain ⟨name, known⟩ := coded.exists_of_used used
  rw [CodeTable.code?_eq_some_iff coded.distinct coded.bounded] at known
  have limit : CodeTable.capacity = 256 := rfl
  rw [UInt8.toNat_ofNat', Nat.mod_eq_of_lt (by omega), List.getElem?_eq_none (Nat.le_refl _)] at known
  cases known

theorem eraseDups_concat (names : List String) (name : String) :
    (names ++ [name]).eraseDups =
      if name ∈ names then names.eraseDups else names.eraseDups ++ [name] := by
  rw [List.eraseDups_append, List.removeAll]
  by_cases member : name ∈ names
  · rw [if_pos member, List.filter_cons_of_neg (by simpa using member)]
    exact List.append_nil _
  · rw [if_neg member, List.filter_cons_of_pos (by simpa using member)]
    rfl

theorem named?_of_begun? {step : Step} {name : String} (begun : step.begun? = some name) :
    step.named? = some name := by
  obtain ⟨call, result, accepted⟩ := step
  cases call with
  | beginRequest other =>
      rcases result with error | ⟨⟩
      · cases begun
      · exact begun
  | _ => cases begun

section Add

variable {steps : List Step} {names next : List String} {lexemes added : List Lexeme} {step : Step}

theorem Coded.mem_iff (coded : Coded steps names lexemes) (name : String) :
    name ∈ names ↔ name ∈ steps.filterMap Step.named? := by
  rw [coded.numbered, List.mem_eraseDups]

theorem Coded.mem_of_begun (coded : Coded steps names lexemes) {name : String}
    (begun : name ∈ steps.filterMap Step.begun?) : name ∈ names := by
  obtain ⟨step, inside, begins⟩ := List.mem_filterMap.mp begun
  exact (coded.mem_iff name).mpr (List.mem_filterMap.mpr ⟨step, inside, named?_of_begun? begins⟩)

/-- A new name changes no code that has been used. -/
theorem Coded.uses_concat (coded : Coded steps names lexemes) {name : String} (absent : name ∉ names) :
    (lexemes.filterMap Lexeme.used?).map some =
      (steps.filterMap Step.begun?).map (CodeTable.ofNames (names ++ [name])).code? := by
  rw [coded.uses]
  apply List.map_congr_left
  intro other member
  have different : other ≠ name := fun same => absent (same ▸ coded.mem_of_begun member)
  rw [CodeTable.code?_concat absent, if_neg different]

/-- A new name is numbered after all others. -/
theorem Coded.numbered_concat (coded : Coded steps names lexemes) {name : String}
    (absent : name ∉ names) (named : step.named? = some name) :
    names ++ [name] = ((steps ++ [step]).filterMap Step.named?).eraseDups := by
  have first : name ∉ steps.filterMap Step.named? := fun member =>
    absent ((coded.mem_iff name).mpr member)
  rw [List.filterMap_append, List.filterMap_cons_some named, List.filterMap_nil, eraseDups_concat,
    if_neg first, ← coded.numbered]

/-- Lexemes without a definition are added by a step that gives no code and uses none. -/
theorem Coded.add_printed (coded : Coded steps names lexemes)
    (accepted : step.accepted = added.flatMap Lexeme.bytes) (named : step.named? = none)
    (printed : ∀ lexeme ∈ added, lexeme.isPrinted = true) (tokens : added = printedBy step.call) :
    Coded (steps ++ [step]) names (lexemes ++ added) := by
  have unused : added.filterMap Lexeme.used? = [] := by
    rw [List.filterMap_eq_nil_iff]
    intro lexeme member
    have plain := printed lexeme member
    simp only [Lexeme.isPrinted, Bool.and_eq_true, Option.isNone_iff_eq_none] at plain
    exact plain.1
  have undefined : added.filterMap Lexeme.defined? = [] := by
    rw [List.filterMap_eq_nil_iff]
    intro lexeme member
    have plain := printed lexeme member
    simp only [Lexeme.isPrinted, Bool.and_eq_true, Option.isNone_iff_eq_none] at plain
    exact plain.2
  have notBegun : step.begun? = none := by
    cases begun : step.begun? with
    | none => rfl
    | some name =>
        rw [named?_of_begun? begun] at named
        cases named
  have same : (steps ++ [step]).filterMap Step.begun? = steps.filterMap Step.begun? := by
    rw [List.filterMap_append, List.filterMap_cons_none notBegun, List.filterMap_nil,
      List.append_nil]
  exact {
    accepted := by
      rw [List.flatMap_append, List.flatMap_append, List.flatMap_singleton, accepted, coded.accepted]
    numbered := by
      rw [List.filterMap_append, List.filterMap_cons_none named, List.filterMap_nil,
        List.append_nil]
      exact coded.numbered
    distinct := coded.distinct
    bounded := coded.bounded
    begun := same ▸ coded.begun
    uses := by rw [same, List.filterMap_append, unused, List.append_nil, coded.uses]
    definitions := by rw [List.filterMap_append, undefined, List.append_nil, coded.definitions]
    placed := by
      apply coded.placed.append
      intro front code name rest split
      have plain := printed (.defineRequest code name) (by rw [split]; simp)
      cases plain
    printed := by
      rw [List.filter_append, List.filter_eq_self.mpr printed, coded.printed, tokens,
        List.flatMap_append, List.flatMap_singleton] }

/-- A known name is used once more. -/
theorem Coded.add_known (coded : Coded steps names lexemes) {name : String} {code : UInt8}
    (known : (CodeTable.ofNames names).code? name = some code)
    (accepted : step.accepted = useRequest code) (begun : step.begun? = some name)
    (silent : printedBy step.call = []) :
    Coded (steps ++ [step]) names (lexemes ++ [.useRequest code]) := by
  have again : name ∈ steps.filterMap Step.named? :=
    (coded.mem_iff name).mp (CodeTable.mem_of_code? known)
  exact {
    accepted := by
      rw [List.flatMap_append, List.flatMap_append, List.flatMap_singleton, accepted, coded.accepted]
      rfl
    numbered := by
      rw [List.filterMap_append, List.filterMap_cons_some (named?_of_begun? begun),
        List.filterMap_nil, eraseDups_concat, if_pos again]
      exact coded.numbered
    distinct := coded.distinct
    bounded := coded.bounded
    begun := by
      intro other member fits
      rw [List.filterMap_append]
      exact List.mem_append_left _ (coded.begun other member fits)
    uses := by
      rw [List.filterMap_append, List.filterMap_append, List.map_append, List.map_append, coded.uses]
      simp [Lexeme.used?, known, begun]
    definitions := by
      rw [List.filterMap_append, coded.definitions]
      simp [Lexeme.defined?]
    placed := by
      apply coded.placed.append
      intro front other name rest split
      have member : Lexeme.defineRequest other name ∈ [Lexeme.useRequest code] := by
        rw [split]
        simp
      simp at member
    printed := by
      rw [List.filter_append, List.flatMap_append, coded.printed, List.flatMap_singleton, silent]
      simp [Lexeme.isPrinted, Lexeme.used?] }

/-- A new name is defined and used. -/
theorem Coded.add_new (coded : Coded steps names lexemes) {name : String} (absent : name ∉ names)
    (room : names.length < CodeTable.capacity)
    (accepted : step.accepted = [Lexeme.defineRequest (UInt8.ofNat names.length) name,
      .useRequest (UInt8.ofNat names.length)].flatMap Lexeme.bytes)
    (begun : step.begun? = some name) (silent : printedBy step.call = []) :
    Coded (steps ++ [step]) (names ++ [name])
      (lexemes ++ [.defineRequest (UInt8.ofNat names.length) name,
        .useRequest (UInt8.ofNat names.length)]) where
  accepted := by
    rw [List.flatMap_append, List.flatMap_append, List.flatMap_singleton, accepted, coded.accepted]
  numbered := coded.numbered_concat absent (named?_of_begun? begun)
  distinct := List.concat_eq_append ▸ List.Nodup.concat absent coded.distinct
  bounded := by
    rw [List.length_append]
    exact room
  begun := by
    intro other member fits
    rw [List.filterMap_append, List.filterMap_cons_some begun, List.filterMap_nil]
    rcases List.mem_append.mp member with before | new
    · exact List.mem_append_left _ (coded.begun other before fits)
    · exact List.mem_append_right _ new
  uses := by
    rw [List.filterMap_append, List.map_append, coded.uses_concat absent, List.filterMap_append,
      List.filterMap_cons_some begun, List.filterMap_nil, List.map_append, List.map_singleton,
      CodeTable.code?_concat absent, if_pos rfl]
    rfl
  definitions := by
    rw [List.filterMap_append, coded.definitions, CodeTable.definitions_concat]
    rfl
  placed := by
    apply coded.placed.append
    intro front code other rest split
    rcases front with _ | ⟨lexeme, front⟩
    · obtain ⟨⟨rfl, rfl⟩, rfl⟩ : (_ ∧ _) ∧ _ := by simpa using split
      exact ⟨by simpa using coded.next_unused room, fun _ => ⟨[], rfl⟩⟩
    · have member : Lexeme.defineRequest code other ∈
          [Lexeme.useRequest (UInt8.ofNat names.length)] := by
        rw [(List.cons_eq_cons.mp split).2]
        simp
      simp at member
  printed := by
    rw [List.filter_append, List.flatMap_append, coded.printed, List.flatMap_singleton, silent]
    simp [Lexeme.isPrinted, Lexeme.used?, Lexeme.defined?]

/-- A new name that is too long has a code, but its definition is cut and the code is not used. -/
theorem Coded.add_cut (coded : Coded steps names lexemes) {name : String} (absent : name ∉ names)
    (room : names.length < CodeTable.capacity) (exceeds : ¬ TextFits name)
    (accepted : step.accepted =
      (Lexeme.defineRequest (UInt8.ofNat names.length) name).bytes)
    (named : step.named? = some name) (failed : step.begun? = none)
    (silent : printedBy step.call = []) :
    Coded (steps ++ [step]) (names ++ [name])
      (lexemes ++ [.defineRequest (UInt8.ofNat names.length) name]) where
  accepted := by
    rw [List.flatMap_append, List.flatMap_append, List.flatMap_singleton, List.flatMap_singleton,
      accepted, coded.accepted]
  numbered := coded.numbered_concat absent named
  distinct := List.concat_eq_append ▸ List.Nodup.concat absent coded.distinct
  bounded := by
    rw [List.length_append]
    exact room
  begun := by
    intro other member fits
    rw [List.filterMap_append]
    rcases List.mem_append.mp member with before | new
    · exact List.mem_append_left _ (coded.begun other before fits)
    · exact absurd (List.mem_singleton.mp new ▸ fits) exceeds
  uses := by
    rw [List.filterMap_append, List.map_append, coded.uses_concat absent, List.filterMap_append,
      List.filterMap_cons_none failed, List.filterMap_nil, List.append_nil]
    exact List.append_nil _
  definitions := by
    rw [List.filterMap_append, coded.definitions, CodeTable.definitions_concat]
    rfl
  placed := by
    apply coded.placed.append
    intro front code other rest split
    obtain ⟨rfl, ⟨rfl, rfl⟩, rfl⟩ : front = [] ∧ (_ ∧ _) ∧ rest = [] := by
      simpa [List.singleton_eq_append_iff] using split
    exact ⟨by simpa using coded.next_unused room, fun fits => absurd fits exceeds⟩
  printed := by
    rw [List.filter_append, List.flatMap_append, coded.printed, List.flatMap_singleton, silent]
    simp [Lexeme.isPrinted, Lexeme.used?, Lexeme.defined?]

theorem bytes_introduce {names : List String} {name : String} (fits : TextFits name) :
    introduce names name =
      .whole ([Lexeme.defineRequest (UInt8.ofNat names.length) name,
        .useRequest (UInt8.ofNat names.length)].flatMap Lexeme.bytes) := by
  have allowed : (Lexeme.defineRequest (UInt8.ofNat names.length) name).Fits := fits
  have definition : defineRequest (UInt8.ofNat names.length) name =
      .whole (Lexeme.defineRequest (UInt8.ofNat names.length) name).bytes :=
    Lexeme.encoded_of_fits allowed
  rw [introduce, definition, List.flatMap_cons, List.flatMap_singleton]
  rfl

/-- The codes of one more step. -/
theorem Coded.add (coded : Coded steps names lexemes) (adds : Adds names step next added) :
    Coded (steps ++ [step]) next (lexemes ++ added) := by
  cases adds with
  | known known => exact coded.add_known known rfl rfl rfl
  | new absent room fits =>
      exact coded.add_new absent room (congrArg Encoded.bytes (bytes_introduce fits)) rfl rfl
  | cut absent room exceeds =>
      refine coded.add_cut absent room exceeds ?_ rfl rfl rfl
      rw [Lexeme.bytes, Lexeme.encoded, defineRequest, string_of_not_fits exceeds]
      rfl
  | full => exact coded.add_printed rfl rfl (by simp) rfl
  | tokens other =>
      refine coded.add_printed rfl ?_ (fun _ => isPrinted_of_mem_printedBy) rfl
      rename_i call _ _
      cases call with
      | beginRequest name => exact absurd rfl (other name)
      | _ => rfl

end Add

theorem perform_known {stream : Stream} {names : List String} {name : String} {code : UInt8}
    (binary : stream.encoding = .binary (.ofNames names)) (unlimited : stream.sink.room = none)
    (known : (CodeTable.ofNames names).code? name = some code) :
    stream.perform (.beginRequest name) = (.ok (), stream.append (useRequest code)) := by
  have same : { stream with encoding := .binary (.ofNames names) } = stream := by rw [← binary]
  rw [perform_beginRequest name binary, beginRequest_known known, same,
    Stream.put_unlimited stream unlimited]
  rfl

/-- A new name gets the next code, whether or not its definition can be written. -/
theorem perform_new {stream : Stream} {names : List String} {name : String}
    (binary : stream.encoding = .binary (.ofNames names)) (unlimited : stream.sink.room = none)
    (absent : name ∉ names) (room : names.length < CodeTable.capacity) :
    stream.perform (.beginRequest name) =
      ((introduce names name).result,
        { stream with encoding := .binary (.ofNames (names ++ [name])) }.append
          (introduce names name).bytes) := by
  rw [perform_beginRequest name binary, beginRequest_new absent room]
  exact Stream.put_unlimited ⟨.binary (.ofNames (names ++ [name])), stream.sink⟩ unlimited _

theorem perform_full {stream : Stream} {names : List String} {name : String}
    (binary : stream.encoding = .binary (.ofNames names)) (absent : name ∉ names)
    (full : ¬ names.length < CodeTable.capacity) :
    stream.perform (.beginRequest name) = (.error (.requestCodeOverflow name), stream) := by
  have same : { stream with encoding := .binary (.ofNames names) } = stream := by rw [← binary]
  rw [perform_beginRequest name binary, beginRequest_full absent full, same, Stream.put,
    Encoded.fail, Stream.write_nil]
  rfl

/-- A call that begins no request writes its tokens up to the first one that is too long. -/
theorem perform_tokens {stream : Stream} {table : CodeTable} {call : Call}
    (binary : stream.encoding = .binary table) (unlimited : stream.sink.room = none)
    (other : ∀ name, call ≠ .beginRequest name) (never : ∀ room, call = .room room → room = none) :
    ∃ result, (result = .ok () ↔ ∀ token ∈ call.tokens, token.Fits) ∧
      stream.perform call = (result, stream.append ((printedBy call).flatMap Lexeme.bytes)) := by
  have silent : stream.write [] = (.ok (), stream.append []) := Stream.write_unlimited _ unlimited _
  have nothing : (.ok () : Except Error Unit) = .ok () ↔ ∀ token ∈ ([] : List Token), token.Fits := by
    simp
  cases call with
  | beginRequest name => exact absurd rfl (other name)
  | room room =>
      refine ⟨.ok (), nothing, ?_⟩
      rw [Stream.perform, never room rfl, Sink.grant, ← unlimited]
      exact congrArg (Prod.mk _) stream.append_nil.symm
  | print tokens =>
      have printed : ∀ lexeme ∈ tokens.flatMap Token.lexemes, lexeme.isPrinted = true := by
        intro lexeme member
        obtain ⟨token, -, inside⟩ := List.mem_flatMap.mp member
        exact Lexeme.isPrinted_of_mem_lexemes token inside
      obtain ⟨bytes, success⟩ := Lexeme.concat_encoded_of_isPrinted printed
      let encoded := Encoded.concat ((tokens.flatMap Token.lexemes).map Lexeme.encoded)
      have performed : stream.print tokens = (encoded.result, stream.append encoded.bytes) := by
        rw [Stream.print, binary, Stream.tokens_binary, Token.concat_binary_eq]
        exact Stream.put_unlimited stream unlimited _
      refine ⟨encoded.result, ?_, performed.trans (by rw [bytes]; rfl)⟩
      rw [success]
      simp only [Call.tokens, Token.fits_iff, List.mem_flatMap, forall_exists_index, and_imp]
      exact ⟨fun all token inside lexeme part => all lexeme token inside part,
        fun all lexeme token inside part => all token inside lexeme part⟩
  | enter | leave =>
      have same : stream.append [] = stream := stream.append_nil
      refine ⟨.ok (), nothing, ?_⟩
      simp only [Stream.perform, Stream.enter, Stream.leave, binary, Encoding.enter, Encoding.leave]
      rw [← binary]
      exact congrArg (Prod.mk _) same.symm
  | endRequest =>
      refine ⟨.ok (), nothing, ?_⟩
      show stream.write stream.encoding.endRequest = _
      rw [binary]
      exact silent
  | separate =>
      refine ⟨.ok (), nothing, ?_⟩
      show stream.write stream.encoding.separator = _
      rw [binary]
      exact silent
  | record kind text =>
      refine ⟨.ok (), nothing, ?_⟩
      show stream.write (stream.encoding.record kind text) = _
      rw [binary]
      exact silent

/-- A name that is too long is cut after the code of its definition. -/
theorem introduce_of_not_fits (names : List String) {name : String} (exceeds : ¬ TextFits name) :
    introduce names name =
      ⟨[Opcode.defineRequest.byte, UInt8.ofNat names.length],
        some (.lengthExceeded (Text.bytes name).length)⟩ := by
  rw [introduce, defineRequest, string_of_not_fits exceeds]
  rfl

/-- The step of a call whose bytes are all accepted. -/
theorem step_of_perform {stream final : Stream} {call : Call} {result : Except Error Unit}
    (bytes : List UInt8) (performed : stream.perform call = (result, final))
    (accepted : final.sink.accepted = stream.sink.accepted ++ bytes) :
    stream.step call = ⟨call, result, bytes⟩ := by
  rw [Stream.step, performed, accepted]
  simp

/-- On a sink that accepts everything, each call adds its lexemes. -/
theorem exists_adds {stream : Stream} {names : List String} (call : Call)
    (binary : stream.encoding = .binary (.ofNames names)) (unlimited : stream.sink.room = none)
    (never : ∀ room, call = .room room → room = none) :
    ∃ next added, Adds names (stream.step call) next added ∧
      (stream.perform call).2.encoding = .binary (.ofNames next) ∧
      (stream.perform call).2.sink.room = none := by
  by_cases begins : ∃ name, call = .beginRequest name
  · obtain ⟨name, rfl⟩ := begins
    by_cases member : name ∈ names
    · obtain ⟨code, known⟩ := CodeTable.code?_of_mem member
      have performed := perform_known binary unlimited known
      rw [step_of_perform _ performed rfl, performed]
      exact ⟨_, _, .known known, binary, unlimited⟩
    · by_cases room : names.length < CodeTable.capacity
      · have performed := perform_new binary unlimited member room
        rw [step_of_perform _ performed rfl, performed]
        by_cases fits : TextFits name
        · rw [bytes_introduce fits, Encoded.result_whole, ← bytes_introduce fits]
          exact ⟨_, _, .new member room fits, rfl, unlimited⟩
        · rw [introduce_of_not_fits names fits]
          exact ⟨_, _, .cut member room fits, rfl, unlimited⟩
      · have performed := perform_full binary member room
        rw [step_of_perform [] performed (by simp), performed]
        exact ⟨_, _, .full member room, binary, unlimited⟩
  · have other (name : String) : call ≠ .beginRequest name := fun same => begins ⟨name, same⟩
    obtain ⟨result, success, performed⟩ := perform_tokens binary unlimited other never
    rw [step_of_perform _ performed rfl, performed]
    exact ⟨_, _, .tokens other success, binary, unlimited⟩

/-- A run of calls keeps the table and the lexemes those of its steps. -/
theorem exists_coded (calls : List Call) {stream : Stream} (started : stream.encoding = .startBinary)
    (unlimited : stream.sink.room = none) (never : ∀ room, .room room ∈ calls → room = none) :
    ∃ names lexemes, (stream.after calls).encoding = .binary (.ofNames names) ∧
      (stream.after calls).sink.room = none ∧ Coded (stream.history calls) names lexemes := by
  induction calls using List.reverseRecOn with
  | nil => exact ⟨[], [], started, unlimited, .empty⟩
  | append_singleton calls call inductionHypothesis =>
      obtain ⟨names, lexemes, binary, still, coded⟩ :=
        inductionHypothesis fun room member => never room (List.mem_append_left _ member)
      obtain ⟨next, added, adds, nextBinary, nextUnlimited⟩ := exists_adds call binary still fun room
          same => never room (same ▸ List.mem_concat_self)
      rw [Stream.after_append, Stream.history_append]
      exact ⟨next, lexemes ++ added, nextBinary, nextUnlimited, coded.add adds⟩

/-- A name for which no code is left can be tried any number of times. -/
theorem perform_full_replicate {stream : Stream} {names : List String} {name : String}
    (binary : stream.encoding = .binary (.ofNames names)) (absent : name ∉ names)
    (full : ¬ names.length < CodeTable.capacity) (tries : Nat) :
    stream.history (List.replicate tries (.beginRequest name)) =
        List.replicate tries ⟨.beginRequest name, .error (.requestCodeOverflow name), []⟩ ∧
      stream.after (List.replicate tries (.beginRequest name)) = stream := by
  have performed := perform_full binary absent full
  have step := step_of_perform [] performed (by simp)
  induction tries with
  | zero => exact ⟨rfl, rfl⟩
  | succ tries inductionHypothesis =>
      obtain ⟨history, after⟩ := inductionHypothesis
      constructor
      · rw [List.replicate_succ, List.replicate_succ, Stream.history, step, performed, history]
      · show (stream.perform (.beginRequest name)).2.after _ = stream
        rw [performed, after]

/-- The lexemes can be told apart in the output unless a definition has been cut. -/
theorem Coded.fits_of_names {steps : List Step} {names : List String} {lexemes : List Lexeme}
    (coded : Coded steps names lexemes) (fits : ∀ name ∈ names, TextFits name) :
    ∀ lexeme ∈ lexemes, lexeme.Fits := by
  intro lexeme member
  cases printed : lexeme.isPrinted with
  | true =>
      have inside : lexeme ∈ lexemes.filter Lexeme.isPrinted := List.mem_filter.mpr ⟨member, printed⟩
      rw [coded.printed] at inside
      obtain ⟨step, -, part⟩ := List.mem_flatMap.mp inside
      exact fits_of_mem_printedBy part
  | false =>
      cases lexeme with
      | defineRequest code name =>
          have defined : (code, name) ∈ lexemes.filterMap Lexeme.defined? :=
            List.mem_filterMap.mpr ⟨_, member, rfl⟩
          rw [coded.definitions, CodeTable.definitions, List.mem_mapIdx] at defined
          obtain ⟨index, inside, same⟩ := defined
          exact fits name ((Prod.mk.inj same).2 ▸ List.getElem_mem inside)
      | useRequest code => trivial
      | _ => cases printed

/-- A name that comes twice, with other calls in between. -/
def repeatedName : List Call :=
  [.beginRequest "Sphere", .print [.int 1], .endRequest, .beginRequest "Disk", .leave,
    .beginRequest "Sphere"]

end Binary

end RibStream
