/-
This file says when a request code is used although its definition never reached the stream.
A name is given its code before the definition is written, and a refused definition is not repeated.
-/

import RibStream.Proofs.Binary.CodeTable
import RibStream.Proofs.Stream.History

namespace RibStream

namespace Step

/-- The accepted bytes end with a use of the code. -/
def Uses (step : Step) (code : UInt8) : Prop :=
  ∃ name, step.call = .beginRequest name ∧ Binary.useRequest code <:+ step.accepted

/-- The accepted bytes start with the whole definition of the code. -/
def Defines (step : Step) (code : UInt8) : Prop :=
  ∃ name definition, step.call = .beginRequest name ∧
    Binary.defineRequest code name = .whole definition ∧ definition <+: step.accepted

/-- A refused beginning of a request has left no byte in the stream. -/
def Clean (step : Step) : Prop :=
  ∀ name error, step.call = .beginRequest name → step.result = .error error → step.accepted = []

/-- Either everything was encoded and accepted, or the call was refused and no byte was accepted. -/
def Sends (step : Step) (encoded : Encoded) : Prop :=
  (step.result = .ok () ∧ encoded = .whole step.accepted) ∨
    ((∃ error, step.result = .error error) ∧ step.accepted = [])

/-- A request of the given name has been begun. -/
def Begun (name : String) (steps : List Step) : Prop :=
  ∃ step ∈ steps, step.call = .beginRequest name ∧ step.result = .ok ()

/-- The first beginning of a request of the given name was not refused. -/
def FirstSucceeds (name : String) (steps : List Step) : Prop :=
  ∃ first, steps.find? (·.call = .beginRequest name) = some first ∧ first.result = .ok ()

/-- Every code that a step uses is defined by an earlier step or by the step itself. -/
def EveryUseDefined (earlier : List Step) : List Step → Prop
  | [] => True
  | step :: rest =>
      (∀ code, step.Uses code → ∃ definition ∈ earlier ++ [step], definition.Defines code) ∧
        EveryUseDefined (earlier ++ [step]) rest

theorem begun_cons_of_ne {name : String} {step : Step} (other : step.call ≠ .beginRequest name)
    (rest : List Step) : Begun name (step :: rest) ↔ Begun name rest := by
  simp [Begun, other]

theorem begun_cons_of_error {step : Step} (failed : ∃ error, step.result = .error error)
    (name : String) (rest : List Step) : Begun name (step :: rest) ↔ Begun name rest := by
  obtain ⟨error, failed⟩ := failed
  simp [Begun, failed]

theorem firstSucceeds_cons_of_ne {name : String} {step : Step}
    (other : step.call ≠ .beginRequest name) (rest : List Step) :
    FirstSucceeds name (step :: rest) ↔ FirstSucceeds name rest := by
  simp [FirstSucceeds, other]

theorem firstSucceeds_cons_self {name : String} {step : Step}
    (begins : step.call = .beginRequest name) (rest : List Step) :
    FirstSucceeds name (step :: rest) ↔ step.result = .ok () := by
  simp [FirstSucceeds, begins]

/-- Every name that is begun is already defined, or it is unknown and its first beginning succeeds. -/
def NoneLost (defined : String → Prop) (known : List String) (steps : List Step) : Prop :=
  ∀ name, Begun name steps → defined name ∨ (name ∉ known ∧ FirstSucceeds name steps)

section NoneLost

variable {defined : String → Prop} {known : List String} {name : String} {step : Step}
  {rest : List Step}

/-- A step that begins no request, or one that is known, refused or out of codes. -/
theorem noneLost_cons_of_not_begun (silent : ∀ other, Begun other (step :: rest) ↔ Begun other rest)
    (unneeded : ∀ other, step.call = .beginRequest other → other ∈ known ∨ ¬ Begun other rest) :
    NoneLost defined known (step :: rest) ↔ NoneLost defined known rest := by
  apply forall_congr'
  intro other
  rw [silent other]
  apply imp_congr_right
  intro begun
  by_cases begins : step.call = .beginRequest other
  · rcases unneeded other begins with inside | never
    · simp [inside]
    · exact absurd begun never
  · rw [firstSucceeds_cons_of_ne begins]

theorem call_ne_of_ne (begins : step.call = .beginRequest name) {other : String}
    (different : other ≠ name) : step.call ≠ .beginRequest other := by
  rw [begins]
  rintro ⟨rfl⟩
  exact different rfl

/-- A known name can be used as soon as it is defined. -/
theorem noneLost_cons_known (begins : step.call = .beginRequest name)
    (success : step.result = .ok ()) (inside : name ∈ known) :
    NoneLost defined known (step :: rest) ↔ defined name ∧ NoneLost defined known rest := by
  constructor
  · intro whole
    have nameDefined : defined name := by
      rcases whole name ⟨step, List.mem_cons_self, begins, success⟩ with nameDefined | outside
      · exact nameDefined
      · exact absurd inside outside.1
    refine ⟨nameDefined, ?_⟩
    intro other begun
    by_cases same : other = name
    · exact .inl (same ▸ nameDefined)
    · have different := call_ne_of_ne begins same
      rw [← firstSucceeds_cons_of_ne different]
      exact whole other ((begun_cons_of_ne different rest).mpr begun)
  · rintro ⟨nameDefined, later⟩ other begun
    by_cases same : other = name
    · exact .inl (same ▸ nameDefined)
    · have different := call_ne_of_ne begins same
      rw [firstSucceeds_cons_of_ne different]
      exact later other ((begun_cons_of_ne different rest).mp begun)

/-- A new name is defined by its first beginning. -/
theorem noneLost_cons_new (begins : step.call = .beginRequest name)
    (success : step.result = .ok ()) (absent : name ∉ known) :
    NoneLost defined known (step :: rest) ↔
      NoneLost (fun other => defined other ∨ other = name) (known ++ [name]) rest := by
  apply forall_congr'
  intro other
  by_cases same : other = name
  · subst same
    simp [firstSucceeds_cons_self begins, success, absent]
  · have different := call_ne_of_ne begins same
    simp [begun_cons_of_ne different, firstSucceeds_cons_of_ne different, same]

/-- A new name that is refused is known from then on, but not defined. -/
theorem noneLost_cons_refused (begins : step.call = .beginRequest name)
    (failed : ∃ error, step.result = .error error) (absent : name ∉ known) :
    NoneLost defined known (step :: rest) ↔ NoneLost defined (known ++ [name]) rest := by
  apply forall_congr'
  intro other
  rw [begun_cons_of_error failed]
  by_cases same : other = name
  · subst same
    obtain ⟨error, failed⟩ := failed
    simp [firstSucceeds_cons_self begins, failed]
  · have different := call_ne_of_ne begins same
    simp [firstSucceeds_cons_of_ne different, same]

end NoneLost

theorem not_uses_of_accepted_nil {step : Step} (nothing : step.accepted = []) (code : UInt8) :
    ¬ step.Uses code := by
  rintro ⟨name, -, use⟩
  rw [nothing, List.suffix_nil] at use
  cases use

theorem not_defines_of_accepted_nil {step : Step} (nothing : step.accepted = []) (code : UInt8) :
    ¬ step.Defines code := by
  rintro ⟨name, definition, -, whole, start⟩
  rw [nothing, List.prefix_nil] at start
  have empty := congrArg Encoded.bytes whole
  rw [start] at empty
  cases empty

/-- A step that ends with the use of a code uses no other code. -/
theorem uses_iff {step : Step} {name : String} (begins : step.call = .beginRequest name)
    (before : List UInt8) {code : UInt8} (accepted : step.accepted = before ++ Binary.useRequest code)
    (other : UInt8) : step.Uses other ↔ other = code := by
  rw [Uses, accepted]
  constructor
  · rintro ⟨_, -, front, same⟩
    have last := (List.append_inj' same rfl).2
    simpa [Binary.useRequest] using last
  · rintro rfl
    exact ⟨name, begins, List.suffix_append _ _⟩

/-- A step without a use asks for no definition. -/
theorem everyUseDefined_cons_of_not_uses {step : Step} (unused : ∀ code, ¬ step.Uses code)
    (earlier rest : List Step) :
    EveryUseDefined earlier (step :: rest) ↔ EveryUseDefined (earlier ++ [step]) rest := by
  rw [EveryUseDefined]
  apply and_iff_right
  exact fun code uses => absurd uses (unused code)

/-- A whole definition starts with its opcode and its code. -/
theorem exists_of_defineRequest_eq {code : UInt8} {name : String} {definition : List UInt8}
    (whole : Binary.defineRequest code name = .whole definition) :
    ∃ text, definition = Binary.Opcode.defineRequest.byte :: code :: text := by
  have bytes := congrArg Encoded.bytes whole
  rw [Binary.defineRequest, Encoded.whole_append] at bytes
  exact ⟨_, bytes.symm⟩

/-- A use is no definition. -/
theorem not_defines_of_use {step : Step} {code : UInt8}
    (accepted : Binary.useRequest code = step.accepted) (other : UInt8) : ¬ step.Defines other := by
  rintro ⟨name, definition, -, whole, rest, same⟩
  obtain ⟨text, rfl⟩ := exists_of_defineRequest_eq whole
  rw [← accepted, Binary.useRequest] at same
  have opcodes := (List.cons_eq_cons.mp same).1
  revert opcodes
  decide

/-- An introduction that is accepted as a whole is a definition followed by a use. -/
theorem exists_of_introduce_eq {names : List String} {name : String} {accepted : List UInt8}
    (whole : Binary.introduce names name = .whole accepted) :
    ∃ definition,
      Binary.defineRequest (UInt8.ofNat names.length) name = .whole definition ∧
      accepted = definition ++ Binary.useRequest (UInt8.ofNat names.length) := by
  rw [Binary.introduce] at whole
  cases defined : Binary.defineRequest (UInt8.ofNat names.length) name with
  | mk bytes stop =>
      rw [defined] at whole
      cases stop with
      | some error => cases congrArg Encoded.stop whole
      | none => exact ⟨bytes, rfl, (congrArg Encoded.bytes whole).symm⟩

/-- The bytes that introduce a name define the next code and no other. -/
theorem defines_introduce_iff {step : Step} {names : List String} {name : String}
    (begins : step.call = .beginRequest name)
    (whole : Binary.introduce names name = .whole step.accepted) (code : UInt8) :
    step.Defines code ↔ code = UInt8.ofNat names.length := by
  obtain ⟨definition, defined, accepted⟩ := exists_of_introduce_eq whole
  constructor
  · rintro ⟨_, other, _, otherDefined, rest, same⟩
    obtain ⟨text, rfl⟩ := exists_of_defineRequest_eq defined
    obtain ⟨otherText, rfl⟩ := exists_of_defineRequest_eq otherDefined
    rw [accepted] at same
    exact (List.cons_eq_cons.mp (List.cons_eq_cons.mp same).2).1
  · rintro rfl
    exact ⟨name, definition, begins, defined, accepted ▸ List.prefix_append _ _⟩

end Step

namespace Binary

theorem perform_beginRequest {stream : Stream} {table : CodeTable} (name : String)
    (binary : stream.encoding = .binary table) :
    stream.perform (.beginRequest name) =
      { stream with encoding := .binary (beginRequest table name).2 }.put
        (beginRequest table name).1 := by
  show stream.beginRequest name = _
  rw [Stream.beginRequest, binary]
  rfl

theorem encoding_beginRequest {stream : Stream} {table : CodeTable} (name : String)
    (binary : stream.encoding = .binary table) :
    (stream.perform (.beginRequest name)).2.encoding = .binary (beginRequest table name).2 := by
  rw [perform_beginRequest name binary, Stream.encoding_put]

/-- A beginning sends all of its bytes or leaves none. -/
theorem beginRequest_sends {stream : Stream} {table : CodeTable} {name : String}
    (binary : stream.encoding = .binary table)
    (clean : (stream.step (.beginRequest name)).Clean) :
    (stream.step (.beginRequest name)).Sends (beginRequest table name).1 := by
  have performed := perform_beginRequest name binary
  cases outcome : (stream.perform (.beginRequest name)).1 with
  | ok success =>
      refine .inl ⟨outcome, ?_⟩
      rw [performed] at outcome
      obtain ⟨whole, fits⟩ := Stream.parts_of_put_ok outcome
      have accepted : (stream.step (.beginRequest name)).accepted =
          (beginRequest table name).1.bytes := by
        show (stream.perform _).2.sink.accepted.toList.drop _ = _
        rw [performed, Stream.accepted_put, fits]
        simp
      rw [accepted]
      exact Encoded.eq_whole_of_result whole
  | error error => exact .inr ⟨⟨error, outcome⟩, clean name error rfl outcome⟩

/-- The three ways to begin a request: with a known code, with a new one, or with none left. -/
theorem beginRequest_step {stream : Stream} {names : List String} {name : String}
    (binary : stream.encoding = .binary (.ofNames names))
    (clean : (stream.step (.beginRequest name)).Clean) :
    (∃ code, (CodeTable.ofNames names).code? name = some code ∧
        (stream.step (.beginRequest name)).Sends (.whole (useRequest code)) ∧
        (stream.perform (.beginRequest name)).2.encoding = .binary (.ofNames names)) ∨
      (name ∉ names ∧ names.length < CodeTable.capacity ∧
        (stream.step (.beginRequest name)).Sends (introduce names name) ∧
        (stream.perform (.beginRequest name)).2.encoding =
          .binary (.ofNames (names ++ [name]))) ∨
      (name ∉ names ∧ ¬ names.length < CodeTable.capacity ∧
        (∃ error, (stream.step (.beginRequest name)).result = .error error) ∧
        (stream.step (.beginRequest name)).accepted = [] ∧
        (stream.perform (.beginRequest name)).2.encoding = .binary (.ofNames names)) := by
  have sends := beginRequest_sends binary clean
  have encoding := encoding_beginRequest name binary
  rcases beginRequest_cases names name with ⟨code, known, begun⟩ | ⟨absent, room, begun⟩ |
      ⟨absent, full, begun⟩
  · rw [begun] at sends encoding
    exact .inl ⟨code, known, sends, encoding⟩
  · rw [begun] at sends encoding
    exact .inr (.inl ⟨absent, room, sends, encoding⟩)
  · rw [begun] at sends encoding
    rcases sends with ⟨-, whole⟩ | ⟨failed, nothing⟩
    · cases congrArg Encoded.stop whole
    · exact .inr (.inr ⟨absent, full, failed, nothing, encoding⟩)

/-- Only the beginning of a request changes the table. -/
theorem encoding_perform {stream : Stream} {table : CodeTable}
    (binary : stream.encoding = .binary table) (call : Call)
    (other : ∀ name, call ≠ .beginRequest name) :
    (stream.perform call).2.encoding = .binary table := by
  cases call with
  | beginRequest name => exact absurd rfl (other name)
  | enter =>
      show stream.encoding.enter = _
      rw [binary, Encoding.enter]
  | leave =>
      show stream.encoding.leave = _
      rw [binary, Encoding.leave]
  | print tokens => exact (stream.encoding_put _).trans binary
  | _ => exact binary

/-- When all codes are given away, a name without a code is never begun. -/
theorem not_begun_of_full (calls : List Call) {stream : Stream} {names : List String}
    {name : String} (binary : stream.encoding = .binary (.ofNames names)) (absent : name ∉ names)
    (full : ¬ names.length < CodeTable.capacity)
    (clean : ∀ step ∈ stream.history calls, step.Clean) :
    ¬ Step.Begun name (stream.history calls) := by
  induction calls generalizing stream with
  | nil => simp [Step.Begun, Stream.history]
  | cons call calls inductionHypothesis =>
      have stepClean := clean (stream.step call) List.mem_cons_self
      have restClean (step : Step) (member : step ∈ (stream.perform call).2.history calls) :
          step.Clean := clean step (List.mem_cons_of_mem _ member)
      rw [Stream.history]
      by_cases begins : ∃ other, call = .beginRequest other
      · obtain ⟨other, rfl⟩ := begins
        obtain ⟨code, known, -, kept⟩ | ⟨-, room, -, -⟩ | ⟨-, -, failed, -, kept⟩ :=
          beginRequest_step binary stepClean
        · have different : Call.beginRequest other ≠ .beginRequest name := by
            rintro ⟨rfl⟩
            exact absent (CodeTable.mem_of_code? known)
          rw [Step.begun_cons_of_ne different]
          exact inductionHypothesis kept restClean
        · exact absurd room full
        · rw [Step.begun_cons_of_error failed]
          exact inductionHypothesis kept restClean
      · have different (other : String) : call ≠ .beginRequest other :=
          fun same => begins ⟨other, same⟩
        rw [Step.begun_cons_of_ne (different name)]
        exact inductionHypothesis (encoding_perform binary call different) restClean

/-- The codes that the steps define are those of the given names. -/
def Recorded (earlier : List Step) (defined : String → Prop) (names : List String) : Prop :=
  ∀ code, (∃ definition ∈ earlier, definition.Defines code) ↔
    ∃ name, defined name ∧ (CodeTable.ofNames names).code? name = some code

theorem Recorded.append_silent {earlier : List Step} {defined : String → Prop} {names : List String}
    (recorded : Recorded earlier defined names) {step : Step}
    (silent : ∀ code, ¬ step.Defines code) : Recorded (earlier ++ [step]) defined names := by
  intro code
  rw [← recorded code]
  simp [or_and_right, exists_or, silent]

/-- A new code that no step has defined is not recorded. -/
theorem Recorded.append_name {earlier : List Step} {defined : String → Prop} {names : List String}
    {name : String} (recorded : Recorded earlier defined names)
    (inTable : ∀ other, defined other → other ∈ names) (absent : name ∉ names) :
    Recorded earlier defined (names ++ [name]) := by
  intro code
  rw [recorded code]
  apply exists_congr
  intro other
  apply and_congr_right
  intro known
  have different : other ≠ name := fun same => absent (same ▸ inTable other known)
  rw [CodeTable.code?_concat absent, if_neg different]

/-- A new code is recorded by its definition. -/
theorem Recorded.append_definition {earlier : List Step} {defined : String → Prop}
    {names : List String} {name : String} (recorded : Recorded earlier defined names)
    (inTable : ∀ other, defined other → other ∈ names) (absent : name ∉ names)
    {step : Step}
    (defines : ∀ code, step.Defines code ↔ code = UInt8.ofNat names.length) :
    Recorded (earlier ++ [step]) (fun other => defined other ∨ other = name)
      (names ++ [name]) := by
  intro code
  simp only [List.mem_append, List.mem_singleton, or_and_right, exists_or, exists_eq_left,
    recorded code, defines, CodeTable.code?_concat absent]
  constructor
  · rintro (⟨other, known, coded⟩ | new)
    · have different : other ≠ name := fun same => absent (same ▸ inTable other known)
      exact .inl ⟨other, known, by rw [if_neg different, coded]⟩
    · exact .inr (by rw [if_pos trivial, new])
  · rintro (⟨other, known, coded⟩ | coded)
    · have different : other ≠ name := fun same => absent (same ▸ inTable other known)
      rw [if_neg different] at coded
      exact .inl ⟨other, known, coded⟩
    · rw [if_pos trivial] at coded
      exact .inr (Option.some.inj coded).symm

/-- For these steps, every use of a code is defined in time exactly when every name that is begun is
defined. -/
def Agrees (earlier : List Step) (defined : String → Prop) (names : List String) (steps : List Step) :
    Prop :=
  names.length ≤ CodeTable.capacity → (∀ name, defined name → name ∈ names) →
    Recorded earlier defined names →
    (Step.EveryUseDefined earlier steps ↔ Step.NoneLost defined names steps)

/-- The beginning of a request does not change that uses and names agree. -/
theorem agrees_beginRequest {stream : Stream} {name : String} {names : List String} {calls : List Call}
    (binary : stream.encoding = .binary (.ofNames names))
    (clean : ∀ step ∈ stream.history (.beginRequest name :: calls), step.Clean)
    (later : ∀ earlier defined next,
      (stream.perform (.beginRequest name)).2.encoding = .binary (.ofNames next) →
      Agrees earlier defined next ((stream.perform (.beginRequest name)).2.history calls))
    (earlier : List Step) (defined : String → Prop) :
    Agrees earlier defined names (stream.history (.beginRequest name :: calls)) := by
  intro bounded inTable recorded
  have stepClean := clean (stream.step (.beginRequest name)) List.mem_cons_self
  have restClean (step : Step)
      (member : step ∈ (stream.perform (.beginRequest name)).2.history calls) : step.Clean :=
    clean step (List.mem_cons_of_mem _ member)
  have same : (stream.step (.beginRequest name)).call = .beginRequest name := rfl
  rw [Stream.history]
  obtain ⟨code, coded, sends, kept⟩ | ⟨absent, room, sends, grown⟩ |
      ⟨absent, full, failed, nothing, kept⟩ := beginRequest_step binary stepClean
  · have inside := CodeTable.mem_of_code? coded
    rcases sends with ⟨success, accepted⟩ | ⟨failed, nothing⟩
    · have recordedNext := recorded.append_silent
        (Step.not_defines_of_use (Encoded.whole_inj accepted))
      rw [Step.EveryUseDefined, later _ _ names kept bounded inTable recordedNext,
        Step.noneLost_cons_known same success inside]
      simp only [Step.uses_iff same [] (Encoded.whole_inj accepted).symm, forall_eq, recordedNext code]
      apply and_congr_left'
      constructor
      · rintro ⟨other, otherDefined, otherCoded⟩
        rwa [← CodeTable.eq_of_code?_eq bounded otherCoded coded]
      · exact fun nameDefined => ⟨name, nameDefined, coded⟩
    · have recordedNext := recorded.append_silent (Step.not_defines_of_accepted_nil nothing)
      rw [Step.everyUseDefined_cons_of_not_uses (Step.not_uses_of_accepted_nil nothing),
        later _ _ names kept bounded inTable recordedNext,
        Step.noneLost_cons_of_not_begun (Step.begun_cons_of_error failed · _)]
      rintro other ⟨rfl⟩
      exact .inl inside
  · have grownBounded : (names ++ [name]).length ≤ CodeTable.capacity := by
      rw [List.length_append]
      exact room
    have inGrown (other : String) (known : defined other) : other ∈ names ++ [name] :=
      List.mem_append_left _ (inTable other known)
    rcases sends with ⟨success, accepted⟩ | ⟨failed, nothing⟩
    · have defines := Step.defines_introduce_iff same accepted
      have inNext (other : String) (known : defined other ∨ other = name) :
          other ∈ names ++ [name] := by
        rcases known with known | new
        · exact inGrown other known
        · exact new ▸ List.mem_concat_self
      have recordedNext := recorded.append_definition inTable absent defines
      rw [Step.EveryUseDefined, later _ _ _ grown grownBounded inNext recordedNext,
        Step.noneLost_cons_new same success absent]
      apply and_iff_right
      intro code uses
      obtain ⟨definition, -, parts⟩ := Step.exists_of_introduce_eq accepted
      rw [Step.uses_iff same definition parts] at uses
      exact ⟨_, List.mem_concat_self, (defines code).mpr uses⟩
    · have recordedNext := (recorded.append_silent
        (Step.not_defines_of_accepted_nil nothing)).append_name inTable absent
      rw [Step.everyUseDefined_cons_of_not_uses (Step.not_uses_of_accepted_nil nothing),
        later _ _ _ grown grownBounded inGrown recordedNext,
        Step.noneLost_cons_refused same failed absent]
  · have recordedNext := recorded.append_silent (Step.not_defines_of_accepted_nil nothing)
    rw [Step.everyUseDefined_cons_of_not_uses (Step.not_uses_of_accepted_nil nothing),
      later _ _ names kept bounded inTable recordedNext,
      Step.noneLost_cons_of_not_begun (Step.begun_cons_of_error failed · _)]
    rintro other ⟨rfl⟩
    exact .inr (not_begun_of_full calls kept absent full restClean)

/-- The codes of a step are defined in time exactly when every name that it begins is defined. -/
theorem agrees_history (calls : List Call) {stream : Stream} (earlier : List Step)
    (defined : String → Prop) (names : List String)
    (binary : stream.encoding = .binary (.ofNames names))
    (clean : ∀ step ∈ stream.history calls, step.Clean) :
    Agrees earlier defined names (stream.history calls) := by
  induction calls generalizing stream names earlier defined with
  | nil =>
      intro _ _ _
      simp [Stream.history, Step.EveryUseDefined, Step.NoneLost, Step.Begun]
  | cons call calls inductionHypothesis =>
      have restClean (step : Step) (member : step ∈ (stream.perform call).2.history calls) :
          step.Clean := clean step (List.mem_cons_of_mem _ member)
      by_cases begins : ∃ name, call = .beginRequest name
      · obtain ⟨name, rfl⟩ := begins
        exact agrees_beginRequest binary clean
          (fun earlier defined next kept => inductionHypothesis earlier defined next kept restClean)
          earlier defined
      · intro bounded inTable recorded
        have different (name : String) : call ≠ .beginRequest name :=
          fun same => begins ⟨name, same⟩
        have silent (code : UInt8) : ¬ (stream.step call).Defines code := by
          rintro ⟨name, -, same, -⟩
          exact different name same
        have unused (code : UInt8) : ¬ (stream.step call).Uses code := by
          rintro ⟨name, same, -⟩
          exact different name same
        have kept := encoding_perform binary call different
        rw [Stream.history, Step.everyUseDefined_cons_of_not_uses unused,
          inductionHypothesis _ _ names kept restClean bounded inTable
            (recorded.append_silent silent), Step.noneLost_cons_of_not_begun]
        · exact fun other => Step.begun_cons_of_ne (different other) _
        · exact fun other same => absurd same (different other)

/-- A call adds at most one name to the table. -/
theorem exists_encoding_perform {stream : Stream} {names : List String}
    (binary : stream.encoding = .binary (.ofNames names)) (call : Call) :
    ∃ next, (stream.perform call).2.encoding = .binary (.ofNames next) := by
  by_cases begins : ∃ name, call = .beginRequest name
  · obtain ⟨name, rfl⟩ := begins
    rw [encoding_beginRequest name binary]
    rcases beginRequest_cases names name with ⟨code, -, begun⟩ | ⟨-, -, begun⟩ | ⟨-, -, begun⟩
    · exact ⟨names, by rw [begun]⟩
    · exact ⟨names ++ [name], by rw [begun]⟩
    · exact ⟨names, by rw [begun]⟩
  · exact ⟨names, encoding_perform binary call fun name same => begins ⟨name, same⟩⟩

/-- A formatter stays binary, and its table stays one of names in a row. -/
theorem exists_encoding_after (calls : List Call) {stream : Stream} {names : List String}
    (binary : stream.encoding = .binary (.ofNames names)) :
    ∃ next, (stream.after calls).encoding = .binary (.ofNames next) := by
  induction calls generalizing stream names with
  | nil => exact ⟨names, binary⟩
  | cons call calls inductionHypothesis =>
      obtain ⟨middle, performed⟩ := exists_encoding_perform binary call
      exact inductionHypothesis performed

/-- A beginning that the sink refuses keeps the table only if the name had a code before. -/
theorem encoding_beginRequest_eq_iff {stream : Stream} {names : List String} {name cause : String}
    (binary : stream.encoding = .binary (.ofNames names))
    (failed : (stream.beginRequest name).1 = .error (.io cause)) :
    (stream.beginRequest name).2.encoding = stream.encoding ↔
      (stream.encoding.requestCode? name).isSome := by
  have encoding : (stream.beginRequest name).2.encoding =
      .binary (beginRequest (.ofNames names) name).2 := encoding_beginRequest name binary
  rw [encoding, binary, Encoding.requestCode?]
  rcases beginRequest_cases names name with ⟨code, known, begun⟩ | ⟨absent, room, begun⟩ |
      ⟨absent, full, begun⟩
  · simp [begun, known]
  · have unknown := (CodeTable.code?_eq_none_iff names name).mpr absent
    rw [begun, unknown]
    simp only [Encoding.binary.injEq, Option.isSome_none, Bool.false_eq_true, iff_false]
    intro same
    have lengths := congrArg (fun table => table.names.length) same
    simp at lengths
  · -- No byte is offered to the sink when there is no code left.
    have performed : stream.beginRequest name = _ := perform_beginRequest name binary
    rw [performed, begun, Stream.put, Encoded.fail, Stream.write_nil] at failed
    cases failed

/-- When a beginning is refused by the sink, the table is unchanged exactly if the name had a code
before. If all refused beginnings leave no byte, then every use of a code comes after the whole
definition of the code exactly if no name is begun successfully whose first beginning was refused. -/
theorem everyUseDefined_history_iff (sink : Sink) (calls : List Call) :
    (∀ name cause,
      ((Stream.after calls ⟨.startBinary, sink⟩).beginRequest name).1 = .error (.io cause) →
      (((Stream.after calls ⟨.startBinary, sink⟩).beginRequest name).2.encoding =
          (Stream.after calls ⟨.startBinary, sink⟩).encoding ↔
        ((Stream.after calls ⟨.startBinary, sink⟩).encoding.requestCode? name).isSome)) ∧
    ((∀ step ∈ Stream.history calls ⟨.startBinary, sink⟩, step.Clean) →
      (Step.EveryUseDefined [] (Stream.history calls ⟨.startBinary, sink⟩) ↔
        ∀ name, Step.Begun name (Stream.history calls ⟨.startBinary, sink⟩) →
          Step.FirstSucceeds name (Stream.history calls ⟨.startBinary, sink⟩))) := by
  constructor
  · intro name cause failed
    have started : (Stream.mk .startBinary sink).encoding = .binary (.ofNames []) := rfl
    obtain ⟨names, binary⟩ := exists_encoding_after calls started
    exact encoding_beginRequest_eq_iff binary failed
  · intro clean
    have recorded : Recorded [] (fun _ => False) [] := by
      intro code
      simp
    rw [agrees_history calls [] (fun _ => False) [] rfl clean (Nat.zero_le _)
      (fun _ => False.elim) recorded]
    simp [Step.NoneLost]

/-- A sink without room refuses a known name, and the name is used again once there is room. -/
def refusedUse : List Call :=
  [.beginRequest "Sphere", .room (some 0), .beginRequest "Sphere", .room none,
    .beginRequest "Sphere"]

theorem everyUseDefined_refusedUse :
    (∀ step ∈ Stream.history refusedUse ⟨.startBinary, {}⟩, step.Clean) ∧
      Step.EveryUseDefined [] (Stream.history refusedUse ⟨.startBinary, {}⟩) := by
  have steps : Stream.history refusedUse ⟨.startBinary, {}⟩ =
      [⟨.beginRequest "Sphere", .ok (), (introduce [] "Sphere").bytes⟩,
        ⟨.room (some 0), .ok (), []⟩, ⟨.beginRequest "Sphere", .error .sinkFull, []⟩,
        ⟨.room none, .ok (), []⟩, ⟨.beginRequest "Sphere", .ok (), useRequest 0⟩] := rfl
  have clean : ∀ step ∈ Stream.history refusedUse ⟨.startBinary, {}⟩, step.Clean := by
    rw [steps]
    simp [Step.Clean]
  refine ⟨clean, ((everyUseDefined_history_iff {} refusedUse).2 clean).mpr ?_⟩
  rw [steps]
  intro name begun
  have sphere : name = "Sphere" := by
    simpa [Step.Begun, eq_comm] using begun
  exact ⟨_, by rw [sphere]; rfl, rfl⟩

/-- A sink without room refuses a new name, and the name is begun again once there is room. -/
def refusedDefinition : List Call :=
  [.beginRequest "Sphere", .room none, .beginRequest "Sphere"]

/-- No byte is accepted from the refused beginning, but the name has a code from then on. The next
beginning succeeds with this code, which no byte in the stream defines. -/
theorem not_everyUseDefined_refusedDefinition :
    (Stream.beginRequest ⟨.startBinary, { room := some 0 }⟩ "Sphere").1 = .error .sinkFull ∧
      (Stream.beginRequest ⟨.startBinary, { room := some 0 }⟩ "Sphere").2.sink.accepted = #[] ∧
      (Stream.beginRequest ⟨.startBinary, { room := some 0 }⟩ "Sphere").2.encoding ≠
        .startBinary ∧
      (∀ step ∈ Stream.history refusedDefinition ⟨.startBinary, { room := some 0 }⟩,
        step.Clean) ∧
      ¬ Step.EveryUseDefined []
        (Stream.history refusedDefinition ⟨.startBinary, { room := some 0 }⟩) := by
  have steps : Stream.history refusedDefinition ⟨.startBinary, { room := some 0 }⟩ =
      [⟨.beginRequest "Sphere", .error .sinkFull, []⟩, ⟨.room none, .ok (), []⟩,
        ⟨.beginRequest "Sphere", .ok (), useRequest 0⟩] := rfl
  refine ⟨rfl, rfl, by decide, ?_, ?_⟩
  · rw [steps]
    simp [Step.Clean]
  · rw [steps]
    rintro ⟨-, -, last, -⟩
    obtain ⟨step, member, defined⟩ := last 0 ⟨"Sphere", rfl, List.suffix_refl _⟩
    revert defined
    simp only [List.nil_append, List.cons_append, List.mem_cons, List.not_mem_nil, or_false]
      at member
    rcases member with rfl | rfl | rfl
    · exact Step.not_defines_of_accepted_nil rfl 0
    · exact Step.not_defines_of_accepted_nil rfl 0
    · exact Step.not_defines_of_use rfl 0

end Binary

end RibStream
