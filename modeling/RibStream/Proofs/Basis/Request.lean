/-
This file says how the two matrices of a request for bases are written.
A matrix is written by the name of the standard basis with the same numbers, or by its entries.
-/

import RibStream.Proofs.Ascii.RoundTrip
import RibStream.Proofs.Basis.Recognition
import RibStream.Proofs.Writer.Rejection

namespace RibStream

/-- The token of a matrix is a name that stands for the basis with the same numbers. A matrix without
one is written as its entries. -/
inductive Matrix.ShownBy (matrix : Matrix) : Token → Prop where
  | name {name : String} {basis : Basis} (known : Basis.ofName name = .ok basis)
      (same : basis.matrix.SameNumbers matrix) : ShownBy matrix (.string name)
  | entries (other : ∀ basis : Basis, ¬ basis.matrix.SameNumbers matrix) :
      ShownBy matrix (.floats matrix.rowMajor)

theorem Matrix.shownBy_basis (matrix : Matrix) : matrix.ShownBy (Token.basis matrix) := by
  rw [Token.basis]
  cases recognized : Basis.recognize? matrix with
  | none =>
      rw [Token.matrix, entries_eq_rowMajor]
      exact .entries ((Basis.recognize?_eq_none_iff matrix).mp recognized)
  | some basis =>
      exact .name (Basis.ofName_name basis) ((Basis.recognize?_eq_some_iff matrix basis).mp recognized)

/-- A request for bases that gives its matrices. -/
def Request.bases (left right : Matrix) (leftStep rightStep : Int32) : Request :=
  .plain (.shape (.basis (.matrix left) leftStep (.matrix right) rightStep))

namespace Writer

/-- The line of a request for bases. -/
def basesLine (left right : Matrix) (leftStep rightStep : Int32) : RequestLine :=
  ⟨"Basis", [Token.basis left, .int leftStep, Token.basis right, .int rightStep]⟩

/-- The request does nothing but send its line. -/
theorem run_bases (archives : Archives) (writer : Writer) (left right : Matrix)
    (leftStep rightStep : Int32) :
    writer.run archives (.request (.bases left right leftStep rightStep)) =
      reply (writer.emit (basesLine left right leftStep rightStep)) := rfl

/-- There is no length in the request that could be too great. -/
theorem fits_basesLine (left right : Matrix) (leftStep rightStep : Int32) :
    ∀ token ∈ (basesLine left right leftStep rightStep).tokens, token.Fits := by
  rw [basesLine, List.forall_mem_cons, List.forall_mem_cons, List.forall_mem_cons,
    List.forall_mem_singleton]
  exact ⟨Basis.fits_token left, trivial, Basis.fits_token right, trivial⟩

/-- A matrix is recognized as a standard basis exactly if its entries are the same numbers, wherever
it is stored, so that a NaN is never recognized and either zero is. No other basis has these numbers.
In a writer that a session has reached, a request for bases that succeeds has written each of its
matrices by the name of that basis, and by its entries if there is none. Only a full sink lets it
fail. -/
theorem run_basis {Address : Type} [DecidableEq Address] (home : Basis → Address)
    (left right : Basis.Stored home) (leftStep rightStep : Int32) (archives : Archives)
    (writer : Writer) :
    (∀ stored : Basis.Stored home, stored.recognize? = Basis.recognize? stored.matrix ∧
      ∀ basis : Basis, stored.recognize? = some basis ↔ basis.matrix.SameNumbers stored.matrix) ∧
    (∀ (matrix : Matrix) (first second : Basis), first.matrix.SameNumbers matrix →
      second.matrix.SameNumbers matrix → first = second) ∧
    (Reached archives writer →
      (writer.stream.sink.room = none →
        (writer.run archives (.request (.bases left.matrix right.matrix leftStep rightStep))).1 =
          .ok .done) ∧
      ∀ reply,
        (writer.run archives (.request (.bases left.matrix right.matrix leftStep rightStep))).1 =
          .ok reply →
        ∃ (first second : Token) (bytes : List UInt8),
          left.matrix.ShownBy first ∧ right.matrix.ShownBy second ∧
          (writer.run archives (.request
              (.bases left.matrix right.matrix leftStep rightStep))).2.stream.sink.accepted =
            writer.stream.sink.accepted ++ bytes ∧
          writer.stream.encoding.Shows
            ⟨"Basis", [first, .int leftStep, second, .int rightStep]⟩ bytes) := by
  refine ⟨?_, fun _ _ _ => Basis.eq_of_sameNumbers, fun reached => ⟨fun unlimited => ?_, ?_⟩⟩
  · intro stored
    refine ⟨stored.recognize?_eq, fun basis => ?_⟩
    rw [stored.recognize?_eq, Basis.recognize?_eq_some_iff]
  · have ready : writer.Ready := ⟨reached.codesNamed, unlimited⟩
    have sent := ready.request_ok (basesLine left.matrix right.matrix leftStep rightStep)
      (show "Basis" ∈ Request.names by decide) fun token member =>
        Encoding.fits_of_fits writer.stream.encoding (fits_basesLine _ _ _ _ token member)
    rw [run_bases]
    exact congrArg (Except.map fun () => Reply.done) sent
  · intro answer success
    rw [run_bases] at success ⊢
    obtain ⟨⟨⟩, sent, -⟩ := exists_of_map_eq_ok success
    obtain ⟨bytes, accepted, shows⟩ := Stream.shows_of_request_ok reached.codesNamed
      (show (basesLine left.matrix right.matrix leftStep rightStep).name ∈ Request.names from
        (by decide : "Basis" ∈ Request.names)) sent
    exact ⟨_, _, bytes, left.matrix.shownBy_basis, right.matrix.shownBy_basis, accepted, shows⟩

/-- The standard matrices stand one after the other. -/
def basisPlace : Basis → Nat
  | .bezier => 0x100
  | .bSpline => 0x140
  | .catmullRom => 0x180
  | .hermite => 0x1C0
  | .power => 0x200

/-- The power basis where it belongs. -/
def powerAtHome : Basis.Stored basisPlace where
  address := 0x200
  matrix := Basis.power.matrix
  standard basis here := by cases basis <;> first | rfl | cases here

/-- A power basis with negative zeros on the stack of its caller. -/
def powerElsewhere : Basis.Stored basisPlace where
  address := 0x7FF0
  matrix := .ofEntries (Basis.power.entries.map fun value =>
    if value.isZero then Basis.minus value else value)
  standard basis here := by cases basis <;> cases here

/-- Both are recognized, and both encodings write the name for each of them. -/
theorem run_basis_power :
    Reached .empty sceneWriter ∧ sceneWriter.stream.encoding = .startAscii ∧
      Reached .empty worldWriter ∧ worldWriter.stream.encoding = .binary (.ofNames ["WorldBegin"]) ∧
      powerAtHome.recognize? = some .power ∧ powerElsewhere.recognize? = some .power ∧
      ∀ writer ∈ [sceneWriter, worldWriter], ∃ (first second : Token) (bytes : List UInt8),
        powerAtHome.matrix.ShownBy first ∧ powerElsewhere.matrix.ShownBy second ∧
        (writer.run .empty (.request
            (.bases powerAtHome.matrix powerElsewhere.matrix 1 2))).2.stream.sink.accepted =
          writer.stream.sink.accepted ++ bytes ∧
        writer.stream.encoding.Shows ⟨"Basis", [first, .int 1, second, .int 2]⟩ bytes := by
  have scene : Reached .empty sceneWriter :=
    ⟨_, [], .ofStream { compressed := false } ⟨false, false, false, false⟩ (.inl rfl), rfl⟩
  have world : Reached .empty worldWriter :=
    ⟨_, _, .ofStream { compressed := false } ⟨false, true, false, false⟩ (.inr rfl), rfl⟩
  obtain ⟨recognized, -, -⟩ := run_basis basisPlace powerAtHome powerElsewhere 1 2 .empty sceneWriter
  have atHome : Basis.power.matrix.SameNumbers powerAtHome.matrix :=
    (Matrix.equal_iff _ _).mp (by decide +kernel)
  have elsewhere : Basis.power.matrix.SameNumbers powerElsewhere.matrix :=
    (Matrix.equal_iff _ _).mp (by decide +kernel)
  refine ⟨scene, rfl, world, rfl, ((recognized _).2 .power).mpr atHome,
    ((recognized _).2 .power).mpr elsewhere, fun writer member => ?_⟩
  have reached : Reached .empty writer ∧ writer.stream.sink.room = none := by
    rcases List.mem_cons.mp member with rfl | last
    · exact ⟨scene, rfl⟩
    · rw [List.mem_singleton.mp last]
      exact ⟨world, rfl⟩
  obtain ⟨-, -, written⟩ := run_basis basisPlace powerAtHome powerElsewhere 1 2 .empty writer
  obtain ⟨succeeds, shown⟩ := written reached.1
  exact shown .done (succeeds reached.2)

end Writer

end RibStream
