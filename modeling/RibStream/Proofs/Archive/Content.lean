/-
This file says what the scripts of all archives have in common.
-/

import RibStream.Writer.Archive

namespace RibStream

/-- Every statement that the script can come to has the property, whatever the answers are. -/
def Script.All (property : Statement → Prop) : Script → Prop
  | .done _ => True
  | .issue statement next => property statement ∧ ∀ answer, (next answer).All property

/-- The scripts of all files that open have the property. -/
def Archives.Each (property : Script → Prop) (archives : Archives) : Prop :=
  ∀ file content, archives.files.read file = .ok content → ∀ name,
    property (archives.parse name content)

/-- Every statement of every archive has the property. -/
abbrev Archives.All (property : Statement → Prop) : Archives → Prop :=
  Archives.Each (Script.All property)

/-- The room in the sink becomes only what is allowed. -/
def Statement.Grants (allowed : Option Nat → Prop) : Statement → Prop
  | .room granted => allowed granted
  | _ => True

instance (allowed : Option Nat → Prop) [DecidablePred allowed] (statement : Statement) :
    Decidable (statement.Grants allowed) :=
  match statement with
  | .room granted => inferInstanceAs (Decidable (allowed granted))
  | .request _ | .service _ | .unreadable _ => .isTrue trivial

/-- The sink is left to fill up. -/
abbrev Statement.KeepsRoom : Statement → Prop :=
  Statement.Grants fun _ => False

/-- A sink that accepts everything goes on to do so. -/
abbrev Statement.KeepsUnlimited : Statement → Prop :=
  Statement.Grants fun room => room = none

theorem Script.all_of_forall {property : Statement → Prop} (always : ∀ statement, property statement)
    (script : Script) : script.All property := by
  induction script with
  | done result => trivial
  | issue statement next inductionHypothesis => exact ⟨always statement, inductionHypothesis⟩

/-- A script that replays statements comes to no others. -/
theorem Script.all_replaying {property : Statement → Prop} {statements : List Statement}
    (own : ∀ statement ∈ statements, property statement) :
    (Script.replaying statements).All property := by
  induction statements with
  | nil => trivial
  | cons statement rest inductionHypothesis =>
      refine ⟨own statement List.mem_cons_self, fun answer => ?_⟩
      cases answer with
      | ok reply => exact inductionHypothesis fun other member => own other (.tail _ member)
      | error error => trivial

theorem Archives.all_of_forall {property : Statement → Prop}
    (always : ∀ statement, property statement) (archives : Archives) : archives.All property :=
  fun _ _ _ _ => Script.all_of_forall always _

end RibStream
