/-
This file says in which form a reader of text gets the tokens of a request back.
The form keeps strings, numerals and array boundaries. The type of a numeral is not part of it.
-/

import RibStream.Proofs.Ascii.Lexeme
import RibStream.Proofs.Decimal.ReadBack
import RibStream.Proofs.Request.Finite

namespace RibStream

/-- Two changed lists are equal where the changes do not tell their items apart. -/
theorem map_eq_map_iff_forall₂ {First Second Third : Type} {relation : First → Second → Prop}
    {left : First → Third} {right : Second → Third} (firsts : List First) (seconds : List Second)
    (told : ∀ first ∈ firsts, ∀ second ∈ seconds,
      left first = right second ↔ relation first second) :
    firsts.map left = seconds.map right ↔ List.Forall₂ relation firsts seconds := by
  induction firsts generalizing seconds with
  | nil =>
      rw [List.forall₂_nil_left_iff]
      exact eq_comm.trans List.map_eq_nil_iff
  | cons first firsts inductionHypothesis =>
      cases seconds with
      | nil => simp
      | cons second seconds =>
          have heads := told first List.mem_cons_self second List.mem_cons_self
          have tails := inductionHypothesis seconds fun one member other inside =>
            told one (List.mem_cons_of_mem _ member) other (List.mem_cons_of_mem _ inside)
          rw [List.map_cons, List.map_cons, List.cons.injEq, heads, tails, List.forall₂_cons]

/-- A single value of a request, or one of the values in an array. -/
inductive Scalar where
  | int (value : Int32)
  | float (value : Single)
  | string (value : String)
deriving DecidableEq

/-- A value that stands alone, or the values between two brackets. -/
inductive Item (Value : Type) where
  | single (value : Value)
  | array (values : List Value)
deriving DecidableEq

namespace Item

variable {First Second Third : Type}

def map (change : First → Second) : Item First → Item Second
  | single value => .single (change value)
  | array values => .array (values.map change)

/-- Both items stand alone or both are arrays, and their values are related one by one. -/
def Related (relation : First → Second → Prop) : Item First → Item Second → Prop
  | single first, single second => relation first second
  | array firsts, array seconds => List.Forall₂ relation firsts seconds
  | _, _ => False

def values : Item First → List First
  | single value => [value]
  | array values => values

theorem related_map_self (relation : Second → First → Prop) (change : First → Second)
    (item : Item First) (changed : ∀ value ∈ item.values, relation (change value) value) :
    Related relation (item.map change) item := by
  cases item with
  | single value => exact changed value List.mem_cons_self
  | array values =>
      show List.Forall₂ relation (values.map change) values
      rw [List.forall₂_map_left_iff, List.forall₂_same]
      exact changed

/-- Changed items are equal where the change does not tell their values apart. -/
theorem map_eq_map_iff {relation : First → Second → Prop} {left : First → Third}
    {right : Second → Third} (first : Item First) (second : Item Second)
    (told : ∀ one ∈ first.values, ∀ other ∈ second.values,
      left one = right other ↔ relation one other) :
    first.map left = second.map right ↔ Related relation first second := by
  cases first with
  | single first =>
      cases second with
      | single second =>
          have values := told first List.mem_cons_self second List.mem_cons_self
          rw [map, map, single.injEq, values, Related]
      | array seconds => simp [map, Related]
  | array firsts =>
      cases second with
      | single second => simp [map, Related]
      | array seconds =>
          rw [map, map, array.injEq, Related]
          exact map_eq_map_iff_forall₂ firsts seconds told

end Item

namespace Token

/-- The scalars of a token with its brackets. Empty arrays of all types are the same. -/
def item : Token → Item Scalar
  | .int value => .single (.int value)
  | .float value => .single (.float value)
  | .string value => .single (.string value)
  | .ints values => .array (values.map .int)
  | .floats values => .array (values.map .float)
  | .strings values => .array (values.map .string)

end Token

namespace Ascii

/-- A string is shown byte for byte, an integer exactly, and a float by a numeral that is rounded to
it. -/
def Atom.Shows : Atom → Scalar → Prop
  | .string bytes, .string value => bytes = Text.bytes value
  | .numeral text, .int value =>
      ∃ numeral, Numeral.read? text = some numeral ∧ numeral.number = value.toInt
  | .numeral text, .float value =>
      ∃ numeral, Numeral.read? text = some numeral ∧ numeral.IsNearest value
  | _, _ => False

end Ascii

namespace Scalar

/-- The scalar is finite if it is a float. -/
def Finite : Scalar → Prop
  | .float value => value.Finite
  | _ => True

/-- The scalars are the same, or they are an integer and a float with the same numeral. -/
def Alike : Scalar → Scalar → Prop
  | .int first, .float second => Decimal.integer first.toInt = Decimal.single second
  | .float first, .int second => Decimal.single first = Decimal.integer second.toInt
  | first, second => first = second

/-- What is read back of a scalar. -/
def atom : Scalar → Ascii.Atom
  | .int value => .numeral (Decimal.integer value.toInt)
  | .float value => .numeral (Decimal.single value)
  | .string value => .string (Text.bytes value)

theorem shows_atom (value : Scalar) (finite : value.Finite) : value.atom.Shows value := by
  cases value with
  | int value => exact Decimal.read?_integer value.toInt
  | float value => exact Decimal.read?_single value finite
  | string value => exact rfl

/-- Nothing but the type of a numeral is lost. -/
theorem atom_eq_atom_iff (first second : Scalar) (firstFinite : first.Finite)
    (secondFinite : second.Finite) : first.atom = second.atom ↔ Alike first second := by
  cases first with
  | int first =>
      cases second with
      | int second =>
          show (int first).atom = (int second).atom ↔ int first = int second
          rw [atom, atom, Ascii.Atom.numeral.injEq, int.injEq, Decimal.integer_injective.eq_iff,
            Int32.toInt_inj]
      | float second => rw [atom, atom, Ascii.Atom.numeral.injEq, Alike]
      | string second => simp [atom, Alike]
  | float first =>
      cases second with
      | int second => rw [atom, atom, Ascii.Atom.numeral.injEq, Alike]
      | float second =>
          have texts : Decimal.single first = Decimal.single second ↔ first = second :=
            ⟨Decimal.single_injective firstFinite secondFinite, congrArg _⟩
          show (float first).atom = (float second).atom ↔ float first = float second
          rw [atom, atom, Ascii.Atom.numeral.injEq, float.injEq, texts]
      | string second => simp [atom, Alike]
  | string first =>
      cases second with
      | int second => simp [atom, Alike]
      | float second => simp [atom, Alike]
      | string second =>
          have texts : Text.bytes first = Text.bytes second ↔ first = second :=
            ⟨Text.bytes_injective, congrArg _⟩
          show (string first).atom = (string second).atom ↔ string first = string second
          rw [atom, atom, Ascii.Atom.string.injEq, string.injEq, texts]

end Scalar

namespace Token

theorem finite_of_mem_item (token : Token) (finite : AllFinite token.singles) :
    ∀ scalar ∈ token.item.values, scalar.Finite := by
  intro scalar member
  cases token with
  | int value =>
      cases List.mem_singleton.mp member
      exact trivial
  | float value =>
      cases List.mem_singleton.mp member
      exact finite value List.mem_cons_self
  | string value =>
      cases List.mem_singleton.mp member
      exact trivial
  | ints values =>
      obtain ⟨value, -, rfl⟩ := List.mem_map.mp member
      exact trivial
  | floats values =>
      obtain ⟨value, inside, rfl⟩ := List.mem_map.mp member
      exact finite value inside
  | strings values =>
      obtain ⟨value, -, rfl⟩ := List.mem_map.mp member
      exact trivial

/-- The tokens have the same brackets, and their scalars are alike one by one. -/
def Alike (first second : Token) : Prop :=
  first.item.Related Scalar.Alike second.item

end Token

namespace Ascii

/-- A request as text shows it. -/
structure Form where
  name : List UInt8
  items : List (Item Atom)
deriving DecidableEq

/-- The form has the name of the request and shows its tokens one by one. -/
def Form.Shows (form : Form) (line : RequestLine) : Prop :=
  form.name = Text.bytes line.name ∧
    List.Forall₂ (fun item token => item.Related Atom.Shows token.item) form.items line.tokens

end Ascii

namespace RequestLine

/-- The requests have the same name, and their tokens are alike one by one. -/
def Alike (first second : RequestLine) : Prop :=
  first.name = second.name ∧ List.Forall₂ Token.Alike first.tokens second.tokens

/-- What is read back of a request. -/
def form (line : RequestLine) : Ascii.Form :=
  ⟨Text.bytes line.name, line.tokens.map fun token => token.item.map Scalar.atom⟩

theorem finite_of_mem_tokens {line : RequestLine} (finite : AllFinite line.singles) {token : Token}
    (member : token ∈ line.tokens) : ∀ scalar ∈ token.item.values, scalar.Finite :=
  token.finite_of_mem_item ((allFinite_flatMap line.tokens Token.singles).mp finite token member)

theorem shows_form (line : RequestLine) (finite : AllFinite line.singles) :
    line.form.Shows line := by
  refine ⟨rfl, ?_⟩
  rw [form, List.forall₂_map_left_iff, List.forall₂_same]
  intro token member
  apply Item.related_map_self
  intro scalar inside
  exact scalar.shows_atom (finite_of_mem_tokens finite member scalar inside)

theorem form_eq_form_iff (first second : RequestLine) (firstFinite : AllFinite first.singles)
    (secondFinite : AllFinite second.singles) : first.form = second.form ↔ Alike first second := by
  have names : Text.bytes first.name = Text.bytes second.name ↔ first.name = second.name :=
    ⟨Text.bytes_injective, congrArg _⟩
  rw [form, form, Ascii.Form.mk.injEq, names, Alike]
  apply and_congr_right
  intro _
  apply map_eq_map_iff_forall₂
  intro token member other inside
  apply Item.map_eq_map_iff
  intro scalar one another two
  exact scalar.atom_eq_atom_iff another (finite_of_mem_tokens firstFinite member scalar one)
    (finite_of_mem_tokens secondFinite inside another two)

end RequestLine

end RibStream
