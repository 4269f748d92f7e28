/-
This file defines the spline bases that have a standard name.
-/

import RibStream.Error
import RibStream.Matrix

namespace RibStream

inductive Basis where
  | bezier | bSpline | catmullRom | hermite | power
deriving DecidableEq

namespace Basis

def all : List Basis := [bezier, bSpline, catmullRom, hermite, power]

def name : Basis → String
  | bezier => "bezier"
  | bSpline => "b-spline"
  | catmullRom => "catmull-rom"
  | hermite => "hermite"
  | power => "power"

def zero : Single := ⟨0x00000000⟩
def sixth : Single := ⟨0x3E2AAAAB⟩
def half : Single := ⟨0x3F000000⟩
def twoThirds : Single := ⟨0x3F2AAAAB⟩
def one : Single := ⟨0x3F800000⟩
def threeHalves : Single := ⟨0x3FC00000⟩
def two : Single := ⟨0x40000000⟩
def fiveHalves : Single := ⟨0x40200000⟩
def three : Single := ⟨0x40400000⟩
def six : Single := ⟨0x40C00000⟩

def minus (value : Single) : Single := ⟨value.bits ^^^ 0x80000000⟩

def entries : Basis → Vector Single 16
  | bezier =>
      #v[minus one, three, minus three, one,
        three, minus six, three, zero,
        minus three, three, zero, zero,
        one, zero, zero, zero]
  | bSpline =>
      #v[minus sixth, half, minus half, sixth,
        half, minus one, half, zero,
        minus half, zero, half, zero,
        sixth, twoThirds, sixth, zero]
  | catmullRom =>
      #v[minus half, threeHalves, minus threeHalves, half,
        one, minus fiveHalves, two, minus half,
        minus half, zero, half, zero,
        zero, one, zero, zero]
  | hermite =>
      #v[two, one, minus two, one,
        minus three, minus two, three, minus one,
        zero, one, zero, zero,
        one, zero, zero, zero]
  | power =>
      #v[one, zero, zero, zero,
        zero, one, zero, zero,
        zero, zero, one, zero,
        zero, zero, zero, one]

def matrix (basis : Basis) : Matrix :=
  .ofEntries basis.entries

def ofName (name : String) : Except Error Basis :=
  match all.find? fun basis => basis.name == name with
  | some basis => .ok basis
  | none => .error (.badToken name)

/-- The standard basis that is numerically equal to a matrix. -/
def recognize? (matrix : Matrix) : Option Basis :=
  all.find? fun basis => basis.matrix.equal matrix

/-- A matrix at its address. Every standard basis has a home for its matrix, and nothing else is stored
there. -/
structure Stored {Address : Type} (home : Basis → Address) where
  address : Address
  matrix : Matrix
  standard : ∀ basis, home basis = address → matrix = basis.matrix

/-- The address of a standard matrix tells its basis without a look at the entries. -/
def Stored.recognize? {Address : Type} [DecidableEq Address] {home : Basis → Address}
    (stored : Stored home) : Option Basis :=
  match all.find? fun basis => home basis = stored.address with
  | some basis => some basis
  | none => Basis.recognize? stored.matrix

end Basis

/-- A basis as a request gives it: by its name or by its matrix. -/
inductive BasisSource where
  | named (name : String)
  | matrix (matrix : Matrix)
deriving DecidableEq

def BasisSource.resolve : BasisSource → Except Error Matrix
  | .named name => (Basis.ofName name).map Basis.matrix
  | .matrix value => .ok value

end RibStream
