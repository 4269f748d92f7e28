/-
This file defines matrices and their conversion from and to lists of entries.
-/

import RibStream.Single

namespace RibStream

/-- Four rows of four entries. A displacement stands in the last row. -/
structure Matrix where
  rows : Vector (Vector Single 4) 4
deriving DecidableEq

namespace Matrix

/-- The entries row by row. -/
def entries (matrix : Matrix) : List Single :=
  matrix.rows.toList.flatMap (·.toList)

def ofEntries (entries : Vector Single 16) : Matrix :=
  ⟨Vector.ofFn fun row => Vector.ofFn fun column =>
    entries.get ⟨4 * row.val + column.val, by omega⟩⟩

/-- A matrix for column vectors, given column by column. Its transpose acts on row vectors, so the
entries keep their order. -/
def ofColumns (entries : Vector Single 16) : Matrix :=
  ofEntries entries

/-- Two matrices are numerically equal when all their entries are. -/
def equal (left right : Matrix) : Bool :=
  (left.entries.zip right.entries).all fun (first, second) => first.equal second

end Matrix

end RibStream
