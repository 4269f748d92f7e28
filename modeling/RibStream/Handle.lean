/-
This file issues the numbers that identify lights and objects.
-/

import RibStream.Error

namespace RibStream

/-- The number of handles issued so far, which is also the last handle. -/
structure HandleCounter where
  issued : Nat
deriving DecidableEq

namespace HandleCounter

/-- The greatest handle that fits a signed word of 32 bits. -/
def greatest : Nat := 0x7FFFFFFF

def start : HandleCounter := ⟨0⟩

/-- The next handle. A handle is never issued twice. -/
def issue (counter : HandleCounter) : Except Error (Nat × HandleCounter) :=
  if counter.issued < greatest then .ok (counter.issued + 1, ⟨counter.issued + 1⟩)
  else .error .handlesExhausted

end HandleCounter

end RibStream
