/-!
# Larger and smaller

The larger and the smaller of two numbers where one of them may be missing: a value that differs
from itself gives way to the other.
-/

namespace BandedReport

variable {α : Type} [BEq α] [LT α] [DecidableLT α]

/-- The larger of two numbers, the first of two equal ones. -/
def larger (a b : α) : α := if a == a then (if a < b then b else a) else b

/-- The smaller of two numbers, the first of two equal ones. -/
def smaller (a b : α) : α := if a == a then (if b < a then b else a) else b

end BandedReport
