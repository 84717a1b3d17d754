/-
The life of an application session. A session only moves forward, from
nothing sent to closed.
-/

namespace SmartCard

/-- How far a session has come. -/
inductive Stage
  /-- Nothing was sent. -/
  | uninitialized
  /-- The application is selected. -/
  | selected
  /-- The session can be used. -/
  | ready
  /-- No further command is sent. -/
  | closed
  deriving DecidableEq, Repr

namespace Stage

/-- The place of a stage in the order of a session's life. -/
def rank : Stage → Nat
  | uninitialized => 0
  | selected => 1
  | ready => 2
  | closed => 3

/-- Move on to a later stage. A move that does not lead forward leaves the
session where it is. -/
def advance (s next : Stage) : Stage :=
  if s.rank < next.rank then next else s

/-- The name of a stage. -/
def name : Stage → String
  | uninitialized => "Uninitialized"
  | selected => "Selected"
  | ready => "Ready"
  | closed => "Closed"

end Stage

end SmartCard
