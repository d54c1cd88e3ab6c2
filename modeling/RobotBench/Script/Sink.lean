/-!
# Where scripts print to

A sink keeps the bytes printed so far. With a capacity it keeps the bytes that fit and
refuses the first one that does not.
-/

namespace RobotBench

/-- Bytes printed so far, and how many may be kept at most. -/
structure Sink where
  capacity : Option Nat
  bytes : ByteArray

namespace Sink

/-- An empty sink without a bound. -/
def unbounded : Sink := ⟨none, .empty⟩

/-- The bytes that can still be kept of `wanted` many. -/
def room (s : Sink) (wanted : Nat) : Nat :=
  match s.capacity with
  | none => wanted
  | some capacity => min wanted (capacity - s.bytes.size)

/-- Keeps as many bytes as fit; the first part of the result says whether all did. -/
def write (s : Sink) (bytes : ByteArray) : Bool × Sink :=
  let kept := s.room bytes.size
  if kept = bytes.size then (true, { s with bytes := s.bytes ++ bytes })
  else (false, { s with bytes := s.bytes ++ bytes.extract 0 kept })

end Sink

end RobotBench
