import RobotBench.Number.Basic

/-!
# Random draws

A generator on 64-bit words: the state advances by a fixed odd step, and a draw mixes both
halves of a 128-bit product of the state. A draw below a bound is the high half of its
product with the bound, drawn again while the low half falls into the part that would
favour some results; `index_lt` says that it stays below the bound. The step is odd, so
`UInt64.size` draws visit every state and bound every redrawing.
-/

namespace RobotBench

/-- The state of the generator. -/
structure Generator where
  state : UInt64
  deriving DecidableEq

namespace Generator

/-- One draw of a word. -/
def next (g : Generator) : UInt64 × Generator :=
  let state := g.state + 0x2d358dccaa6c78a5
  let product := state.toNat * (state ^^^ 0x8bb84b93962eacc9).toNat
  (UInt64.ofNat product ^^^ UInt64.ofNat (product / UInt64.size), ⟨state⟩)

/-- The first of at most `tries + 1` draws that is accepted, or else the last one. -/
def drawUntil (accept : UInt64 → Bool) : Nat → Generator → UInt64 × Generator
  | 0, g => g.next
  | tries + 1, g =>
    let (word, g) := g.next
    if accept word then (word, g) else drawUntil accept tries g

/-- A draw below the bound, every result equally likely. -/
def index (bound : Nat) (g : Generator) : Nat × Generator :=
  let biased := (UInt64.size - bound) % bound
  let (word, g) := drawUntil (fun w => biased ≤ w.toNat * bound % UInt64.size) UInt64.size g
  (word.toNat * bound / UInt64.size, g)

/-- The number in the unit interval that the upper 63 bits of a word stand for. -/
def unitNumber (word : UInt64) : Number :=
  .ofUnits false (word.toNat / 2 * Number.unitsPerOne) (UInt64.size / 2)

/-- A draw from the unit interval, one excluded. -/
def unit (g : Generator) : Number × Generator :=
  let (word, g) := drawUntil (fun w => (unitNumber w).below 1) UInt64.size g
  (unitNumber word, g)

/-- A draw stays below its bound. -/
theorem index_lt {bound : Nat} (h : 0 < bound) (g : Generator) : (g.index bound).1 < bound := by
  unfold index
  simp only
  rw [Nat.div_lt_iff_lt_mul (by decide : 0 < UInt64.size), Nat.mul_comm]
  exact Nat.mul_lt_mul_of_pos_left (UInt64.toNat_lt _) h

end Generator

end RobotBench
