/-!
# Runs of code points

A property of Unicode characters is written as a list of runs: stretches of code points with a
fixed step.  Step one is a plain interval; step two covers the stretches where two letter cases
alternate.  The properties themselves are tables in the modules that use them; characters below
`0x80` never reach a table, so each property also says in one line what it is on ASCII.
-/

namespace TierLineage.Text

/-- The code points `first, first + step, …` up to `last`. -/
structure Run where
  first : Nat
  last : Nat
  step : Nat
  deriving Repr, DecidableEq

/-- Whether a code point lies on the run. -/
def Run.has (r : Run) (n : Nat) : Bool :=
  decide (r.first ≤ n) && decide (n ≤ r.last) && (n - r.first) % r.step == 0

/-- Whether a code point lies on one of the runs. -/
def covered (runs : List Run) (n : Nat) : Bool :=
  runs.any (·.has n)

/-- An ASCII test below `0x80` and a table from there on. -/
def byTable (ascii : Char → Bool) (runs : List Run) (c : Char) : Bool :=
  if c.toNat < 0x80 then ascii c else covered runs c.toNat

theorem byTable_ascii {ascii : Char → Bool} {runs : List Run} {c : Char} (h : c.toNat < 0x80) :
    byTable ascii runs c = ascii c := by
  simp [byTable, h]

end TierLineage.Text
