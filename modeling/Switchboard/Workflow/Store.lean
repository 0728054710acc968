import Switchboard.Script

/-!
# Switchboard.Workflow.Store

What workflows and their resolvers keep between calls: a tally for every
resolver that counts, the emissions whose outcomes are to be asked for later,
and whether the way to the interpreter was kept.
-/

namespace Switchboard.Workflow

structure Store where
  /-- How often each counting resolver was called. -/
  tallies : List (Nat × Nat) := []
  /-- Emissions to be asked about after the end, newest first. -/
  stashed : List Ticket := []
  handleKept : Bool := false

namespace Store

def tally (s : Store) (counter : Nat) : Nat := (s.tallies.lookup counter).getD 0

/-- Count one more call. -/
def count (s : Store) (counter : Nat) : Store :=
  { s with tallies := (counter, s.tally counter + 1) :: s.tallies.filter (·.1 ≠ counter) }

def stash (s : Store) (t : Ticket) : Store := { s with stashed := t :: s.stashed }

def keepHandle (s : Store) : Store := { s with handleKept := true }

end Store

end Switchboard.Workflow
