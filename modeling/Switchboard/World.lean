import Switchboard.Journal

/-!
# Switchboard.World

What resolvers, hooks and scripts share: the journal, a source of entropy,
and whatever state of their own they keep between calls.
-/

namespace Switchboard

structure World (σ : Type) where
  /-- The state that resolvers and hooks keep for themselves. -/
  own : σ
  journal : Journal := []
  /-- The state of the generator behind random values. -/
  entropy : Nat := 0

namespace World

variable {σ : Type}

/-- Leave a mark in the journal. -/
def mark (w : World σ) (m : Json) : World σ := { w with journal := .mark m :: w.journal }

/-- Write log records down in order. -/
def log (w : World σ) (records : List LogRecord) : World σ :=
  { w with journal := w.journal.log records }

/-- The next state of the generator: a linear congruence on 64 bits. -/
def stir (w : World σ) : World σ :=
  { w with entropy := (w.entropy * 6364136223846793005 + 1442695040888963407) % UInt64.size }

end World

end Switchboard
