import Switchboard.Scheduler.Interpreter

/-!
# Switchboard.Scheduler.Run

Running a routine to its end.  In every round the main routine goes as far as
it can, then every task in the queue has its turn; when nothing can go on, the
clock moves to the next timer.  Tasks that are left when the routine ends stay
in the scheduler, for the next routine to go on beside them.
-/

namespace Switchboard

namespace Scheduler

variable {ξ σ ρ α : Type}

/-- Where the main routine stands between two rounds. -/
inductive Main (ξ σ ρ α : Type) where
  | before (routine : Routine ξ σ ρ α)
  | asleep (due : Nat) (next : Routine ξ σ ρ α)
  /-- A script is being interpreted on a line. -/
  | within (around : Surroundings σ) (line : Nat) (standing : Standing ξ σ ρ)
      (next : Except Failure ρ → Routine ξ σ ρ α)

/-- What came of the turn of the main routine. -/
inductive Turn (ξ σ ρ α : Type) where
  | finished (result : α) (s : Scheduler ξ σ)
  | blocked (main : Main ξ σ ρ α) (s : Scheduler ξ σ)
  | crashed (s : Scheduler ξ σ)

/-- Go on after a script has been run as far as possible.  When it is over its
line is closed. -/
def Interpreted.turn (around : Surroundings σ) (line : Nat)
    (next : Except Failure ρ → Routine ξ σ ρ α)
    (go : Except Failure ρ → Scheduler ξ σ → Turn ξ σ ρ α) : Interpreted ξ σ ρ → Turn ξ σ ρ α
  | .finished r s => go r (s.closeLine true)
  | .blocked standing s => .blocked (.within around line standing next) s
  | .crashed s => .crashed (s.closeLine false)

/-- Run a routine as far as possible at this moment. -/
def runRoutine : Routine ξ σ ρ α → Scheduler ξ σ → Turn ξ σ ρ α
  | .done a, s => .finished a s
  | .crash, s => .crashed s
  | .look next, s => runRoutine (next s.clock s.state s.world) s
  | .write change next, s => runRoutine next { s with state := change s.state }
  | .note change next, s => runRoutine next { s with world := change s.world }
  | .sleep ms next, s =>
    if ms = 0 then runRoutine next s
    else
      let due := s.clock + ms
      .blocked (.asleep due next) (s.addTimer due .main)
  | .emit e next, s =>
    runRoutine (next (s.emit (s.nextLine - 1) e).1) (s.emit (s.nextLine - 1) e).2
  | .peek t next, s => match s.outcome? t with
    | some o => runRoutine (next (some o)) (s.log (.resumed t o))
    | none => runRoutine (next none) s
  | .interpret around script next, s =>
    (runScript around s.nextLine script (s.openLine around)).turn around s.nextLine next
      fun r => runRoutine (next r)

/-- The turn of the main routine. -/
def turn (main : Main ξ σ ρ α) (s : Scheduler ξ σ) : Turn ξ σ ρ α :=
  match main with
  | .before routine => runRoutine routine s
  | .asleep due next => if due ≤ s.clock then runRoutine next s else .blocked main s
  | .within around line standing next =>
    (continueLine around line standing s).turn around line next fun r => runRoutine (next r)

/-- How a run ends. -/
inductive Result (ξ σ α : Type) where
  | finished (result : α) (s : Scheduler ξ σ)
  | crashed (s : Scheduler ξ σ)
  /-- The routine waits for something that will never happen. -/
  | stuck (s : Scheduler ξ σ)
  /-- The rounds have run out. -/
  | unfinished (s : Scheduler ξ σ)

/-- What came of a round. -/
inductive Round (ξ σ ρ α : Type) where
  | done (result : Result ξ σ α)
  | next (main : Main ξ σ ρ α) (s : Scheduler ξ σ)

/-- The end of a round: if nothing can go on the clock moves. -/
def endRound (main : Main ξ σ ρ α) (s : Scheduler ξ σ) : Round ξ σ ρ α :=
  if s.woken || !s.ready.isEmpty then .next main s
  else match s.advance? with
    | some s => .next main s
    | none => .done (.stuck s)

/-- The second half of a round: the tasks have their turn, and if nothing can
go on afterwards the clock moves. -/
def settleRound (main : Main ξ σ ρ α) (s : Scheduler ξ σ) : Round ξ σ ρ α :=
  endRound main s.drain

/-- A round: the main routine goes as far as it can, then the tasks. -/
def round (main : Main ξ σ ρ α) (s : Scheduler ξ σ) : Round ξ σ ρ α :=
  if s.woken then
    match turn main { s with woken := false } with
    | .finished a s => .done (.finished a s)
    | .crashed s => .done (.crashed s)
    | .blocked main s => settleRound main s
  else settleRound main s

/-- Run for a number of rounds. -/
def rounds : (fuel : Nat) → Main ξ σ ρ α → Scheduler ξ σ → Result ξ σ α
  | 0, _, s => .unfinished s
  | fuel + 1, main, s => match round main s with
    | .done r => r
    | .next main s => rounds fuel main s

/-- The rounds that a run may take. -/
def horizon : Nat := 1000000000

/-- Run a routine beside whatever the scheduler holds already. -/
def run (routine : Routine ξ σ ρ α) (s : Scheduler ξ σ) : Result ξ σ α :=
  rounds horizon (.before routine) { s with woken := true }

end Scheduler

end Switchboard
