import Switchboard.Scheduler.FanIn

/-!
# Switchboard.Scheduler.Basic

The state of everything that runs, on one virtual clock.  Tasks that can go
on stand in a queue; those that sleep stand with the timers, in the order in
which they are due and, due at the same time, in the order in which they fell
asleep; those that wait for an outcome are parked under its ticket.  The
clock moves only when nothing can go on, and then to the next timer.

Beside the state stands its history: what was emitted, taken, started,
answered and settled, and when.
-/

namespace Switchboard

/-- A task beside the main routine. -/
inductive Task (σ : Type) where
  /-- A member of a group, before its resolver has been started. -/
  | begin (ticket : Ticket) (index : Nat) (command : Command) (job : Job σ Answer)
  /-- A member of a group whose resolver has slept. -/
  | resume (ticket : Ticket) (index : Nat) (job : Job σ Answer)
  /-- An errand with a handle to the given line. -/
  | errand (line : Nat) (errand : Errand σ)

/-- What a timer wakes. -/
inductive Sleeper (σ : Type) where
  | main
  | task (t : Task σ)

namespace Sleeper

variable {σ : Type}

def isMain : Sleeper σ → Bool
  | .main => true
  | .task _ => false

def task? : Sleeper σ → Option (Task σ)
  | .main => none
  | .task t => some t

end Sleeper

/-- An errand that waits for the outcome of an emission. -/
structure Waiter (σ : Type) where
  ticket : Ticket
  line : Nat
  next : Outcome → Errand σ

/-- A waiter as a task that looks again at what it waits for. -/
def Waiter.task {σ : Type} (w : Waiter σ) : Task σ := .errand w.line (.await w.ticket w.next)

/-- How far the resolution of an effect has come. -/
inductive Work (σ : Type) where
  /-- The resolver of a single command is at work, or sleeps until it is due. -/
  | single (due : Nat) (job : Job σ Answer)
  /-- The members of a group are at work; each slot holds an answer or not. -/
  | group (effect : Effect) (slots : List (Option Answer))

/-- The line between a script and its interpreter: what has been emitted and
not yet taken, and what is being resolved. -/
structure Line (σ : Type) where
  number : Nat
  inbox : List (Ticket × Effect) := []
  current : Option (Ticket × Work σ) := none

/-- The emissions on a line that have been sent no outcome yet. -/
def Line.pending {σ : Type} (l : Line σ) : List Ticket :=
  (l.current.map (·.1)).toList ++ l.inbox.map (·.1)

/-- What happens in a run, for those who look back at it. -/
inductive Event (σ : Type) where
  /-- The interpretation of a script begins. -/
  | opened (line : Nat) (around : Surroundings σ)
  /-- The script has run as far as it could, and is not finished.  It may wait
  for the outcome of an emission. -/
  | polled (line : Nat) (wanted : Option Ticket)
  | emitted (line : Nat) (ticket : Ticket) (effect : Effect)
  | taken (line : Nat) (ticket : Ticket) (effect : Effect)
  /-- The resolver of a command of an effect begins. -/
  | started (ticket : Ticket) (index : Nat) (command : Command)
  /-- The resolver of a command of an effect has answered. -/
  | answered (ticket : Ticket) (index : Nat) (answer : Answer)
  /-- An outcome is sent to whoever emitted the effect. -/
  | settled (ticket : Ticket) (outcome : Outcome)
  /-- Whoever waited for an outcome goes on with it. -/
  | resumed (ticket : Ticket) (outcome : Outcome)
  /-- The interpretation is over: its script is finished, or else it has broken
  off. -/
  | ended (line : Nat) (finished : Bool)

/-- Events and their times, newest first. -/
abbrev History (σ : Type) := List (Nat × Event σ)

structure Scheduler (ξ σ : Type) where
  clock : Nat := 0
  /-- The state of the main routine. -/
  state : ξ
  world : World σ
  ready : List (Task σ) := []
  timers : List (Nat × Sleeper σ) := []
  parked : List (Waiter σ) := []
  outcomes : List (Ticket × Outcome) := []
  /-- The emissions for whose outcome nobody will wait any more. -/
  dropped : Ticket → Bool := fun _ => false
  nextTicket : Ticket := 0
  /-- Line 0 is never open. -/
  nextLine : Nat := 1
  /-- The line of the interpretation that is under way. -/
  line : Option (Line σ) := none
  /-- The main routine may be able to go on. -/
  woken : Bool := true
  history : History σ := []

namespace Scheduler

variable {ξ σ : Type}

def log (s : Scheduler ξ σ) (e : Event σ) : Scheduler ξ σ :=
  { s with history := (s.clock, e) :: s.history }

/-! ## Timers -/

/-- Put a sleeper behind all that are due no later. -/
def insertTimer (due : Nat) (who : Sleeper σ) :
    List (Nat × Sleeper σ) → List (Nat × Sleeper σ)
  | [] => [(due, who)]
  | (d, w) :: rest =>
    if d ≤ due then (d, w) :: insertTimer due who rest else (due, who) :: (d, w) :: rest

def addTimer (s : Scheduler ξ σ) (due : Nat) (who : Sleeper σ) : Scheduler ξ σ :=
  { s with timers := insertTimer due who s.timers }

def enqueue (s : Scheduler ξ σ) (t : Task σ) : Scheduler ξ σ :=
  { s with ready := s.ready ++ [t] }

/-- Wake, in order, everything that is due now. -/
def wakeDue (s : Scheduler ξ σ) : Scheduler ξ σ :=
  let due := s.timers.takeWhile fun t => t.1 ≤ s.clock
  { s with
    timers := s.timers.dropWhile fun t => t.1 ≤ s.clock
    ready := s.ready ++ due.filterMap fun t => t.2.task?
    woken := s.woken || due.any fun t => t.2.isMain }

/-- Move the clock to the next timer, if there is one. -/
def advance? (s : Scheduler ξ σ) : Option (Scheduler ξ σ) :=
  match s.timers with
  | [] => none
  | (due, _) :: _ => some { s with clock := max s.clock due }.wakeDue

/-! ## Outcomes -/

def outcome? (s : Scheduler ξ σ) (t : Ticket) : Option Outcome := s.outcomes.lookup t

/-- Those who wait for an outcome and will receive it. -/
def waiters (s : Scheduler ξ σ) (t : Ticket) : List (Waiter σ) :=
  if s.dropped t then [] else s.parked.filter (·.ticket = t)

/-- Send an outcome to whoever emitted the effect.  Those who wait for it can
go on; where it was dropped nobody is there to receive it. -/
def settle (s : Scheduler ξ σ) (t : Ticket) (o : Outcome) : Scheduler ξ σ :=
  { s with
    outcomes := if s.dropped t then s.outcomes else (t, o) :: s.outcomes
    parked := if s.dropped t then s.parked else s.parked.filter (·.ticket ≠ t)
    ready := s.ready ++ (s.waiters t).map Waiter.task }.log (.settled t o)

/-- Drop what could be waited for: an outcome that has arrived is lost, and
one that is sent later arrives nowhere. -/
def drop (s : Scheduler ξ σ) (t : Ticket) : Scheduler ξ σ :=
  { s with
    dropped := fun u => u = t || s.dropped u
    outcomes := s.outcomes.filter (·.1 ≠ t) }

/-- Emit an effect on a line.  It waits in the inbox if the line is open, and
is detached at once if it is not. -/
def emit (s : Scheduler ξ σ) (line : Nat) (e : Effect) : Ticket × Scheduler ξ σ :=
  let t := s.nextTicket
  let s := { s with nextTicket := t + 1 }.log (.emitted line t e)
  match s.line with
  | some l =>
    if l.number = line then
      (t, { s with line := some { l with inbox := l.inbox ++ [(t, e)] }, woken := true })
    else (t, s.settle t (.error .detached))
  | none => (t, s.settle t (.error .detached))

/-! ## Lines -/

/-- Open a line, with the next number, for a new interpretation. -/
def openLine (s : Scheduler ξ σ) (around : Surroundings σ) : Scheduler ξ σ :=
  { s with nextLine := s.nextLine + 1, line := some { number := s.nextLine } }.log
    (.opened s.nextLine around)

/-- Send one outcome to several emitters, in order. -/
def settleAll (s : Scheduler ξ σ) (o : Outcome) (ts : List Ticket) : Scheduler ξ σ :=
  ts.foldl (fun s t => s.settle t o) s

/-- Close the line, because the script is finished or has broken off: whatever
has been emitted and has no outcome is detached. -/
def closeLine (s : Scheduler ξ σ) (finished : Bool) : Scheduler ξ σ :=
  match s.line with
  | none => s
  | some l =>
    ({ s with line := none }.log (.ended l.number finished)).settleAll (.error .detached) l.pending

end Scheduler

end Switchboard
