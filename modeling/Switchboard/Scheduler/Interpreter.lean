import Switchboard.Scheduler.Basic

/-!
# Switchboard.Scheduler.Interpreter

Interpreting a script.  The script goes first; when it cannot go on, the
interpreter takes the oldest effect from the line and resolves it, and sends
the outcome to whoever emitted it before it looks at the script again.  While
an effect is being resolved the script does not run.

A single command is resolved in place.  The members of a group become tasks
of their own, unless one of their names is unknown: then nothing is started.
-/

namespace Switchboard

/-- The resumption of an effect from the values of its commands. -/
def Effect.resumed : Effect → List Json → Resumed
  | .single _, vs => .single (vs.headD .null)
  | .sequence _, vs => .sequence vs
  | .mapping cs, vs => .mapping (cs.relabel vs)

/-- A failure without words of its own: a member of a group has crashed. -/
def Failure.crashedMember : Failure := .ofMessage "resolver task failed"

namespace Scheduler

variable {ξ σ ρ : Type}

/-! ## Tasks -/

/-- Take note of a member's answer.  It reaches the group only while the group
is being resolved. -/
def report (s : Scheduler ξ σ) (t : Ticket) (i : Nat) (a : Answer) : Scheduler ξ σ :=
  let s := s.log (.answered t i a)
  match s.line with
  | some { number, inbox, current := some (u, .group e slots) } =>
    if u = t then
      { s with
        line := some { number, inbox, current := some (u, .group e (slots.set i (some a))) }
        woken := true }
    else s
  | _ => s

/-- Run the job of a group's member until it stops. -/
def runMember (s : Scheduler ξ σ) (t : Ticket) (i : Nat) (job : Job σ Answer) :
    Scheduler ξ σ :=
  match job.burst s.clock s.world with
  | (.done a, w) => { s with world := w }.report t i a
  | (.crashed, w) => { s with world := w }.report t i (.error .crashedMember)
  | (.asleep due next, w) => { s with world := w }.addTimer due (.task (.resume t i next))

/-- Run an errand until it stops. -/
def runErrand (line : Nat) : Errand σ → Scheduler ξ σ → Scheduler ξ σ
  | .done, s => s
  | .look next, s => runErrand line (next s.clock s.world) s
  | .write change next, s => runErrand line next { s with world := change s.world }
  | .emit e next, s => runErrand line (next (s.emit line e).1) (s.emit line e).2
  | .await t next, s => match s.outcome? t with
    | some o => runErrand line (next o) (s.log (.resumed t o))
    | none => { s with parked := s.parked ++ [⟨t, line, next⟩] }
  | .drop t next, s => runErrand line next (s.drop t)
  | .sleep ms next, s =>
    if ms = 0 then runErrand line next s
    else s.addTimer (s.clock + ms) (.task (.errand line next))

def runTask (s : Scheduler ξ σ) : Task σ → Scheduler ξ σ
  | .begin t i c job => (s.log (.started t i c)).runMember t i job
  | .resume t i job => s.runMember t i job
  | .errand line e => runErrand line e s

/-- Give the first tasks in the queue their turn. -/
def runReady (s : Scheduler ξ σ) : (turns : Nat) → Scheduler ξ σ
  | 0 => s
  | turns + 1 => match s.ready with
    | [] => s
    | t :: rest => ({ s with ready := rest }.runTask t).runReady turns

/-- Run every task that stands in the queue, in order.  Those that are put
there meanwhile have to wait. -/
def drain (s : Scheduler ξ σ) : Scheduler ξ σ := s.runReady s.ready.length

/-! ## Effects -/

/-- How far the interpreter has come with an effect, or with all of them. -/
inductive Progress (ξ σ : Type) where
  /-- There is nothing left to do for now. -/
  | settled (s : Scheduler ξ σ)
  /-- A resolver is at work. -/
  | waiting (s : Scheduler ξ σ)
  | crashed (s : Scheduler ξ σ)

def setCurrent (s : Scheduler ξ σ) (current : Option (Ticket × Work σ)) : Scheduler ξ σ :=
  { s with line := s.line.map fun l => { l with current } }

/-- Run the resolver of a single command until it stops.  Where it crashes the
effect is left as it is. -/
def runSingle (s : Scheduler ξ σ) (t : Ticket) (job : Job σ Answer) : Progress ξ σ :=
  match job.burst s.clock s.world with
  | (.done a, w) =>
    .settled ((({ s with world := w }.log (.answered t 0 a)).setCurrent none).settle t
      (a.map .single))
  | (.crashed, w) => .crashed ({ s with world := w }.setCurrent (some (t, .single s.clock .crash)))
  | (.asleep due next, w) =>
    .waiting (({ s with world := w }.addTimer due .main).setCurrent (some (t, .single due next)))

/-- The members of a group as tasks, or the first name that is unknown. -/
def members (around : Surroundings σ) (t : Ticket) (i : Nat) :
    List Command → Except String (List (Task σ))
  | [] => .ok []
  | c :: rest => match around.resolve? c with
    | none => .error c.name
    | some job => (members around t (i + 1) rest).map (.begin t i c job :: ·)

/-- Look whether a group is decided. -/
def runGroup (s : Scheduler ξ σ) (t : Ticket) (e : Effect) (slots : List (Option Answer)) :
    Progress ξ σ :=
  match FanIn.outcome? slots with
  | some r => .settled ((s.setCurrent none).settle t (r.map e.resumed))
  | none => .waiting (s.setCurrent (some (t, .group e slots)))

/-- Start the members of a group. -/
def startGroup (around : Surroundings σ) (s : Scheduler ξ σ) (t : Ticket) (e : Effect) :
    Progress ξ σ :=
  match members around t 0 e.commands with
  | .error name => .settled (s.settle t (.error (.unknownCommand name)))
  | .ok tasks =>
    runGroup { s with ready := s.ready ++ tasks } t e (List.replicate tasks.length none)

/-- Begin to resolve an effect. -/
def start (around : Surroundings σ) (s : Scheduler ξ σ) (t : Ticket) (e : Effect) :
    Progress ξ σ :=
  match e with
  | .single c => match around.resolve? c with
    | none => .settled (s.settle t (.error (.unknownCommand c.name)))
    | some job => (s.log (.started t 0 c)).runSingle t job
  | e => startGroup around s t e

/-- Go on with the effect that is being resolved, if there is one. -/
def proceed (s : Scheduler ξ σ) : Progress ξ σ :=
  match s.line with
  | some { current := some (t, .single due job), .. } =>
    if due ≤ s.clock then s.runSingle t job else .waiting s
  | some { current := some (t, .group e slots), .. } => s.runGroup t e slots
  | _ => .settled s

/-- Take the oldest effect off the line. -/
def take? (s : Scheduler ξ σ) : Option ((Ticket × Effect) × Scheduler ξ σ) :=
  match s.line with
  | some { number, inbox := first :: inbox, current } =>
    some (first, { s with line := some { number, inbox, current } }.log
      (.taken number first.1 first.2))
  | _ => none

/-- The script cannot go on: note that it was looked at, and what it waits
for. -/
def notePoll (s : Scheduler ξ σ) (wanted : Option Ticket) : Scheduler ξ σ :=
  match s.line with
  | some l => s.log (.polled l.number wanted)
  | none => s

/-- The outcome for which the script waits is there. -/
def arrived (s : Scheduler ξ σ) (wanted : Option Ticket) : Bool :=
  (wanted.bind s.outcome?).isSome

/-- The script has been looked at and cannot go on.  Resolve effects, at most
`steps` of them, until the line is empty or a resolver has to be waited for.  The
script is looked at after each of them, and goes on if the outcome is there for
which it waits. -/
def serve (around : Surroundings σ) (wanted : Option Ticket) :
    (steps : Nat) → Scheduler ξ σ → Progress ξ σ
  | 0, s => .settled s
  | steps + 1, s => match s.take? with
    | none => .settled s
    | some ((t, e), s) => match start around s t e with
      | .settled s =>
        if s.arrived wanted then .settled s else serve around wanted steps (s.notePoll wanted)
      | .waiting s => .waiting s
      | .crashed s => .crashed s

/-- How many effects wait on the line. -/
def backlog (s : Scheduler ξ σ) : Nat := (s.line.map (·.inbox.length)).getD 0

/-- Resolve effects while the script cannot go on. -/
def serveLine (around : Surroundings σ) (wanted : Option Ticket) (s : Scheduler ξ σ) :
    Progress ξ σ :=
  serve around wanted s.backlog s

/-! ## Scripts -/

/-- Where a script stands that cannot go on. -/
inductive Standing (ξ σ ρ : Type) where
  /-- Before this. -/
  | before (script : Script ξ σ ρ)
  | asleep (due : Nat) (next : Script ξ σ ρ)

/-- What came of running a script. -/
inductive Interpreted (ξ σ ρ : Type) where
  | finished (result : Except Failure ρ) (s : Scheduler ξ σ)
  | blocked (standing : Standing ξ σ ρ) (s : Scheduler ξ σ)
  | crashed (s : Scheduler ξ σ)

/-- Run a script and resolve its effects, as far as possible at this
moment. -/
def runScript (around : Surroundings σ) (line : Nat) :
    Script ξ σ ρ → Scheduler ξ σ → Interpreted ξ σ ρ
  | .done r, s => .finished r s
  | .look next, s => runScript around line (next s.clock s.state s.world) s
  | .write change next, s => runScript around line next { s with state := change s.state }
  | .note change next, s => runScript around line next { s with world := change s.world }
  | .spawn e next, s => runScript around line next (s.enqueue (.errand line e))
  | .emit e next, s => runScript around line (next (s.emit line e).1) (s.emit line e).2
  | .drop t next, s => runScript around line next (s.drop t)
  | .sleep ms next, s =>
    if ms = 0 then runScript around line next s
    else
      let due := s.clock + ms
      match serveLine around none ((s.addTimer due .main).notePoll none) with
      | .settled s => .blocked (.asleep due next) s
      | .waiting s => .blocked (.asleep due next) s
      | .crashed s => .crashed s
  | .await t next, s => match s.outcome? t with
    | some o => runScript around line (next o) (s.log (.resumed t o))
    | none => match serveLine around (some t) (s.notePoll (some t)) with
      | .waiting s => .blocked (.before (.await t next)) s
      | .crashed s => .crashed s
      | .settled s => match s.outcome? t with
        | some o => runScript around line (next o) (s.log (.resumed t o))
        | none => .blocked (.before (.await t next)) s

/-- Go on with a script whose interpreter is free. -/
def continueScript (around : Surroundings σ) (line : Nat) (standing : Standing ξ σ ρ)
    (s : Scheduler ξ σ) : Interpreted ξ σ ρ :=
  match standing with
  | .before script => runScript around line script s
  | .asleep due next =>
    if due ≤ s.clock then runScript around line next s
    else match serveLine around none (s.notePoll none) with
      | .settled s => .blocked standing s
      | .waiting s => .blocked standing s
      | .crashed s => .crashed s

/-- Go on with the effect that is being resolved, and then with the
script. -/
def continueLine (around : Surroundings σ) (line : Nat) (standing : Standing ξ σ ρ)
    (s : Scheduler ξ σ) : Interpreted ξ σ ρ :=
  match s.proceed with
  | .settled s => continueScript around line standing s
  | .waiting s => .blocked standing s
  | .crashed s => .crashed s

end Scheduler

end Switchboard
