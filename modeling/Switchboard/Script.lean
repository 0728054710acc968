import Switchboard.Command
import Switchboard.Failure
import Switchboard.World

/-!
# Switchboard.Script

Computations that run next to each other on one clock.  Each is a tree that
says what to do next; a function in it continues with what has been seen or
received.  Nothing is interrupted: a computation goes on until it sleeps,
waits for an answer, or ends.

* `Job`: a resolver or a hook at work.  It sees the shared world only.
* `Errand`: a task of its own that emits effects and waits for outcomes.
* `Script`: a handler under an interpreter.  It may emit an effect and wait
  for its outcome at once, later or never, it may drop what it could wait for,
  and it sees its own state besides the world.
* `Routine`: what drives all of it: a handler without effects, the
  interpretation of a script, and everything before and after.

The parameters are the state `ξ` that belongs to one run, the state `σ` that
the world keeps, and the type of the result.
-/

namespace Switchboard

/-- Names one emission of an effect. -/
abbrev Ticket := Nat

/-- What becomes of an effect. -/
abbrev Outcome := Except Failure Resumed

/-- What a resolver answers. -/
abbrev Answer := Except Failure Json

/-! ## Jobs -/

/-- A computation on the shared world. -/
inductive Job (σ α : Type) where
  | done (result : α)
  /-- Ends without a result. -/
  | crash
  | look (next : Nat → World σ → Job σ α)
  | write (change : World σ → World σ) (next : Job σ α)
  | sleep (ms : Nat) (next : Job σ α)

namespace Job

variable {σ α β : Type}

/-- Continue with the result of a job. -/
def bind (j : Job σ α) (f : α → Job σ β) : Job σ β :=
  match j with
  | .done a => f a
  | .crash => .crash
  | .look next => .look fun now w => (next now w).bind f
  | .write change next => .write change (next.bind f)
  | .sleep ms next => .sleep ms (next.bind f)

/-- Leave a mark that depends on the time. -/
def mark (m : Nat → Json) (next : Job σ α) : Job σ α :=
  .look fun now _ => .write (·.mark (m now)) next

/-- Where a job stops running: with a result, without one, or asleep. -/
inductive Pause (σ α : Type) where
  | done (result : α)
  | crashed
  | asleep (due : Nat) (next : Job σ α)

/-- Run a job at one moment, until it stops.  A sleep of no time does not
stop it. -/
def burst (now : Nat) : Job σ α → World σ → Pause σ α × World σ
  | .done a, w => (.done a, w)
  | .crash, w => (.crashed, w)
  | .look next, w => (next now w).burst now w
  | .write change next, w => next.burst now (change w)
  | .sleep ms next, w => if ms = 0 then next.burst now w else (.asleep (now + ms) next, w)

end Job

/-! ## Errands -/

/-- A task that a script sets off, with a handle to the script's
interpreter. -/
inductive Errand (σ : Type) where
  | done
  | look (next : Nat → World σ → Errand σ)
  | write (change : World σ → World σ) (next : Errand σ)
  | emit (effect : Effect) (next : Ticket → Errand σ)
  | await (ticket : Ticket) (next : Outcome → Errand σ)
  | drop (ticket : Ticket) (next : Errand σ)
  | sleep (ms : Nat) (next : Errand σ)

/-! ## Scripts -/

/-- A handler under an interpreter. -/
inductive Script (ξ σ ρ : Type) where
  | done (result : Except Failure ρ)
  | look (next : Nat → ξ → World σ → Script ξ σ ρ)
  | write (change : ξ → ξ) (next : Script ξ σ ρ)
  | note (change : World σ → World σ) (next : Script ξ σ ρ)
  | emit (effect : Effect) (next : Ticket → Script ξ σ ρ)
  | await (ticket : Ticket) (next : Outcome → Script ξ σ ρ)
  /-- Nobody will wait for the outcome of an emission any more. -/
  | drop (ticket : Ticket) (next : Script ξ σ ρ)
  | sleep (ms : Nat) (next : Script ξ σ ρ)
  | spawn (errand : Errand σ) (next : Script ξ σ ρ)

namespace Script

variable {ξ σ ρ : Type}

/-- The same script with its result changed. -/
def map {τ : Type} (f : ρ → τ) : Script ξ σ ρ → Script ξ σ τ
  | .done r => .done (r.map f)
  | .look next => .look fun now x w => (next now x w).map f
  | .write change next => .write change (next.map f)
  | .note change next => .note change (next.map f)
  | .emit effect next => .emit effect fun t => (next t).map f
  | .await ticket next => .await ticket fun o => (next o).map f
  | .drop ticket next => .drop ticket (next.map f)
  | .sleep ms next => .sleep ms (next.map f)
  | .spawn errand next => .spawn errand (next.map f)

/-- Emit an effect and wait for its outcome. -/
def suspend (effect : Effect) (next : Outcome → Script ξ σ ρ) : Script ξ σ ρ :=
  .emit effect fun t => .await t next

/-- A resumption of another shape than the effect's. -/
def shapeMismatch (expected : String) (got : Resumed) : Failure :=
  .ofMessage s!"expected a {expected} result, resumed with {got.kind}"

def asSingle : Outcome → Except Failure Json
  | .error f => .error f
  | .ok (.single v) => .ok v
  | .ok r => .error (shapeMismatch "single" r)

def asSequence : Outcome → Except Failure (List Json)
  | .error f => .error f
  | .ok (.sequence vs) => .ok vs
  | .ok r => .error (shapeMismatch "sequence" r)

def asMapping : Outcome → Except Failure (Labelled Json)
  | .error f => .error f
  | .ok (.mapping vs) => .ok vs
  | .ok r => .error (shapeMismatch "mapping" r)

/-- Perform one command. -/
def perform (command : Command) (next : Except Failure Json → Script ξ σ ρ) :
    Script ξ σ ρ :=
  suspend (.single command) fun o => next (asSingle o)

/-- Perform commands side by side. -/
def all (commands : List Command) (next : Except Failure (List Json) → Script ξ σ ρ) :
    Script ξ σ ρ :=
  suspend (.sequence commands) fun o => next (asSequence o)

/-- Perform commands side by side, under labels. -/
def allNamed (commands : Labelled Command)
    (next : Except Failure (Labelled Json) → Script ξ σ ρ) : Script ξ σ ρ :=
  suspend (.mapping commands) fun o => next (asMapping o)

/-- Wait for several outcomes, in order. -/
def awaitAll : List Ticket → (List Outcome → Script ξ σ ρ) → Script ξ σ ρ
  | [], next => next []
  | t :: ts, next => .await t fun o => awaitAll ts fun os => next (o :: os)

/-- Emit several effects, in order. -/
def emitAll : List Effect → (List Ticket → Script ξ σ ρ) → Script ξ σ ρ
  | [], next => next []
  | e :: es, next => .emit e fun t => emitAll es fun ts => next (t :: ts)

/-- Perform commands that are started together, each on its own. -/
def join (commands : List Command) (next : List (Except Failure Json) → Script ξ σ ρ) :
    Script ξ σ ρ :=
  emitAll (commands.map .single) fun ts => awaitAll ts fun os => next (os.map asSingle)

/-- Leave a mark that depends on the time. -/
def mark (m : Nat → Json) (next : Script ξ σ ρ) : Script ξ σ ρ :=
  .look fun now _ _ => .note (·.mark (m now)) next

end Script

/-! ## Routines -/

/-- What interpretation needs besides the script. -/
structure Surroundings (σ : Type) where
  ambient : Context
  /-- The job of a command's resolver, if its name is known. -/
  resolve? : Command → Option (Job σ Answer)

/-- A computation that may have scripts interpreted. -/
inductive Routine (ξ σ ρ α : Type) where
  | done (result : α)
  | crash
  | look (next : Nat → ξ → World σ → Routine ξ σ ρ α)
  | write (change : ξ → ξ) (next : Routine ξ σ ρ α)
  | note (change : World σ → World σ) (next : Routine ξ σ ρ α)
  | sleep (ms : Nat) (next : Routine ξ σ ρ α)
  | interpret (around : Surroundings σ) (script : Script ξ σ ρ)
      (next : Except Failure ρ → Routine ξ σ ρ α)
  /-- Emit an effect where no interpreter listens. -/
  | emit (effect : Effect) (next : Ticket → Routine ξ σ ρ α)
  /-- Look at what has become of an emission. -/
  | peek (ticket : Ticket) (next : Option Outcome → Routine ξ σ ρ α)

namespace Routine

variable {ξ σ ρ α β : Type}

/-- Continue with the result of a routine. -/
def bind (p : Routine ξ σ ρ α) (f : α → Routine ξ σ ρ β) : Routine ξ σ ρ β :=
  match p with
  | .done a => f a
  | .crash => .crash
  | .look next => .look fun now x w => (next now x w).bind f
  | .write change next => .write change (next.bind f)
  | .note change next => .note change (next.bind f)
  | .sleep ms next => .sleep ms (next.bind f)
  | .interpret around script next => .interpret around script fun r => (next r).bind f
  | .emit effect next => .emit effect fun t => (next t).bind f
  | .peek ticket next => .peek ticket fun o => (next o).bind f

instance : Monad (Routine ξ σ ρ) where
  pure := .done
  bind := .bind

/-- A job as a routine. -/
def ofJob : Job σ α → Routine ξ σ ρ α
  | .done a => .done a
  | .crash => .crash
  | .look next => .look fun now _ w => ofJob (next now w)
  | .write change next => .note change (ofJob next)
  | .sleep ms next => .sleep ms (ofJob next)

/-- The time. -/
def now : Routine ξ σ ρ Nat := .look fun now _ _ => .done now

def pause (ms : Nat) : Routine ξ σ ρ Unit := .sleep ms (.done ())

/-- Leave a mark that depends on the time. -/
def mark (m : Nat → Json) : Routine ξ σ ρ Unit :=
  .look fun now _ _ => .note (·.mark (m now)) (.done ())

end Routine

end Switchboard
