import Switchboard.Proofs.State

/-!
# Switchboard.Proofs.Steps

Everything that can happen to a scheduler, one constructor a kind of change.
What a script, an errand, a resolver and the interpreter do is a sequence of
such steps; so whatever every step keeps, every run keeps.
-/

namespace Switchboard.Scheduler

variable {ξ σ ρ α : Type}

/-- No member of a group stands in the queue. -/
def Quiet (s : Scheduler ξ σ) : Prop := s.ready.filterMap (·.member? s.clock) = []

/-- The state in which the interpreter has stopped with an effect. -/
def Progress.state : Progress ξ σ → Scheduler ξ σ
  | .settled s | .waiting s | .crashed s => s

/-- The oldest effect of a line that is free, which has just been polled. -/
structure Next (s : Scheduler ξ σ) (n : Nat) (around : Surroundings σ) (t : Ticket) (e : Effect)
    (inbox : List (Ticket × Effect)) : Prop where
  line : s.line = some { number := n, inbox := (t, e) :: inbox }
  polled : ∃ w past, s.history = (s.clock, .polled n w) :: past
  opened : s.history.Opened n around

inductive Step : Scheduler ξ σ → Scheduler ξ σ → Prop where
  /-- The state of the main routine or the world has changed, or it has become
  known whether the main routine can go on. -/
  | touch (s : Scheduler ξ σ) (x : ξ) (w : World σ) (woken : Bool) :
      Step s { s with state := x, world := w, woken }
  | emit (s : Scheduler ξ σ) (n : Nat) (e : Effect) (hn : n < s.nextLine) : Step s (s.emit n e).2
  | drop (s : Scheduler ξ σ) (t : Ticket) : Step s (s.drop t)
  | resume (s : Scheduler ξ σ) (t : Ticket) (o : Outcome) (ho : s.outcome? t = some o) :
      Step s (s.log (.resumed t o))
  -- errands
  | spawn (s : Scheduler ξ σ) (n : Nat) (e : Errand σ) (hn : n < s.nextLine) :
      Step s (s.enqueue (.errand n e))
  | pop (s : Scheduler ξ σ) (n : Nat) (e : Errand σ) (rest : List (Task σ))
      (hr : s.ready = .errand n e :: rest) : Step s { s with ready := rest }
  | park (s : Scheduler ξ σ) (w : Waiter σ) (hn : w.line < s.nextLine)
      (ho : s.outcome? w.ticket = none) : Step s { s with parked := s.parked ++ [w] }
  | rest (s : Scheduler ξ σ) (due : Nat) (who : Sleeper σ) (hd : s.clock < due)
      (hm : who.member? due = none) (hn : ∀ n, who.handle? = some n → n < s.nextLine) :
      Step s (s.addTimer due who)
  -- members of groups
  | begin (s : Scheduler ξ σ) (t i : Nat) (c : Command) (j : Job σ Answer) (rest : List (Task σ))
      (hr : s.ready = .begin t i c j :: rest) :
      Step s ({ s with ready := .resume t i j :: rest }.log (.started t i c))
  | work (s : Scheduler ξ σ) (t i : Nat) (j : Job σ Answer) (rest : List (Task σ))
      (hr : s.ready = .resume t i j :: rest) : Step s ({ s with ready := rest }.runMember t i j)
  -- the interpreter
  | interpret (s : Scheduler ξ σ) (around : Surroundings σ) (hl : s.line = none) :
      Step s (s.openLine around)
  | poll (s : Scheduler ξ σ) (n : Nat) (w : Option Ticket) (hf : s.Free n) :
      Step s (s.log (.polled n w))
  | refuse (s : Scheduler ξ σ) (n : Nat) (around : Surroundings σ) (t : Ticket) (e : Effect)
      (inbox : List (Ticket × Effect)) (c : Command) (hx : s.Next n around t e inbox)
      (hc : e.commands.find? (fun c => (around.resolve? c).isNone) = some c) :
      Step s (({ s with line := some { number := n, inbox } }.log (.taken n t e)).settle t
        (.error (.unknownCommand c.name)))
  | takeSingle (s : Scheduler ξ σ) (n : Nat) (around : Surroundings σ) (t : Ticket) (c : Command)
      (inbox : List (Ticket × Effect)) (job : Job σ Answer)
      (hx : s.Next n around t (.single c) inbox) (hj : around.resolve? c = some job) :
      Step s (({ s with
        line := some { number := n, inbox, current := some (t, .single s.clock job) } }.log
          (.taken n t (.single c))).log (.started t 0 c))
  | takeGroup (s : Scheduler ξ σ) (n : Nat) (around : Surroundings σ) (t : Ticket) (e : Effect)
      (inbox : List (Ticket × Effect)) (tasks : List (Task σ)) (hx : s.Next n around t e inbox)
      (he : e.IsGroup) (ht : members around t 0 e.commands = .ok tasks) :
      Step s ({ s with
        line := some
          { number := n, inbox, current := some (t, .group e (List.replicate e.size none)) }
        ready := s.ready ++ tasks }.log (.taken n t e))
  | single (s : Scheduler ξ σ) (n : Nat) (t : Ticket) (job : Job σ Answer)
      (hb : s.Busy n t (.single s.clock job)) : Step s (s.runSingle t job).state
  | decide (s : Scheduler ξ σ) (n : Nat) (t : Ticket) (e : Effect) (slots : List (Option Answer))
      (r : Except Failure (List Json)) (hb : s.Busy n t (.group e slots))
      (hr : FanIn.outcome? slots = some r) (hq : e.size = 0 ∨ s.Quiet) :
      Step s ((s.setCurrent none).settle t (r.map e.resumed))
  | finish (s : Scheduler ξ σ) (n : Nat) (hf : s.Free n) : Step s (s.closeLine true)
  | breakOff (s : Scheduler ξ σ) (n : Nat) (t : Ticket)
      (hb : s.Busy n t (.single s.clock .crash)) : Step s (s.closeLine false)
  | advance (s s' : Scheduler ξ σ) (hr : s.ready = []) (hw : s.Waiting)
      (ha : s.advance? = some s') : Step s s'

end Switchboard.Scheduler
