import Switchboard.Scheduler.Run
import Switchboard.Server.Router

/-!
# Switchboard.Server.Session

A server that answers requests one after another, on one clock.  What earlier
requests have left behind goes on beside the later ones.  A request whose
handling crashes gets no response, and the server stays as it is.
-/

namespace Switchboard

/-- Where a run stopped, and its result if it has one. -/
def Scheduler.Result.split {ξ σ α : Type} : Scheduler.Result ξ σ α → Option α × Scheduler ξ σ
  | .finished a s => (some a, s)
  | .crashed s => (none, s)
  | .stuck s => (none, s)
  | .unfinished s => (none, s)

/-- Take what has been written down, oldest entry first, and leave an empty
journal. -/
def Scheduler.takeJournal {ξ σ : Type} (s : Scheduler ξ σ) : List Entry × Scheduler ξ σ :=
  (s.world.journal.toList, { s with world := { s.world with journal := [] } })

namespace Server

open Http

/-- A server at work. -/
abbrev Session (σ : Type) := Scheduler Exchange σ

namespace Session

variable {σ : Type}

/-- A server that has not been asked anything. -/
def fresh (own : σ) : Session σ := { state := {}, world := { own } }

/-- Answer a request. -/
def ask (r : Router σ) (s : Session σ) (q : Request) : Option Response × Session σ :=
  (Scheduler.run (r.handle q) s).split

/-- Answer requests one after another. -/
def askAll (r : Router σ) (s : Session σ) : List Request → List (Option Response) × Session σ
  | [] => ([], s)
  | q :: rest =>
    let (response, s) := ask r s q
    let (responses, s) := askAll r s rest
    (response :: responses, s)

end Session

end Server

end Switchboard
