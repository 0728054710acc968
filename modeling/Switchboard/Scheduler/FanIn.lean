import Switchboard.Script

/-!
# Switchboard.Scheduler.FanIn

The outcome of a group from the answers of its members.  Up to thirty members
are looked at together: the first failure among them, by their order, decides
at once.  More members are consumed in their order: an answer counts only when
all members before it have answered.  Either way a group succeeds when every
member has, and its values stand in the members' order.
-/

namespace Switchboard.FanIn

/-- The largest group whose members are looked at together. -/
def togetherLimit : Nat := 30

/-- The first failure among the answers that are there. -/
def firstFailure? : List (Option Answer) → Option Failure
  | [] => none
  | some (.error f) :: _ => some f
  | _ :: rest => firstFailure? rest

/-- The values of all members, once each has succeeded. -/
def values? : List (Option Answer) → Option (List Json)
  | [] => some []
  | some (.ok v) :: rest => (values? rest).map (v :: ·)
  | _ :: _ => none

/-- The outcome when all answers are looked at together. -/
def together? (slots : List (Option Answer)) : Option (Except Failure (List Json)) :=
  match firstFailure? slots with
  | some f => some (.error f)
  | none => (values? slots).map .ok

/-- The outcome when answers are consumed in order. -/
def inOrder? : List (Option Answer) → Option (Except Failure (List Json))
  | [] => some (.ok [])
  | none :: _ => none
  | some (.error f) :: _ => some (.error f)
  | some (.ok v) :: rest => (inOrder? rest).map fun r => r.map (v :: ·)

/-- The outcome of a group, if it is decided. -/
def outcome? (slots : List (Option Answer)) : Option (Except Failure (List Json)) :=
  if slots.length ≤ togetherLimit then together? slots else inOrder? slots

end Switchboard.FanIn
