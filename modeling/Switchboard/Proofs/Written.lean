import Switchboard.Proofs.Declaring

/-!
# Switchboard.Proofs.Written

What stands in an exchange is told by the calls on its handle.  A call writes,
or it takes the exchange out and leaves a fresh one; so only the writes since
the exchange was last taken out count, and of these each kind counts for
itself.  The flag that a status has been written does not show: it only decides
whether a body implies 200.

* `Exchange.calls` — calls one after another, with their results;
* `Exchange.sinceTaken` — the writes that count;
* `Exchange.Shows` — an exchange as its writes describe it;
* `calls_eq` — the invariant of a run of calls;
* `state_of_calls` — every sequence of calls.
-/

namespace Switchboard

/-! ## Kinds of writes -/

inductive Write.Kind where
  | status | body | header | cookie
  deriving DecidableEq

def Write.kind : Write → Write.Kind
  | .status _ => .status
  | .body _ => .body
  | .header _ _ => .header
  | .cookie _ => .cookie

namespace Exchange

variable {x : Exchange}

/-- Writes of different kinds may change places. -/
theorem write_comm (x : Exchange) {w v : Write} (h : w.kind ≠ v.kind) :
    (x.write w).write v = (x.write v).write w := by
  cases w with
  | status =>
      cases v with
      | status => exact absurd rfl h
      | body | header | cookie => rfl
  | body =>
      cases v with
      | body => exact absurd rfl h
      | status | header | cookie => rfl
  | header =>
      cases v with
      | header => exact absurd rfl h
      | status | body | cookie => rfl
  | cookie =>
      cases v with
      | cookie => exact absurd rfl h
      | status | body | header => rfl

/-! ## Calls -/

/-- A call on the handle of an exchange. -/
inductive Call where
  | write (w : Write)
  | take

def Call.isTake : Call → Bool
  | .write _ => false
  | .take => true

/-- What a call returns, and the exchange that it leaves.  Only taking returns
something: the exchange. -/
def call (x : Exchange) : Call → Option Exchange × Exchange
  | .write w => (none, x.write w)
  | .take => (some x.take.1, x.take.2)

/-- The results of calls that are made one after another, and the exchange that
they leave. -/
def calls (x : Exchange) : List Call → List (Option Exchange) × Exchange
  | [] => ([], x)
  | c :: cs => ((x.call c).1 :: ((x.call c).2.calls cs).1, ((x.call c).2.calls cs).2)

theorem calls_append (x : Exchange) (cs ds : List Call) :
    x.calls (cs ++ ds) = ((x.calls cs).1 ++ ((x.calls cs).2.calls ds).1,
      ((x.calls cs).2.calls ds).2) := by
  induction cs generalizing x with
  | nil => rfl
  | cons c cs ih => rw [List.cons_append, calls, ih, calls, List.cons_append]

theorem length_calls (x : Exchange) (cs : List Call) : (x.calls cs).1.length = cs.length := by
  induction cs generalizing x with
  | nil => rfl
  | cons c cs ih => rw [calls, List.length_cons, ih, List.length_cons]

/-- What one call among others returns. -/
theorem getElem?_calls (x : Exchange) (before : List Call) (c : Call) (behind : List Call) :
    (x.calls (before ++ c :: behind)).1[before.length]? = some ((x.calls before).2.call c).1 := by
  rw [calls_append, ← x.length_calls before, List.getElem?_append_right (Nat.le_refl _),
    Nat.sub_self]
  rfl

/-! ## The writes that count -/

/-- One more call after some writes: taking forgets them. -/
def Call.after (ws : List Write) : Call → List Write
  | .write w => ws ++ [w]
  | .take => []

/-- The writes since the exchange was last taken out. -/
def sinceTaken (cs : List Call) : List Write := cs.foldl Call.after []

/-- The request side that is left: the first one, unless it has been taken
out. -/
def requestLeft (request : RequestSide) (cs : List Call) : RequestSide :=
  if cs.any Call.isTake then {} else request

/-- An exchange is always the one that it began as, with the writes that count:
taking begins anew, with a fresh exchange and no writes. -/
theorem calls_writeAll {request : RequestSide} {ws : List Write}
    (h : x = ({ request } : Exchange).writeAll ws) (cs : List Call) :
    (x.calls cs).2 =
      ({ request := requestLeft request cs } : Exchange).writeAll (cs.foldl Call.after ws) := by
  induction cs generalizing x request ws with
  | nil => exact h
  | cons c cs ih =>
      cases c with
      | write w =>
          have written : x.write w = ({ request } : Exchange).writeAll (ws ++ [w]) := by
            rw [writeAll_append, ← h]
            rfl
          exact ih written
      | take =>
          have fresh : ({} : Exchange) = ({ request := {} } : Exchange).writeAll [] := rfl
          have left : requestLeft {} cs = requestLeft request (.take :: cs) := by
            simp [requestLeft, Call.isTake]
          rw [← left]
          exact ih fresh

theorem calls_eq (untouched : x.response = {}) (cs : List Call) :
    (x.calls cs).2 =
      ({ request := requestLeft x.request cs } : Exchange).writeAll (sinceTaken cs) := by
  refine calls_writeAll ?_ cs
  rw [← untouched]
  rfl

/-! ## An exchange as its writes describe it -/

/-- An exchange with a given request side shows these writes to its response
side. -/
structure Shows (request : RequestSide) (ws : List Write) (x : Exchange) : Prop where
  /-- The last status; else a body makes it 200, and nothing leaves it at 404. -/
  status : x.response.status = (ws.filterMap Write.status?).getLast?.getD
    (if ws.filterMap Write.body? = [] then 404 else 200)
  body : x.response.body = (ws.filterMap Write.body?).getLast?
  /-- Under each name the last value, in whatever letters its name was
  written. -/
  header (name : String) : x.response.headers.get? name =
    ((ws.filterMap Write.header?).filter fun h => foldName h.1 = name).getLast?.map (·.2)
  cookies : x.response.cookies = ws.filterMap Write.cookie?
  hasResponse : x.hasResponse = true ↔ ws.filterMap Write.body? ≠ [] ∨
    ∃ s, (ws.filterMap Write.status?).getLast? = some s ∧ s ≠ 404
  request : x.request = request

/-- Writes to a response side that nobody has touched. -/
theorem shows_writeAll (request : RequestSide) (ws : List Write) :
    Shows request ws (({ request } : Exchange).writeAll ws) := by
  have status : (({ request } : Exchange).writeAll ws).response.status =
      (ws.filterMap Write.status?).getLast?.getD
        (if ws.filterMap Write.body? = [] then 404 else 200) := by
    rw [status_writeAll]
    simp
  have body : (({ request } : Exchange).writeAll ws).response.body =
      (ws.filterMap Write.body?).getLast? := by
    rw [body_writeAll]
    exact Option.or_none
  refine ⟨status, body, ?_, ?_, ?_, request_writeAll _ ws⟩
  · intro name
    rw [header_writeAll]
    exact Option.or_none
  · rw [cookies_writeAll]
    rfl
  · rw [hasResponse_iff, status, body, List.getLast?_isSome]
    generalize ws.filterMap Write.body? = bodies
    cases (ws.filterMap Write.status?).getLast? with
    | some s => simp
    | none => by_cases h : bodies = [] <;> simp [h]

/-- The calls on the handle of an exchange tell all that stands in it: what was
written since it was last taken out, kind by kind, on the first request side as
long as it has not been taken.  Taking returns what the calls before it tell,
writing returns nothing, and writes of different kinds may change places. -/
theorem state_of_calls (untouched : x.response = {}) :
    (∀ cs, Shows (requestLeft x.request cs) (sinceTaken cs) (x.calls cs).2) ∧
    (∀ before behind, ∃ y,
      (x.calls (before ++ .take :: behind)).1[before.length]? = some (some y) ∧
      Shows (requestLeft x.request before) (sinceTaken before) y) ∧
    (∀ before w behind, (x.calls (before ++ .write w :: behind)).1[before.length]? = some none) ∧
    ∀ before (w v : Write) behind, w.kind ≠ v.kind →
      x.calls (before ++ .write w :: .write v :: behind) =
        x.calls (before ++ .write v :: .write w :: behind) := by
  have shown (cs : List Call) :
      Shows (requestLeft x.request cs) (sinceTaken cs) (x.calls cs).2 := by
    rw [calls_eq untouched]
    exact shows_writeAll _ _
  refine ⟨shown, ?_, ?_, ?_⟩
  · intro before behind
    exact ⟨_, x.getElem?_calls before .take behind, shown before⟩
  · intro before w behind
    exact x.getElem?_calls before (.write w) behind
  · intro before w v behind h
    rw [calls_append, calls_append]
    simp only [calls, call, write_comm _ h]

/-- A body after a status that says nothing, a take, and two spellings of one
name. -/
theorem state_of_calls_taken :
    let x : Exchange := { request := { body := .int 1 } }
    let cs : List Call := [.write (.status 404), .write (.body .null), .take,
      .write (.header "X-Id" "1"), .write (.body .null), .write (.header "x-ID" "2")]
    x.response = {} ∧ (x.calls cs).2.response.status = 200 ∧
      (x.calls cs).2.response.headers.get? "x-id" = some "2" ∧ (x.calls cs).2.request = {} ∧
      ∃ y, (x.calls cs).1[2]? = some (some y) ∧ y.response.status = 404 ∧
        y.hasResponse = true ∧ y.request = x.request := by
  intro x cs
  obtain ⟨shown, taken, -⟩ := state_of_calls (x := x) rfl
  obtain ⟨y, hy, before⟩ := taken [.write (.status 404), .write (.body .null)]
    [.write (.header "X-Id" "1"), .write (.body .null), .write (.header "x-ID" "2")]
  have now := shown cs
  refine ⟨rfl, now.status, (now.header "x-id").trans (by decide +kernel), now.request, y, hy,
    before.status, before.hasResponse.mpr (.inl (by simp [sinceTaken, Call.after, Write.body?])),
    before.request⟩

end Exchange

end Switchboard
