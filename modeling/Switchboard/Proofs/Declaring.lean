import Mathlib.Data.List.Perm.Basic
import Switchboard.Exchange.Render
import Switchboard.Proofs.Handling

/-!
# Switchboard.Proofs.Declaring

A response may be declared or written.  A handler that returns a reply leaves
the exchange to synthesis; a handler that makes the writes of the reply itself
owns the response, and synthesis leaves it alone.  What is left is the same,
because an exchange keeps of its writes only the last status, the last body,
and the headers and the cookies in their order: writes of different kinds may
change places.

* `writeAll_congr` — writes that agree kind by kind leave the same exchange;
* `Spells.of_perm` — the four groups of writes of a reply, in any order;
* `declared_as_written` — whoever declares a reply, and whoever spells it out.
-/

namespace Switchboard

variable {σ : Type}

/-! ## Writes kind by kind -/

namespace Write

def status? : Write → Option UInt16
  | .status s => some s
  | _ => none

def header? : Write → Option (String × String)
  | .header n v => some (n, v)
  | _ => none

def cookie? : Write → Option Cookie
  | .cookie c => some c
  | _ => none

def body? : Write → Option Json
  | .body b => some b
  | _ => none

end Write

namespace Exchange

theorem request_writeAll (x : Exchange) (ws : List Write) :
    (x.writeAll ws).request = x.request := by
  induction ws generalizing x with
  | nil => rfl
  | cons w ws ih => cases w <;> exact ih _

theorem headers_writeAll (x : Exchange) (ws : List Write) :
    (x.writeAll ws).response.headers = x.response.headers.insertAll
      ((ws.filterMap Write.header?).map fun h => (foldName h.1, h.2)) := by
  induction ws generalizing x with
  | nil => rfl
  | cons w ws ih => cases w <;> exact ih _

/-- Under each name the last value that is written, in whatever letters its name
is written. -/
theorem header_writeAll (x : Exchange) (ws : List Write) (name : String) :
    (x.writeAll ws).response.headers.get? name =
      (((ws.filterMap Write.header?).filter fun h => foldName h.1 = name).getLast?.map (·.2)).or
        (x.response.headers.get? name) := by
  rw [headers_writeAll, Dict.get?_insertAll, List.filter_map, List.getLast?_map, Option.map_map]
  rfl

theorem cookies_writeAll (x : Exchange) (ws : List Write) :
    (x.writeAll ws).response.cookies = x.response.cookies ++ ws.filterMap Write.cookie? := by
  induction ws generalizing x with
  | nil => exact (List.append_nil _).symm
  | cons w ws ih =>
      cases w with
      | cookie c => exact (ih (x.setCookie c)).trans (List.append_assoc _ [c] _)
      | status | body | header => exact ih _

theorem body_writeAll (x : Exchange) (ws : List Write) :
    (x.writeAll ws).response.body = (ws.filterMap Write.body?).getLast?.or x.response.body := by
  induction ws generalizing x with
  | nil => rfl
  | cons w ws ih =>
      cases w with
      | body b =>
          refine (ih (x.setBody b)).trans ?_
          change _ = (b :: ws.filterMap Write.body?).getLast?.or x.response.body
          rw [List.getLast?_cons]
          cases (ws.filterMap Write.body?).getLast? <;> rfl
      | status | header | cookie => exact ih _

theorem statusWritten_writeAll (x : Exchange) (ws : List Write) :
    (x.writeAll ws).response.statusWritten =
      (x.response.statusWritten || !(ws.filterMap Write.status?).isEmpty) := by
  induction ws generalizing x with
  | nil => exact (Bool.or_false _).symm
  | cons w ws ih =>
      cases w with
      | status s => exact (ih (x.setStatus s)).trans (Bool.or_true _).symm
      | body | header | cookie => exact ih _

/-- The last status that is written counts, before or after a body.  Where none
is written, and none was, a body makes it 200. -/
theorem status_writeAll (x : Exchange) (ws : List Write) :
    (x.writeAll ws).response.status = (ws.filterMap Write.status?).getLast?.getD
      (if x.response.statusWritten || (ws.filterMap Write.body?).isEmpty then x.response.status
        else 200) := by
  induction ws generalizing x with
  | nil => simp [writeAll]
  | cons w ws ih =>
      cases w with
      | status s =>
          refine (ih (x.setStatus s)).trans ?_
          change _ = (s :: ws.filterMap Write.status?).getLast?.getD _
          rw [List.getLast?_cons]
          rfl
      | body b =>
          refine (ih (x.setBody b)).trans ?_
          change (ws.filterMap Write.status?).getLast?.getD
            (if x.response.statusWritten || (ws.filterMap Write.body?).isEmpty then
              if x.response.statusWritten then x.response.status else 200 else 200) =
            (ws.filterMap Write.status?).getLast?.getD
              (if x.response.statusWritten || false then x.response.status else 200)
          cases x.response.statusWritten <;> simp
      | header | cookie => exact ih _

/-- Writes that agree kind by kind leave the same exchange. -/
theorem writeAll_congr (x : Exchange) {ws vs : List Write}
    (status : ws.filterMap Write.status? = vs.filterMap Write.status?)
    (headers : ws.filterMap Write.header? = vs.filterMap Write.header?)
    (cookies : ws.filterMap Write.cookie? = vs.filterMap Write.cookie?)
    (body : ws.filterMap Write.body? = vs.filterMap Write.body?) :
    x.writeAll ws = x.writeAll vs := by
  have same (x y : Exchange) (request : x.request = y.request)
      (status : x.response.status = y.response.status)
      (written : x.response.statusWritten = y.response.statusWritten)
      (body : x.response.body = y.response.body)
      (headers : x.response.headers = y.response.headers)
      (cookies : x.response.cookies = y.response.cookies) : x = y := by
    obtain ⟨_, _, _, _, _, _⟩ := x
    obtain ⟨_, _, _, _, _, _⟩ := y
    simp_all
  refine same _ _ ?_ ?_ ?_ ?_ ?_ ?_
  · rw [request_writeAll, request_writeAll]
  · rw [status_writeAll, status_writeAll, status, body]
  · rw [statusWritten_writeAll, statusWritten_writeAll, status]
  · rw [body_writeAll, body_writeAll, body]
  · rw [headers_writeAll, headers_writeAll, headers]
  · rw [cookies_writeAll, cookies_writeAll, cookies]

end Exchange

/-! ## Spelling a reply out -/

namespace Reply

/-- The calls that spell a reply with a given body out, in four groups. -/
def calls (r : Reply) (body : Json) : List (List Write) :=
  [[.status r.statusOrDefault],
   (r.headers.getD .empty).entries.map fun h => .header h.1 h.2,
   r.cookies.map .cookie,
   [.body body]]

/-- Writes that spell a reply out: of every kind just those that the reply asks
for, in their order. -/
structure Spells (r : Reply) (body : Json) (ws : List Write) : Prop where
  status : ws.filterMap Write.status? = [r.statusOrDefault]
  headers : ws.filterMap Write.header? = (r.headers.getD .empty).entries
  cookies : ws.filterMap Write.cookie? = r.cookies
  body : ws.filterMap Write.body? = [body]

variable {r : Reply} {body : Json} {ws : List Write}

/-- Lists of which at most one is not empty may change places. -/
theorem flatten_of_perm {α : Type} {xss : List (List α)} {xs : List α} (m n : Nat)
    (h : xss.Perm (List.replicate m [] ++ xs :: List.replicate n [])) : xss.flatten = xs := by
  have perm := h.filter (!·.isEmpty)
  rw [← List.flatten_filter_not_isEmpty]
  cases xs with
  | nil =>
      have none_left : xss.filter (!·.isEmpty) = [] := by simpa using perm
      rw [none_left]
      rfl
  | cons x xs =>
      have left : xss.filter (!·.isEmpty) = [x :: xs] := by simpa using perm
      rw [left]
      exact List.append_nil _

/-- The four groups of calls spell a reply out, in whatever order they come. -/
theorem Spells.of_perm {groups : List (List Write)} (h : groups.Perm (r.calls body)) :
    r.Spells body groups.flatten := by
  -- Each kind of call stands in one group only, so that the order of the groups is lost.
  have kind {α : Type} {f : Write → Option α} {xs : List α} (m n : Nat)
      (alone : (r.calls body).map (List.filterMap f) =
        List.replicate m [] ++ xs :: List.replicate n []) :
      groups.flatten.filterMap f = xs := by
    rw [List.filterMap_flatten]
    exact flatten_of_perm m n (alone ▸ h.map _)
  constructor
  · refine kind 0 3 ?_
    simp [calls, List.filterMap_cons, List.filterMap_map, Function.comp_def, Write.status?]
  · refine kind 1 2 ?_
    simp [calls, List.filterMap_cons, List.filterMap_map, Function.comp_def, Write.header?]
  · refine kind 2 1 ?_
    simp [calls, List.filterMap_cons, List.filterMap_map, Function.comp_def, Write.cookie?]
  · refine kind 3 0 ?_
    simp [calls, List.filterMap_cons, List.filterMap_map, Function.comp_def, Write.body?]

/-- The writes of a reply spell it out. -/
theorem spells_writes (r : Reply) (body : Json) : r.Spells body (r.writes body) := by
  have groups : r.writes body = (r.calls body).flatten := by simp [writes, calls]
  exact groups ▸ .of_perm (.refl _)

/-- Writes that spell a reply out leave what synthesis leaves. -/
theorem Spells.writeAll (h : r.Spells body ws) (x : Exchange) :
    x.writeAll ws = x.writeAll (r.writes body) :=
  have h' := r.spells_writes body
  x.writeAll_congr (h.status.trans h'.status.symm) (h.headers.trans h'.headers.symm)
    (h.cookies.trans h'.cookies.symm) (h.body.trans h'.body.symm)

end Reply

/-! ## Handlers that do no more than that -/

/-- A script that makes writes and goes on. -/
def Script.writeAll (ws : List Write) (next : Script Exchange σ (Option Reply)) :
    Script Exchange σ (Option Reply) :=
  ws.foldr (fun w => .write (·.write w)) next

/-- A routine that makes writes and goes on. -/
def Routine.writeAll {ρ α : Type} (ws : List Write) (next : Routine Exchange σ ρ α) :
    Routine Exchange σ ρ α :=
  ws.foldr (fun w => .write (·.write w)) next

namespace Handler

/-- A plain handler that makes writes and ends with a result. -/
def plainly (ws : List Write) (result : Except Failure (Option Reply)) : Handler σ :=
  .plain fun _ => .writeAll ws (.done result)

/-- A script handler that makes writes and ends with a result. -/
def scripted (ws : List Write) (result : Except Failure (Option Reply)) : Handler σ :=
  .script fun _ => .writeAll ws (.done result)

end Handler

/-! ## Every request -/

namespace Lifecycle

open Scheduler

variable {l : Lifecycle σ} {h h' : Handler σ} {s s' : Scheduler Exchange σ} {ws : List Write}
  {result : Except Failure (Option Reply)}

/-- A handler comes to its end with a result, and all that it has done to the
exchange are these writes. -/
def Does (l : Lifecycle σ) (h : Handler σ) (s : Scheduler Exchange σ) (ws : List Write)
    (result : Except Failure (Option Reply)) : Prop :=
  ∃ d s₁, Ends (l.dispatch h) s d s₁ ∧ s₁.state = s.state.writeAll ws ∧
    d.mapError (·.failure) = result

/-- Two requests come to their ends with the same exchange, and so with the same
response. -/
def Agree (l : Lifecycle σ) (h : Handler σ) (s : Scheduler Exchange σ) (h' : Handler σ)
    (s' : Scheduler Exchange σ) : Prop :=
  ∃ t t', Ends (l.handle h) s () t ∧ Ends (l.handle h') s' () t' ∧ t.state = t'.state ∧
    t.state.render = t'.state.render

/-- A handler answers with a reply that has a body: it returns the reply and
writes nothing, or it spells the reply out and returns nothing. -/
inductive Gives (l : Lifecycle σ) (r : Reply) (body : Json) (h : Handler σ)
    (s : Scheduler Exchange σ) : Prop
  | declared (returns : l.Does h s [] (.ok (some r)))
  | written {ws : List Write} (spells : r.Spells body ws) (writes : l.Does h s ws (.ok none))

theorem Agree.of_state {t t' : Scheduler Exchange σ} (ends : Ends (l.handle h) s () t)
    (ends' : Ends (l.handle h') s' () t') (same : t.state = t'.state) : l.Agree h s h' s' :=
  ⟨t, t', ends, ends', same, same ▸ rfl⟩

/-! ## What handlers do -/

theorem ends_writeAll {ρ α : Type} {p : Routine Exchange σ ρ α} {a : α} :
    Ends (.writeAll ws p) s a s' ↔ Ends p { s with state := s.state.writeAll ws } a s' := by
  induction ws generalizing s with
  | nil => rfl
  | cons w ws ih => exact ih (s := { s with state := s.state.write w })

theorem runScript_writeAll (around : Surroundings σ) (line : Nat) (ws : List Write)
    (next : Script Exchange σ (Option Reply)) (s : Scheduler Exchange σ) :
    runScript around line (.writeAll ws next) s =
      runScript around line next { s with state := s.state.writeAll ws } := by
  induction ws generalizing s with
  | nil => rfl
  | cons w ws ih => exact ih { s with state := s.state.write w }

theorem does_plainly (l : Lifecycle σ) (s : Scheduler Exchange σ) (ws : List Write)
    (result : Except Failure (Option Reply)) : l.Does (.plainly ws result) s ws result := by
  refine ⟨_, { s with state := s.state.writeAll ws },
    dispatch_plain.2 ⟨result, ends_writeAll.2 (ends_done.2 ⟨rfl, rfl⟩), rfl⟩, rfl, ?_⟩
  cases result <;> rfl

/-- The line is opened and closed, and nothing has been emitted on it. -/
theorem does_scripted (l : Lifecycle σ) (s : Scheduler Exchange σ) (ws : List Write)
    (result : Except Failure (Option Reply)) : l.Does (.scripted ws result) s ws result := by
  let written (around : Surroundings σ) : Scheduler Exchange σ :=
    { s.openLine around with state := s.state.writeAll ws }
  have ran (around : Surroundings σ) : runScript around s.nextLine (.writeAll ws (.done result))
      (s.openLine around) = .finished result (written around) := runScript_writeAll ..
  refine ⟨_, (written (l.registry.surroundings l.ambient)).closeLine true,
    dispatch_script.2 ⟨result, ⟨0, ?_⟩, rfl⟩, rfl, ?_⟩
  · unfold runRoutine
    rw [ran]
    rfl
  · cases result <;> rfl

/-! ## What is left of a request -/

/-- A request whose handler returns a reply with a body: the reply is written
over what has been written so far, and if the handler owns the response it is
left alone. -/
theorem Does.exists_ends_ok {reply : Option Reply} (does : l.Does h s ws (.ok reply))
    {outcome : Synthesis} {x : Exchange}
    (hx : (s.state.writeAll ws).synthesize reply = .ok (outcome, x)) :
    ∃ t, Ends (l.handle h) s () t ∧ t.state = x := by
  obtain ⟨d, s₁, dispatched, state, hd⟩ := does
  cases d with
  | error e => cases hd
  | ok reply' =>
      cases hd
      have responded : Ends (respond reply) s₁ (.ok outcome) { s₁ with state := x } :=
        ends_respond.2 (.inl ⟨outcome, x, state ▸ hx, rfl, rfl⟩)
      exact ⟨_, ends_handle.2 ⟨_, _, ends_run.2 ⟨_, _, dispatched, responded⟩, rfl⟩, rfl⟩

/-- Whoever gives a reply, on a response that nobody has touched, leaves just
the writes of the reply. -/
theorem Gives.exists_ends {r : Reply} {body : Json} (hb : r.body = some body)
    (hx : s.state.response = {}) (gives : l.Gives r body h s) :
    ∃ t, Ends (l.handle h) s () t ∧ t.state = s.state.writeAll (r.writes body) := by
  cases gives with
  | declared returns =>
      have untouched : s.state.hasResponse = false := by rw [Exchange.hasResponse, hx]; rfl
      exact returns.exists_ends_ok (Exchange.synthesize_written untouched hb)
  | @written ws spells writes =>
      have owned : (s.state.writeAll ws).synthesize none =
          .ok (.skipped, s.state.writeAll (r.writes body)) := by
        rw [spells.writeAll]
        exact Exchange.synthesize_owned (s.state.hasResponse_writes r body)
      exact writes.exists_ends_ok owned

/-- A request whose handler fails, where no renderer is set: the failure is
rendered over what has been written so far. -/
theorem Does.state_of_error {f : Failure} (does : l.Does h s ws (.error f))
    (hr : l.recovery.renderer = none) {t : Scheduler Exchange σ} (ends : Ends (l.handle h) s () t) :
    t.state = (s.state.writeAll ws).renderFailure { failure := f } := by
  obtain ⟨d, s₁, dispatched, state, hd⟩ := does
  obtain ⟨r, s₂, ran, recovered⟩ := ends_handle.1 ends
  obtain ⟨d', s₃, dispatched', rest⟩ := ends_run.1 ran
  obtain ⟨rfl, rfl⟩ := dispatched.unique dispatched'
  cases d with
  | ok reply => cases hd
  | error e =>
      cases hd
      obtain ⟨rfl, rfl⟩ := rest
      obtain ⟨rendered, recovered⟩ := recovered
      -- The default rendering reads the failure of an envelope, and not its context.
      rw [Recovery.ends_recover_byDefault hr recovered, state]
      rfl

theorem Does.exists_ends_error {f : Failure} (does : l.Does h s ws (.error f))
    (calm : l.recovery.Calm) : ∃ t, Ends (l.handle h) s () t := by
  obtain ⟨d, s₁, dispatched, -, -⟩ := does
  obtain ⟨r, s₂, ran⟩ := exists_ends_run dispatched
  exact exists_ends_handle calm ran

/-! ## Declared or written -/

/-- To declare a reply is to write it.  On an exchange whose response nobody
has touched, take a reply that has a body.  A plain handler that returns it, a
script handler that returns it, and a plain handler that makes its four groups
of calls in any order and returns nothing all give the reply; and any two
handlers that give it, in whatever they are run beside, end with the same
exchange.  A plain handler and a script that make the same writes and fail
with the same failure do what they say; and any two handlers that do this
leave the same exchange where failures are rendered by default, and do end if
the hook that observes failures does. -/
theorem declared_as_written (l : Lifecycle σ) {r : Reply} {body : Json} (hb : r.body = some body)
    {x : Exchange} (hx : x.response = {}) :
    (∀ s : Scheduler Exchange σ, ∀ groups : List (List Write), groups.Perm (r.calls body) →
      l.Gives r body (.plainly [] (.ok (some r))) s ∧
      l.Gives r body (.scripted [] (.ok (some r))) s ∧
      l.Gives r body (.plainly groups.flatten (.ok none)) s) ∧
    (∀ s s' : Scheduler Exchange σ, s.state = x → s'.state = x → ∀ h h' : Handler σ,
      l.Gives r body h s → l.Gives r body h' s' → l.Agree h s h' s') ∧
    ∀ s s' : Scheduler Exchange σ, s.state = x → s'.state = x → ∀ ws f,
      l.Does (.plainly ws (.error f)) s ws (.error f) ∧
      l.Does (.scripted ws (.error f)) s ws (.error f) ∧
      ∀ h h' : Handler σ, l.Does h s ws (.error f) → l.Does h' s' ws (.error f) →
        l.recovery.renderer = none →
          (∀ t t', Ends (l.handle h) s () t → Ends (l.handle h') s' () t' → t.state = t'.state) ∧
          (l.recovery.Calm → l.Agree h s h' s') := by
  refine ⟨fun s groups perm => ⟨?_, ?_, ?_⟩, ?_, fun s s' hs hs' ws f => ⟨?_, ?_, ?_⟩⟩
  · exact .declared (l.does_plainly s [] _)
  · exact .declared (l.does_scripted s [] _)
  · exact .written (.of_perm perm) (l.does_plainly s _ _)
  · intro s s' hs hs' h h' gives gives'
    obtain ⟨t, ends, state⟩ := gives.exists_ends hb (hs ▸ hx)
    obtain ⟨t', ends', state'⟩ := gives'.exists_ends hb (hs' ▸ hx)
    exact .of_state ends ends' (by rw [state, state', hs, hs'])
  · exact l.does_plainly s ws _
  · exact l.does_scripted s ws _
  · intro h h' does does' hr
    have same (t t') (ends : Ends (l.handle h) s () t) (ends' : Ends (l.handle h') s' () t') :
        t.state = t'.state := by
      rw [does.state_of_error hr ends, does'.state_of_error hr ends', hs, hs']
    refine ⟨same, fun calm => ?_⟩
    obtain ⟨t, ends⟩ := does.exists_ends_error calm
    obtain ⟨t', ends'⟩ := does'.exists_ends_error calm
    exact .of_state ends ends' (same t t' ends ends')

/-- A reply with the status of an untouched response, with `null` for its body
and two headers of one name. -/
private def absent : Reply :=
  ((({ Reply.send .null with status := some 404 }).withHeader "X-Id" "1").withHeader "x-id" "2")
    |>.withCookie { name := "id", value := "1", settings := .empty }

/-- Without resolvers and hooks, and with nothing else running. -/
private def bare : Lifecycle Unit × Scheduler Exchange Unit :=
  ({ registry := .empty, ambient := .empty, recovery := {} },
    { state := {}, world := { own := () } })

/-- It may be returned by a script, or it may be written with its body first and
its status last; and a failure after a write is the same from both kinds of
handler. -/
theorem declared_as_written_absent :
    bare.1.Agree (.scripted [] (.ok (some absent))) bare.2
      (.plainly (absent.calls .null).reverse.flatten (.ok none)) bare.2 ∧
    bare.1.Agree (.scripted [.status 204] (.error .missingBody)) bare.2
      (.plainly [.status 204] (.error .missingBody)) bare.2 := by
  obtain ⟨gives, agree, fail⟩ := bare.1.declared_as_written (r := absent) (x := {}) rfl rfl
  obtain ⟨-, script, plain⟩ := gives bare.2 _ (List.reverse_perm _)
  obtain ⟨plain', script', same⟩ := fail bare.2 bare.2 rfl rfl [.status 204] .missingBody
  exact ⟨agree _ _ rfl rfl _ _ script plain,
    (same _ _ script' plain' rfl).2 fun _ h => nomatch h⟩

end Lifecycle

end Switchboard
