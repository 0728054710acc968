import Switchboard.Server.Basic

/-!
# Switchboard.Proofs.Lifetime

The life of a server under any calls, one after another.  Ports may be refused,
and the server may be stopped again and again; what holds at every moment is
said of where it stands after the calls that have been made.

* `Server.turns`, `Server.after` — what comes of calls, and where they lead;
* `Server.Does` — all that one call can do;
* `starts_add_room_le`, `starts_add_held` — what a run uses up and what it
  keeps: one start may succeed, and what is opened is either held still or shut
  down;
* `standing_of_stop`, `standing_of_started`, `standing_of_starts_eq_zero` — where a
  server stands;
* `lifetime` — all that a server says and does.
-/

namespace Switchboard.Server

/-! ## Calls -/

/-- A call of a server, with what the outside makes of it. -/
inductive Call where
  | start (bound : Bound)
  | stop (ending : Ending)

def Call.isStop : Call → Bool
  | .start _ => false
  | .stop _ => true

/-- The same turn with its result changed. -/
def Turn.map {α β : Type} (f : α → β) (t : Turn α) : Turn β :=
  ⟨t.standing, t.result.map f, t.deeds⟩

def Deed.isShutdown : Deed → Bool
  | .shutdown _ => true
  | _ => false

def Deed.record? : Deed → Option LogRecord
  | .log r => some r
  | _ => none

namespace Turn

variable (t : Turn (Option Endpoint))

/-- The endpoint that a start has returned. -/
def started? : Option Endpoint := t.result.toOption.join

/-- How often the serving task is told to come to an end. -/
def shutdowns : Nat := t.deeds.countP Deed.isShutdown

/-- What is logged. -/
def records : List LogRecord := t.deeds.filterMap Deed.record?

/-- What there is to say of a turn: that the server listens, and that it has
stopped. -/
def news : List LogRecord :=
  (t.started?.map fun e => ⟨.info, s!"Server Listening on Port {e.port}", []⟩).toList ++
    List.replicate t.shutdowns ⟨.info, "Server Stopped", []⟩

end Turn

/-- How many starts have succeeded. -/
def starts (ts : List (Turn (Option Endpoint))) : Nat := ts.countP (·.started?.isSome)

/-- How often the serving task has been told to come to an end. -/
def shutdowns (ts : List (Turn (Option Endpoint))) : Nat :=
  (ts.flatMap (·.deeds)).countP Deed.isShutdown

variable {σ : Type}

/-- What comes of a call.  A start returns an endpoint and a stop does not. -/
def call (s : Server σ) : Call → Turn (Option Endpoint)
  | .start bound => (s.start bound).map some
  | .stop ending => (s.stopWith ending).map fun () => none

/-- A server after a call. -/
def called (s : Server σ) (c : Call) : Server σ := { s with standing := (s.call c).standing }

/-- A server after calls. -/
def after (s : Server σ) (cs : List Call) : Server σ := cs.foldl called s

/-- What comes of calls that are made one after another. -/
def turns (s : Server σ) : List Call → List (Turn (Option Endpoint))
  | [] => []
  | c :: cs => s.call c :: (s.called c).turns cs

variable {s : Server σ} {c : Call} {cs : List Call} {e : Endpoint} {t : Turn (Option Endpoint)}

theorem after_append (s : Server σ) (cs ds : List Call) :
    s.after (cs ++ ds) = (s.after cs).after ds := List.foldl_append

theorem turns_append (s : Server σ) (cs ds : List Call) :
    s.turns (cs ++ ds) = s.turns cs ++ (s.after cs).turns ds := by
  induction cs generalizing s with
  | nil => rfl
  | cons c cs ih => exact congrArg (s.call c :: ·) (ih (s.called c))

/-! ## One call -/

/-- All that a call can do. -/
inductive Does (s : Server σ) : Call → Turn (Option Endpoint) → Prop
  | refused {reason : String} (new : s.standing = .created) :
      Does s (.start (.refused reason))
        ⟨.created, .error (.bind s.port.toNat reason), [.bind (.refused reason)]⟩
  | nameless {reason : String} (new : s.standing = .created) :
      Does s (.start (.nameless reason))
        ⟨.created, .error (.serve reason), [.bind (.nameless reason)]⟩
  | opened {e : Endpoint} (new : s.standing = .created) :
      Does s (.start (.held e)) ⟨.listening e, .ok (some e),
        .bind (.held e) :: announce s.test s!"Server Listening on Port {e.port}"⟩
  | busy {bound : Bound} {e : Endpoint} (listens : s.standing = .listening e) :
      Does s (.start bound) ⟨.listening e, .error (.alreadyListening e.text), []⟩
  | late {bound : Bound} (stopped : s.standing = .stopped) :
      Does s (.start bound) ⟨.stopped, .error .stopped, []⟩
  | closed {e : Endpoint} (listens : s.standing = .listening e) :
      Does s (.stop .finished) ⟨.stopped, .ok none, .shutdown e :: announce s.test "Server Stopped"⟩
  | broken {e : Endpoint} {ending : Ending} {f : TransportFailure}
      (listens : s.standing = .listening e) (dead : ending ≠ .finished) :
      Does s (.stop ending) ⟨.stopped, .error f, [.shutdown e]⟩
  | idle {ending : Ending} (unheld : s.standing.endpoint? = none) :
      Does s (.stop ending) ⟨.stopped, .ok none, []⟩

theorem does_call (s : Server σ) (c : Call) : s.Does c (s.call c) := by
  obtain ⟨host, port, test, router, standing⟩ := s
  cases c with
  | start bound =>
      cases standing with
      | created =>
          cases bound with
          | refused => exact .refused rfl
          | nameless => exact .nameless rfl
          | held e => exact .opened rfl
      | listening e => exact .busy rfl
      | stopped => exact .late rfl
  | stop ending =>
      cases standing with
      | created | stopped => exact .idle rfl
      | listening e =>
          cases ending with
          | finished => exact .closed rfl
          | failed | crashed => exact .broken rfl nofun

theorem countP_announce (test : Bool) (message : String) (ds : List Deed) :
    (ds ++ announce test message).countP Deed.isShutdown = ds.countP Deed.isShutdown := by
  cases test <;> simp [announce, Deed.isShutdown]

/-- A server that has been made has room for one start that succeeds. -/
def Standing.room : Standing → Nat
  | .created => 1
  | _ => 0

/-- A server that listens holds one endpoint. -/
def Standing.held : Standing → Nat
  | .listening _ => 1
  | _ => 0

/-- A start that succeeds takes up the room that there was for it. -/
theorem Does.room (does : s.Does c t) :
    t.started?.toList.length + t.standing.room ≤ s.standing.room := by
  cases does with
  | refused new | nameless new | opened new => rw [new]; exact Nat.le_refl _
  | busy listens | closed listens | broken listens => rw [listens]; exact Nat.le_refl _
  | late stopped => rw [stopped]; exact Nat.le_refl _
  | idle => exact Nat.zero_le _

/-- What has been opened is held, unless the serving task is told to end. -/
theorem Does.held (does : s.Does c t) :
    t.started?.toList.length + s.standing.held = t.shutdowns + t.standing.held := by
  cases does with
  | refused new | nameless new => rw [new]; rfl
  | opened new => rw [new, Turn.shutdowns, ← List.singleton_append, countP_announce]; rfl
  | busy listens | broken listens => rw [listens]; rfl
  | closed listens =>
      rw [listens, Turn.shutdowns, ← List.singleton_append, countP_announce]
      rfl
  | late stopped => rw [stopped]; rfl
  | idle unheld =>
      have unheld : s.standing.held = 0 := by
        cases hs : s.standing with
        | created | stopped => rfl
        | listening e => rw [hs] at unheld; cases unheld
      rw [unheld]
      rfl

/-- What there is to say is logged, unless the server is there for a test. -/
theorem Does.records (does : s.Does c t) (alive : ∀ ending, c = .stop ending → ending = .finished) :
    t.records = if s.test then [] else t.news := by
  cases does with
  | refused | nameless | busy | late | idle => exact (ite_self _).symm
  | opened | closed => cases s.test <;> rfl
  | broken listens dead => exact absurd (alive _ rfl) dead

/-- Only a stop tells the serving task to end. -/
theorem Does.shutdowns_start (does : s.Does c t) (hc : c.isStop = false) : t.shutdowns = 0 := by
  cases does with
  | refused | nameless | busy | late => rfl
  | opened => rw [Turn.shutdowns, ← List.singleton_append, countP_announce]; rfl
  | closed | broken | idle => cases hc

/-- Only a start returns an endpoint. -/
theorem Does.started?_stop (does : s.Does c t) (hc : c.isStop = true) : t.started? = none := by
  cases does with
  | closed | broken | idle => rfl
  | refused | nameless | opened | busy | late => cases hc

theorem Does.stopped (does : s.Does c t) (h : s.standing = .stopped ∨ c.isStop = true) :
    t.standing = .stopped := by
  cases does with
  | closed | broken | idle | late => rfl
  | refused hs | nameless hs | opened hs | busy hs => simp [hs, Call.isStop] at h

/-- A start of a server that has been made succeeds, or it leaves the server as
it was. -/
theorem Does.created (does : s.Does c t) (new : s.standing = .created) (hc : c.isStop = false) :
    (t.started? = none ∧ t.standing = .created) ∨
      ∃ e, t.started? = some e ∧ t.standing = .listening e := by
  cases does with
  | refused | nameless => exact .inl ⟨rfl, rfl⟩
  | @opened e => exact .inr ⟨e, rfl, rfl⟩
  | busy hs | late hs => rw [new] at hs; cases hs
  | closed | broken | idle => cases hc

/-- A start of a server that listens does nothing. -/
theorem Does.listening (does : s.Does c t) (listens : s.standing = .listening e)
    (hc : c.isStop = false) : t.started? = none ∧ t.standing = .listening e := by
  cases does with
  | busy hs => rw [listens] at hs; cases hs; exact ⟨rfl, rfl⟩
  | refused hs | nameless hs | opened hs | late hs => rw [listens] at hs; cases hs
  | closed | broken | idle => cases hc

/-! ## Runs of calls -/

theorem starts_cons (t : Turn (Option Endpoint)) (ts : List (Turn (Option Endpoint))) :
    starts (t :: ts) = t.started?.toList.length + starts ts := by
  rw [starts, List.countP_cons, starts]
  cases t.started? <;> simp [Nat.add_comm]

theorem shutdowns_cons (t : Turn (Option Endpoint)) (ts : List (Turn (Option Endpoint))) :
    shutdowns (t :: ts) = t.shutdowns + shutdowns ts := by
  rw [shutdowns, List.flatMap_cons, List.countP_append]
  rfl

/-- A run has no more starts that succeed than there is room for at its
beginning. -/
theorem starts_add_room_le (s : Server σ) (cs : List Call) :
    starts (s.turns cs) + (s.after cs).standing.room ≤ s.standing.room := by
  induction cs generalizing s with
  | nil => exact Nat.le_of_eq (Nat.zero_add _)
  | cons c cs ih =>
      have step : _ + (s.called c).standing.room ≤ _ := (s.does_call c).room
      have rest : starts ((s.called c).turns cs) + (s.after (c :: cs)).standing.room ≤ _ :=
        ih (s.called c)
      rw [turns, starts_cons]
      omega

/-- What has been opened in a run, or before it, is shut down in it or held
after it. -/
theorem starts_add_held (s : Server σ) (cs : List Call) :
    starts (s.turns cs) + s.standing.held =
      shutdowns (s.turns cs) + (s.after cs).standing.held := by
  induction cs generalizing s with
  | nil => rfl
  | cons c cs ih =>
      have step : _ = _ + (s.called c).standing.held := (s.does_call c).held
      have rest : _ = _ + (s.after (c :: cs)).standing.held := ih (s.called c)
      rw [turns, starts_cons, shutdowns_cons]
      omega

theorem shutdowns_eq_zero (s : Server σ) (going : ∀ c ∈ cs, c.isStop = false) :
    shutdowns (s.turns cs) = 0 := by
  induction cs generalizing s with
  | nil => rfl
  | cons c cs ih =>
      obtain ⟨hc, going⟩ := List.forall_mem_cons.1 going
      rw [turns, shutdowns_cons, ih (s.called c) going, (s.does_call c).shutdowns_start hc]

theorem standing_of_stopped (h : s.standing = .stopped) (cs : List Call) :
    (s.after cs).standing = .stopped := by
  induction cs generalizing s with
  | nil => exact h
  | cons c cs ih => exact ih (s := s.called c) ((s.does_call c).stopped (.inl h))

/-- Once a server has been stopped it stays so. -/
theorem standing_of_stop (s : Server σ) (h : ∃ c ∈ cs, c.isStop = true) :
    (s.after cs).standing = .stopped := by
  obtain ⟨c, hc, stops⟩ := h
  obtain ⟨before, behind, rfl⟩ := List.append_of_mem hc
  rw [after_append]
  exact standing_of_stopped (s := (s.after before).called c) (((s.after before).does_call c).stopped
    (.inr stops)) behind

/-- A server that listens goes on listening until it is stopped, and no other
start succeeds. -/
theorem standing_of_listening (listens : s.standing = .listening e)
    (going : ∀ c ∈ cs, c.isStop = false) :
    (s.after cs).standing = .listening e ∧ ∀ t ∈ s.turns cs, t.started? = none := by
  induction cs generalizing s with
  | nil => exact ⟨listens, nofun⟩
  | cons c cs ih =>
      obtain ⟨hc, going⟩ := List.forall_mem_cons.1 going
      obtain ⟨quiet, listens⟩ := (s.does_call c).listening listens hc
      obtain ⟨standing, rest⟩ := ih (s := s.called c) listens going
      exact ⟨standing, List.forall_mem_cons.2 ⟨quiet, rest⟩⟩

/-- Until it is stopped, a server listens on the endpoint that a start has
returned. -/
theorem standing_of_started (new : s.standing = .created) (going : ∀ c ∈ cs, c.isStop = false)
    (ht : t ∈ s.turns cs) (started : t.started? = some e) :
    (s.after cs).standing = .listening e := by
  induction cs generalizing s with
  | nil => cases ht
  | cons c cs ih =>
      obtain ⟨hc, going⟩ := List.forall_mem_cons.1 going
      rcases (s.does_call c).created new hc with ⟨failed, new⟩ | ⟨e', succeeded, listens⟩
      · rcases List.mem_cons.1 ht with rfl | ht
        · rw [failed] at started
          cases started
        · exact ih (s := s.called c) new going ht
      · obtain ⟨standing, quiet⟩ := standing_of_listening (s := s.called c) listens going
        rcases List.mem_cons.1 ht with rfl | ht
        · rw [succeeded] at started
          cases started
          exact standing
        · rw [quiet t ht] at started
          cases started

/-- Until it is stopped, a server of which no start has succeeded stands as it was
made. -/
theorem standing_of_starts_eq_zero (new : s.standing = .created)
    (going : ∀ c ∈ cs, c.isStop = false) (failed : starts (s.turns cs) = 0) :
    (s.after cs).standing = .created := by
  induction cs generalizing s with
  | nil => exact new
  | cons c cs ih =>
      obtain ⟨hc, going⟩ := List.forall_mem_cons.1 going
      rw [turns, starts_cons, Nat.add_eq_zero_iff] at failed
      rcases (s.does_call c).created new hc with ⟨-, new⟩ | ⟨e, succeeded, -⟩
      · exact ih (s := s.called c) new going failed.2
      · rw [succeeded] at failed
        cases failed.1

/-- A run logs what there is to say, unless the server is there for a test. -/
theorem records_turns (s : Server σ) (alive : ∀ ending, .stop ending ∈ cs → ending = .finished) :
    (s.turns cs).flatMap (·.records) =
      if s.test then [] else (s.turns cs).flatMap (·.news) := by
  induction cs generalizing s with
  | nil => exact (ite_self _).symm
  | cons c cs ih =>
      have here := (s.does_call c).records fun ending h => alive ending (h ▸ List.mem_cons_self)
      have rest : _ = if s.test then [] else _ :=
        ih (s.called c) fun ending h => alive ending (List.mem_cons_of_mem _ h)
      rw [turns, List.flatMap_cons, here, rest]
      cases s.test <;> rfl

/-! ## A lifetime -/

/-- What holds of a server that has been made, after calls of any kind, and of
the calls themselves. -/
structure Orderly (s : Server σ) (cs : List Call) : Prop where
  /-- At most one start succeeds. -/
  once : starts (s.turns cs) ≤ 1
  /-- A server that has not been stopped and of which no start has succeeded is as it
  was made: a port that cannot be bound leaves it so, and the next one that can be is
  listened on. -/
  created : (∀ c ∈ cs, c.isStop = false) → starts (s.turns cs) = 0 →
    (s.after cs).standing = .created ∧
    (∀ bound, (∀ e, bound ≠ .held e) →
      ((s.after cs).start bound).standing = .created ∧
      ∃ f, ((s.after cs).start bound).result = .error f) ∧
    ∀ e, ((s.after cs).start (.held e)).standing = .listening e ∧
      ((s.after cs).start (.held e)).result = .ok e
  /-- From the start that has succeeded to the first stop, the server reports the
  endpoint that this start has returned, and another start fails with its text. -/
  listening : (∀ c ∈ cs, c.isStop = false) → ∀ t ∈ s.turns cs, ∀ e, t.started? = some e →
    (s.after cs).standing = .listening e ∧ (s.after cs).standing.endpoint? = some e ∧
    ∀ bound, (s.after cs).start bound = ⟨.listening e, .error (.alreadyListening e.text), []⟩
  /-- From the first stop on the server is stopped, and a start fails without doing
  anything. -/
  stopped : (∃ c ∈ cs, c.isStop = true) → (s.after cs).standing = .stopped ∧
    ∀ bound, (s.after cs).start bound = ⟨.stopped, .error .stopped, []⟩
  /-- Every stop succeeds. -/
  stops : ∀ before ending behind, cs = before ++ .stop ending :: behind →
    ((s.after before).stopWith ending).result = .ok ()
  /-- The serving task is told to end just as often as a start has succeeded before
  the first stop, and never if there is no stop. -/
  shutdown : (∀ before ending behind, cs = before ++ .stop ending :: behind →
      (∀ c ∈ before, c.isStop = false) → shutdowns (s.turns cs) = starts (s.turns before)) ∧
    ((∀ c ∈ cs, c.isStop = false) → shutdowns (s.turns cs) = 0)
  /-- One record is logged for each start that succeeds and one for each stop that
  ends the serving task, in their order, and no others. -/
  logged : (s.turns cs).flatMap (·.records) = if s.test then [] else (s.turns cs).flatMap (·.news)

/-- After a stop no start succeeds. -/
theorem starts_behind_stop (s : Server σ) (before behind : List Call) (ending : Ending) :
    starts (s.turns (before ++ .stop ending :: behind)) = starts (s.turns before) := by
  have stop : ((s.after before).call (.stop ending)).started? = none :=
    ((s.after before).does_call (.stop ending)).started?_stop rfl
  have stopped : ((s.after before).called (.stop ending)).standing = .stopped :=
    ((s.after before).does_call (.stop ending)).stopped (.inr rfl)
  have full := starts_add_room_le ((s.after before).called (.stop ending)) behind
  rw [stopped] at full
  rw [turns_append, starts, List.countP_append, ← starts, turns, ← starts, starts_cons, stop,
    Nat.eq_zero_of_le_zero (Nat.le_of_add_right_le full)]
  rfl

/-- The life of a server, from its making on and under any calls: as long as its
serving task ends only when it is told to, every call leaves it as it should
be. -/
theorem lifetime (new : s.standing = .created) (cs : List Call)
    (alive : ∀ ending, .stop ending ∈ cs → ending = .finished) : s.Orderly cs where
  once := by
    have bound := s.starts_add_room_le cs
    rw [new] at bound
    exact Nat.le_of_add_right_le bound
  created going failed := by
    have standing := standing_of_starts_eq_zero new going failed
    simp only [start, standing]
    refine ⟨trivial, fun bound unbound => ?_, fun e => ⟨rfl, rfl⟩⟩
    cases bound with
    | refused | nameless => exact ⟨rfl, _, rfl⟩
    | held e => exact absurd rfl (unbound e)
  listening going t ht e started := by
    have standing := standing_of_started new going ht started
    simp only [start, standing]
    exact ⟨trivial, rfl, fun bound => rfl⟩
  stopped stop := by
    have standing := s.standing_of_stop stop
    simp only [start, standing]
    exact ⟨trivial, fun bound => rfl⟩
  stops before ending behind hcs := by
    obtain rfl := alive ending (hcs ▸ List.mem_append_right _ List.mem_cons_self)
    unfold stopWith Standing.stop
    split <;> rfl
  shutdown := by
    refine ⟨fun before ending behind hcs going => ?_, s.shutdowns_eq_zero⟩
    have balance := s.starts_add_held cs
    rw [new, s.standing_of_stop ⟨.stop ending, hcs ▸ List.mem_append_right _ List.mem_cons_self,
      rfl⟩] at balance
    rw [← s.starts_behind_stop before behind ending, ← hcs]
    exact balance.symm
  logged := s.records_turns alive

/-- A port is refused, then one is listened on while somebody starts the server
again, and two stops follow: the serving task is told to end once, and two
records are logged. -/
theorem lifetime_restarted :
    let e : Endpoint := ⟨.loopback, 3000⟩
    let s : Server Unit := ⟨.loopback, 3000, false, ⟨{}, ⟨.empty, .empty, {}⟩, {}, []⟩, .created⟩
    let cs : List Call := [.start (.refused "in use"), .start (.held e), .start (.held e),
      .stop .finished, .stop .finished, .start (.held e)]
    s.Orderly cs ∧ shutdowns (s.turns cs) = 1 ∧
      (s.turns cs).flatMap (·.records) =
        [⟨.info, s!"Server Listening on Port {e.port}", []⟩, ⟨.info, "Server Stopped", []⟩] := by
  intro e s cs
  have orderly : s.Orderly cs := lifetime rfl cs (by simp [cs])
  refine ⟨orderly, ?_, orderly.logged.trans rfl⟩
  refine orderly.shutdown.1 (cs.take 3) .finished (cs.drop 4) rfl ?_
  intro c hc
  simp only [cs, List.take_succ_cons, List.take_zero, List.mem_cons, List.not_mem_nil,
    or_false] at hc
  rcases hc with rfl | rfl | rfl <;> rfl

end Switchboard.Server
