import Switchboard.Proofs.Lookup
import Switchboard.Proofs.Pace
import Switchboard.Server.Session

/-!
# Switchboard.Proofs.Undisturbed

Requests that are answered one after another do not disturb each other.  What an
earlier request has left behind goes on beside the later ones: members of groups
that have failed, errands, emissions that nobody waits for.  None of it reaches
the exchange or the line of a later request, so every request is answered as if
it were the first one of its server.

Handlers are taken to keep nothing between requests, and the hooks and whatever
resolvers they call to depend on their arguments only.  The commands that tell
the time or draw a number are answered differently each time; a handler that
asks for them is not covered.
-/

namespace Switchboard

variable {σ ρ : Type} {C : Effect → Prop} {R : Pairs}

/-! ## Handlers and hooks that keep nothing -/

/-- Given the same request a handler does the same, whatever it sees of the time,
of the world and of its tickets.  It asks for effects of the given kind only. -/
def Handler.Stateless (C : Effect → Prop) : Handler σ → Prop
  | .script run => ∀ q, (run q).Alike C [] (run q)
  | .plain run => ∀ q, (run q).Alike C [] (run q)

/-- The hook that observes failures takes as long for a failure, and comes to the
same end, whatever it sees of the time and of the world. -/
def Recovery.Stateless (r : Recovery σ) : Prop :=
  ∀ report, r.reporter = some report → ∀ e, ∃ ms x, (report e r.ambient).Follows ms x

theorem Recovery.render_alike (r : Recovery σ) (e : Envelope) :
    (r.render e : Routine Exchange σ ρ Rendered).Alike C R (r.render e) := by
  unfold Recovery.render
  split
  · exact .write (.done _)
  · next renderer _ => exact (Rendering.alike (renderer e r.ambient) e true).bind fun _ => .done _

theorem Recovery.recover_alike {r : Recovery σ} (hr : r.Stateless) (e : Envelope) :
    (r.recover e : Routine Exchange σ ρ Rendered).Alike C R (r.recover e) := by
  unfold Recovery.recover
  refine .note ?_
  split
  · exact r.render_alike e
  · next report hreport =>
    obtain ⟨ms, x, hj⟩ := hr report hreport e
    exact (Routine.Alike.ofJob hj hj).bind fun _ => r.render_alike e

namespace Lifecycle

variable {l : Lifecycle σ}

/-- What scripts are interpreted with. -/
abbrev around (l : Lifecycle σ) : Surroundings σ := l.registry.surroundings l.ambient

theorem dispatch_alike {h : Handler σ} (hh : h.Stateless l.around.Steady) :
    (l.dispatch h).Alike l.around.Steady [] (l.dispatch h) := by
  refine .look fun _ _ x _ _ => ?_
  cases h with
  | script run => exact .interpret (fun _ asked => asked) (hh x.request) fun r => .done _
  | plain run => exact (hh x.request).bind fun r => .done _

theorem respond_alike (reply : Option Reply) :
    (respond reply : Step σ _).Alike C R (respond reply) := by
  refine .look fun _ _ x _ _ => ?_
  split
  · exact .done _
  · exact .write (.done _)

theorem run_alike {h : Handler σ} (hh : h.Stateless l.around.Steady) :
    (l.run h).Alike l.around.Steady [] (l.run h) := by
  refine (dispatch_alike hh).bind fun r => ?_
  split
  · exact .done _
  · next reply => exact respond_alike reply

theorem handle_alike {h : Handler σ} (hh : h.Stateless l.around.Steady)
    (hr : l.recovery.Stateless) : (l.handle h).Alike l.around.Steady [] (l.handle h) := by
  refine (run_alike hh).bind fun r => ?_
  split
  · exact .done ()
  · next e => exact (Recovery.recover_alike hr e).bind fun _ => .done ()

end Lifecycle

namespace Server

open Http Route Scheduler

/-! ## Routers -/

namespace Router

variable {r : Router σ}

/-- Every handler that a request may reach keeps nothing, and neither does the hook
that observes failures. -/
structure Stateless (r : Router σ) : Prop where
  handlers : ∀ method path h params, r.routes.look method path = .handler h params →
    h.Stateless r.lifecycle.around.Steady
  recovery : r.lifecycle.recovery.Stateless

theorem renderExchange_alike :
    (renderExchange : Lifecycle.Step σ Response).Alike C R renderExchange :=
  .look fun _ _ _ _ _ => .write (.note (.done _))

/-- A request is answered at once, or it is handled with an exchange of its own. -/
theorem handle_cases (hr : r.Stateless) (q : Request) :
    (∃ (x : Response) (change : World σ → World σ), ∀ s : Session σ,
      runRoutine (r.handle q) s = .finished x { s with world := change s.world }) ∨
    ∃ (x : Exchange) (p : Lifecycle.Step σ Response), p.Alike r.lifecycle.around.Steady [] p ∧
      ∀ s : Session σ, runRoutine (r.handle q) s = runRoutine p { s with state := x } := by
  unfold handle
  cases hlook : r.routes.look q.method q.target.path with
  | nothing => exact .inl ⟨_, (·.log ({} : Exchange).warnings), fun _ => rfl⟩
  | otherMethod allow => exact .inl ⟨_, id, fun _ => rfl⟩
  | handler h params =>
      dsimp only
      unfold endpoint
      cases r.parsing.requestSide params q with
      | error rejection => exact .inl ⟨_, id, fun _ => rfl⟩
      | ok request =>
          have handled := (Lifecycle.handle_alike (hr.handlers _ _ _ _ hlook) hr.recovery).bind
            fun _ => renderExchange_alike
          exact .inr ⟨{ request }, _, handled.bind fun _ => .done _, fun _ => rfl⟩

end Router

/-- The handlers of the routes keep nothing, and neither does the hook that
observes failures. -/
structure Config.Stateless (c : Config σ) : Prop where
  handlers : ∀ route ∈ c.routes, route.handler.Stateless c.lifecycle.around.Steady
  recovery : c.recovery.Stateless

theorem Config.Stateless.router {c : Config σ} {r : Router σ} (hc : c.Stateless)
    (mounted : Router.ofConfig c = .ok r) : r.Stateless := by
  unfold Router.ofConfig at mounted
  cases hm : Mounted.ofRoutes c.routes with
  | error fault => rw [hm] at mounted; cases mounted
  | ok routes =>
      rw [hm] at mounted
      cases mounted
      refine ⟨fun method path h params hl => ?_, hc.recovery⟩
      obtain ⟨route, hroute, rfl⟩ := route_of_look hm hl
      exact hc.handlers route hroute

/-! ## Requests one after another -/

namespace Session

variable {r : Router σ} {s s' : Session σ} {q : Request} {o : Option Response}

/-- A request is answered, or handling it crashes and there is no response.  The
rounds that it takes do not count. -/
def Replies (r : Router σ) (s : Session σ) (q : Request) (o : Option Response)
    (s' : Session σ) : Prop :=
  ∃ k, runFor (r.handle q) s k = .over o s'

/-- Time passes between two requests. -/
abbrev Idles : Session σ → Session σ → Prop :=
  Relation.ReflTransGen fun s s' => s.next? = some s'

/-- Requests are answered one after another, each some time after the one before
it. -/
inductive RepliesAll (r : Router σ) :
    Session σ → List Request → List (Option Response) → Session σ → Prop
  | nil (s : Session σ) : RepliesAll r s [] [] s
  | cons {s s₁ s₂ s' : Session σ} {q : Request} {qs : List Request} {o : Option Response}
      {os : List (Option Response)} (idle : Idles s s₁) (first : Replies r s₁ q o s₂)
      (rest : RepliesAll r s₂ qs os s') : RepliesAll r s (q :: qs) (o :: os) s'

theorem replies_iff_yields :
    Replies r s q o s' ↔ (runRoutine (r.handle q) { s with woken := false }).Yields o s' := by
  have first (k : Nat) : runFor (r.handle q) s (k + 1) =
      (runRoutine (r.handle q) { s with woken := false }).complete k := rounds_succ k _ _
  constructor
  · rintro ⟨k, hk⟩
    cases k with
    | zero => cases o <;> cases hk
    | succ k => exact ⟨k, (first k).symm.trans hk⟩
  · rintro ⟨k, hk⟩
    exact ⟨k + 1, (first k).trans hk⟩

/-- A request gets one response only. -/
theorem Replies.unique {o' : Option Response} {s'' : Session σ} (h : Replies r s q o s')
    (h' : Replies r s q o' s'') : o = o' ∧ s' = s'' :=
  (replies_iff_yields.1 h).unique (replies_iff_yields.1 h')

/-- A response that a session gives is a reply. -/
theorem replies_of_ask {x : Response} (h : (ask r s q).1 = some x) :
    Replies r s q (some x) (ask r s q).2 := by
  refine ⟨horizon, ?_⟩
  rw [← run_eq_runFor]
  unfold ask at h ⊢
  cases hrun : run (r.handle q) s with
  | finished response s' =>
      rw [hrun] at h
      cases h
      rfl
  | crashed | stuck | unfinished =>
      rw [hrun] at h
      cases h

/-- The responses of a session that answers all its requests are replies. -/
theorem repliesAll_of_askAll {qs : List Request} {xs : List Response}
    (h : (askAll r s qs).1 = xs.map some) :
    RepliesAll r s qs (xs.map some) (askAll r s qs).2 := by
  induction qs generalizing s xs with
  | nil =>
      cases xs with
      | nil => exact .nil s
      | cons => cases h
  | cons q qs ih =>
      cases xs with
      | nil => cases h
      | cons x xs =>
          obtain ⟨first, rest⟩ := List.cons.inj h
          exact .cons .refl (replies_of_ask first) (ih rest)

/-- A server is as ready for a request as a new one is, whatever earlier requests
have left behind. -/
theorem replies_iff_fresh (hr : r.Stateless) (h : Vacant r.lifecycle.around.Steady s) (own : σ) :
    (∃ s', Replies r s q o s') ↔ ∃ s', Replies r (fresh own) q o s' := by
  simp only [replies_iff_yields]
  rcases Router.handle_cases hr q with ⟨x, change, turn⟩ | ⟨x, p, hp, turn⟩
  · simp only [turn, Turn.yields_finished, exists_and_left, exists_eq, and_true]
  · simp only [turn]
    exact h.yields_iff hp x { own }

/-- And so it stays. -/
theorem Replies.vacant (hr : r.Stateless) (h : Vacant r.lifecycle.around.Steady s)
    (replies : Replies r s q o s') : Vacant r.lifecycle.around.Steady s' := by
  rw [replies_iff_yields] at replies
  rcases Router.handle_cases hr q with ⟨x, change, turn⟩ | ⟨x, p, hp, turn⟩
  · rw [turn, Turn.yields_finished] at replies
    rw [replies.2]
    exact h.touch s.state (change s.world) false
  · rw [turn] at replies
    exact h.after hp x replies

theorem Idles.vacant (h : Vacant C s) (idle : Idles s s') : Vacant C s' := by
  induction idle with
  | refl => exact h
  | tail _ hs ih => exact ih.next hs

theorem repliesAll_iff (hr : r.Stateless) (own : σ) {qs : List Request}
    {os : List (Option Response)} (h : Vacant r.lifecycle.around.Steady s) :
    (∃ s', RepliesAll r s qs os s') ↔
      List.Forall₂ (fun q o => ∃ s', Replies r (fresh own) q o s') qs os := by
  constructor
  · rintro ⟨s', replies⟩
    induction replies with
    | nil s => exact .nil
    | cons idle first _ ih =>
        have rested := idle.vacant h
        exact .cons ((replies_iff_fresh hr rested own).1 ⟨_, first⟩) (ih (first.vacant hr rested))
  · intro alone
    induction alone generalizing s with
    | nil => exact ⟨s, .nil s⟩
    | cons first _ ih =>
        obtain ⟨s₁, first⟩ := (replies_iff_fresh hr h own).2 first
        obtain ⟨s', rest⟩ := ih (first.vacant hr h)
        exact ⟨s', .cons .refl first rest⟩

/-- Requests do not disturb each other.  However many of them are answered one
after another, and however much time passes in between, every one of them gets
the response that it gets from a new server that is asked nothing else, or it
crashes there as well. -/
theorem requests_do_not_interfere {c : Config σ} {r : Router σ}
    (mounted : Router.ofConfig c = .ok r) (stateless : c.Stateless) (own own' : σ)
    (qs : List Request) (os : List (Option Response)) :
    (∃ s, RepliesAll r (fresh own) qs os s) ↔
      List.Forall₂ (fun q o => ∃ s, Replies r (fresh own') q o s) qs os :=
  repliesAll_iff (stateless.router mounted) own' (vacant_fresh _ _)

/-- Performs a group that fails at once while another member sleeps, asks for
something and does not wait for it, and answers. -/
private def deserting : Handler Unit := .script fun _ =>
  .all [⟨"fail", .null⟩, ⟨"rest", .null⟩] fun _ =>
    .emit (.single ⟨"rest", .null⟩) fun _ => .done (.ok (some { body := some (.string "done") }))

private def deserted : Config Unit where
  routes := [⟨.get, "/page", deserting⟩]
  interpreters :=
    [("fail", fun _ _ => .done (.error (.ofMessage "no"))),
     ("rest", fun _ _ => .sleep 5 (.done (.ok .null)))]

private theorem deserted_stateless : deserted.Stateless where
  handlers := by
    have fails (job : Job Unit Answer)
        (h : deserted.lifecycle.around.resolve? ⟨"fail", .null⟩ = some job) :
        job.Follows [] (some (.error (.ofMessage "no"))) := by
      obtain rfl : Job.done (.error (.ofMessage "no")) = job := Option.some.inj h
      exact .done _
    have rests (job : Job Unit Answer)
        (h : deserted.lifecycle.around.resolve? ⟨"rest", .null⟩ = some job) :
        job.Follows [5] (some (.ok .null)) := by
      obtain rfl : Job.sleep 5 (.done (.ok .null)) = job := Option.some.inj h
      exact .sleep (by decide) (.done _)
    refine List.forall_mem_singleton.2 fun _ => .emit ?_ fun t t' =>
      .await List.mem_cons_self fun o => .emit ?_ fun _ _ => .done _
    · refine List.forall_mem_cons.2 ⟨fun job h => ?_, List.forall_mem_singleton.2 fun job h => ?_⟩
      · exact ⟨_, _, fails job h, nofun⟩
      · exact ⟨_, _, rests job h, nofun⟩
    · exact List.forall_mem_singleton.2 fun job h => ⟨_, _, rests job h, fun _ => nofun⟩
  recovery := nofun

private def desertedRouter : Router Unit where
  routes := ⟨[("/page", [(.get, deserting)])]⟩
  lifecycle := deserted.lifecycle
  parsing := deserted.parsing
  layers := deserted.layers

private def desertedPage : Request := { target := ⟨"/page", none⟩ }

private theorem deserted_handle : desertedRouter.handle desertedPage =
    (desertedRouter.endpoint deserting .empty desertedPage).bind fun response =>
      .done (Router.answer desertedRouter.layers desertedPage.method none response) := by
  have found : desertedRouter.routes.look desertedPage.method desertedPage.target.path =
      .handler deserting .empty := by
    have pieces : Piece.ofPath "/page" = [.text "/page".toList] := by decide +kernel
    rw [desertedRouter, Mounted.look, Mounted.tree, List.foldl_cons, List.foldl_nil, Tree.insert,
      insertBelow, pieces]
    rfl
  rw [Router.handle, found]

/-- The second of two requests gets the response of the first one, beside what the
first has left behind: a member of a group that goes on, and an emission without
an outcome. -/
theorem requests_do_not_interfere_deserted :
    ∃ r o s, Router.ofConfig deserted = .ok r ∧
      RepliesAll r (fresh ()) [desertedPage, desertedPage] [some o, some o] s := by
  have mounted : Router.ofConfig deserted = .ok desertedRouter := rfl
  have alone : ∃ o s, Replies desertedRouter (fresh ()) desertedPage (some o) s := by
    refine ⟨?o, ?s, 10, ?run⟩
    case run =>
      rw [deserted_handle]
      exact rfl
  obtain ⟨o, alone⟩ := alone
  obtain ⟨s, both⟩ := (requests_do_not_interfere mounted deserted_stateless () () _ _).2
    (.cons alone (.cons alone .nil))
  exact ⟨desertedRouter, o, s, mounted, both⟩

end Session

end Server

end Switchboard
