import Switchboard.Proofs.Eventually
import Switchboard.Proofs.Recast
import Switchboard.Proofs.Solo
import Switchboard.Proofs.Sparing
import Switchboard.Registry

/-!
# Switchboard.Proofs.Forms

The forms of an effect.  A command may be performed by itself, as the only one of
a sequence or under a label.  The one form is resolved in its place, the others
by way of a task; the answer is the same, and so is the time at which it comes.
A mapping of any size comes to what the sequence of its commands comes to, under
its labels.

* `Leads` — a script that stands somewhere comes to stand somewhere else;
* `Form` — the forms of a command;
* `AnswersAlike`, `Relabels` — what is the same;
* `forms_agree` — every registry.
-/

namespace Switchboard.Scheduler

variable {ξ σ ρ ρ' β ν : Type} {s s' s₁ s₂ : Scheduler ξ σ} {n m now : Nat} {t : Ticket}
  {e : Effect} {c : Command} {a : Answer} {w : World σ} {around : Surroundings σ}
  {view : World σ → ν} {inbox : List (Ticket × Effect)} {shape : Json → Resumed}

/-! ## From one place to another -/

/-- A script that stands somewhere comes to stand somewhere else: whatever is done
when it is over, the rest of the run is the same from there. -/
def Leads (around : Surroundings σ) (n : Nat) (standing : Standing ξ σ ρ) (s : Scheduler ξ σ)
    (standing' : Standing ξ σ ρ) (s' : Scheduler ξ σ) : Prop :=
  ∃ j, ∀ {α : Type} (after : Except Failure ρ → Routine ξ σ ρ α) (k : Nat),
    goOn around n standing after (j + k) s = goOn around n standing' after k s'

namespace Leads

variable {standing standing₁ standing₂ : Standing ξ σ ρ}

theorem trans (h : Leads around n standing s standing₁ s₁)
    (h' : Leads around n standing₁ s₁ standing₂ s₂) : Leads around n standing s standing₂ s₂ := by
  obtain ⟨j, h⟩ := h
  obtain ⟨j', h'⟩ := h'
  exact ⟨j + j', fun after k => by rw [Nat.add_assoc, h, h']⟩

/-- Within one turn. -/
theorem of_eq (h : continueScript around n standing s = continueScript around n standing₁ s₁) :
    Leads around n standing s standing₁ s₁ :=
  ⟨0, fun after k => by rw [Nat.zero_add, goOn, h, goOn]⟩

theorem emit (s : Scheduler ξ σ) (e : Effect) (next : Ticket → Script ξ σ ρ) :
    Leads around n (.before (.emit e next)) s (.before (next (s.emit n e).1)) (s.emit n e).2 :=
  of_eq rfl

theorem await {o : Outcome} (arrived : s.outcome? t = some o) (next : Outcome → Script ξ σ ρ) :
    Leads around n (.before (.await t next)) s (.before (next o)) (s.log (.resumed t o)) :=
  of_eq (by simp only [continueScript, runScript, arrived])

end Leads

/-- A script is where it was when the oldest effect on its line has run its
course. -/
theorem Runs.leads {standing : Standing ξ σ ρ} {j : Nat}
    (runs : Runs around t e (s.pull n standing.wanted t e inbox) j s')
    (hl : s.line = some { number := n, inbox := (t, e) :: inbox }) (waits : standing.Waits s) :
    Leads around n standing s standing s' :=
  ⟨j, fun after k => runs.goOn hl waits after k⟩

theorem settle_arrived (kept : s.dropped t = false) (o : Outcome) :
    (s.settle t o).outcome? t = some o :=
  (settle_outcome? s t t o).trans (if_pos ⟨rfl, kept⟩)

/-! ## A script that asks for something -/

/-- A script has its turn and nothing is on its line; nobody will drop the emission
that it makes next. -/
structure Clear (view : World σ → ν) (s : Scheduler ξ σ) (around : Surroundings σ) (n : Nat) :
    Prop where
  attends : s.Attends around n
  line : s.line = some { number := n, inbox := [] }
  heeded : s.Heeded view s.nextTicket

namespace Clear

/-- So it is where a script begins. -/
theorem begin (hi : s.Inv) (closed : s.line = none) (heeded : s.Heeded view s.nextTicket)
    (around : Surroundings σ) : (s.openLine around).Clear view around s.nextLine where
  attends :=
    { inv := (Step.interpret s around closed).inv hi
      free := ⟨[], rfl⟩
      opened := ⟨s.clock, List.mem_cons_self⟩ }
  line := rfl
  heeded := heeded.same rfl rfl rfl rfl

theorem emit_eq (h : s.Clear view around n) (e : Effect) :
    (s.emit n e).2 =
      { s with
        nextTicket := s.nextTicket + 1
        line := some { number := n, inbox := [(s.nextTicket, e)] }
        woken := true }.log (.emitted n s.nextTicket e) :=
  emit_open s e h.line

theorem step (h : s.Clear view around n) (e : Effect) : Step s (s.emit n e).2 :=
  .emit s n e (h.attends.inv.line_lt h.line)

/-- The effect that the script emits is the only one on the line. -/
theorem attended (h : s.Clear view around n) (e : Effect) : (s.emit n e).2.Attends around n where
  inv := (h.step e).inv h.attends.inv
  free := ⟨[(s.nextTicket, e)], by rw [h.emit_eq e]; rfl⟩
  opened := h.attends.opened.imp fun _ => ((h.step e).suffix.subset ·)

theorem offers (h : s.Clear view around n) (others : ∀ mb ∈ s.crew, mb.job.Spares view)
    (e : Effect) : (s.emit n e).2.Offers view around n s.nextTicket e where
  attends := h.attended e
  first := ⟨[], by rw [h.emit_eq e]; rfl⟩
  heeded := h.heeded.emit n e
  others mb hmb := others mb (emit_crew s n e ▸ hmb)

theorem waits (h : s.Clear view around n) (e : Effect) (next : Outcome → Script ξ σ ρ) :
    (Standing.before (.await s.nextTicket next)).Waits (s.emit n e).2 := by
  rw [h.emit_eq e]
  exact ⟨h.attends.inv.outcome?_next, h.heeded.kept⟩

/-- What the script asks for has come to an outcome: the script goes on. -/
theorem suspend (h : s.Clear view around n) {next : Outcome → Script ξ σ ρ} {o : Outcome}
    (arrived : s'.outcome? s.nextTicket = some o)
    (leads : Leads around n (.before (.await s.nextTicket next)) (s.emit n e).2
      (.before (.await s.nextTicket next)) s') :
    Leads around n (.before (.suspend e next)) s (.before (next o))
      (s'.log (.resumed s.nextTicket o)) := by
  have ticket : (s.emit n e).1 = s.nextTicket := by simp [Scheduler.emit, log, h.line]
  have emitted : Leads around n (.before (.suspend e next)) s
      (.before (.await s.nextTicket next)) (s.emit n e).2 := ticket ▸ Leads.emit s e _
  exact (emitted.trans leads).trans (.await arrived next)

end Clear

/-! ## The forms of a command -/

/-- A command is all that an effect asks for, and a value comes back in the shape of
the effect. -/
inductive Form (c : Command) : Effect → (Json → Resumed) → Prop where
  | single : Form c (.single c) .single
  | sequence : Form c (.sequence [c]) fun v => .sequence [v]
  | mapping (label : String) :
    Form c (.mapping (.ofList [(label, c)])) fun v => .mapping (.ofList [(label, v)])

theorem Form.commands (h : Form c e shape) : e.commands = [c] := by
  cases h <;> rfl

theorem Form.resumed (h : Form c e shape) (v : Json) : e.resumed [v] = shape v := by
  cases h with
  | single | sequence => rfl
  | mapping label => exact congrArg Resumed.mapping (Labelled.ext rfl)

/-- In whatever world like this one a script asks for something at this time, and
whatever the script is, it goes on with a result at a time. -/
def Performs (view : World σ → ν) (around : Surroundings σ) (now : Nat) (w : World σ)
    (ask : ∀ ξ ρ : Type, (Except Failure β → Script ξ σ ρ) → Script ξ σ ρ) (m : Nat)
    (r : Except Failure β) : Prop :=
  ∀ {ξ ρ : Type} {s : Scheduler ξ σ} {n : Nat} (next : Except Failure β → Script ξ σ ρ),
    s.Clear view around n → (∀ mb ∈ s.crew, mb.job.Spares view) → s.clock = now →
    view s.world = view w →
    ∃ x : Scheduler ξ σ, x.clock = m ∧
      Leads around n (.before (ask ξ ρ next)) s (.before (next r)) x

/-- A command has one answer at one time, in all of its forms. -/
structure AnswersAlike (view : World σ → ν) (around : Surroundings σ) (c : Command) (now : Nat)
    (w : World σ) (m : Nat) (a : Answer) : Prop where
  /-- Wherever it is taken, and whatever the script waits for, its outcome is sent. -/
  settled : ∀ {ξ ρ : Type} {s : Scheduler ξ σ} {n : Nat} {t : Ticket} {e : Effect}
    {shape : Json → Resumed} {standing : Standing ξ σ ρ}, Form c e shape →
    s.Offers view around n t e → s.clock = now → view s.world = view w → standing.Waits s →
    ∃ x : Scheduler ξ σ, x.clock = m ∧ x.dropped t = false ∧
      Leads around n standing s standing (x.settle t (a.map shape))
  perform : Performs view around now w (fun _ _ => .perform c) m a
  all : Performs view around now w (fun _ _ => .all [c]) m (a.map fun v => [v])
  allNamed : ∀ label : String, Performs view around now w
    (fun _ _ => .allNamed (.ofList [(label, c)])) m (a.map fun v => .ofList [(label, v)])

/-- What is sent for a command in any of its forms. -/
theorem Offers.settles (form : Form c e shape) (h : s.Offers view around n t e)
    (hj : ((around.resolve? c).getD (.done (.error (.unknownCommand c.name)))).Comes view s.clock
      s.world m a) {standing : Standing ξ σ ρ} (waits : standing.Waits s) :
    ∃ x : Scheduler ξ σ, x.clock = m ∧ x.dropped t = false ∧
      Leads around n standing s standing (x.settle t (a.map shape)) := by
  obtain ⟨inbox, hl⟩ := h.first
  obtain ⟨k, s', runs, x, rfl, clock, kept⟩ := h.runs hl form.commands hj waits
  refine ⟨x, clock, kept, ?_⟩
  rw [← funext form.resumed]
  exact runs.leads hl waits

/-- What a script goes on with that asks for a command in any of its forms, and reads
the outcome in some way. -/
theorem performs (hj : ((around.resolve? c).getD
      (.done (.error (.unknownCommand c.name)))).Comes view now w m a) (form : Form c e shape)
    {ask : ∀ ξ ρ : Type, (Except Failure β → Script ξ σ ρ) → Script ξ σ ρ}
    {read : Outcome → Except Failure β} {r : Except Failure β}
    (asks : ∀ ξ ρ next, ask ξ ρ next = .suspend e fun o => next (read o))
    (reads : read (a.map shape) = r) : Performs view around now w ask m r := by
  intro ξ ρ s n next clear others clock same
  have unmoved : (s.emit n e).2.clock = now ∧ (s.emit n e).2.world = s.world := by
    rw [clear.emit_eq e]
    exact ⟨clock, rfl⟩
  have comes := hj.congr (unmoved.2 ▸ same.symm)
  rw [← unmoved.1] at comes
  obtain ⟨x, hm, kept, leads⟩ := (clear.offers others e).settles form comes
    (clear.waits e fun o => next (read o))
  have goes := clear.suspend (settle_arrived kept _) leads
  rw [← asks, reads] at goes
  refine ⟨_, ?_, goes⟩
  exact hm

/-- A command that comes to an answer has it in all of its forms. -/
theorem answersAlike (hj : ((around.resolve? c).getD
    (.done (.error (.unknownCommand c.name)))).Comes view now w m a) :
    AnswersAlike view around c now w m a where
  settled form offers clock same waits :=
    offers.settles form (clock ▸ hj.congr same.symm) waits
  perform := performs hj .single (fun _ _ _ => rfl) (by cases a <;> rfl)
  all := performs hj .sequence (fun _ _ _ => rfl) (by cases a <;> rfl)
  allNamed label := performs hj (.mapping label) (fun _ _ _ => rfl) (by cases a <;> rfl)

/-! ## Mappings and sequences -/

/-- The values of a sequence are under the labels of a mapping, in the same order; a
failure is the same. -/
def Relabelled (cs : Labelled Command) :
    Except Failure (List Json) → Except Failure (Labelled Json) → Prop
  | .ok vs, .ok d => d.labels = cs.labels ∧ d.values = vs
  | .error f, .error g => f = g
  | _, _ => False

theorem relabelled_map {cs : Labelled Command} {r : Except Failure (List Json)}
    (sized : FanIn.Sized r cs.size) : Relabelled cs r (r.map cs.relabel) := by
  cases r with
  | error f => rfl
  | ok vs => exact ⟨cs.relabel_labels (sized vs rfl), cs.relabel_values (sized vs rfl)⟩

/-- A mapping comes to what the sequence of its commands comes to, under its
labels. -/
structure Relabels (around : Surroundings σ) (cs : Labelled Command) : Prop where
  /-- Wherever it is taken, if the sequence is taken there instead, and whatever the
  scripts wait for: the two outcomes are sent in one and the same moment. -/
  settled : ∀ {ξ ρ ρ' : Type} {s : Scheduler ξ σ} {n : Nat} {t : Ticket}
    {inbox : List (Ticket × Effect)} {standing : Standing ξ σ ρ} {standing' : Standing ξ σ ρ'}
    (past : History σ), s.Attends around n →
    s.line = some { number := n, inbox := (t, .mapping cs) :: inbox } → standing.Waits s →
    standing'.Waits s →
    ∃ (x : Scheduler ξ σ) (r : Except Failure (List Json)) (d : Except Failure (Labelled Json))
      (past₁ past₂ : History σ), Relabelled cs r d ∧
      Leads around n standing s standing ((x.settle t (d.map .mapping)).since past₁) ∧
      Leads around n standing'
        { s with
          line := some { number := n, inbox := (t, .sequence cs.values) :: inbox }
          history := past } standing'
        ((x.settle t (r.map .sequence)).since past₂)
  /-- A script that asks for the mapping, and one that asks for the sequence, go on
  at the same time. -/
  performed : ∀ {ξ ρ ρ' : Type} {s : Scheduler ξ σ} {n : Nat}
    (next : Except Failure (Labelled Json) → Script ξ σ ρ)
    (next' : Except Failure (List Json) → Script ξ σ ρ'), s.Clear (fun _ => ()) around n →
    ∃ (x x' : Scheduler ξ σ) (r : Except Failure (List Json)) (d : Except Failure (Labelled Json)),
      Relabelled cs r d ∧ x.clock = x'.clock ∧ x.world = x'.world ∧
      Leads around n (.before (.allNamed cs next)) s (.before (next d)) x ∧
      Leads around n (.before (.all cs.values next')) s (.before (next' r)) x'

/-- What a script waits for does not depend on what lies on its line, or on what has
happened. -/
theorem Standing.Waits.of_eq {standing : Standing ξ σ ρ} (waits : standing.Waits s)
    (outcomes : s'.outcomes = s.outcomes) (dropped : s'.dropped = s.dropped)
    (clock : s'.clock = s.clock) : standing.Waits s' := by
  cases standing with
  | asleep due next => exact Nat.lt_of_le_of_lt clock.le waits
  | before script =>
      cases script with
      | await t next =>
          refine ⟨?_, ?_⟩
          · rw [outcome?, outcomes]
            exact waits.1
          · rw [dropped]
            exact waits.2
      | done | look | write | note | emit | drop | sleep | spawn => exact waits.elim

/-- A mapping and the sequence of its commands run their courses side by side. -/
theorem leads_relabelled {cs : Labelled Command} {standing : Standing ξ σ ρ}
    {standing' : Standing ξ σ ρ'} (attends : s.Attends around n)
    (hl : s.line = some { number := n, inbox := (t, .mapping cs) :: inbox })
    (waits : standing.Waits s) (waits' : standing'.Waits s) (past : History σ) :
    ∃ (x : Scheduler ξ σ) (r : Except Failure (List Json)) (d : Except Failure (Labelled Json))
      (past₁ past₂ : History σ), Relabelled cs r d ∧
      Leads around n standing s standing ((x.settle t (d.map .mapping)).since past₁) ∧
      Leads around n standing'
        { s with
          line := some { number := n, inbox := (t, .sequence cs.values) :: inbox }
          history := past } standing'
        ((x.settle t (r.map .sequence)).since past₂) ∧
      (s.Heeded (fun _ => ()) t → x.dropped t = false) := by
  generalize hs' : { s with
    line := some { number := n, inbox := (t, .sequence cs.values) :: inbox }
    history := past } = s'
  have hl' : s'.line = some { number := n, inbox := (t, .sequence cs.values) :: inbox } :=
    hs' ▸ rfl
  have alike : s'.without [] = s.without [] := by
    subst hs'
    simp only [without, hl, Option.map_some, List.tail_cons]
  have free : (s.without []).line = some { number := n, inbox } := by simp [without, hl]
  have waits' : standing'.Waits s' := hs' ▸ waits'.of_eq rfl rfl rfl
  have composite : (Effect.sequence cs.values).IsGroup := trivial
  obtain ⟨j, s₁, runs⟩ := exists_runs_group attends (e := .mapping cs) trivial hl waits
  obtain ⟨x, r, sized, rfl, runs'⟩ := (pull_eq hl _ ▸ runs).recast trivial composite rfl free
    (s'.taking n standing'.wanted t (.sequence cs.values))
  rw [← alike, ← pull_eq hl'] at runs'
  have size : (Effect.mapping cs).size = cs.size := by
    simp [Effect.size, Effect.commands, Labelled.values, Labelled.size]
  have sent (g : List Json → Labelled Json) : (r.map g).map Resumed.mapping =
      r.map fun vs => .mapping (g vs) := by
    cases r <;> rfl
  refine ⟨x, r, r.map cs.relabel, s.taking n standing.wanted t (.mapping cs),
    s'.taking n standing'.wanted t (.sequence cs.values), relabelled_map (size ▸ sized), ?_,
    runs'.leads hl' waits', fun heeded => ?_⟩
  · rw [sent]
    exact runs.leads hl waits
  · have kept : (x.settle t (r.map (Effect.mapping cs).resumed)).dropped t = false :=
      (runs.heeded (heeded.same rfl rfl rfl rfl)).kept
    rwa [settle_dropped] at kept

theorem relabels (around : Surroundings σ) (cs : Labelled Command) : Relabels around cs where
  settled past attends hl waits waits' := by
    obtain ⟨x, r, d, past₁, past₂, relabelled, leads, leads', -⟩ :=
      leads_relabelled attends hl waits waits' past
    exact ⟨x, r, d, past₁, past₂, relabelled, leads, leads'⟩
  performed {ξ ρ ρ' s n} next next' clear := by
    obtain ⟨x, r, d, past₁, past₂, relabelled, leads, leads', kept⟩ := leads_relabelled
      (clear.attended (.mapping cs)) (by rw [clear.emit_eq]; rfl)
      (clear.waits (.mapping cs) fun o => next (Script.asMapping o))
      (clear.waits (.mapping cs) fun o => next' (Script.asSequence o))
      ((s.clock, .emitted n s.nextTicket (.sequence cs.values)) :: s.history)
    have kept := kept (clear.heeded.emit n _)
    have mapping : Script.asMapping (d.map .mapping) = d := by cases d <;> rfl
    have sequence : Script.asSequence (r.map .sequence) = r := by cases r <;> rfl
    have other : { (s.emit n (.mapping cs)).2 with
        line := some { number := n, inbox := [(s.nextTicket, .sequence cs.values)] }
        history := (s.clock, .emitted n s.nextTicket (.sequence cs.values)) :: s.history } =
        (s.emit n (.sequence cs.values)).2 := by
      rw [clear.emit_eq, clear.emit_eq]
      rfl
    rw [other] at leads'
    have arrived (past : History σ) (o : Outcome) :
        ((x.settle s.nextTicket o).since past).outcome? s.nextTicket = some o :=
      settle_arrived kept o
    have here := clear.suspend (arrived past₁ _) leads
    have there := clear.suspend (arrived past₂ _) leads'
    rw [mapping] at here
    rw [sequence] at there
    refine ⟨_, _, r, d, relabelled, ?_, ?_, here, there⟩
    · rfl
    · rfl

/-! ## Every registry -/

/-- A command whose resolver comes to an answer, and does not crash, has this answer in
all of its forms, at the time at which the resolver has it when it is run by itself;
where nobody has registered the name the answer is that it is unknown.  Others may be
at work, as long as they leave alone what the resolver sees of the world: everything,
unless a narrower view of the world is known to be enough for it.  A mapping comes to
what the sequence of its commands comes to, whatever becomes of them. -/
theorem forms_agree (registry : Registry σ) (ambient : Context) :
    (∀ {ν : Type} (view : World σ → ν) (c : Command) (now : Nat) (w : World σ) (a : Answer),
      (registry.resolve ambient c).Minds view →
      ((registry.resolve ambient c).solo now w).2 = some a →
      AnswersAlike view (registry.surroundings ambient) c now w
        ((registry.resolve ambient c).solo now w).1 a) ∧
      ∀ cs, Relabels (registry.surroundings ambient) cs :=
  ⟨fun _ _ _ _ _ minds answers => answersAlike ⟨minds, Prod.ext rfl answers⟩, relabels _⟩

/-- A resolver that takes its time, in a script that has nothing beside it. -/
theorem forms_agree_slow :
    let s : Scheduler Unit Unit := { state := (), world := { own := () } }
    let registry : Registry Unit := Registry.empty.register "slow" fun payload _ =>
      .sleep 8 (.done (.ok payload))
    let around := registry.surroundings .empty
    let c : Command := ⟨"slow", .bool true⟩
    let p (e : Effect) : Routine Unit Unit Unit Unit :=
      .interpret around (.suspend e fun _ => .done (.ok ())) fun _ => .done ()
    (openLine s around).Clear id around 1 ∧
      AnswersAlike id around c 0 s.world 8 (.ok (.bool true)) ∧
      (∃ x : Scheduler Unit Unit, x.clock = 8 ∧ Leads around 1
        (.before (.perform c fun r => .done (r.map fun _ => ()))) (openLine s around)
        (.before (.done (.ok ()))) x) ∧
      Happens (p (.single c)) s 8 (.resumed 0 (.ok (.single (.bool true)))) ∧
      Happens (p (.sequence [c])) s 8 (.resumed 0 (.ok (.sequence [.bool true]))) ∧
      Happens (p (.mapping (.ofList [("only", c)]))) s 8
        (.resumed 0 (.ok (.mapping (.ofList [("only", .bool true)])))) ∧
      Relabels around (.ofList [("first", c), ("second", ⟨"none", .null⟩)]) := by
  intro s registry around c p
  have heeded : s.Heeded id s.nextTicket := ⟨rfl, nofun, nofun, nofun⟩
  have clear : (openLine s around).Clear id around 1 :=
    .begin (Reachable.fresh () { own := () }).rests.1 rfl heeded around
  obtain ⟨alike, relabels⟩ := forms_agree registry .empty
  have alike := alike id c 0 s.world (.ok (.bool true)) (Job.minds_id _) rfl
  refine ⟨clear, alike, alike.perform _ clear nofun rfl rfl, ?_, ?_, ?_, relabels _⟩
  all_goals dsimp +zetaDelta only
  · exact .of_moment (.fresh () _) 12 1 rfl
  · exact .of_moment (.fresh () _) 16 1 rfl
  · exact .of_moment (.fresh () _) 16 1 rfl

end Switchboard.Scheduler
