import Switchboard.Proofs.Heeded

/-!
# Switchboard.Proofs.Solo

What a single command comes to.  A resolver that is run by itself from some time
on has one answer, at one time.  It has the same answer at the same time wherever
it is run, whether it is resolved in place or as a task of its own beside others,
as long as the others leave alone what it sees of the world.

* `Job.solo` — a job that is run by itself;
* `Job.Minds`, `Job.Spares` — what a job sees of the world, and what it leaves
  alone;
* `Foretold` — where the one command of an effect stands, and what is sure to
  come of it, with `Foretold.next?`, that nobody can change this;
* `Offers.runs` — what comes of the effect.
-/

namespace Switchboard

variable {ξ σ ρ α ν : Type}

/-! ## Jobs by themselves -/

namespace Job

/-- When a job stops that is run by itself from a time on, and with which result,
or with none. -/
def solo : Job σ α → Nat → World σ → Nat × Option α
  | .done a, now, _ => (now, some a)
  | .crash, now, _ => (now, none)
  | .look next, now, w => (next now w).solo now w
  | .write change next, now, w => next.solo now (change w)
  | .sleep ms next, now, w => next.solo (now + ms) w

/-- What a job does depends on nothing of the world but a view of it. -/
def Minds (view : World σ → ν) : Job σ α → Prop
  | .done _ | .crash => True
  | .look next =>
    (∀ now w w', view w = view w' → next now w = next now w') ∧ ∀ now w, (next now w).Minds view
  | .write change next =>
    (∀ w w', view w = view w' → view (change w) = view (change w')) ∧ next.Minds view
  | .sleep _ next => next.Minds view

/-- A job leaves alone what is in view of others. -/
def Spares (view : World σ → ν) : Job σ α → Prop
  | .done _ | .crash => True
  | .look next => ∀ now w, (next now w).Spares view
  | .write change next => (∀ w, view (change w) = view w) ∧ next.Spares view
  | .sleep _ next => next.Spares view

variable {view : World σ → ν} {j next : Job σ α} {now due m : Nat} {w w' : World σ} {a b : α}

/-- No job sees more than everything. -/
theorem minds_id (j : Job σ α) : j.Minds id := by
  induction j with
  | done | crash => trivial
  | look next ih => exact ⟨fun now w w' h => congrArg (next now) h, ih⟩
  | write change next ih => exact ⟨fun w w' h => congrArg change h, ih⟩
  | sleep ms next ih => exact ih

theorem Minds.solo_congr (hj : j.Minds view) (now : Nat) (h : view w = view w') :
    j.solo now w = j.solo now w' := by
  induction j generalizing now w w' with
  | done | crash => rfl
  | look next ih =>
      rw [solo, solo, ← hj.1 now w w' h]
      exact ih now w (hj.2 now w) now h
  | write change next ih => exact ih hj.2 now (hj.1 w w' h)
  | sleep ms next ih => exact ih hj (now + ms) h

/-- Running a job until it stops does not change what it comes to. -/
theorem solo_burst (j : Job σ α) (now : Nat) (w : World σ) : j.solo now w =
    match j.burst now w with
    | (.done a, _) => (now, some a)
    | (.crashed, _) => (now, none)
    | (.asleep due next, w) => next.solo due w := by
  induction j generalizing w with
  | done | crash => rfl
  | look next ih => exact ih now w w
  | write change next ih => exact ih (change w)
  | sleep ms next ih =>
      by_cases hms : ms = 0
      · subst hms
        rw [burst, if_pos rfl]
        exact ih w
      · rw [burst, if_neg hms]
        rfl

theorem Minds.burst (hj : j.Minds view) (h : (j.burst now w).1 = .asleep due next) :
    next.Minds view := by
  induction j generalizing w with
  | done | crash => cases h
  | look more ih => exact ih now w (hj.2 now w) h
  | write change more ih => exact ih hj.2 h
  | sleep ms more ih =>
      unfold Job.burst at h
      split at h
      · exact ih hj h
      · cases h
        exact hj

theorem Spares.burst (hj : j.Spares view) (now : Nat) (w : World σ) :
    view (j.burst now w).2 = view w ∧
      ∀ due next, (j.burst now w).1 = .asleep due next → next.Spares view := by
  induction j generalizing w with
  | done | crash => exact ⟨rfl, fun _ _ h => by cases h⟩
  | look more ih => exact ih now w (hj now w) w
  | write change more ih =>
      obtain ⟨same, rest⟩ := ih hj.2 (change w)
      exact ⟨same.trans (hj.1 w), rest⟩
  | sleep ms more ih =>
      unfold Job.burst
      split
      · exact ih hj w
      · refine ⟨rfl, fun due next h => ?_⟩
        cases h
        exact hj

/-- A job sees only what is in view, and run by itself it has an answer at a
time. -/
structure Comes (view : World σ → ν) (j : Job σ α) (now : Nat) (w : World σ) (m : Nat) (a : α) :
    Prop where
  minds : j.Minds view
  solo : j.solo now w = (m, some a)

namespace Comes

theorem congr (h : j.Comes view now w m a) (same : view w = view w') : j.Comes view now w' m a :=
  ⟨h.minds, h.minds.solo_congr now same ▸ h.solo⟩

theorem done (h : j.Comes view now w m a) (hb : j.burst now w = (.done b, w')) :
    now = m ∧ b = a := by
  have solo := h.solo
  rw [solo_burst, hb] at solo
  cases solo
  exact ⟨rfl, rfl⟩

theorem not_crashed (h : j.Comes view now w m a) : j.burst now w ≠ (.crashed, w') := by
  intro hb
  have solo := h.solo
  rw [solo_burst, hb] at solo
  cases solo

theorem asleep (h : j.Comes view now w m a) (hb : j.burst now w = (.asleep due next, w')) :
    next.Comes view due w' m a := by
  have solo := h.solo
  rw [solo_burst, hb] at solo
  exact ⟨h.minds.burst (congrArg Prod.fst hb), solo⟩

end Comes

end Job

/-! ## Groups of one -/

theorem History.slots_lone {e : Effect} (h : History σ) (t : Ticket) (size : e.size = 1) :
    h.slots t e.size = [h.answer? t 0] := by
  rw [size]
  rfl

theorem FanIn.outcome?_lone (b : Answer) : outcome? [some b] = some (b.map fun v => [v]) := by
  cases b <;> rfl

namespace Scheduler

variable {view : World σ → ν} {t u : Ticket} {m n i due : Nat} {a b : Answer} {e : Effect}
  {c : Command} {s s' s₁ : Scheduler ξ σ} {around : Surroundings σ} {j : Job σ Answer}
  {inbox : List (Ticket × Effect)} {slots : List (Option Answer)}

/-! ## What is sure to come -/

/-- What is sure to come of an effect with one command: its resolver answers at a
time, whatever else goes on. -/
structure Foretold (view : World σ → ν) (t : Ticket) (m : Nat) (a : Answer) (s : Scheduler ξ σ) :
    Prop where
  heeded : s.Heeded view t
  told : ∀ m' i b, (m', .answered t i b) ∈ s.history → m' = m ∧ b = a
  /-- Where the command is at work as a member of a group. -/
  member : ∀ mb ∈ s.crew, mb.ticket = t → mb.job.Comes view mb.due s.world m a
  /-- Where it is at work in its place. -/
  single : ∀ n due job, s.Busy n t (.single due job) → job.Comes view due s.world m a
  others : ∀ mb ∈ s.crew, mb.ticket ≠ t → mb.job.Spares view

namespace Foretold

theorem frame (h : s.Foretold view t m a) (heeded : s'.Heeded view t)
    (told : ∀ m' i b, (m', .answered t i b) ∈ s'.history → (m', .answered t i b) ∈ s.history)
    (world : view s.world = view s'.world) (crew : s'.crew ⊆ s.crew)
    (line : s'.line.map Line.bare = s.line.map Line.bare) : s'.Foretold view t m a where
  heeded := heeded
  told m' i b hb := h.told m' i b (told m' i b hb)
  member mb hmb ht := (h.member mb (crew hmb) ht).congr world
  single n due job hb := by
    obtain ⟨w, bare, hb⟩ := hb.bare line.symm
    cases w with
    | group => cases bare
    | single due' job' =>
        cases bare
        exact (h.single n due job hb).congr world
  others mb hmb ht := h.others mb (crew hmb) ht

theorem seen (h : s.Foretold view t m a) {w : World σ} (same : view w = view s.world) :
    Foretold view t m a { s with world := w } :=
  h.frame (h.heeded.same rfl rfl rfl rfl) (fun _ _ _ => id) same.symm (List.Subset.refl _) rfl

theorem log (h : s.Foretold view t m a) {ev : Event σ} (quiet : ∀ i b, ev ≠ .answered t i b) :
    (s.log ev).Foretold view t m a := by
  refine h.frame (h.heeded.same rfl rfl rfl rfl) (fun m' i b hb => ?_) rfl (List.Subset.refl _) rfl
  refine (List.mem_cons.1 hb).resolve_left fun heq => ?_
  exact quiet i b (Prod.mk.inj heq).2.symm

theorem settle (h : s.Foretold view t m a) (u : Ticket) (o : Outcome) :
    (s.settle u o).Foretold view t m a :=
  h.frame (h.heeded.settle u o) (fun m' i b hb => by simpa using hb) rfl
    (by rw [settle_crew]; exact List.Subset.refl _) rfl

theorem emit (h : s.Foretold view t m a) (n : Nat) (e : Effect) :
    (s.emit n e).2.Foretold view t m a := by
  have heeded := h.heeded.emit n e
  by_cases hl : ∃ l, s.line = some l ∧ l.number = n
  · obtain ⟨l, hl, rfl⟩ := hl
    rw [emit_open s e hl] at heeded ⊢
    refine h.frame heeded (fun m' i b hb => ?_) rfl (List.Subset.refl _) ?_
    · simpa [Scheduler.log] using hb
    · rw [hl]
      rfl
  · rw [emit_closed s e fun l h hn => hl ⟨l, h, hn⟩]
    have issued : Foretold view t m a { s with nextTicket := s.nextTicket + 1 } :=
      h.frame (h.heeded.same rfl rfl rfl rfl) (fun _ _ _ => id) rfl (List.Subset.refl _) rfl
    exact (issued.log (fun _ _ heq => by cases heq)).settle _ _

theorem drop (h : s.Foretold view t m a) (hu : u ≠ t) : (s.drop u).Foretold view t m a :=
  h.frame (h.heeded.drop hu) (fun _ _ _ => id) rfl (List.Subset.refl _) rfl

/-- A task leaves the queue. -/
theorem leave (h : s.Foretold view t m a) {task : Task σ} {rest : List (Task σ)}
    (hr : s.ready = task :: rest) : Foretold view t m a { s with ready := rest } := by
  have sub : rest ⊆ s.ready := hr ▸ List.subset_cons_self _ _
  refine h.frame (h.heeded.of_subset rfl sub (List.Subset.refl _) (List.Subset.refl _))
    (fun _ _ _ => id) rfl ?_ rfl
  intro mb hmb
  refine (List.mem_append.1 hmb).elim (fun hmb => List.mem_append_left _ ?_)
    (List.mem_append_right _)
  obtain ⟨task', htask, hmb⟩ := List.mem_filterMap.1 hmb
  exact List.mem_filterMap.2 ⟨task', sub htask, hmb⟩

/-- Somebody falls asleep. -/
theorem addTimer (h : s.Foretold view t m a) (due : Nat) (who : Sleeper σ)
    (member : ∀ mb, who.member? due = some mb → mb.ticket = t →
      mb.job.Comes view mb.due s.world m a)
    (others : ∀ mb, who.member? due = some mb → mb.ticket ≠ t → mb.job.Spares view)
    (errand : ∀ n e, who = .task (.errand n e) → e.Spares view t) :
    (s.addTimer due who).Foretold view t m a := by
  have cases {mb : Member σ} (hmb : mb ∈ (s.addTimer due who).crew) :
      who.member? due = some mb ∨ mb ∈ s.crew := by
    simpa using (s.addTimer_crew due who).mem_iff.1 hmb
  exact
    { h with
      heeded := h.heeded.addTimer due who errand
      member := fun mb hmb ht => (cases hmb).elim (member mb · ht) (h.member mb · ht)
      others := fun mb hmb ht => (cases hmb).elim (others mb · ht) (h.others mb · ht) }

/-- A member answers; the one that is foretold gives the answer that is. -/
theorem report (h : s.Foretold view t m a) (u : Ticket) (i : Nat) (b : Answer)
    (own : u = t → s.clock = m ∧ b = a) : (s.report u i b).Foretold view t m a := by
  have told : (s.log (.answered u i b)).Foretold view t m a :=
    { h with
      heeded := h.heeded.same rfl rfl rfl rfl
      told := fun m' i' b' hb => by
        rcases List.mem_cons.1 hb with heq | hb
        · cases heq
          exact own rfl
        · exact h.told m' i' b' hb }
  have heeded := h.heeded.report u i b
  have line := report_bare s u i b
  by_cases hb : ∃ n e slots, s.Busy n u (.group e slots)
  · obtain ⟨n, e, slots, inbox, hl⟩ := hb
    rw [report_group s b hl] at heeded line ⊢
    exact told.frame heeded (fun _ _ _ => id) rfl (List.Subset.refl _) line
  · rw [report_other s b fun n e slots h => hb ⟨n, e, slots, h⟩]
    exact told

/-! ## Tasks -/

/-- Somebody else has a turn. -/
theorem runMember_other (h : s.Foretold view t m a) (hu : u ≠ t) (i : Nat) (hj : j.Spares view) :
    (s.runMember u i j).Foretold view t m a := by
  obtain ⟨same, rest⟩ := hj.burst s.clock s.world
  unfold Scheduler.runMember
  rcases hb : j.burst s.clock s.world with ⟨pause, w⟩
  rw [hb] at same rest
  cases pause with
  | done b => exact (h.seen same).report u i b fun heq => absurd heq hu
  | crashed => exact (h.seen same).report u i _ fun heq => absurd heq hu
  | asleep due next =>
      refine (h.seen same).addTimer due _ (fun mb hmb ht => ?_) (fun mb hmb _ => ?_) nofun
      · cases hmb
        exact absurd ht hu
      · cases hmb
        exact rest due next rfl

/-- The command itself has its turn, as a member of a group: whatever it does to the
world, nobody else is at work on its effect. -/
theorem runMember_own (h : s.Foretold view t m a) (absent : ∀ mb ∈ s.crew, mb.ticket ≠ t)
    (apart : ∀ n due job, ¬ s.Busy n t (.single due job)) (i : Nat)
    (hj : j.Comes view s.clock s.world m a) : (s.runMember t i j).Foretold view t m a := by
  have touched (w : World σ) : Foretold view t m a { s with world := w } :=
    { h with
      heeded := h.heeded.same rfl rfl rfl rfl
      member := fun mb hmb ht => absurd ht (absent mb hmb)
      single := fun n due job hb => absurd hb (apart n due job) }
  unfold Scheduler.runMember
  rcases hb : j.burst s.clock s.world with ⟨pause, w⟩
  cases pause with
  | done b => exact (touched w).report t i b fun _ => hj.done hb
  | crashed => exact absurd hb hj.not_crashed
  | asleep due next =>
      refine (touched w).addTimer due _ (fun mb hmb _ => ?_) (fun mb hmb ht => ?_) nofun
      · cases hmb
        exact hj.asleep hb
      · cases hmb
        exact absurd rfl ht

theorem errandsKeep (view : World σ → ν) (t : Ticket) (m : Nat) (a : Answer) :
    ErrandsKeep (Errand.Spares view t) (Foretold (ξ := ξ) view t m a) where
  look _ now w he := he now w
  write s _ _ he h := ⟨h.seen (he.1 s.world), he.2⟩
  emit _ n e _ he h := ⟨h.emit n e, he⟩
  resume _ _ o _ he h := ⟨h.log (fun _ _ heq => by cases heq), he o⟩
  park _ _ _ _ he h := h.frame (h.heeded.park he) (fun _ _ _ => id) rfl (List.Subset.refl _) rfl
  drop _ _ _ he h := ⟨h.drop he.1, he.2⟩
  sleep _ _ _ _ he h := by
    refine ⟨h.addTimer _ _ nofun nofun fun n e heq => ?_, he⟩
    cases heq
    exact he

end Foretold

/-- An effect with one command has been taken. -/
def Lone (s : Scheduler ξ σ) (t : Ticket) : Prop :=
  ∃ m n e, (m, .taken n t e) ∈ s.history ∧ e.size = 1

theorem Lone.mono (h : s.Lone t) (suffix : s.history <:+ s'.history) : s'.Lone t := by
  obtain ⟨m, n, e, taken, size⟩ := h
  exact ⟨m, n, e, suffix.subset taken, size⟩

/-- Only one member of a group of one is at work. -/
theorem Lone.absent (h : s.Lone t) (hi : s.Inv) {task : Task σ} {rest : List (Task σ)}
    (hr : s.ready = task :: rest) {mb : Member σ} (hmb : task.member? s.clock = some mb)
    (ht : mb.ticket = t) : ∀ mb' ∈ crew { s with ready := rest }, mb'.ticket ≠ t := by
  obtain ⟨m, n, e, taken, size⟩ := h
  have crew := crew_head hr hmb
  have index {mb' : Member σ} (hm : mb' ∈ s.crew) (ht : mb'.ticket = t) : mb'.index = 0 := by
    obtain ⟨m', n', e', taken', -, hlt⟩ := hi.crew_taken hm
    obtain ⟨-, -, rfl⟩ := hi.orderly.taken_unique (ht ▸ taken') taken
    omega
  have distinct := hi.distinct
  rw [crew, List.map_cons, List.nodup_cons] at distinct
  intro mb' hm ht'
  have same : mb'.key = mb.key :=
    Prod.ext (ht'.trans ht.symm) ((index (crew ▸ List.mem_cons_of_mem _ hm) ht').trans
      (index (crew ▸ List.mem_cons_self) ht).symm)
  exact distinct.1 (List.mem_map.2 ⟨mb', hm, same⟩)

namespace Foretold

theorem runTask (h : s.Foretold view t m a) (hi : s.Inv) (lone : s.Lone t) {task : Task σ}
    {rest : List (Task σ)} (hr : s.ready = task :: rest) :
    (Scheduler.runTask { s with ready := rest } task).Foretold view t m a := by
  have left := h.leave hr
  have first {mb : Member σ} (hmb : task.member? s.clock = some mb) : mb ∈ s.crew := by
    simp [crew, hr, hmb]
  cases task with
  | errand n e =>
      have spares := h.heeded.errands.ready n e (hr ▸ List.mem_cons_self)
      exact (errandsKeep view t m a).runErrand spares n left
  | resume u i j =>
      have mem := first rfl
      by_cases hu : u = t
      · subst hu
        exact left.runMember_own (lone.absent hi hr rfl rfl) (hi.apart mem) i (h.member _ mem rfl)
      · exact left.runMember_other hu i (h.others _ mem hu)
  | begin u i c j =>
      have mem := first rfl
      have noted : Foretold view t m a (Scheduler.log { s with ready := rest } (.started u i c)) :=
        left.log fun _ _ heq => by cases heq
      by_cases hu : u = t
      · subst hu
        exact noted.runMember_own (lone.absent hi hr rfl rfl) (hi.apart mem) i (h.member _ mem rfl)
      · exact noted.runMember_other hu i (h.others _ mem hu)

theorem runReady (h : s.Foretold view t m a) (hi : s.Inv) (lone : s.Lone t) (turns : Nat) :
    (s.runReady turns).Foretold view t m a := by
  induction turns generalizing s with
  | zero => exact h
  | succ turns ih =>
      unfold Scheduler.runReady
      split
      · exact h
      · next task rest hr =>
        have steps := runTask_steps hi hr
        exact ih (h.runTask hi lone hr) (steps.inv hi) (lone.mono steps.suffix)

/-- Neither the tasks nor the clock change what is sure to come. -/
theorem next? (h : s.Foretold view t m a) (hi : s.Inv) (lone : s.Lone t)
    (hs : s.next? = some s₁) : s₁.Foretold view t m a := by
  have steps := (drain_steps hi).1
  have drained : s.drain.Foretold view t m a := h.runReady hi lone _
  unfold Scheduler.next? at hs
  split at hs
  · cases hs
    exact drained
  · next idle =>
    obtain ⟨-, hr⟩ : s.drain.woken = false ∧ s.drain.ready = [] := by simpa using idle
    have crew := (steps.inv hi).advance_crew hr hs
    have heeded : s₁.Heeded view t := h.heeded.next? (by rw [Scheduler.next?, if_neg idle, hs])
    obtain ⟨due, -, first, rfl⟩ := (steps.inv hi).advance_due hs
    exact drained.frame heeded (fun _ _ _ => id) rfl (crew ▸ List.Subset.refl _) rfl

end Foretold

/-! ## The interpreter -/

/-- The outcome of an effect with one command is sent, with the answer in the
effect's own form. -/
def Delivers (e : Effect) (t : Ticket) (m : Nat) (a : Answer) (s : Scheduler ξ σ) : Prop :=
  ∃ x : Scheduler ξ σ, s = x.settle t (a.map fun v => e.resumed [v]) ∧ x.clock = m ∧
    x.dropped t = false

/-- What is kept of an effect with one command while it is being resolved. -/
structure Awaits (view : World σ → ν) (n : Nat) (t : Ticket) (e : Effect) (m : Nat) (a : Answer)
    (s : Scheduler ξ σ) : Prop where
  foretold : s.Foretold view t m a
  taken : ∃ m₀, (m₀, .taken n t e) ∈ s.history
  busy : ∃ w, s.Busy n t w

namespace Foretold

/-- The resolver of a single command has its turn in place. -/
theorem runSingle (h : s.Foretold view t m a) (absent : ∀ mb ∈ s.crew, mb.ticket ≠ t)
    (hl : ∃ l, s.line = some l ∧ l.number = n) (hj : j.Comes view s.clock s.world m a) (c : Command)
    (taken : ∃ m₀, (m₀, .taken n t (.single c)) ∈ s.history) :
    (s.runSingle t j).Fulfils (Awaits view n t (.single c) m a) (Delivers (.single c) t m a) := by
  unfold Scheduler.runSingle
  rcases hb : j.burst s.clock s.world with ⟨pause, w⟩
  cases pause with
  | done b =>
      obtain ⟨clock, rfl⟩ := hj.done hb
      exact ⟨(Scheduler.log { s with world := w } (.answered t 0 b)).setCurrent none, rfl, clock,
        h.heeded.kept⟩
  | crashed => exact hj.not_crashed hb
  | asleep due next =>
      obtain ⟨l, hl, rfl⟩ := hl
      have rested := h.heeded.addTimer due .main nofun
      have crew {mb : Member σ} (hmb : mb ∈ (s.addTimer due .main).crew) : mb ∈ s.crew := by
        simpa [Sleeper.member?, Sleeper.task?] using (s.addTimer_crew due .main).mem_iff.1 hmb
      refine ⟨?_, taken, _, l.inbox, by simp [setCurrent, Scheduler.addTimer, hl]; rfl⟩
      exact
        { heeded := rested.same rfl rfl rfl rfl
          told := h.told
          member := fun mb hmb ht => absurd ht (absent mb (crew hmb))
          single := by
            rintro n' due' job ⟨inbox, hb'⟩
            simp only [setCurrent, Scheduler.addTimer, hl, Option.map_some,
              Option.some.injEq] at hb'
            cases hb'
            exact hj.asleep hb
          others := fun mb hmb ht => h.others mb (crew hmb) ht }

end Foretold

/-- The member of a group of one that is still at work has answered just now, if at
all: an answer given before would have decided the group then. -/
theorem Busy.answered_now (hb : s.Busy n t (.group e slots)) (hi : s.Inv) (size : e.size = 1)
    (answered : (m, .answered t 0 b) ∈ s.history) : m = s.clock := by
  obtain ⟨inbox, hl⟩ := hb
  obtain ⟨-, m₀, around, taken, -, -, -, undecided, -⟩ :=
    ((hi.onLine _ hl).underway t _ rfl).group_inv
  refine (Nat.lt_or_eq_of_le (hi.past _ answered)).resolve_left fun early => ?_
  have le : m₀ ≤ m := by
    obtain ⟨past, hp⟩ := History.exists_past answered
    obtain ⟨-, -, m₁, n', e', -, -, -, -, taken', -⟩ := hi.orderly.fits hp
    obtain ⟨rfl, -, -⟩ := hi.orderly.taken_unique taken (hp.subset (List.mem_cons_of_mem _ taken'))
    exact hi.orderly.time_le hp taken'
  have answered' : (m, Event.answered t 0 b) ∈ s.history.before s.clock :=
    List.mem_filter.2 ⟨answered, by simpa using early⟩
  obtain ⟨b', hb'⟩ := Option.ne_none_iff_exists'.1 (History.answer?_ne_none _ answered')
  have none := undecided (Nat.lt_of_le_of_lt le early)
  rw [History.slots_lone _ t size, hb', FanIn.outcome?_lone] at none
  cases none

/-- A group of one is decided when its member answers. -/
theorem Busy.decided_lone (hb : s.Busy n t (.group e slots)) (hi : s.Inv) (size : e.size = 1)
    {r : Except Failure (List Json)} (hr : FanIn.outcome? slots = some r) :
    ∃ b, (s.clock, .answered t 0 b) ∈ s.history ∧ r = b.map fun v => [v] := by
  obtain ⟨inbox, hl⟩ := id hb
  obtain ⟨rfl, -⟩ := ((hi.onLine _ hl).underway t _ rfl).group_inv
  rw [History.slots_lone _ t size] at hr
  cases answer : s.history.answer? t 0 with
  | none =>
      rw [answer] at hr
      cases hr
  | some b =>
      obtain ⟨m, answered⟩ := History.mem_of_answer? _ answer
      obtain rfl := hb.answered_now hi size answered
      rw [answer, FanIn.outcome?_lone] at hr
      exact ⟨b, answered, (Option.some.inj hr).symm⟩

namespace Awaits

theorem lone (h : s.Awaits view n t e m a) (size : e.size = 1) : s.Lone t := by
  obtain ⟨m₀, taken⟩ := h.taken
  exact ⟨m₀, n, e, taken, size⟩

/-- Tasks and the clock go on beside the effect. -/
theorem next? (h : s.Awaits view n t e m a) (size : e.size = 1) (hi : s.Inv)
    (hs : s.next? = some s₁) : s₁.Awaits view n t e m a where
  foretold := h.foretold.next? hi (h.lone size) hs
  taken := h.taken.imp fun _ taken => (next?_suffix hi hs).subset taken
  busy := by
    obtain ⟨w, hb⟩ := h.busy
    obtain ⟨w', -, hb⟩ := hb.bare (next?_bare hs)
    exact ⟨w', hb⟩

/-- The interpreter looks at the effect again. -/
theorem proceed (h : s.Awaits view n t e m a) (size : e.size = 1) (hi : s.Inv) :
    (Scheduler.proceed { s with woken := false }).Fulfils (Awaits view n t e m a)
      (Delivers e t m a) := by
  have foretold : Foretold view t m a { s with woken := false } :=
    h.foretold.frame (h.foretold.heeded.same rfl rfl rfl rfl) (fun _ _ _ => id) rfl
      (List.Subset.refl _) rfl
  have still : Awaits view n t e m a { s with woken := false } := ⟨foretold, h.taken, h.busy⟩
  obtain ⟨m₀, taken⟩ := h.taken
  obtain ⟨w, hb⟩ := h.busy
  cases w with
  | group e' slots =>
      obtain ⟨inbox, hl⟩ := id hb
      obtain ⟨-, m₁, -, taken', -⟩ := ((hi.onLine _ hl).underway t _ rfl).group_inv
      obtain ⟨-, -, rfl⟩ := hi.orderly.taken_unique taken taken'
      rw [proceed_group (s := { s with woken := false }) hb]
      cases hr : FanIn.outcome? slots with
      | none => exact still
      | some r =>
          obtain ⟨b, answered, rfl⟩ := hb.decided_lone hi size hr
          obtain ⟨clock, rfl⟩ := h.foretold.told _ _ _ answered
          refine ⟨setCurrent { s with woken := false } none, ?_, clock, h.foretold.heeded.kept⟩
          cases b <;> rfl
  | single due job =>
      obtain ⟨inbox, hl⟩ := id hb
      obtain ⟨m₁, d, c, -, -, taken', -, -, -, -, hle, -⟩ :=
        ((hi.onLine _ hl).underway t _ rfl).single_inv
      obtain ⟨-, -, rfl⟩ := hi.orderly.taken_unique taken taken'
      rw [proceed_single (s := { s with woken := false }) hb]
      split
      · next hdue =>
        obtain rfl : s.clock = due := Nat.le_antisymm hle hdue
        exact foretold.runSingle (fun mb hmb => hi.crew_not_single taken hmb) ⟨_, hl, rfl⟩
          (h.foretold.single n _ job hb) c ⟨m₀, taken⟩
      · exact still

end Awaits

/-! ## From the beginning -/

/-- A moment at which an effect is the oldest one on a line that is free, while
everybody else leaves alone what a resolver sees of the world. -/
structure Offers (view : World σ → ν) (s : Scheduler ξ σ) (around : Surroundings σ) (n : Nat)
    (t : Ticket) (e : Effect) : Prop where
  attends : s.Attends around n
  first : ∃ inbox, s.line = some { number := n, inbox := (t, e) :: inbox }
  heeded : s.Heeded view t
  others : ∀ mb ∈ s.crew, mb.job.Spares view

/-- A group of one is started: its member waits for its turn. -/
theorem Foretold.startGroup (h : s.Foretold view t m a)
    (hl : s.line = some { number := n, inbox }) (lone : e.commands = [c])
    (known : around.resolve? c = some j) (hj : j.Comes view s.clock s.world m a)
    (taken : ∃ m₀, (m₀, .taken n t e) ∈ s.history) :
    (Scheduler.startGroup around s t e).Fulfils (Awaits view n t e m a) (Delivers e t m a) := by
  have tasks : members around t 0 e.commands = .ok [.begin t 0 c j] := by
    simp only [lone, members, known]
    rfl
  have crew {mb : Member σ}
      (hmb : mb ∈ Scheduler.crew { s with ready := s.ready ++ [.begin t 0 c j] }) :
      mb ∈ s.crew ∨ mb = ⟨t, 0, s.clock, j⟩ := by
    simp only [Scheduler.crew, List.filterMap_append, List.mem_append] at hmb ⊢
    rcases hmb with (hmb | hmb) | hmb
    · exact .inl (.inl hmb)
    · exact .inr (by simpa [Task.member?] using hmb)
    · exact .inl (.inr hmb)
  unfold Scheduler.startGroup
  rw [tasks]
  refine ⟨?_, taken, _, inbox, by simp [setCurrent, hl]; rfl⟩
  exact
    { heeded := (h.heeded.members tasks).same rfl rfl rfl rfl
      told := h.told
      member := fun mb hmb ht => by
        rcases crew hmb with hmb | rfl
        · exact h.member mb hmb ht
        · exact hj
      single := by
        rintro n' due job ⟨inbox', hb⟩
        simp only [setCurrent, hl, Option.map_some, Option.some.injEq] at hb
        cases hb
      others := fun mb hmb ht => by
        rcases crew hmb with hmb | rfl
        · exact h.others mb hmb ht
        · exact absurd rfl ht }

namespace Offers

/-- Nothing has become of the effect when it is taken. -/
theorem pulled (h : s.Offers view around n t e)
    (hl : s.line = some { number := n, inbox := (t, e) :: inbox }) (wanted : Option Ticket)
    (m : Nat) (a : Answer) : (s.pull n wanted t e inbox).Foretold view t m a where
  heeded := h.heeded.same rfl rfl rfl rfl
  told m' i b hb := by
    have answered : (m', .answered t i b) ∈ s.history := by simpa [pull, log] using hb
    have hi := h.attends.inv
    obtain ⟨m₀, n', e', taken⟩ :=
      hi.orderly.taken_of_answered (hi.orderly.answer?_eq_some_iff.2 ⟨m', answered⟩)
    exact absurd ((s.history.mem_takenOn).2 ⟨m₀, taken⟩)
      (hi.inbox_untaken hl List.mem_cons_self n' e')
  member mb hmb ht := by
    have waits := h.attends.inv.crew_not_inbox hl hmb
    exact absurd (ht ▸ List.mem_cons_self) waits
  single := by
    rintro n' due job ⟨inbox', hb⟩
    cases hb
  others mb hmb _ := h.others mb hmb

/-- What comes of the effect when it is taken. -/
theorem begins (h : s.Offers view around n t e)
    (hl : s.line = some { number := n, inbox := (t, e) :: inbox }) (lone : e.commands = [c])
    (hj : ((around.resolve? c).getD (.done (.error (.unknownCommand c.name)))).Comes view s.clock
      s.world m a) (wanted : Option Ticket) :
    (start around (s.pull n wanted t e inbox) t e).Fulfils (Awaits view n t e m a)
      (Delivers e t m a) := by
  have pulled := h.pulled hl wanted m a
  have taken : ∃ m₀, (m₀, .taken n t e) ∈ (s.pull n wanted t e inbox).history :=
    ⟨s.clock, List.mem_cons_self⟩
  have absent : ∀ mb ∈ s.crew, mb.ticket ≠ t := fun mb hmb ht =>
    h.attends.inv.crew_not_inbox hl hmb (ht ▸ List.mem_cons_self)
  cases hr : around.resolve? c with
  | none =>
      rw [hr] at hj
      have unknown : e.commands.find? (fun c => (around.resolve? c).isNone) = some c := by
        simp [lone, hr]
      obtain ⟨clock, rfl⟩ : s.clock = m ∧ .error (.unknownCommand c.name) = a := hj.done rfl
      rw [start_unknown unknown]
      exact ⟨_, rfl, clock, h.heeded.kept⟩
  | some job =>
      rw [hr] at hj
      by_cases he : e.IsGroup
      · rw [start_group he]
        exact pulled.startGroup rfl lone hr hj taken
      · obtain rfl : e = .single c := by
          cases e with
          | single c' =>
              cases lone
              rfl
          | sequence | mapping => exact absurd trivial he
        simp only [start, hr]
        have started : ((s.pull n wanted t (.single c) inbox).log (.started t 0 c)).Foretold
            view t m a := pulled.log fun _ _ heq => by cases heq
        exact started.runSingle absent ⟨_, rfl, rfl⟩ hj c
          (taken.imp fun _ => List.mem_cons_of_mem _)

/-- An effect with one command has an outcome at the time at which the resolver by
itself has an answer, and it is that answer in the effect's own form. -/
theorem runs (h : s.Offers view around n t e)
    (hl : s.line = some { number := n, inbox := (t, e) :: inbox }) (lone : e.commands = [c])
    (hj : ((around.resolve? c).getD (.done (.error (.unknownCommand c.name)))).Comes view s.clock
      s.world m a) {standing : Standing ξ σ ρ} (waits : standing.Waits s) :
    ∃ k s', Runs around t e (s.pull n standing.wanted t e inbox) k s' ∧ Delivers e t m a s' := by
  have size : e.size = 1 := by rw [Effect.size, lone, List.length_singleton]
  exact exists_runs h.attends hl waits (h.begins hl lone hj standing.wanted)
    (fun _ h => h.busy) (fun _ _ hi h hs => h.next? size hi hs) fun _ hi h => h.proceed size hi

end Offers

end Scheduler

end Switchboard
