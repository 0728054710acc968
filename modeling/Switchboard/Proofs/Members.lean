import Switchboard.Proofs.Bursts
import Switchboard.Proofs.Shapes
import Switchboard.Proofs.Starting

/-!
# Switchboard.Proofs.Members

What becomes of the members of a group.  Each is started when the group is taken,
and is at work from then on until it has answered: no step loses a member, and
none runs one twice.  What a member does to the world it does in its turns, each
burst once, from where the last one has left it.  It does not matter to a member
whether the group has been settled meanwhile; its answer is noted, and nobody
listens to it.

* `Attended` — a member is at work or has answered;
* `Step.manned` — in every step, all members of all groups are attended;
* `Launches.starts_settled` — all are started before there is an outcome;
* `members_run_once` — every run.
-/

namespace Switchboard.Scheduler

variable {ξ σ ρ α : Type} {s s' : Scheduler ξ σ} {t : Ticket} {i : Nat}

/-! ## Members go on until they have answered -/

/-- A member is at work, or else it has answered. -/
def Attended (s : Scheduler ξ σ) (t : Ticket) (i : Nat) : Prop :=
  (t, i) ∈ s.crew.map Member.key ∨ s.history.answer? t i ≠ none

namespace Attended

/-- A step that loses nobody. -/
theorem keep (h : s.Attended t i) (crew : s.crew.map Member.key ⊆ s'.crew.map Member.key)
    (history : s.history <:+ s'.history) : s'.Attended t i := by
  refine h.imp (fun h => crew h) fun answered => ?_
  obtain ⟨a, ha⟩ := Option.ne_none_iff_exists'.1 answered
  obtain ⟨m, ha⟩ := History.mem_of_answer? _ ha
  exact History.answer?_ne_none _ (history.subset ha)

/-- Whoever has its turn sleeps afterwards, or has answered. -/
theorem work {j : Job σ Answer} {u : Ticket} {k : Nat} {rest : List (Task σ)}
    (h : s.Attended t i) (hr : s.ready = .resume u k j :: rest) :
    (runMember { s with ready := rest } u k j).Attended t i := by
  have crew : s.crew.map Member.key =
      (u, k) :: (Scheduler.crew { s with ready := rest }).map Member.key := by
    simp [Scheduler.crew, hr, Task.member?, Member.key]
  have told (w : World σ) (a : Answer) :
      (Scheduler.report { s with ready := rest, world := w } u k a).Attended t i := by
    by_cases own : (u, k) = (t, i)
    · cases own
      right
      simp [Event.answer?]
    · have still : Scheduler.Attended { s with ready := rest, world := w } t i :=
        h.imp_left fun h => (List.mem_cons.1 (crew ▸ h)).resolve_left fun h => own h.symm
      refine still.keep ?_ (report_history _ u k a ▸ List.suffix_cons _ _)
      rw [report_crew]
      exact List.Subset.refl _
  unfold runMember
  split
  · exact told _ _
  · exact told _ _
  · next due next w _ =>
    refine h.imp_left fun h => ?_
    have perm := (addTimer_crew { s with ready := rest, world := w } due
      (.task (.resume u k next))).map Member.key
    rw [perm.mem_iff]
    rw [crew] at h
    exact h

end Attended

theorem Step.attended (h : Step s s') (hi : s.Inv) (ha : s.Attended t i) : s'.Attended t i := by
  have suffix := h.suffix
  have same (crew : s'.crew = s.crew) : s'.Attended t i :=
    ha.keep (by rw [crew]; exact List.Subset.refl _) suffix
  have more (crew : s.crew ⊆ s'.crew) : s'.Attended t i :=
    ha.keep (List.map_subset _ crew) suffix
  cases h with
  | touch | drop | park | resume | interpret | poll | takeSingle =>
      exact same (crew_of_eq rfl rfl rfl)
  | emit n e => exact same (emit_crew s n e)
  | spawn n e => exact same (by simp [crew, enqueue, List.filterMap_append, Task.member?])
  | pop n e rest hr => exact same (by simp [crew, hr, Task.member?])
  | rest due who => exact more (addTimer_crew_subset s due who)
  | begin u k c j rest hr => exact same (by simp [crew, log, hr, Task.member?])
  | work u k j rest hr => exact ha.work hr
  | refuse => exact same (settle_crew ..)
  | takeGroup n around u e inbox tasks =>
      refine more fun m hm => ?_
      simp only [crew, log, List.filterMap_append, List.mem_append] at hm ⊢
      exact hm.imp_left .inl
  | single n u job => exact more (runSingle_crew s u job).symm.subset
  | decide => exact same (settle_crew ..)
  | finish => exact same (closeLine_crew s true)
  | breakOff => exact same (closeLine_crew s false)
  | advance _ hr _ hadv => exact same (hi.advance_crew hr hadv)

/-! ## Effects are taken off the line, and nowhere else -/

section Taken

variable {m n : Nat} {e : Effect}

theorem mem_taken_emit (s : Scheduler ξ σ) (k : Nat) (e' : Effect) :
    (m, .taken n t e) ∈ (s.emit k e').2.history ↔ (m, .taken n t e) ∈ s.history := by
  by_cases hl : ∃ l, s.line = some l ∧ l.number = k
  · obtain ⟨l, hl, rfl⟩ := hl
    rw [emit_open s e' hl]
    simp [log]
  · rw [emit_closed s e' fun l h hn => hl ⟨l, h, hn⟩]
    simp [log]

theorem mem_taken_runMember (s : Scheduler ξ σ) (u : Ticket) (k : Nat) (j : Job σ Answer) :
    (m, .taken n t e) ∈ (s.runMember u k j).history ↔ (m, .taken n t e) ∈ s.history := by
  unfold runMember
  split
  · simp
  · simp
  · rfl

theorem mem_taken_runSingle (s : Scheduler ξ σ) (u : Ticket) (job : Job σ Answer) :
    (m, .taken n t e) ∈ (s.runSingle u job).state.history ↔ (m, .taken n t e) ∈ s.history := by
  unfold runSingle
  split
  · simp [Progress.state, log, setCurrent]
  · rfl
  · rfl

theorem mem_taken_closeLine (s : Scheduler ξ σ) (finished : Bool) :
    (m, .taken n t e) ∈ (s.closeLine finished).history ↔ (m, .taken n t e) ∈ s.history := by
  unfold closeLine
  split
  · rfl
  · simp [log]

end Taken

/-- What becomes known of an effect when it is taken. -/
inductive Takes (s s' : Scheduler ξ σ) (around : Surroundings σ) (t : Ticket) (e : Effect) : Prop
  | unknown (c : Command)
      (first : e.commands.find? (fun c => (around.resolve? c).isNone) = some c)
  | single (c : Command) (lone : e = .single c)
  | group (tasks : List (Task σ)) (known : members around t 0 e.commands = .ok tasks)
      (ready : s'.ready = s.ready ++ tasks) (clock : s'.clock = s.clock)

/-- An effect that is not taken in a step has been taken before. -/
theorem Step.takes (h : Step s s') {m n : Nat} {e : Effect}
    (taken : (m, .taken n t e) ∈ s'.history) :
    (m, .taken n t e) ∈ s.history ∨
      ∃ around, s.history.Opened n around ∧ s.Takes s' around t e := by
  cases h with
  | touch | drop | park | spawn | pop | rest => exact .inl taken
  | resume | interpret | poll | begin =>
      exact .inl (by simpa [log, openLine] using taken)
  | emit n' e' => exact .inl ((mem_taken_emit s n' e').1 taken)
  | work u i j rest => exact .inl ((mem_taken_runMember { s with ready := rest } u i j).1 taken)
  | single n' u job => exact .inl ((mem_taken_runSingle s u job).1 taken)
  | decide => exact .inl (by simpa [setCurrent] using taken)
  | finish => exact .inl ((mem_taken_closeLine s true).1 taken)
  | breakOff => exact .inl ((mem_taken_closeLine s false).1 taken)
  | advance _ _ _ ha =>
      obtain ⟨due, who, rest, -, rfl⟩ := advance_eq ha
      exact .inl taken
  | refuse n' around u e' inbox c hx hc =>
      rcases List.mem_cons.1 taken with heq | taken
      · cases heq
      · rcases List.mem_cons.1 taken with heq | taken
        · cases heq
          exact .inr ⟨around, hx.opened, .unknown c hc⟩
        · exact .inl taken
  | takeSingle n' around u c inbox job hx =>
      rcases List.mem_cons.1 taken with heq | taken
      · cases heq
      · rcases List.mem_cons.1 taken with heq | taken
        · cases heq
          exact .inr ⟨around, hx.opened, .single c rfl⟩
        · exact .inl taken
  | takeGroup n' around u e' inbox tasks hx _ ht =>
      rcases List.mem_cons.1 taken with heq | taken
      · cases heq
        exact .inr ⟨around, hx.opened, .group tasks ht rfl rfl⟩
      · exact .inl taken

/-- Every member of every group of known commands is attended. -/
def Manned (s : Scheduler ξ σ) : Prop :=
  ∀ m n t e around i, (m, .taken n t e) ∈ s.history → s.history.Opened n around → e.IsGroup →
    (∀ c ∈ e.commands, (around.resolve? c).isSome) → i < e.size → s.Attended t i

theorem Step.manned (h : Step s s') (hi : s.Inv) (hm : s.Manned) : s'.Manned := by
  intro m n t e around i taken opened composite known hlt
  have ho := (h.inv hi).orderly
  rcases h.takes taken with old | ⟨around', opened', takes⟩
  · obtain ⟨past, hp⟩ := History.exists_past old
    obtain ⟨-, ⟨around', m', opened'⟩, -⟩ := hi.orderly.fits hp
    have opened' : s.history.Opened n around' :=
      ⟨m', hp.subset (List.mem_cons_of_mem _ opened')⟩
    obtain rfl := ho.opened_unique opened (Steps.opened (.single h) opened')
    exact h.attended hi (hm m n t e around i old opened' composite known hlt)
  · obtain rfl := ho.opened_unique opened (Steps.opened (.single h) opened')
    cases takes with
    | unknown c first =>
        have none := List.find?_some first
        rw [Option.isNone_iff_eq_none] at none
        simpa [none] using known c (List.mem_of_find?_eq_some first)
    | single c lone => exact (lone ▸ composite : Effect.IsGroup (.single c)).elim
    | group tasks ht ready clock =>
        left
        have joined : (t, i) ∈ (tasks.filterMap (·.member? s'.clock)).map Member.key := by
          rw [members_keys ht]
          exact List.mem_map.2 ⟨i, by simpa [Effect.size] using hlt, rfl⟩
        rw [crew, ready, List.filterMap_append, List.map_append, List.map_append]
        exact List.mem_append_left _ (List.mem_append_right _ joined)

theorem invariant_manned : Invariant (Manned (ξ := ξ) (σ := σ)) where
  fresh _ _ m n t e around i taken := by cases taken
  step h hi := h.manned hi

theorem Reachable.runFor_manned (h : Reachable s) (p : Routine ξ σ ρ α) (k : Nat) :
    (runFor p s k).scheduler.Manned :=
  invariant_manned.runFor h p k

/-! ## What a history says of the members -/

section Histories

variable {p : Routine ξ σ ρ α} {n m m₀ k : Nat} {e : Effect} {o : Outcome}
  {around : Surroundings σ} {past : History σ}

/-- Of an effect that is taken, what has been started is a part of what there
is to start. -/
theorem Launches.starts_le (h : s.Launches) (taken : (m₀, .taken n t e) ∈ s.history)
    (opened : s.history.Opened n around) : s.history.starts t <+: around.starts e :=
  ⟨_, h.all m₀ n t e around taken opened⟩

/-- Whatever there is to start of an effect has been started before it is
settled. -/
theorem Launches.starts_settled (h : s.Launches) (taken : (m₀, .taken n t e) ∈ s.history)
    (opened : s.history.Opened n around) (hs : (m, .settled t o) :: past <:+ s.history) :
    past.starts t = around.starts e := by
  obtain ⟨same, none⟩ := h.settled m t o past hs
  rw [same, ← h.all m₀ n t e around taken opened, none, List.append_nil]

/-- It is before anybody goes on with the outcome, too. -/
theorem Launches.starts_resumed (h : s.Launches) (hi : s.Inv)
    (taken : (m₀, .taken n t e) ∈ s.history) (opened : s.history.Opened n around)
    (hs : (m, .resumed t o) :: past <:+ s.history) : past.starts t = around.starts e := by
  obtain ⟨m', settled⟩ := hi.orderly.fits hs
  obtain ⟨before, hb⟩ := History.exists_past settled
  have suffix : (m', .settled t o) :: before <:+ s.history :=
    hb.trans ((List.suffix_cons _ _).trans hs)
  -- Nothing is started between the outcome and the end of the history.
  have whole := h.starts_settled taken opened suffix
  have all : s.history.starts t = around.starts e := by
    rw [← whole, (h.settled m' t o before suffix).1]
  have upper := History.starts_mono ((List.suffix_cons _ _).trans hs) t
  have lower := History.starts_mono ((List.suffix_cons _ _).trans hb) t
  rw [all] at upper
  rw [whole] at lower
  exact upper.eq_of_length (Nat.le_antisymm upper.length_le lower.length_le)

/-- Nobody who is at work was due before. -/
theorem InvBut.clock_le_due {owed : List Ticket} (hi : s.InvBut owed) {m : Member σ}
    (hm : m ∈ s.crew) : s.clock ≤ m.due := by
  have due {task : Task σ} {d : Nat} (h : task.member? d = some m) : m.due = d := by
    cases task <;> cases h <;> rfl
  rcases List.mem_append.1 hm with hm | hm
  · obtain ⟨task, -, h⟩ := List.mem_filterMap.1 hm
    exact Nat.le_of_eq (due h).symm
  · obtain ⟨p, hp, h⟩ := List.mem_filterMap.1 hm
    obtain ⟨task, -, h⟩ := Option.bind_eq_some_iff.1 h
    exact Nat.le_of_lt (due h ▸ hi.ahead p hp)

/-- Nobody listens to the answer of a member whose group is settled. -/
theorem InvBut.report_settled (hi : s.Inv) (settled : s.history.Settled t)
    (ready : List (Task σ)) (w : World σ) (i : Nat) (a : Answer) :
    Scheduler.report { s with ready, world := w } t i a =
      Scheduler.log { s with ready, world := w } (.answered t i a) := by
  refine report_other _ a ?_
  rintro n e slots ⟨inbox, hl⟩
  exact hi.unsettled_current hl settled

end Histories

/-- Every job may come to some answer. -/
theorem exists_answers (w : World σ) (j : Job σ Answer) : ∃ d a, j.Answers d a := by
  induction j with
  | done a => exact ⟨0, a, .inl (.refl _)⟩
  | crash => exact ⟨0, _, .inr ⟨.refl _, rfl⟩⟩
  | look next ih =>
      obtain ⟨d, a, h⟩ := ih 0 w
      exact ⟨d, a, h.imp (.look 0 w) (.imp_left (.look 0 w))⟩
  | write change next ih =>
      obtain ⟨d, a, h⟩ := ih
      exact ⟨d, a, h.imp .write (.imp_left .write)⟩
  | sleep ms next ih =>
      obtain ⟨d, a, h⟩ := ih
      exact ⟨ms + d, a, h.imp .sleep (.imp_left .sleep)⟩

/-! ## Members in every run -/

variable {p : Routine ξ σ ρ α} {n m m₀ k : Nat} {e : Effect} {registry : Registry σ}
  {ambient : Context}

/-- What becomes of the members of a group that was taken at some time. -/
structure RunsMembers (p : Routine ξ σ ρ α) (s : Scheduler ξ σ) (registry : Registry σ)
    (ambient : Context) (n m₀ : Nat) (t : Ticket) (e : Effect) : Prop where
  traced : Traced p s
  /-- The resolver of each is started once, in the order of the members, -/
  order : ∀ k, (historyFor p s k).starts t <+: e.commands.zipIdx
  /-- when the group is taken -/
  started : ∀ i c, e.commands[i]? = some c ↔ ∃ m, Happens p s m (.started t i c)
  prompt : ∀ m i c, Happens p s m (.started t i c) → m = m₀
  /-- and before there is an outcome, let alone anybody who goes on with it. -/
  before : ∀ k m o past, (m, .settled t o) :: past <:+ historyFor p s k ∨
    (m, .resumed t o) :: past <:+ historyFor p s k → History.starts past t = e.commands.zipIdx
  /-- When the group is taken the members come into the queue in their order, each
  with what the resolver of its command makes of its own payload. -/
  queued : ∀ j, (m₀, .taken n t e) ∉ (moment p s j).scheduler.history →
    (m₀, .taken n t e) ∈ (moment p s (j + 1)).scheduler.history →
      (moment p s j).scheduler.clock = m₀ ∧
        ∃ tasks, (moment p s j).scheduler.ready ++ tasks <+: (moment p s (j + 1)).scheduler.ready ∧
          List.Forall₂ (fun task (q : Command × Nat) => ∃ resolver,
            registry.get? q.1.name = some resolver ∧
              task = .begin t q.2 q.1 (resolver q.1.payload ambient)) tasks e.commands.zipIdx
  /-- A resolver is started in the first turn of its member. -/
  begins : ∀ m i c, Happens p s m (.started t i c) → (m, .started t i c) ∈ s.history ∨
    ∃ j job, (moment p s j).scheduler.clock = m ∧ (moment p s j).Turns (.begin t i c job)
  /-- It has no turn before, and from then on its turns are its bursts: in each it runs
  until it stops, in the world as it is, and from where it stopped in the one before. -/
  plays : (m₀, .taken n t e) ∉ s.history → ∀ j i c resolver,
    (m₀, .taken n t e) ∈ (moment p s j).scheduler.history → e.commands[i]? = some c →
      registry.get? c.name = some resolver →
        Plays p s (some ⟨t, i, m₀, resolver c.payload ambient⟩) (turnsOf p s (t, i) j)
          ((moment p s j).scheduler.member? (t, i))
  /-- What an earlier run has left of a member goes on in the same way. -/
  continues : (m₀, .taken n t e) ∈ s.history → ∀ j i,
    Plays p s (s.member? (t, i)) (turnsOf p s (t, i) j) ((moment p s j).scheduler.member? (t, i))
  /-- Nothing is left of it when it has answered, and not before. -/
  spent : ∀ j i, (m₀, .taken n t e) ∈ (moment p s j).scheduler.history → i < e.size →
    ((moment p s j).scheduler.member? (t, i) = none ↔
      ∃ m a, (m, .answered t i a) ∈ (moment p s j).scheduler.history)
  /-- It answers at most once, and for itself. -/
  answered : ∀ i m a, Happens p s m (.answered t i a) →
    Answered p s registry ambient m₀ t e i m a ∧
      ∀ m' a', Happens p s m' (.answered t i a') → m = m' ∧ a = a'
  /-- Until it has answered it is at work, as far as its sleeps have taken it. -/
  attended : ∀ k i c resolver, (m₀, .taken n t e) ∈ historyFor p s k →
    e.commands[i]? = some c → registry.get? c.name = some resolver →
    (∃ m a, (m, .answered t i a) ∈ historyFor p s k) ∨
      ∃ member ∈ (runFor p s k).scheduler.crew, ∃ d, member.key = (t, i) ∧
        (resolver c.payload ambient).After d member.job ∧ member.due = m₀ + d
  /-- So it answers, whatever becomes of the others, if the run lasts as long as
  that takes. -/
  completes : ∀ k i c resolver longest, (m₀, .taken n t e) ∈ historyFor p s k →
    e.commands[i]? = some c → registry.get? c.name = some resolver →
    (∀ d a, (resolver c.payload ambient).Answers d a → d ≤ longest) →
    m₀ + longest < (runFor p s k).scheduler.clock →
    ∃ m a, (m, .answered t i a) ∈ historyFor p s k
  /-- The group is settled, once, and whoever goes on does so with this outcome. -/
  settled : ∃ m o, Happens p s m (.settled t o) ∧ ∀ m' o',
    Happens p s m' (.settled t o') ∨ Happens p s m' (.resumed t o') → o' = o
  /-- Answers that come later are noted, and reach nobody. -/
  unheard : ∀ k s', Steps (runFor p s k).scheduler s' → s'.history.Settled t →
    ∀ ready w i a, report { s' with ready, world := w } t i a =
      log { s' with ready, world := w } (.answered t i a)

/-- The line of an effect that has been taken has been opened before. -/
theorem Happens.opened_mem {around : Surroundings σ} (hs : Reachable s)
    (opened : Happens p s m (.opened n around)) (taken : (m₀, .taken n t e) ∈ historyFor p s k) :
    (historyFor p s k).Opened n around := by
  obtain ⟨past, hp⟩ := History.exists_past taken
  obtain ⟨-, ⟨around', m', opened'⟩, -⟩ := (hs.historyFor_orderly p k).fits hp
  have mem : (m', .opened n around') ∈ historyFor p s k :=
    hp.subset (List.mem_cons_of_mem _ opened')
  rw [Happens.opened_unique hs opened ⟨k, mem⟩]
  exact ⟨m', mem⟩

section Around

variable {around : Surroundings σ}

/-- The resolvers of an effect are started in the order of its commands. -/
theorem Happens.starts_le (hs : Reachable s) (opened : Happens p s m (.opened n around))
    (taken : Happens p s m₀ (.taken n t e)) (k : Nat) :
    (historyFor p s k).starts t <+: around.starts e := by
  obtain ⟨j, hj, taken⟩ := taken.later hs k
  exact (History.starts_mono (hs.historyFor_suffix p hj) t).trans
    ((hs.runFor_launches p j).starts_le taken (opened.opened_mem hs taken))

/-- All of them have been started before there is an outcome, and before anybody goes
on with it. -/
theorem Happens.starts_before (hs : Reachable s) (opened : Happens p s m (.opened n around))
    (taken : Happens p s m₀ (.taken n t e)) {m' : Nat} {o : Outcome} {past : History σ}
    (h : (m', .settled t o) :: past <:+ historyFor p s k ∨
      (m', .resumed t o) :: past <:+ historyFor p s k) : past.starts t = around.starts e := by
  obtain ⟨j, hj, taken⟩ := taken.later hs k
  have suffix := hs.historyFor_suffix p hj
  have opened := opened.opened_mem hs taken
  rcases h with h | h
  · exact (hs.runFor_launches p j).starts_settled taken opened (h.trans suffix)
  · exact (hs.runFor_launches p j).starts_resumed (hs.inv p j) taken opened (h.trans suffix)

/-- A member has answered, or else it is at work, as far as its sleeps have taken
it. -/
theorem Happens.attended (hs : Reachable s) (opened : Happens p s m (.opened n around))
    (composite : e.IsGroup) (known : ∀ c ∈ e.commands, (around.resolve? c).isSome)
    (taken : (m₀, .taken n t e) ∈ historyFor p s k) {c : Command} {job : Job σ Answer}
    (hc : e.commands[i]? = some c) (hj : around.resolve? c = some job) :
    (∃ m a, (m, .answered t i a) ∈ historyFor p s k) ∨
      ∃ member ∈ (runFor p s k).scheduler.crew, ∃ d, member.key = (t, i) ∧
        job.After d member.job ∧ member.due = m₀ + d := by
  have ho := hs.historyFor_orderly p k
  have opened := opened.opened_mem hs taken
  have hi : i < e.size := (List.getElem?_eq_some_iff.1 hc).1
  rcases hs.runFor_manned p k m₀ n t e _ i taken opened composite known hi with
    working | answered
  · obtain ⟨member, hm, hkey⟩ := List.mem_map.1 working
    obtain ⟨rfl, rfl⟩ := Prod.mk.injEq .. ▸ hkey
    obtain ⟨m', n', e', around', c', job', d, taken', opened', -, hc', hj', after, hdue⟩ :=
      (hs.inv p k).engaged member hm
    obtain ⟨rfl, rfl, rfl⟩ := ho.taken_unique taken' taken
    obtain rfl := ho.opened_unique opened' opened
    obtain rfl := Option.some.inj (hc'.symm.trans hc)
    obtain rfl := Option.some.inj (hj'.symm.trans hj)
    exact .inr ⟨member, hm, d, rfl, after, hdue⟩
  · obtain ⟨a, ha⟩ := Option.ne_none_iff_exists'.1 answered
    obtain ⟨m', ha⟩ := History.mem_of_answer? _ ha
    exact .inl ⟨m', a, ha⟩

end Around

/-- A member of a group has its first turn when it is started. -/
theorem Happens.started_turns (hs : Reachable s) (taken : Happens p s m₀ (.taken n t e))
    (composite : e.IsGroup) {c : Command} (h : Happens p s m (.started t i c)) :
    (m, .started t i c) ∈ s.history ∨
      ∃ j job, (moment p s j).scheduler.clock = m ∧ (moment p s j).Turns (.begin t i c job) := by
  refine (h.started_launched hs).imp_right fun launched => ?_
  cases launched with
  | member j job clock turn => exact ⟨j, job, clock, turn⟩
  | single j around n' standing after job inbox clock first known focus line =>
      -- The effect with this ticket is a group.
      obtain ⟨past, -⟩ := Moment.joins_of_line around standing after line
      have next : moment p s (j + 1) =
          Moment.afterInterpreter around n' standing after (moment p s j).scheduler := by
        rw [moment, Moment.next, focus]
      rw [← next] at past
      have single := (hs.happens_iff p).2 ⟨j + 1, past.subset List.mem_cons_self⟩
      obtain ⟨k, single, taken⟩ := single.both taken hs
      obtain ⟨-, -, rfl⟩ := (hs.historyFor_orderly p k).taken_unique taken single
      exact composite.elim

section Moments

variable {around : Surroundings σ} {j : Nat}

/-- The line of an effect that has been taken by a moment has been opened before. -/
theorem Happens.opened_moment (hs : Reachable s) (opened : Happens p s m (.opened n around))
    (taken : (m₀, .taken n t e) ∈ (moment p s j).scheduler.history) :
    (moment p s j).scheduler.history.Opened n around := by
  obtain ⟨past, hp⟩ := History.exists_past taken
  obtain ⟨-, ⟨around', m', opened'⟩, -⟩ := (hs.moment_orderly p j).fits hp
  have mem : (m', .opened n around') ∈ (moment p s j).scheduler.history :=
    hp.subset (List.mem_cons_of_mem _ opened')
  rw [Happens.opened_unique hs opened ((hs.happens_iff p).2 ⟨j, mem⟩)]
  exact ⟨m', mem⟩

/-- Where a group is taken in a run, in the surroundings of its line. -/
theorem Happens.joined (hs : Reachable s) (opened : Happens p s m (.opened n around))
    (untaken : (m₀, .taken n t e) ∉ (moment p s j).scheduler.history)
    (taken : (m₀, .taken n t e) ∈ (moment p s (j + 1)).scheduler.history) :
    Joined p s around m₀ t e j := by
  obtain ⟨around', ⟨m', opened'⟩, joined⟩ := hs.joined untaken taken
  rwa [Happens.opened_unique hs opened ((hs.happens_iff p).2 ⟨j, opened'⟩)]

/-- The turns of a member are its bursts, from its first turn on. -/
theorem Happens.plays (hs : Reachable s) (opened : Happens p s m (.opened n around))
    (composite : e.IsGroup) {tasks : List (Task σ)}
    (ht : members around t 0 e.commands = .ok tasks) (new : (m₀, .taken n t e) ∉ s.history)
    (taken : (m₀, .taken n t e) ∈ (moment p s j).scheduler.history) {c : Command}
    {job : Job σ Answer} (hc : e.commands[i]? = some c) (hj : around.resolve? c = some job) :
    Plays p s (some ⟨t, i, m₀, job⟩) (turnsOf p s (t, i) j)
      ((moment p s j).scheduler.member? (t, i)) := by
  obtain ⟨k, hk, before, after⟩ := exists_taking new taken
  have joined := opened.joined hs before after
  exact (joined.start hs composite ht hc hj).run hs after hk

/-- Of a member that has answered nothing is left, and of nobody else. -/
theorem Happens.spent (hs : Reachable s) (opened : Happens p s m (.opened n around))
    (composite : e.IsGroup) (known : ∀ c ∈ e.commands, (around.resolve? c).isSome)
    (taken : (m₀, .taken n t e) ∈ (moment p s j).scheduler.history) (hi : i < e.size) :
    (moment p s j).scheduler.member? (t, i) = none ↔
      ∃ m a, (m, .answered t i a) ∈ (moment p s j).scheduler.history := by
  have inv := (hs.stands p j).inv
  have attended := invariant_manned.moment hs p j m₀ n t e around i taken
    (opened.opened_moment hs taken) composite known hi
  constructor
  · intro none
    refine attended.elim (fun working => ?_) fun answered => ?_
    · obtain ⟨member, hm, key⟩ := List.mem_map.1 working
      rw [inv.member?_eq_some_iff.2 ⟨hm, key⟩] at none
      cases none
    · obtain ⟨a, ha⟩ := Option.ne_none_iff_exists'.1 answered
      obtain ⟨m', ha⟩ := History.mem_of_answer? _ ha
      exact ⟨m', a, ha⟩
  · rintro ⟨m', a, answered⟩
    refine InvBut.member?_eq_none fun member hm key => ?_
    obtain ⟨rfl, rfl⟩ := Prod.mk.injEq .. ▸ key
    exact History.answer?_ne_none _ answered (inv.unanswered member hm)

end Moments

/-- Every member of a group of registered commands is run exactly once: its
resolver is started when the group is taken, in its place among the members and
before there is an outcome, and goes on until it has answered, turn by turn and
each of its bursts once, whatever the others answer and whether or not the group
has been settled by then. -/
theorem members_run_once (hs : Reachable s)
    (opened : Happens p s m (.opened n (registry.surroundings ambient)))
    (taken : Happens p s m₀ (.taken n t e)) (composite : e.IsGroup)
    (known : ∀ c ∈ e.commands, registry.contains c.name = true) :
    RunsMembers p s registry ambient n m₀ t e := by
  have known' : ∀ c ∈ e.commands, ((registry.surroundings ambient).resolve? c).isSome :=
    fun c hc => (registry.isSome_job? ambient c).trans (known c hc)
  have all : (registry.surroundings ambient).starts e = e.commands.zipIdx :=
    Surroundings.starts_known known'
  obtain ⟨m₁, o₁, settled⟩ := taken.settles hs
  have order (k : Nat) : (historyFor p s k).starts t <+: e.commands.zipIdx :=
    all ▸ opened.starts_le hs taken k
  have before (k m : Nat) (o : Outcome) (past : History σ)
      (h : (m, .settled t o) :: past <:+ historyFor p s k ∨
        (m, .resumed t o) :: past <:+ historyFor p s k) :
      past.starts t = e.commands.zipIdx :=
    all ▸ opened.starts_before hs taken h
  have attended (k i : Nat) (c : Command) (resolver : Resolver σ)
      (taken : (m₀, .taken n t e) ∈ historyFor p s k) (hc : e.commands[i]? = some c)
      (hr : registry.get? c.name = some resolver) :=
    opened.attended hs composite known' taken hc (Option.map_eq_some_iff.2 ⟨resolver, hr, rfl⟩)
  have index {i : Nat} {c : Command} : (c, i) ∈ e.commands.zipIdx ↔ e.commands[i]? = some c :=
    List.mem_zipIdx_iff_getElem?
  obtain ⟨tasks, ht⟩ := exists_members (t := t) (k := 0) known'
  have resolved {c : Command} {job : Job σ Answer}
      (hj : (registry.surroundings ambient).resolve? c = some job) :
      ∃ resolver, registry.get? c.name = some resolver ∧ job = resolver c.payload ambient := by
    obtain ⟨resolver, hr, rfl⟩ := Option.map_eq_some_iff.1 hj
    exact ⟨resolver, hr, rfl⟩
  exact {
    traced := hs.traced p
    order := order
    started := fun i c => by
      constructor
      · -- The group is settled in the end, and by then all have been started.
        intro hc
        obtain ⟨k, settled⟩ := settled
        obtain ⟨past, hp⟩ := History.exists_past settled
        have mem := index.2 hc
        rw [← before k m₁ o₁ past (.inl hp)] at mem
        obtain ⟨m', h⟩ := History.mem_starts.1 mem
        exact ⟨m', k, hp.subset (List.mem_cons_of_mem _ h)⟩
      · rintro ⟨m', k, h⟩
        exact index.1 ((order k).subset (History.mem_starts.2 ⟨m', h⟩))
    prompt := fun m' i c h => by
      obtain ⟨k, h⟩ := h
      obtain ⟨n', e', taken'⟩ := (hs.runFor_launches p k).prompt m' t i c h
      obtain ⟨j, taken', taken⟩ := Happens.both ⟨k, taken'⟩ taken hs
      exact ((hs.historyFor_orderly p j).taken_unique taken' taken).1
    before := before
    queued := fun j untaken taken => by
      have joined := opened.joined hs untaken taken
      refine ⟨joined.clock, tasks, joined.ready tasks composite ht, ?_⟩
      refine (members_forall₂ ht).imp fun task q => ?_
      rintro ⟨job, hj, rfl⟩
      obtain ⟨resolver, hr, rfl⟩ := resolved hj
      exact ⟨resolver, hr, rfl⟩
    begins := fun _ _ _ h => Happens.started_turns hs taken composite h
    plays := fun new j i c resolver taken hc hr =>
      opened.plays hs composite ht new taken hc (Option.map_eq_some_iff.2 ⟨resolver, hr, rfl⟩)
    continues := fun old j i => Plays.run hs (j := 0) .start old (Nat.zero_le j)
    spent := fun j i taken hi => opened.spent hs composite known' taken hi
    answered := fun i m' a ha =>
      ⟨Happens.answered hs opened taken ha, fun m'' a' ha' => Happens.answered_unique hs ha ha'⟩
    attended := attended
    completes := fun k i c resolver longest taken hc hr bound late => by
      refine (attended k i c resolver taken hc hr).resolve_right ?_
      rintro ⟨member, hm, d, -, after, hdue⟩
      obtain ⟨d', a, answers⟩ := exists_answers (runFor p s k).scheduler.world member.job
      have := bound (d + d') a (after.answers answers)
      have := (hs.inv p k).clock_le_due hm
      omega
    settled := ⟨m₁, o₁, settled, fun m' o' h => Happens.outcome_unique hs settled h⟩
    unheard := fun k s' steps hsettled ready w i a =>
      (steps.inv (hs.inv p k)).report_settled hsettled ready w i a }

/-- The second member crashes at once and the group fails with it; the first one
answers eight milliseconds later, when the script has gone on.  Each of them leaves
its words in the world, once and in its turn. -/
theorem members_run_once_outliving :
    let s : Scheduler Unit (List String) := { state := (), world := { own := [] } }
    let say (word : String) (w : World (List String)) : World (List String) :=
      { w with own := w.own ++ [word] }
    let registry : Registry (List String) := (Registry.empty.register "slow" fun payload _ =>
      .write (say "asleep") (.sleep 8 (.write (say "awake") (.done (.ok payload))))).register "bad"
        fun _ _ => .write (say "bad") .crash
    let e : Effect := .sequence [⟨"slow", .bool true⟩, ⟨"bad", .null⟩]
    let p : Routine Unit (List String) Unit Unit := .interpret (registry.surroundings .empty)
      (.suspend e fun _ => .sleep 20 (.done (.ok ()))) fun _ => .done ()
    Happens p s 0 (.started 0 0 ⟨"slow", .bool true⟩) ∧
      Happens p s 0 (.resumed 0 (.error .crashedMember)) ∧
      Happens p s 8 (.answered 0 0 (.ok (.bool true))) ∧
      (moment p s 21).scheduler.world.own = ["asleep", "bad", "awake"] ∧
      RunsMembers p s registry .empty 1 0 0 e := by
  intro s say registry e p
  obtain ⟨opened, taken, started, resumed, answered, words⟩ :
      Happens p s 0 (.opened 1 (registry.surroundings .empty)) ∧ Happens p s 0 (.taken 1 0 e) ∧
        Happens p s 0 (.started 0 0 ⟨"slow", .bool true⟩) ∧
        Happens p s 0 (.resumed 0 (.error .crashedMember)) ∧
        Happens p s 8 (.answered 0 0 (.ok (.bool true))) ∧
        (moment p s 21).scheduler.world.own = ["asleep", "bad", "awake"] := by
    -- With every definition put in, no moment is computed twice.
    dsimp +zetaDelta only
    exact ⟨.of_moment (.fresh () _) 21 11 rfl, .of_moment (.fresh () _) 21 8 rfl,
      .of_moment (.fresh () _) 21 7 rfl, .of_moment (.fresh () _) 21 3 rfl,
      .of_moment (.fresh () _) 21 1 rfl, rfl⟩
  exact ⟨started, resumed, answered, words,
    members_run_once (.fresh () _) opened taken trivial (by decide)⟩

end Switchboard.Scheduler
