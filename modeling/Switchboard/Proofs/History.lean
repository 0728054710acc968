import Switchboard.Proofs.Job

/-!
# Switchboard.Proofs.History

How to read a history, and when it is in order.  A history lists its newest
event first, so what lies behind an event is the tail of the list, and every
moment of a run is a suffix of its history.

* `sentOn`, `takenOn` — the effects that were emitted on a line and those that
  its interpreter has taken, oldest first;
* `slots` — the answers of a group's members, by their order;
* `Fits` — what has to lie behind an event; `Orderly` asks it of every event.

An orderly history is all that the statements about interpretation rest on.
That every run leaves one is shown in `Switchboard.Proofs.Rounds`.
-/

namespace Switchboard

variable {σ : Type}

namespace Event

/-- An event that says nothing of what becomes of an effect. -/
def Neutral : Event σ → Prop
  | .polled _ _ | .started _ _ _ | .resumed _ _ => True
  | _ => False

/-- The line that an event names, if it names one. -/
def line? : Event σ → Option Nat
  | .opened n _ | .polled n _ | .emitted n _ _ | .taken n _ _ | .ended n _ => some n
  | _ => none

def emission? (n : Nat) : Event σ → Option (Ticket × Effect)
  | .emitted n' t e => if n' = n then some (t, e) else none
  | _ => none

def taking? (n : Nat) : Event σ → Option (Ticket × Effect)
  | .taken n' t e => if n' = n then some (t, e) else none
  | _ => none

def answer? (t : Ticket) (i : Nat) : Event σ → Option Answer
  | .answered t' i' a => if t' = t ∧ i' = i then some a else none
  | _ => none

end Event

/-- Whether the commands of an effect are resolved side by side. -/
def Effect.IsGroup : Effect → Prop
  | .single _ => False
  | _ => True

/-- The resolver of a command of an effect may be asleep after some time, and
for longer than that. -/
def Surroundings.Asleep (around : Surroundings σ) (e : Effect) (i d : Nat) : Prop :=
  ∃ c job d' rest, e.commands[i]? = some c ∧ around.resolve? c = some job ∧ job.After d' rest ∧
    d < d'

namespace History

/-! ## What a history says -/

def Opened (h : History σ) (n : Nat) (around : Surroundings σ) : Prop :=
  ∃ m, (m, .opened n around) ∈ h

def Emitted (h : History σ) (t : Ticket) : Prop := ∃ m n e, (m, .emitted n t e) ∈ h

def Settled (h : History σ) (t : Ticket) : Prop := ∃ m o, (m, .settled t o) ∈ h

def Ended (h : History σ) (n : Nat) : Prop := ∃ m finished, (m, .ended n finished) ∈ h

/-- Nobody listens on a line: its interpretation is over, or there never was
one. -/
def Closed (h : History σ) (n : Nat) : Prop := h.Ended n ∨ ∀ around, ¬ h.Opened n around

/-- The effects that were emitted on a line, oldest first. -/
def sentOn (h : History σ) (n : Nat) : List (Ticket × Effect) :=
  h.reverse.filterMap (·.2.emission? n)

/-- The effects that the interpreter of a line has taken, oldest first. -/
def takenOn (h : History σ) (n : Nat) : List (Ticket × Effect) :=
  h.reverse.filterMap (·.2.taking? n)

/-- The interpreter of a line is at work on no effect, and may look at its
script. -/
structure Idle (h : History σ) (n : Nat) : Prop where
  served : ∀ p ∈ h.takenOn n, h.Settled p.1
  unended : ¬ h.Ended n

/-- What the resolver of a command of an effect has answered, if it has. -/
def answer? (h : History σ) (t : Ticket) (i : Nat) : Option Answer :=
  h.findSome? (·.2.answer? t i)

/-- The answers to the commands of an effect, as far as they are there. -/
def slots (h : History σ) (t : Ticket) (size : Nat) : List (Option Answer) :=
  (List.range size).map (h.answer? t)

/-- What happened before a time. -/
def before (h : History σ) (m : Nat) : History σ := h.filter (·.1 < m)

theorem Settled.mono {h h' : History σ} {t : Ticket} (hs : h.Settled t) (sub : h ⊆ h') :
    h'.Settled t :=
  hs.imp fun _ => Exists.imp fun _ => (sub ·)

section Projections

variable (h : History σ) (p : Nat × Event σ)

@[simp] theorem sentOn_nil (n : Nat) : sentOn ([] : History σ) n = [] := rfl

@[simp] theorem takenOn_nil (n : Nat) : takenOn ([] : History σ) n = [] := rfl

@[simp] theorem sentOn_cons (n : Nat) :
    sentOn (p :: h) n = h.sentOn n ++ (p.2.emission? n).toList := by
  cases he : p.2.emission? n <;> simp [sentOn, List.filterMap_append, he]

@[simp] theorem takenOn_cons (n : Nat) :
    takenOn (p :: h) n = h.takenOn n ++ (p.2.taking? n).toList := by
  cases he : p.2.taking? n <;> simp [takenOn, List.filterMap_append, he]

@[simp] theorem answer?_cons (t : Ticket) (i : Nat) :
    answer? (p :: h) t i = (p.2.answer? t i).or (h.answer? t i) := by
  cases he : p.2.answer? t i <;> simp [answer?, he]

@[simp] theorem settled_cons (t : Ticket) :
    Settled (p :: h) t ↔ (∃ o, p.2 = .settled t o) ∨ h.Settled t := by
  obtain ⟨m, ev⟩ := p
  simp only [Settled, List.mem_cons, Prod.mk.injEq]
  grind

@[simp] theorem opened_cons (n : Nat) (around : Surroundings σ) :
    Opened (p :: h) n around ↔ p.2 = .opened n around ∨ h.Opened n around := by
  obtain ⟨m, ev⟩ := p
  simp only [Opened, List.mem_cons, Prod.mk.injEq]
  grind

@[simp] theorem ended_cons (n : Nat) :
    Ended (p :: h) n ↔ (∃ finished, p.2 = .ended n finished) ∨ h.Ended n := by
  obtain ⟨m, ev⟩ := p
  simp only [Ended, List.mem_cons, Prod.mk.injEq]
  grind

/-- What happens at a time does not happen before it. -/
@[simp] theorem before_cons_self (m : Nat) (ev : Event σ) :
    before ((m, ev) :: h) m = h.before m := by
  simp [before]

@[simp] theorem length_slots (t : Ticket) (size : Nat) : (h.slots t size).length = size := by
  simp [slots]

theorem getElem?_slots (t : Ticket) {size i : Nat} (hi : i < size) :
    (h.slots t size)[i]? = some (h.answer? t i) := by
  simp [slots, hi]

theorem mem_sentOn {n : Nat} {t : Ticket} {e : Effect} :
    (t, e) ∈ h.sentOn n ↔ ∃ m, (m, .emitted n t e) ∈ h := by
  simp only [sentOn, List.mem_filterMap, List.mem_reverse]
  constructor
  · rintro ⟨⟨m, ev⟩, hm, he⟩
    cases ev <;> simp_all [Event.emission?]
    obtain ⟨rfl, rfl, rfl⟩ := he
    exact ⟨m, hm⟩
  · rintro ⟨m, hm⟩
    exact ⟨_, hm, by simp [Event.emission?]⟩

theorem mem_takenOn {n : Nat} {t : Ticket} {e : Effect} :
    (t, e) ∈ h.takenOn n ↔ ∃ m, (m, .taken n t e) ∈ h := by
  simp only [takenOn, List.mem_filterMap, List.mem_reverse]
  constructor
  · rintro ⟨⟨m, ev⟩, hm, he⟩
    cases ev <;> simp_all [Event.taking?]
    obtain ⟨rfl, rfl, rfl⟩ := he
    exact ⟨m, hm⟩
  · rintro ⟨m, hm⟩
    exact ⟨_, hm, by simp [Event.taking?]⟩

theorem sentOn_eq_nil {n : Nat} (hn : ∀ p ∈ h, p.2.line? ≠ some n) : h.sentOn n = [] := by
  rw [List.eq_nil_iff_forall_not_mem]
  rintro ⟨t, e⟩ he
  obtain ⟨m, hm⟩ := (h.mem_sentOn).1 he
  exact hn _ hm rfl

theorem takenOn_eq_nil {n : Nat} (hn : ∀ p ∈ h, p.2.line? ≠ some n) : h.takenOn n = [] := by
  rw [List.eq_nil_iff_forall_not_mem]
  rintro ⟨t, e⟩ he
  obtain ⟨m, hm⟩ := (h.mem_takenOn).1 he
  exact hn _ hm rfl

theorem mem_of_answer? {t : Ticket} {i : Nat} {a : Answer} (ha : h.answer? t i = some a) :
    ∃ m, (m, .answered t i a) ∈ h := by
  obtain ⟨⟨m, ev⟩, hm, he⟩ := List.exists_of_findSome?_eq_some ha
  cases ev <;> simp_all [Event.answer?]
  obtain ⟨⟨rfl, rfl⟩, rfl⟩ := he
  exact ⟨m, hm⟩

theorem answer?_ne_none {t : Ticket} {i m : Nat} {a : Answer} (ha : (m, .answered t i a) ∈ h) :
    h.answer? t i ≠ none := by
  intro hn
  simpa [Event.answer?] using List.findSome?_eq_none_iff.1 hn _ ha

end Projections

/-! ## Histories that say the same -/

/-- Two histories differ in neutral events only. -/
structure Same (h h' : History σ) : Prop where
  sub : h ⊆ h'
  mem : ∀ p, ¬ p.2.Neutral → (p ∈ h' ↔ p ∈ h)
  sentOn : ∀ n, h'.sentOn n = h.sentOn n
  takenOn : ∀ n, h'.takenOn n = h.takenOn n
  answer? : ∀ t i, h'.answer? t i = h.answer? t i
  before : ∀ m t i, (h'.before m).answer? t i = (h.before m).answer? t i

namespace Same

variable {h h' : History σ} {n : Nat} {t : Ticket}

theorem refl (h : History σ) : Same h h :=
  ⟨List.Subset.refl _, fun _ _ => .rfl, fun _ => rfl, fun _ => rfl, fun _ _ => rfl,
    fun _ _ _ => rfl⟩

theorem cons (h : History σ) (m : Nat) {ev : Event σ} (hev : ev.Neutral) :
    Same h ((m, ev) :: h) := by
  cases ev <;> simp only [Event.Neutral] at hev
  all_goals
    refine ⟨List.subset_cons_self _ _, fun p hp => ?_, fun n => by simp [Event.emission?],
      fun n => by simp [Event.taking?], fun t i => by simp [Event.answer?], fun m' t i => ?_⟩
    · refine ⟨fun hm => ?_, List.mem_cons_of_mem _⟩
      rcases List.mem_cons.1 hm with rfl | hm
      · simp [Event.Neutral] at hp
      · exact hm
    · simp only [History.before, List.filter_cons]
      split <;> simp [Event.answer?]

theorem settled (hs : Same h h') : h'.Settled t ↔ h.Settled t :=
  exists_congr fun _ => exists_congr fun _ => hs.mem _ id

theorem opened (hs : Same h h') {around : Surroundings σ} :
    h'.Opened n around ↔ h.Opened n around :=
  exists_congr fun _ => hs.mem _ id

theorem ended (hs : Same h h') : h'.Ended n ↔ h.Ended n :=
  exists_congr fun _ => exists_congr fun _ => hs.mem _ id

end Same

/-! ## Histories in order -/

/-- An answer comes from the resolver of its command, as long after the effect
was taken as the resolver has slept.  Only a member of a group may have crashed
instead. -/
def Authentic (h : History σ) (m : Nat) (t : Ticket) (i : Nat) (a : Answer) : Prop :=
  ∃ m₀ n e around c job d, (m₀, .taken n t e) ∈ h ∧ h.Opened n around ∧
    e.commands[i]? = some c ∧ around.resolve? c = some job ∧ job.Answers d a ∧
    (e.IsGroup ∨ job.After d (.done a)) ∧ m = m₀ + d

/-- The outcome of an effect that was taken at a time, at the time at which it
is known.  The members of a group are looked at as soon as one of them has
answered, so what they had answered earlier did not decide it, and those that
have not answered are asleep. -/
inductive Resolution (h : History σ) (around : Surroundings σ) (m₀ m : Nat) (t : Ticket) :
    Effect → Outcome → Prop where
  | unknown (e : Effect) (c : Command)
      (first : e.commands.find? (fun c => (around.resolve? c).isNone) = some c) (hm : m = m₀) :
      Resolution h around m₀ m t e (.error (.unknownCommand c.name))
  | single (c : Command) (a : Answer) (known : (around.resolve? c).isSome)
      (answered : (m, .answered t 0 a) ∈ h) :
      Resolution h around m₀ m t (.single c) (a.map .single)
  | group (e : Effect) (r : Except Failure (List Json)) (composite : e.IsGroup)
      (known : ∀ c ∈ e.commands, (around.resolve? c).isSome)
      (decided : FanIn.outcome? (h.slots t e.size) = some r)
      (undecided : m₀ < m → FanIn.outcome? ((h.before m).slots t e.size) = none)
      (asleep : ∀ i < e.size, h.answer? t i = none → around.Asleep e i (m - m₀)) :
      Resolution h around m₀ m t e (r.map e.resumed)

/-- Why an outcome is sent. -/
inductive Cause (h : History σ) (m : Nat) (t : Ticket) : Outcome → Prop where
  /-- Nobody listens on the line, and nobody has taken the effect off it. -/
  | unheard (n : Nat) (e : Effect) (sent : (t, e) ∈ h.sentOn n)
      (untaken : ∀ e, (t, e) ∉ h.takenOn n) (closed : h.Closed n) :
      Cause h m t (.error .detached)
  /-- The interpretation has broken off with a crash of this effect's resolver. -/
  | broken (n m₀ d : Nat) (c : Command) (around : Surroundings σ) (job : Job σ Answer)
      (taken : (m₀, .taken n t (.single c)) ∈ h) (opened : h.Opened n around)
      (known : around.resolve? c = some job) (crash : job.After d .crash) (hm : m = m₀ + d)
      (ended : (m, .ended n false) ∈ h) :
      Cause h m t (.error .detached)
  | resolved (n m₀ : Nat) (e : Effect) (around : Surroundings σ) (o : Outcome)
      (taken : (m₀, .taken n t e) ∈ h) (opened : h.Opened n around) (unended : ¬ h.Ended n)
      (resolution : h.Resolution around m₀ m t e o) : Cause h m t o

/-- What is sent elsewhere changes nothing of why an outcome is sent. -/
theorem Cause.cons_settled {h : History σ} {m m' : Nat} {t u : Ticket} {o o' : Outcome}
    (hc : h.Cause m t o) : Cause ((m', .settled u o') :: h) m t o := by
  cases hc with
  | unheard n e sent untaken closed =>
      exact .unheard n e (by simpa [Event.emission?] using sent)
        (by simpa [Event.taking?] using untaken) (by simpa [Closed] using closed)
  | broken n m₀ d c around job taken opened known crash hm ended =>
      exact .broken n m₀ d c around job (by simpa using taken) (by simpa using opened) known crash
        hm (by simpa using ended)
  | resolved n m₀ e around o taken opened unended resolution =>
      refine .resolved n m₀ e around o (by simpa using taken) (by simpa using opened)
        (by simpa using unended) ?_
      cases resolution with
      | unknown _ _ first hm => exact .unknown _ _ first hm
      | single c a known answered => exact .single c a known (by simpa using answered)
      | group _ _ composite known decided undecided asleep =>
          have slots (h' : History σ) (size : Nat) :
              slots ((m', .settled u o') :: h') t size = h'.slots t size := by
            simp [History.slots, Event.answer?]
          refine .group _ _ composite known (by rw [slots, decided]) (fun hlt => ?_) fun i hi hn =>
            asleep i hi (by simpa [Event.answer?] using hn)
          rw [← undecided hlt, before, List.filter_cons]
          split <;> simp only [before, slots]

/-- What has to lie behind an event. -/
def Fits (h : History σ) (m : Nat) : Event σ → Prop
  | .opened n _ => ∀ p ∈ h, p.2.line? ≠ some n
  | .polled n _ => h.Idle n
  | .emitted _ t _ => ¬ h.Emitted t
  | .taken n t e => h.Idle n ∧ (∃ around, h.Opened n around) ∧ ¬ h.Settled t ∧
      (∃ w past, h = (m, .polled n w) :: past) ∧
      ∃ rest, h.sentOn n = h.takenOn n ++ (t, e) :: rest
  | .started _ _ _ => True
  | .answered t i a => h.answer? t i = none ∧ (∀ m' o, (m', .settled t o) ∈ h → m' < m) ∧
      h.Authentic m t i a
  | .settled t o => ¬ h.Settled t ∧ h.Cause m t o
  | .resumed t o => ∃ m', (m', .settled t o) ∈ h
  | .ended n finished => ¬ h.Ended n ∧ (finished = true → h.Idle n)

/-- Every event fits what lies behind it, and time does not run backwards. -/
def Orderly : History σ → Prop
  | [] => True
  | (m, ev) :: h => Fits h m ev ∧ (∀ p ∈ h, p.1 ≤ m) ∧ Orderly h

namespace Orderly

variable {h past : History σ} {n m m' i : Nat} {t : Ticket}

theorem suffix (ho : Orderly h) (hs : past <:+ h) : Orderly past := by
  induction h with
  | nil => rw [List.suffix_nil.1 hs]; trivial
  | cons p h ih =>
      rcases List.suffix_cons_iff.1 hs with rfl | hs
      · exact ho
      · exact ih ho.2.2 hs

theorem fits {ev : Event σ} (ho : Orderly h) (hs : (m, ev) :: past <:+ h) : Fits past m ev :=
  (ho.suffix hs).1

theorem time_le {p : Nat × Event σ} {ev : Event σ} (ho : Orderly h) (hs : (m, ev) :: past <:+ h)
    (hp : p ∈ past) : p.1 ≤ m :=
  (ho.suffix hs).2.1 p hp

end Orderly

/-- Every event has its past. -/
theorem exists_past {h : History σ} {p : Nat × Event σ} (hp : p ∈ h) : ∃ past, p :: past <:+ h := by
  obtain ⟨front, past, rfl⟩ := List.append_of_mem hp
  exact ⟨past, List.suffix_append _ _⟩

/-- Of two events one lies behind the other, unless they are the same. -/
theorem eq_or_past {h : History σ} {p q : Nat × Event σ} (hp : p ∈ h) (hq : q ∈ h) :
    p = q ∨ (∃ past, p :: past <:+ h ∧ q ∈ past) ∨ ∃ past, q :: past <:+ h ∧ p ∈ past := by
  induction h with
  | nil => simp at hp
  | cons r h ih =>
      rcases List.mem_cons.1 hp with rfl | hp'
      · rcases List.mem_cons.1 hq with rfl | hq'
        · exact .inl rfl
        · exact .inr (.inl ⟨h, List.suffix_refl _, hq'⟩)
      · rcases List.mem_cons.1 hq with rfl | hq'
        · exact .inr (.inr ⟨h, List.suffix_refl _, hp'⟩)
        · have up {p} {past : History σ} (hs : p :: past <:+ h) : p :: past <:+ r :: h :=
            hs.trans (List.suffix_cons r h)
          rcases ih hp' hq' with rfl | ⟨past, hs, hm⟩ | ⟨past, hs, hm⟩
          · exact .inl rfl
          · exact .inr (.inl ⟨past, up hs, hm⟩)
          · exact .inr (.inr ⟨past, up hs, hm⟩)

namespace Orderly

variable {h past : History σ} {n n' m m' i : Nat} {t : Ticket} {e e' : Effect}

theorem emitted_unique (ho : Orderly h) (h₁ : (m, .emitted n t e) ∈ h)
    (h₂ : (m', .emitted n' t e') ∈ h) : m = m' ∧ n = n' ∧ e = e' := by
  rcases eq_or_past h₁ h₂ with heq | ⟨past, hs, hp⟩ | ⟨past, hs, hp⟩
  · simp_all
  · exact absurd ⟨_, _, _, hp⟩ (ho.fits hs)
  · exact absurd ⟨_, _, _, hp⟩ (ho.fits hs)

theorem opened_unique {around around' : Surroundings σ} (ho : Orderly h)
    (h₁ : h.Opened n around) (h₂ : h.Opened n around') : around = around' := by
  obtain ⟨m, h₁⟩ := h₁
  obtain ⟨m', h₂⟩ := h₂
  rcases eq_or_past h₁ h₂ with heq | ⟨past, hs, hp⟩ | ⟨past, hs, hp⟩
  · simp_all
  · exact absurd rfl (ho.fits hs _ hp)
  · exact absurd rfl (ho.fits hs _ hp)

theorem settled_unique {o o' : Outcome} (ho : Orderly h) (h₁ : (m, .settled t o) ∈ h)
    (h₂ : (m', .settled t o') ∈ h) : m = m' ∧ o = o' := by
  rcases eq_or_past h₁ h₂ with heq | ⟨past, hs, hp⟩ | ⟨past, hs, hp⟩
  · simp_all
  · exact absurd ⟨_, _, hp⟩ (ho.fits hs).1
  · exact absurd ⟨_, _, hp⟩ (ho.fits hs).1

theorem answered_unique {a a' : Answer} (ho : Orderly h) (h₁ : (m, .answered t i a) ∈ h)
    (h₂ : (m', .answered t i a') ∈ h) : m = m' ∧ a = a' := by
  rcases eq_or_past h₁ h₂ with heq | ⟨past, hs, hp⟩ | ⟨past, hs, hp⟩
  · simp_all
  · exact absurd (ho.fits hs).1 (answer?_ne_none _ hp)
  · exact absurd (ho.fits hs).1 (answer?_ne_none _ hp)

theorem answer?_eq_some_iff {a : Answer} (ho : Orderly h) :
    h.answer? t i = some a ↔ ∃ m, (m, .answered t i a) ∈ h := by
  refine ⟨mem_of_answer? h, ?_⟩
  rintro ⟨m, hm⟩
  obtain ⟨b, hb⟩ := Option.ne_none_iff_exists'.1 (answer?_ne_none h hm)
  obtain ⟨m', hm'⟩ := mem_of_answer? h hb
  rw [hb, (ho.answered_unique hm' hm).2]

/-! ## Lines -/

/-- Effects are taken in the order in which they were emitted. -/
theorem takenOn_le_sentOn (ho : Orderly h) (n : Nat) : h.takenOn n <+: h.sentOn n := by
  induction h with
  | nil => simp
  | cons p h ih =>
      obtain ⟨m, ev⟩ := p
      have hp := ih ho.2.2
      have later : takenOn h n <+: sentOn h n ++ (ev.emission? n).toList :=
        hp.trans (List.prefix_append _ _)
      cases ev with
      | taken n' t e =>
          by_cases hn : n' = n
          · obtain ⟨-, -, -, -, rest, hrest⟩ := ho.1
            subst hn
            exact ⟨rest, by simp [Event.taking?, Event.emission?, hrest]⟩
          · simpa [Event.taking?, Event.emission?, hn] using hp
      | _ => simpa only [takenOn_cons, sentOn_cons, Event.taking?, Option.toList_none,
          List.append_nil] using later

theorem sentOn_nodup (ho : Orderly h) (n : Nat) : ((h.sentOn n).map Prod.fst).Nodup := by
  induction h with
  | nil => simp
  | cons p h ih =>
      obtain ⟨m, ev⟩ := p
      have hd := ih ho.2.2
      cases ev with
      | emitted n' t e =>
          by_cases hn : n' = n
          · have hnew : ∀ e', (t, e') ∉ sentOn h n := fun e' he =>
              ho.1 (((mem_sentOn h).1 he).imp fun _ hm => ⟨n, e', hm⟩)
            simp [Event.emission?, hn, List.nodup_append, hd]
            grind
          · simpa [Event.emission?, hn] using hd
      | _ => simpa [Event.emission?] using hd

/-- No effect is taken twice. -/
theorem takenOn_nodup (ho : Orderly h) (n : Nat) : ((h.takenOn n).map Prod.fst).Nodup :=
  (ho.sentOn_nodup n).sublist ((ho.takenOn_le_sentOn n).sublist.map _)

theorem emitted_of_taken (ho : Orderly h) (ht : (m, .taken n t e) ∈ h) :
    ∃ m', (m', .emitted n t e) ∈ h :=
  (mem_sentOn h).1 ((ho.takenOn_le_sentOn n).subset ((mem_takenOn h).2 ⟨m, ht⟩))

theorem emitted_of_settled (ho : Orderly h) (hs : h.Settled t) : h.Emitted t := by
  obtain ⟨m, o, hs⟩ := hs
  obtain ⟨past, hp⟩ := exists_past hs
  have back {m n e} (he : (m, .emitted n t e) ∈ past) : h.Emitted t :=
    ⟨m, n, e, hp.subset (List.mem_cons_of_mem _ he)⟩
  have taken {m n e} (he : (m, .taken n t e) ∈ past) : h.Emitted t := by
    obtain ⟨m', he⟩ := (ho.suffix ((List.suffix_cons _ _).trans hp)).emitted_of_taken he
    exact back he
  cases (ho.fits hp).2 with
  | unheard n e sent =>
      obtain ⟨m', he⟩ := (mem_sentOn past).1 sent
      exact back he
  | broken n m₀ d c around job ht => exact taken ht
  | resolved n m₀ e around o ht => exact taken ht

theorem taken_unique (ho : Orderly h) (h₁ : (m, .taken n t e) ∈ h)
    (h₂ : (m', .taken n' t e') ∈ h) : m = m' ∧ n = n' ∧ e = e' := by
  obtain ⟨m₁, he₁⟩ := ho.emitted_of_taken h₁
  obtain ⟨m₂, he₂⟩ := ho.emitted_of_taken h₂
  obtain ⟨-, rfl, rfl⟩ := ho.emitted_unique he₁ he₂
  refine ⟨?_, rfl, rfl⟩
  have twice {m m' : Nat} {past : History σ} (hs : (m, .taken n t e) :: past <:+ h)
      (hp : (m', .taken n t e) ∈ past) : False := by
    have hd := (ho.suffix hs).takenOn_nodup n
    have hm := (mem_takenOn past).2 ⟨m', hp⟩
    simp [Event.taking?, List.nodup_append] at hd
    exact hd.2 t e hm rfl
  rcases eq_or_past h₁ h₂ with heq | ⟨past, hs, hp⟩ | ⟨past, hs, hp⟩
  · simp_all
  · exact (twice hs hp).elim
  · exact (twice hs hp).elim

theorem taken_of_answered {a : Answer} (ho : Orderly h) (ha : h.answer? t i = some a) :
    ∃ m n e, (m, .taken n t e) ∈ h := by
  obtain ⟨m, ha⟩ := mem_of_answer? h ha
  obtain ⟨past, hs⟩ := exists_past ha
  obtain ⟨-, -, m₀, n, e, -, -, -, -, ht, -⟩ := ho.fits hs
  exact ⟨m₀, n, e, hs.subset (List.mem_cons_of_mem _ ht)⟩

end Orderly

end History

end Switchboard
