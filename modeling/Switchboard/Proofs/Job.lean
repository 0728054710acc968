import Switchboard.Scheduler.Interpreter

/-!
# Switchboard.Proofs.Job

What a job comes to, and when.  Only sleeping takes time, so the time that a
job needs is the sum of its sleeps; what it sees may lead it to one answer or
another.

* `Job.After` — what may be left of a job once it has slept for some time;
* `Job.Answers` — the answers that a job may give, each with its time;
* `stops_burst` — a job that is run until it stops has not lost any time.
-/

namespace Switchboard.Job

variable {σ α : Type}

/-- What may be left of a job when it has slept for a time in all, whatever it
has seen in between. -/
inductive After : Job σ α → Nat → Job σ α → Prop where
  | refl (j : Job σ α) : After j 0 j
  | look {next : Nat → World σ → Job σ α} {d : Nat} {j : Job σ α} (now : Nat) (w : World σ)
      (h : After (next now w) d j) : After (.look next) d j
  | write {change : World σ → World σ} {next : Job σ α} {d : Nat} {j : Job σ α}
      (h : After next d j) : After (.write change next) d j
  | sleep {ms : Nat} {next : Job σ α} {d : Nat} {j : Job σ α}
      (h : After next d j) : After (.sleep ms next) (ms + d) j

theorem After.trans {i j k : Job σ α} {d e : Nat} (h : After i d j) (h' : After j e k) :
    After i (d + e) k := by
  induction h with
  | refl => simpa using h'
  | look now w _ ih => exact .look now w (ih h')
  | write _ ih => exact .write (ih h')
  | sleep _ ih => rw [Nat.add_assoc]; exact .sleep (ih h')

/-- The answers that a member's job may give, with the time that it sleeps
before.  A job that crashes answers with a failure of its own. -/
def Answers (j : Job σ Answer) (d : Nat) (a : Answer) : Prop :=
  j.After d (.done a) ∨ j.After d .crash ∧ a = .error .crashedMember

theorem After.answers {i j : Job σ Answer} {d e : Nat} {a : Answer} (h : After i d j)
    (h' : j.Answers e a) : i.Answers (d + e) a := by
  rcases h' with hd | ⟨hc, ha⟩
  · exact .inl (h.trans hd)
  · exact .inr ⟨h.trans hc, ha⟩

/-- Where a job may stop that is run at a moment. -/
def Stops (now : Nat) (j : Job σ α) : Pause σ α → Prop
  | .done a => j.After 0 (.done a)
  | .crashed => j.After 0 .crash
  | .asleep due next => ∃ ms, 0 < ms ∧ due = now + ms ∧ j.After ms next

theorem Stops.look {now : Nat} {next : Nat → World σ → Job σ α} {w : World σ} {p : Pause σ α}
    (h : Stops now (next now w) p) : Stops now (.look next) p := by
  cases p with
  | done a => exact After.look now w h
  | crashed => exact After.look now w h
  | asleep due rest =>
      obtain ⟨ms, hms, hdue, hrest⟩ := h
      exact ⟨ms, hms, hdue, After.look now w hrest⟩

theorem Stops.write {now : Nat} {change : World σ → World σ} {next : Job σ α} {p : Pause σ α}
    (h : Stops now next p) : Stops now (.write change next) p := by
  cases p with
  | done a => exact After.write h
  | crashed => exact After.write h
  | asleep due rest =>
      obtain ⟨ms, hms, hdue, hrest⟩ := h
      exact ⟨ms, hms, hdue, .write hrest⟩

theorem Stops.sleep_zero {now : Nat} {next : Job σ α} {p : Pause σ α}
    (h : Stops now next p) : Stops now (.sleep 0 next) p := by
  cases p with
  | done a => exact (After.sleep h : After (.sleep 0 next) (0 + 0) _)
  | crashed => exact (After.sleep h : After (.sleep 0 next) (0 + 0) _)
  | asleep due rest =>
      obtain ⟨ms, hms, hdue, hrest⟩ := h
      have hsleep : After (.sleep 0 next) (0 + ms) rest := .sleep hrest
      exact ⟨ms, hms, hdue, by simpa using hsleep⟩

/-- A job that is run until it stops is somewhere on its way, and all the time
it takes is still to come. -/
theorem stops_burst (now : Nat) (j : Job σ α) (w : World σ) :
    Stops now j (j.burst now w).1 := by
  induction j generalizing w with
  | done a => exact After.refl _
  | crash => exact After.refl _
  | look next ih => exact (ih now w w).look
  | write change next ih => exact (ih (change w)).write
  | sleep ms next ih =>
      unfold burst
      split
      · next h => subst h; exact (ih w).sleep_zero
      · next h => exact ⟨ms, Nat.pos_of_ne_zero h, rfl, by simpa using After.sleep (.refl next)⟩

end Switchboard.Job
