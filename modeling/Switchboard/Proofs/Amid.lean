import Mathlib.Data.List.Forall2

/-!
# Switchboard.Proofs.Amid

Lists with strangers in them.  The members of one list stand in another one, in
the same order, and whoever stands between them is a stranger.  What is done to
both lists in the same way keeps that: mapping, filtering, appending, and
cutting them where the other one is in order.
-/

namespace Switchboard

variable {α β γ δ : Type} {rel : α → β → Prop} {strange : β → Prop} {as as' : List α}
  {bs bs' : List β}

/-- The members of one list stand in another one, in the same order and with
strangers between them. -/
inductive Amid (rel : α → β → Prop) (strange : β → Prop) : List α → List β → Prop
  | nil : Amid rel strange [] []
  | own {a : α} {b : β} {as : List α} {bs : List β} (hab : rel a b) (h : Amid rel strange as bs) :
      Amid rel strange (a :: as) (b :: bs)
  | strange {b : β} {as : List α} {bs : List β} (hb : strange b) (h : Amid rel strange as bs) :
      Amid rel strange as (b :: bs)

namespace Amid

theorem append (h : Amid rel strange as bs) (h' : Amid rel strange as' bs') :
    Amid rel strange (as ++ as') (bs ++ bs') := by
  induction h with
  | nil => exact h'
  | own hab _ ih => exact .own hab ih
  | strange hb _ ih => exact .strange hb ih

theorem mono {rel' : α → β → Prop} {strange' : β → Prop} (h : Amid rel strange as bs)
    (hrel : ∀ a b, rel a b → rel' a b) (hstrange : ∀ b, strange b → strange' b) :
    Amid rel' strange' as bs := by
  induction h with
  | nil => exact .nil
  | own hab _ ih => exact .own (hrel _ _ hab) ih
  | strange hb _ ih => exact .strange (hstrange _ hb) ih

theorem of_forall₂ (h : List.Forall₂ rel as bs) : Amid rel strange as bs := by
  induction h with
  | nil => exact .nil
  | cons hab _ ih => exact .own hab ih

theorem of_strange (h : ∀ b ∈ bs, strange b) : Amid rel strange [] bs := by
  induction bs with
  | nil => exact .nil
  | cons b bs ih =>
      obtain ⟨hb, h⟩ := List.forall_mem_cons.1 h
      exact .strange hb (ih h)

theorem map {rel' : γ → δ → Prop} {strange' : δ → Prop} {f : α → γ} {g : β → δ}
    (h : Amid rel strange as bs) (hrel : ∀ a b, rel a b → rel' (f a) (g b))
    (hstrange : ∀ b, strange b → strange' (g b)) : Amid rel' strange' (as.map f) (bs.map g) := by
  induction h with
  | nil => exact .nil
  | own hab _ ih => exact .own (hrel _ _ hab) ih
  | strange hb _ ih => exact .strange (hstrange _ hb) ih

theorem filter {p : α → Bool} {q : β → Bool} (h : Amid rel strange as bs)
    (agree : ∀ a b, rel a b → p a = q b) : Amid rel strange (as.filter p) (bs.filter q) := by
  induction h with
  | nil => exact .nil
  | @own a b _ _ hab _ ih =>
      rw [List.filter_cons, List.filter_cons, agree a b hab]
      split
      · exact .own hab ih
      · exact ih
  | strange hb _ ih =>
      rw [List.filter_cons]
      split
      · exact .strange hb ih
      · exact ih

/-- Strangers may leave. -/
theorem filter_strange {q : β → Bool} (h : Amid rel strange as bs)
    (stay : ∀ a b, rel a b → q b = true) : Amid rel strange as (bs.filter q) := by
  have all : as.filter (fun _ => true) = as := List.filter_eq_self.2 fun _ _ => rfl
  exact all ▸ h.filter fun a b hab => (stay a b hab).symm

theorem filterMap {rel' : γ → δ → Prop} {strange' : δ → Prop} {f : α → Option γ}
    {g : β → Option δ} (h : Amid rel strange as bs)
    (hrel : ∀ a b, rel a b → Option.Rel rel' (f a) (g b))
    (hstrange : ∀ b, strange b → ∀ d, g b = some d → strange' d) :
    Amid rel' strange' (as.filterMap f) (bs.filterMap g) := by
  induction h with
  | nil => exact .nil
  | @own a b _ _ hab _ ih =>
      have hfg := hrel a b hab
      cases hf : f a with
      | none =>
          rw [hf] at hfg
          cases hg : g b with
          | none => rwa [List.filterMap_cons_none hf, List.filterMap_cons_none hg]
          | some d => rw [hg] at hfg; cases hfg
      | some c =>
          rw [hf] at hfg
          cases hg : g b with
          | none => rw [hg] at hfg; cases hfg
          | some d =>
              rw [hg] at hfg
              rw [List.filterMap_cons_some hf, List.filterMap_cons_some hg]
              cases hfg with
              | some hcd => exact .own hcd ih
  | @strange b _ _ hb _ ih =>
      cases hg : g b with
      | none => rwa [List.filterMap_cons_none hg]
      | some d => rw [List.filterMap_cons_some hg]; exact .strange (hstrange b hb d hg) ih

theorem any {p : α → Bool} {q : β → Bool} (h : Amid rel strange as bs)
    (agree : ∀ a b, rel a b → p a = q b) (hstrange : ∀ b, strange b → q b = false) :
    as.any p = bs.any q := by
  induction h with
  | nil => rfl
  | own hab _ ih => rw [List.any_cons, List.any_cons, agree _ _ hab, ih]
  | strange hb _ ih => rw [List.any_cons, hstrange _ hb, ih, Bool.false_or]

theorem eq_nil (h : Amid rel strange as []) : as = [] := by
  cases h
  rfl

theorem mem_right {b : β} (h : Amid rel strange as bs) (hb : b ∈ bs) :
    strange b ∨ ∃ a ∈ as, rel a b := by
  induction h with
  | nil => cases hb
  | own hab _ ih =>
      rcases List.mem_cons.1 hb with rfl | hb
      · exact .inr ⟨_, List.mem_cons_self, hab⟩
      · exact (ih hb).imp_right fun ⟨a, ha, hab⟩ => ⟨a, List.mem_cons_of_mem _ ha, hab⟩
  | strange hb' _ ih =>
      rcases List.mem_cons.1 hb with rfl | hb
      · exact .inl hb'
      · exact ih hb

theorem exists_right {a : α} (h : Amid rel strange as bs) (ha : a ∈ as) : ∃ b ∈ bs, rel a b := by
  induction h with
  | nil => cases ha
  | own hab _ ih =>
      rcases List.mem_cons.1 ha with rfl | ha
      · exact ⟨_, List.mem_cons_self, hab⟩
      · obtain ⟨b, hb, hab⟩ := ih ha
        exact ⟨b, List.mem_cons_of_mem _ hb, hab⟩
  | strange _ _ ih =>
      obtain ⟨b, hb, hab⟩ := ih ha
      exact ⟨b, List.mem_cons_of_mem _ hb, hab⟩

/-- Where both lists are cut by the same measure, and the other one is in order,
the parts belong together. -/
theorem cut {p : α → Bool} {q : β → Bool} (h : Amid rel strange as bs)
    (agree : ∀ a b, rel a b → p a = q b)
    (sorted : bs.Pairwise fun b b' => q b' = true → q b = true) :
    Amid rel strange (as.takeWhile p) (bs.takeWhile q) ∧
      Amid rel strange (as.dropWhile p) (bs.dropWhile q) := by
  induction h with
  | nil => exact ⟨.nil, .nil⟩
  | @own a b as bs hab h ih =>
      obtain ⟨-, sorted⟩ := List.pairwise_cons.1 sorted
      rw [List.takeWhile_cons, List.takeWhile_cons, List.dropWhile_cons, List.dropWhile_cons,
        agree a b hab]
      split
      · exact ⟨.own hab (ih sorted).1, (ih sorted).2⟩
      · exact ⟨.nil, .own hab h⟩
  | @strange b as bs hb h ih =>
      obtain ⟨first, sorted⟩ := List.pairwise_cons.1 sorted
      rw [List.takeWhile_cons, List.dropWhile_cons]
      by_cases hq : q b = true
      · rw [if_pos hq, if_pos hq]
        exact ⟨.strange hb (ih sorted).1, (ih sorted).2⟩
      · -- Whatever stands behind is not taken either, so nothing of the first list is.
        have none_taken : ∀ a ∈ as, p a = false := by
          intro a ha
          obtain ⟨b', hb', hab⟩ := h.exists_right ha
          rw [agree a b' hab]
          exact Bool.eq_false_iff.2 (mt (first b' hb') hq)
        have stop : as.takeWhile p = [] ∧ as.dropWhile p = as := by
          cases as with
          | nil => exact ⟨rfl, rfl⟩
          | cons a as =>
              have ha := none_taken a List.mem_cons_self
              exact ⟨List.takeWhile_cons_of_neg (by simp [ha]),
                List.dropWhile_cons_of_neg (by simp [ha])⟩
        rw [if_neg hq, if_neg hq, stop.1, stop.2]
        exact ⟨.nil, .strange hb h⟩

end Amid

theorem rel_mono {α β : Type} {rel rel' : α → β → Prop} {x : Option α} {y : Option β}
    (h : Option.Rel rel x y) (hrel : ∀ a b, rel a b → rel' a b) : Option.Rel rel' x y := by
  cases h with
  | some h => exact .some (hrel _ _ h)
  | none => exact .none

end Switchboard
