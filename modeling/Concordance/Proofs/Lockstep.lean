import Mathlib

/-! # Stateful computations side by side

Two computations are alike if, started in related states, they give the same and leave
related states. What a computation keeps of its state is the case of a computation that
is alike to itself. Where states only grow, what a computation gives can be right from
then on.
-/

namespace Concordance

variable {σ τ α β : Type} {R : σ → τ → Prop} {I : σ → Prop} {s : σ}

/-- From related states, the computations give the same and leave related states. -/
def Alike (R : σ → τ → Prop) (x : StateM σ α) (y : StateM τ α) : Prop :=
  ∀ s t, R s t → (x.run s).1 = (y.run t).1 ∧ R (x.run s).2 (y.run t).2

theorem Alike.pure (a : α) : Alike R (Pure.pure a) (Pure.pure a) := fun _ _ here => ⟨rfl, here⟩

theorem Alike.bind {x : StateM σ α} {y : StateM τ α} {f : α → StateM σ β} {g : α → StateM τ β}
    (first : Alike R x y) (rest : ∀ a, Alike R (f a) (g a)) : Alike R (x >>= f) (y >>= g) := by
  intro s t here
  obtain ⟨same, next⟩ := first s t here
  have after := rest (x.run s).1 _ _ next
  change ((f (x.run s).1).run (x.run s).2).1 = ((g (y.run t).1).run (y.run t).2).1 ∧
    R ((f (x.run s).1).run (x.run s).2).2 ((g (y.run t).1).run (y.run t).2).2
  rwa [← same]

theorem Alike.mapM {f : α → StateM σ β} {g : α → StateM τ β} {l : List α}
    (each : ∀ a ∈ l, Alike R (f a) (g a)) : Alike R (l.mapM f) (l.mapM g) := by
  induction l with
  | nil => exact .pure _
  | cons a l ih =>
      rw [List.mapM_cons, List.mapM_cons]
      refine (each a List.mem_cons_self).bind fun b => ?_
      refine (ih fun c member => each c (List.mem_cons_of_mem _ member)).bind fun bs => ?_
      exact .pure _

/-- The computation keeps a property of the state. -/
def Keeps (I : σ → Prop) (x : StateM σ α) : Prop :=
  ∀ s, I s → I (x.run s).2

theorem keeps_iff_alike {x : StateM σ α} : Keeps I x ↔ Alike (fun s t => s = t ∧ I s) x x := by
  constructor
  · rintro keeps s _ ⟨rfl, here⟩
    exact ⟨rfl, rfl, keeps s here⟩
  · intro alike s here
    exact (alike s s ⟨rfl, here⟩).2.2

theorem Keeps.mapM {f : α → StateM σ β} {l : List α} (each : ∀ a ∈ l, Keeps I (f a)) :
    Keeps I (l.mapM f) :=
  keeps_iff_alike.mpr (.mapM fun a member => keeps_iff_alike.mp (each a member))

theorem Keeps.mapM_eq {f : α → StateM σ β} {g : α → β} {l : List α}
    (each : ∀ a ∈ l, Keeps I (f a)) (gives : ∀ a ∈ l, ∀ s, I s → ((f a).run s).1 = g a)
    (here : I s) : ((l.mapM f).run s).1 = l.map g := by
  induction l generalizing s with
  | nil => rfl
  | cons a l ih =>
      simp only [List.forall_mem_cons] at each gives
      have next := each.1 s here
      have rest := ih each.2 gives.2 next
      rw [List.mapM_cons, List.map_cons, ← gives.1 s here, ← rest]
      rfl

theorem forall₂_mapM {f : α → StateM σ β} {P : α → β → Prop}
    (each : ∀ a s, P a ((f a).run s).1) (l : List α) (s : σ) :
    List.Forall₂ P l ((l.mapM f).run s).1 := by
  induction l generalizing s with
  | nil => exact .nil
  | cons a l ih =>
      rw [List.mapM_cons]
      exact .cons (each a s) (ih _)

/-- If what holds of each result tells what holds of its element, whatever the state, then it holds
of some result exactly if it does of some element. -/
theorem Keeps.mapM_exists {f : α → StateM σ β} {l : List α} {P : β → Prop} {Q : α → Prop}
    (each : ∀ a ∈ l, Keeps I (f a)) (tells : ∀ a ∈ l, ∀ s, I s → (P ((f a).run s).1 ↔ Q a))
    (here : I s) : (∃ b ∈ ((l.mapM f).run s).1, P b) ↔ ∃ a ∈ l, Q a := by
  induction l generalizing s with
  | nil =>
      exact iff_of_false (fun ⟨_, nothing, _⟩ => List.not_mem_nil nothing)
        fun ⟨_, nothing, _⟩ => List.not_mem_nil nothing
  | cons a l ih =>
      simp only [List.forall_mem_cons] at each tells
      rw [List.mapM_cons, List.exists_mem_cons_iff, ← tells.1 s here,
        ← ih each.2 tells.2 (each.1 s here)]
      exact List.exists_mem_cons_iff ..

/-- What holds of each result when it is made, and is kept from then on, holds of all of them in
the end. -/
theorem Keeps.mapM_results {f : α → StateM σ β} {l : List α} {Q : β → σ → Prop}
    (each : ∀ a ∈ l, Keeps I (f a)) (gives : ∀ a ∈ l, ∀ s, I s → Q ((f a).run s).1 ((f a).run s).2)
    (stays : ∀ a ∈ l, ∀ b, Keeps (fun s => I s ∧ Q b s) (f a)) (here : I s) :
    ∀ b ∈ ((l.mapM f).run s).1, Q b ((l.mapM f).run s).2 := by
  induction l generalizing s with
  | nil => exact fun b member => absurd member List.not_mem_nil
  | cons a l ih =>
      simp only [List.forall_mem_cons] at each gives stays
      have next := each.1 s here
      have made := gives.1 s here
      rw [List.mapM_cons]
      rintro b (_ | ⟨_, later⟩)
      · exact (Keeps.mapM (fun a member => stays.2 a member _) _ ⟨next, made⟩).2
      · exact ih each.2 gives.2 stays.2 next b later

section Growing

variable [Preorder σ] {Q : α → σ → Prop}

/-- From a state with a property, the computation leaves such a state, to which the first has grown,
and what it gives is right there and in all states that grow from there. -/
def Yields (I : σ → Prop) (Q : α → σ → Prop) (x : StateM σ α) : Prop :=
  ∀ s, I s → I (x.run s).2 ∧ s ≤ (x.run s).2 ∧ ∀ t, (x.run s).2 ≤ t → Q (x.run s).1 t

namespace Yields

theorem pure {a : α} (right : ∀ s, Q a s) : Yields I Q (Pure.pure a) :=
  fun s here => ⟨here, le_refl s, fun t _ => right t⟩

theorem bind {x : StateM σ α} {f : α → StateM σ β} {P : β → σ → Prop} (first : Yields I Q x)
    (rest : ∀ a, Yields I (fun b t => Q a t → P b t) (f a)) : Yields I P (x >>= f) := by
  intro s here
  obtain ⟨next, grown, made⟩ := first s here
  obtain ⟨after, grown', made'⟩ := rest (x.run s).1 _ next
  exact ⟨after, grown.trans grown', fun t later => made' t later (made t (grown'.trans later))⟩

theorem mono {x : StateM σ α} {P : α → σ → Prop} (yields : Yields I Q x)
    (weaker : ∀ a t, Q a t → P a t) : Yields I P x := by
  intro s here
  obtain ⟨next, grown, made⟩ := yields s here
  exact ⟨next, grown, fun t later => weaker _ t (made t later)⟩

/-- Each result is right for one of the elements, and each element has a result that is right
for it. -/
theorem mapM {f : α → StateM σ β} {l : List α} {P : α → β → σ → Prop}
    (each : ∀ a ∈ l, Yields I (P a) (f a)) :
    Yields I (fun bs t => (∀ b ∈ bs, ∃ a ∈ l, P a b t) ∧ ∀ a ∈ l, ∃ b ∈ bs, P a b t)
      (l.mapM f) := by
  induction l with
  | nil => exact pure fun s => by simp
  | cons a l ih =>
      rw [List.mapM_cons]
      simp only [List.forall_mem_cons] at each
      refine each.1.bind fun b => (ih each.2).bind fun bs => .pure fun t ⟨made, all⟩ first => ?_
      simp only [List.forall_mem_cons, List.exists_mem_cons_iff]
      exact ⟨⟨.inl first, fun b member => .inr (made b member)⟩, .inl first,
        fun a member => .inr (all a member)⟩

end Yields

end Growing

end Concordance
