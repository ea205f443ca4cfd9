import Mathlib.Logic.Basic

/-!
# Computations that may raise and keep their effects

`Exn ε σ α` is a computation over a state `σ` that returns an `α` or raises an
`ε`.  Unlike `StateT σ (Except ε)`, raising does not undo what was done to the
state, which is how exceptions behave in a language with mutable objects.

The module gives the small API of such computations: one equation for each way
a step can end, a zoom into a part of the state, and two judgments with a rule for each
way of composing computations: `Exn.Keeps`, an invariant preserved whether the
computation returns or raises, and `Exn.Sim`, which relates two computations
over different states that return or raise together.
-/

/-- A computation over `σ` that returns an `α` or raises an `ε`; the state
reached is kept in both cases. -/
def Exn (ε σ α : Type) : Type := σ → Except ε α × σ

namespace Exn

variable {ε σ τ α β : Type}

instance : Monad (Exn ε σ) where
  pure a := fun s => (.ok a, s)
  bind x f := fun s =>
    match x s with
    | (.ok a, s') => f a s'
    | (.error e, s') => (.error e, s')

/-- Raise `e` without touching the state. -/
def raise (e : ε) : Exn ε σ α := fun s => (.error e, s)

/-- The whole current state. -/
def get : Exn ε σ σ := fun s => (.ok s, s)

/-- Replace the state by its image under `f`. -/
def modify (f : σ → σ) : Exn ε σ Unit := fun s => (.ok (), f s)

/-- An outcome that does not depend on the state. -/
def lift (r : Except ε α) : Exn ε σ α := fun s => (r, s)

/-- `try x except e: h e`: the handler starts in the state the body left. -/
def handle (x : Exn ε σ α) (h : ε → Exn ε σ α) : Exn ε σ α := fun s =>
  match x s with
  | (.ok a, s') => (.ok a, s')
  | (.error e, s') => h e s'

/-- `try x finally f`: `f` runs in the state `x` left; if it raises, that is what is raised. -/
def ensuring (x : Exn ε σ α) (f : Exn ε σ Unit) : Exn ε σ α := fun s =>
  match f (x s).2 with
  | (.ok (), s') => ((x s).1, s')
  | (.error e, s') => (.error e, s')

/-- Run a computation on the part of the state that `get` and `put` single out. -/
def zoom (get : τ → σ) (put : τ → σ → τ) (x : Exn ε σ α) : Exn ε τ α := fun t =>
  ((x (get t)).1, put t (x (get t)).2)

/-! ## Equations -/

@[simp] theorem pure_apply (a : α) (s : σ) : (pure a : Exn ε σ α) s = (.ok a, s) := rfl

@[simp] theorem raise_apply (e : ε) (s : σ) : (raise e : Exn ε σ α) s = (.error e, s) := rfl

@[simp] theorem get_apply (s : σ) : (get : Exn ε σ σ) s = (.ok s, s) := rfl

@[simp] theorem modify_apply (f : σ → σ) (s : σ) :
    (modify f : Exn ε σ Unit) s = (.ok (), f s) := rfl

@[simp] theorem lift_apply (r : Except ε α) (s : σ) : (lift r : Exn ε σ α) s = (r, s) := rfl

@[simp] theorem zoom_apply (get : τ → σ) (put : τ → σ → τ) (x : Exn ε σ α) (t : τ) :
    zoom get put x t = ((x (get t)).1, put t (x (get t)).2) := rfl

theorem bind_apply (x : Exn ε σ α) (f : α → Exn ε σ β) (s : σ) :
    (x >>= f) s = match x s with
      | (.ok a, s') => f a s'
      | (.error e, s') => (.error e, s') := rfl

theorem bind_of_ok {x : Exn ε σ α} {s s' : σ} {a : α} (h : x s = (.ok a, s'))
    (f : α → Exn ε σ β) : (x >>= f) s = f a s' := by
  rw [bind_apply, h]

theorem bind_of_error {x : Exn ε σ α} {s s' : σ} {e : ε} (h : x s = (.error e, s'))
    (f : α → Exn ε σ β) : (x >>= f) s = (.error e, s') := by
  rw [bind_apply, h]

theorem bind_assoc {γ : Type} (x : Exn ε σ α) (f : α → Exn ε σ β) (g : β → Exn ε σ γ) :
    (x >>= f) >>= g = x >>= fun a => f a >>= g := by
  funext s
  rw [bind_apply, bind_apply, bind_apply]
  rcases x s with ⟨_ | _, _⟩ <;> rfl

/-- Packing the result leaves the state alone. -/
theorem bind_pure_snd (x : Exn ε σ α) (f : α → β) (s : σ) :
    ((x >>= fun a => (pure (f a) : Exn ε σ β)) s).2 = (x s).2 := by
  rcases run : x s with ⟨e | a, t⟩
  · rw [bind_of_error run]
  · rw [bind_of_ok run]
    rfl

theorem bind_pure_apply (x : Exn ε σ α) (f : α → β) (s : σ) :
    (x >>= fun a => (pure (f a) : Exn ε σ β)) s = ((x s).1.map f, (x s).2) := by
  rw [bind_apply]
  rcases x s with ⟨_ | _, _⟩ <;> rfl

@[simp] theorem pure_bind_apply (a : α) (f : α → Exn ε σ β) (s : σ) :
    (pure a >>= f) s = f a s := rfl

@[simp] theorem get_bind_apply (f : σ → Exn ε σ β) (s : σ) : (get >>= f) s = f s s := rfl

@[simp] theorem modify_bind_apply (g : σ → σ) (f : Unit → Exn ε σ β) (s : σ) :
    (modify g >>= f) s = f () (g s) := rfl

@[simp] theorem raise_bind_apply (e : ε) (f : α → Exn ε σ β) (s : σ) :
    (raise e >>= f) s = (.error e, s) := rfl

@[simp] theorem lift_ok_bind_apply (a : α) (f : α → Exn ε σ β) (s : σ) :
    (lift (.ok a) >>= f) s = f a s := rfl

@[simp] theorem lift_error_bind_apply (e : ε) (f : α → Exn ε σ β) (s : σ) :
    (lift (.error e) >>= f) s = (.error e, s) := rfl

theorem lift_map_apply (r : Except ε α) (f : α → β) (s : σ) :
    (lift r >>= fun a => (pure (f a) : Exn ε σ β)) s = (r.map f, s) := by
  cases r <;> rfl

theorem handle_of_ok {x : Exn ε σ α} {s s' : σ} {a : α} (h : x s = (.ok a, s'))
    (f : ε → Exn ε σ α) : handle x f s = (.ok a, s') := by
  rw [handle, h]

theorem handle_of_error {x : Exn ε σ α} {s s' : σ} {e : ε} (h : x s = (.error e, s'))
    (f : ε → Exn ε σ α) : handle x f s = f e s' := by
  rw [handle, h]

/-- Whatever is raised, the state is what `f` leaves. -/
theorem ensuring_snd (x : Exn ε σ α) (f : Exn ε σ Unit) (s : σ) :
    (ensuring x f s).2 = (f (x s).2).2 := by
  unfold ensuring
  rcases f (x s).2 with ⟨_ | _, _⟩ <;> rfl

/-! ## Invariants -/

/-- `x` preserves `I`, whether it returns or raises. -/
def Keeps (I : σ → Prop) (x : Exn ε σ α) : Prop := ∀ s, I s → I (x s).2

variable {I : σ → Prop}

theorem Keeps.pure (a : α) : Keeps I (pure a : Exn ε σ α) := fun _ hs => hs

theorem Keeps.raise (e : ε) : Keeps I (raise e : Exn ε σ α) := fun _ hs => hs

theorem Keeps.lift (r : Except ε α) : Keeps I (lift r : Exn ε σ α) := fun _ hs => hs

theorem Keeps.get : Keeps I (get : Exn ε σ σ) := fun _ hs => hs

theorem Keeps.modify {f : σ → σ} (h : ∀ s, I s → I (f s)) :
    Keeps I (modify f : Exn ε σ Unit) := h

theorem Keeps.bind {x : Exn ε σ α} {f : α → Exn ε σ β} (hx : Keeps I x)
    (hf : ∀ a, Keeps I (f a)) : Keeps I (x >>= f) := by
  intro s hs
  have first := hx s hs
  rw [bind_apply]
  rcases run : x s with ⟨⟨⟩ | ⟨⟩, s'⟩
  · rwa [run] at first
  · rw [run] at first
    exact hf _ s' first

theorem Keeps.handle {x : Exn ε σ α} {h : ε → Exn ε σ α} (hx : Keeps I x)
    (hh : ∀ e, Keeps I (h e)) : Keeps I (handle x h) := by
  intro s hs
  have first := hx s hs
  unfold Exn.handle
  rcases run : x s with ⟨⟨⟩ | ⟨⟩, s'⟩
  · rw [run] at first
    exact hh _ s' first
  · rwa [run] at first

/-! ## At one state -/

/-- From `s` the two computations come to the same, and leave `s` as it is. -/
def Still (s : σ) (x y : Exn ε σ α) : Prop := x s = y s ∧ (x s).2 = s

variable {s : σ}

theorem Still.pure (a : α) : Still s (pure a : Exn ε σ α) (pure a) := ⟨rfl, rfl⟩

theorem Still.raise (e : ε) : Still s (raise e : Exn ε σ α) (raise e) := ⟨rfl, rfl⟩

theorem Still.lift (r : Except ε α) : Still s (lift r : Exn ε σ α) (lift r) := ⟨rfl, rfl⟩

theorem Still.get : Still s (get : Exn ε σ σ) get := ⟨rfl, rfl⟩

theorem Still.bind {x y : Exn ε σ α} {f g : α → Exn ε σ β} (hx : Still s x y)
    (hf : ∀ a, Still s (f a) (g a)) : Still s (x >>= f) (y >>= g) := by
  obtain ⟨same, still⟩ := hx
  rcases run : x s with ⟨e | a, t⟩
  · rw [run] at same still
    subst still
    exact ⟨(bind_of_error run f).trans (bind_of_error same.symm g).symm,
      congrArg Prod.snd (bind_of_error run f)⟩
  · rw [run] at same still
    subst still
    refine ⟨?_, ?_⟩
    · rw [bind_of_ok run, bind_of_ok same.symm]
      exact (hf a).1
    · rw [bind_of_ok run]
      exact (hf a).2

theorem Still.handle {x y : Exn ε σ α} {f g : ε → Exn ε σ α} (hx : Still s x y)
    (hf : ∀ e, Still s (f e) (g e)) : Still s (handle x f) (handle y g) := by
  obtain ⟨same, still⟩ := hx
  rcases run : x s with ⟨e | a, t⟩
  · rw [run] at same still
    subst still
    refine ⟨?_, ?_⟩
    · rw [handle_of_error run, handle_of_error same.symm]
      exact (hf e).1
    · rw [handle_of_error run]
      exact (hf e).2
  · rw [run] at same still
    subst still
    exact ⟨(handle_of_ok run f).trans (handle_of_ok same.symm g).symm,
      congrArg Prod.snd (handle_of_ok run f)⟩

/-! ## Exceptions -/

/-- Every exception `x` raises satisfies `P`. -/
def Raises (P : ε → Prop) (x : Exn ε σ α) : Prop := ∀ s e, (x s).1 = .error e → P e

variable {P P' : ε → Prop}

theorem Raises.pure (a : α) : Raises P (pure a : Exn ε σ α) := fun _ _ raised => by cases raised

theorem Raises.raise {e : ε} (h : P e) : Raises P (raise e : Exn ε σ α) := by
  intro s e' raised
  cases raised
  exact h

theorem Raises.lift {r : Except ε α} (h : ∀ e, r = .error e → P e) :
    Raises P (lift r : Exn ε σ α) := fun _ e raised => h e raised

theorem Raises.get : Raises P (get : Exn ε σ σ) := fun _ _ raised => by cases raised

theorem Raises.modify (f : σ → σ) : Raises P (modify f : Exn ε σ Unit) :=
  fun _ _ raised => by cases raised

theorem Raises.bind {x : Exn ε σ α} {f : α → Exn ε σ β} (hx : Raises P x)
    (hf : ∀ a, Raises P (f a)) : Raises P (x >>= f) := by
  intro s e raised
  rcases run : x s with ⟨e' | a, s'⟩
  · rw [bind_of_error run] at raised
    cases raised
    exact hx s e (by rw [run])
  · rw [bind_of_ok run] at raised
    exact hf a s' e raised

theorem Raises.handle {x : Exn ε σ α} {h : ε → Exn ε σ α} (hx : Raises P' x)
    (hh : ∀ e, P' e → Raises P (h e)) : Raises P (handle x h) := by
  intro s e raised
  rcases run : x s with ⟨e' | a, s'⟩
  · rw [handle_of_error run] at raised
    exact hh e' (hx s e' (by rw [run])) s' e raised
  · rw [handle_of_ok run] at raised
    cases raised

/-! ## Simulation -/

/-- From states related by `R`, `x` and `y` return values and states related by
`Q`, or raise the same exception in states related by `E`. -/
def Sim (R : σ → τ → Prop) (x : Exn ε σ α) (y : Exn ε τ β) (Q : α → β → σ → τ → Prop)
    (E : σ → τ → Prop) : Prop :=
  ∀ s t, R s t →
    match x s, y t with
    | (.ok a, s'), (.ok b, t') => Q a b s' t'
    | (.error e, s'), (.error e', t') => e = e' ∧ E s' t'
    | _, _ => False

variable {γ δ : Type} {x : Exn ε σ α} {y : Exn ε τ β} {R R₁ : σ → τ → Prop}
  {Q Q₁ : α → β → σ → τ → Prop} {S : γ → δ → σ → τ → Prop} {E F : σ → τ → Prop}

/-- The two ways a pair of related runs can end. -/
theorem Sim.cases (h : Sim R x y Q E) {s : σ} {t : τ} (start : R s t) :
    (∃ a b s' t', x s = (.ok a, s') ∧ y t = (.ok b, t') ∧ Q a b s' t') ∨
      (∃ e s' t', x s = (.error e, s') ∧ y t = (.error e, t') ∧ E s' t') := by
  have both := h s t start
  rcases left : x s with ⟨e | a, s'⟩ <;> rcases right : y t with ⟨e' | b, t'⟩ <;>
    rw [left, right] at both
  · obtain ⟨rfl, ended⟩ := both
    exact Or.inr ⟨e, s', t', rfl, rfl, ended⟩
  · exact both.elim
  · exact both.elim
  · exact Or.inl ⟨a, b, s', t', rfl, rfl, both⟩

/-- Related runs whose results agree have the same result. -/
theorem Sim.result {z : Exn ε τ α} {S : σ → τ → Prop}
    (h : Sim R x z (fun a b s t => a = b ∧ S s t) E) {s : σ} {t : τ} (start : R s t) :
    (x s).1 = (z t).1 := by
  rcases h.cases start with ⟨a, _, s', t', left, right, rfl, -⟩ | ⟨e, s', t', left, right, -⟩
  · rw [left, right]
  · rw [left, right]

/-- When the results agree and both ends keep the same relation, so do the runs. -/
theorem Sim.same {z : Exn ε τ α} (h : Sim R x z (fun a b s t => a = b ∧ E s t) E) {s : σ} {t : τ}
    (start : R s t) : (x s).1 = (z t).1 ∧ E (x s).2 (z t).2 := by
  refine ⟨h.result start, ?_⟩
  rcases h.cases start with ⟨a, _, s', t', left, right, rfl, ended⟩ |
    ⟨e, s', t', left, right, ended⟩
  · rw [left, right]
    exact ended
  · rw [left, right]
    exact ended

theorem Sim.pure {a : α} {b : β} (h : ∀ s t, R s t → Q a b s t) :
    Sim R (pure a : Exn ε σ α) (pure b : Exn ε τ β) Q E :=
  fun s t start => h s t start

theorem Sim.raise {e : ε} (h : ∀ s t, R s t → E s t) :
    Sim R (raise e : Exn ε σ α) (raise e : Exn ε τ β) Q E :=
  fun s t start => ⟨rfl, h s t start⟩

theorem Sim.lift {r : Except ε α} {Q : α → α → σ → τ → Prop}
    (ok : ∀ a s t, r = .ok a → R s t → Q a a s t) (error : ∀ s t, R s t → E s t) :
    Sim R (lift r : Exn ε σ α) (lift r : Exn ε τ α) Q E := by
  intro s t start
  cases r with
  | error e => exact ⟨rfl, error s t start⟩
  | ok a => exact ok a s t rfl start

theorem Sim.bind {f : α → Exn ε σ γ} {g : β → Exn ε τ δ} (first : Sim R x y Q E)
    (rest : ∀ a b, Sim (Q a b) (f a) (g b) S E) : Sim R (x >>= f) (y >>= g) S E := by
  intro s t start
  rcases first.cases start with ⟨a, b, s', t', left, right, post⟩ | ⟨e, s', t', left, right, post⟩
  · rw [bind_of_ok left, bind_of_ok right]
    exact rest a b s' t' post
  · rw [bind_of_error left, bind_of_error right]
    exact ⟨rfl, post⟩

theorem Sim.handle {h : ε → Exn ε σ α} {k : ε → Exn ε τ β} (body : Sim R x y Q F)
    (handler : ∀ e, Sim F (h e) (k e) Q E) :
    Sim R (Exn.handle x h) (Exn.handle y k) Q E := by
  intro s t start
  rcases body.cases start with ⟨a, b, s', t', left, right, post⟩ | ⟨e, s', t', left, right, post⟩
  · rw [handle_of_ok left, handle_of_ok right]
    exact post
  · rw [handle_of_error left, handle_of_error right]
    exact handler e s' t' post

/-- The left computation may look at its state. -/
theorem Sim.get_left {f : σ → Exn ε σ α} (h : ∀ s₀, Sim (fun s t => R s t ∧ s = s₀) (f s₀) y Q E) :
    Sim R (Exn.get >>= f) y Q E :=
  fun s t start => h s s t ⟨start, rfl⟩

/-- A simulation of a part of the state. -/
theorem Sim.zoom {υ : Type} {get : υ → σ} {put : υ → σ → υ} {R : υ → τ → Prop}
    {Q : α → β → υ → τ → Prop} {E : υ → τ → Prop}
    (h : ∀ u t, R u t → Sim (fun s t' => s = get u ∧ t' = t) x y
      (fun a b s t => Q a b (put u s) t) (fun s t => E (put u s) t)) :
    Sim R (Exn.zoom get put x) y Q E := by
  intro u t start
  rcases (h u t start).cases ⟨rfl, rfl⟩ with
    ⟨a, b, s', t', left, right, ended⟩ | ⟨e, s', t', left, right, ended⟩
  · rw [zoom_apply, left, right]
    exact ended
  · rw [zoom_apply, left, right]
    exact ⟨rfl, ended⟩

/-- The right computation may repackage what it returns. -/
theorem Sim.pure_right {g : β → δ} {S : α → δ → σ → τ → Prop} (h : Sim R x y Q E)
    (post : ∀ a b s t, Q a b s t → S a (g b) s t) :
    Sim R x (y >>= fun b => (Pure.pure (g b) : Exn ε τ δ)) S E := by
  intro s t start
  rcases h.cases start with ⟨a, b, s', t', left, right, ended⟩ | ⟨e, s', t', left, right, ended⟩
  · rw [left, bind_of_ok right]
    exact post a b s' t' ended
  · rw [left, bind_of_error right]
    exact ⟨rfl, ended⟩

theorem Sim.conseq (h : Sim R x y Q E) (pre : ∀ s t, R₁ s t → R s t)
    (post : ∀ a b s t, Q a b s t → Q₁ a b s t) (error : ∀ s t, E s t → F s t) :
    Sim R₁ x y Q₁ F := by
  intro s t start
  rcases h.cases (pre s t start) with
    ⟨a, b, s', t', left, right, ended⟩ | ⟨e, s', t', left, right, ended⟩
  · rw [left, right]
    exact post a b s' t' ended
  · rw [left, right]
    exact ⟨rfl, error s' t' ended⟩

/-! ## Computations that respect a relation -/

/-- From states related by `R`, `x` returns the same value or raises the same exception,
and leaves states related by `R`. -/
abbrev Respects (R : σ → σ → Prop) (x : Exn ε σ α) : Prop :=
  Sim R x x (fun a b s t => a = b ∧ R s t) R

variable {P : σ → σ → Prop}

theorem Respects.pure (a : α) : Respects P (pure a : Exn ε σ α) :=
  Sim.pure fun _ _ related => ⟨rfl, related⟩

theorem Respects.raise (e : ε) : Respects P (raise e : Exn ε σ α) :=
  Sim.raise fun _ _ related => related

theorem Respects.lift (r : Except ε α) : Respects P (lift r : Exn ε σ α) :=
  Sim.lift (fun _ _ _ _ related => ⟨rfl, related⟩) fun _ _ related => related

theorem Respects.bind {f : α → Exn ε σ β} (hx : Respects P x) (hf : ∀ a, Respects P (f a)) :
    Respects P (x >>= f) := by
  refine Sim.bind hx ?_
  intro a _ s t post
  obtain ⟨rfl, related⟩ := post
  exact hf a s t related

theorem Respects.handle {h : ε → Exn ε σ α} (hx : Respects P x) (hh : ∀ e, Respects P (h e)) :
    Respects P (Exn.handle x h) :=
  Sim.handle hx hh

/-- What preserves an invariant does the same from equal states that satisfy it. -/
theorem Keeps.respects {I : σ → Prop} (hx : Keeps I x) :
    Respects (fun s t => s = t ∧ I s) x := by
  rintro s _ ⟨rfl, holds⟩
  have kept := hx s holds
  rcases run : x s with ⟨e | a, t⟩ <;> rw [run] at kept
  · exact ⟨rfl, rfl, kept⟩
  · exact ⟨rfl, rfl, kept⟩

end Exn
