import Mathlib.Data.List.Forall2

/-!
# Runs of transition systems and of input/output machines

`Lts σ α` is a labelled transition system.  A run is the list of labels taken
together with the states they lead to, so that statements about every step and
about every state of one run are plain recursions over that list.  A condition
on steps restricts the system; its runs are the runs all of whose steps meet
the condition.

`Machine σ ι ω` is the deterministic case with an output at each input.  Two
machines whose states stay related and whose outputs stay related give related
outputs on every input list.
-/

/-- A labelled transition system. -/
structure Lts (σ α : Type) where
  init : σ → Prop
  step : σ → α → σ → Prop

namespace Lts

variable {σ α : Type}

/-- `run` lists the labels taken from `s`, each with the state it leads to. -/
def IsRun (A : Lts σ α) : σ → List (α × σ) → Prop
  | _, [] => True
  | s, (a, t) :: run => A.step s a t ∧ A.IsRun t run

/-- The state a run ends in. -/
def last : σ → List (α × σ) → σ
  | s, [] => s
  | _, (_, t) :: run => last t run

/-- Every step of the run meets `C`, a condition on the state it leaves and its label. -/
def AllSteps (C : σ → α → Prop) : σ → List (α × σ) → Prop
  | _, [] => True
  | s, (a, t) :: run => C s a ∧ AllSteps C t run

instance AllSteps.decidable {C : σ → α → Prop} [∀ s a, Decidable (C s a)] :
    (s : σ) → (run : List (α × σ)) → Decidable (AllSteps C s run)
  | _, [] => inferInstanceAs (Decidable True)
  | s, (a, t) :: run =>
      have := AllSteps.decidable (C := C) t run
      inferInstanceAs (Decidable (C s a ∧ AllSteps C t run))

/-- Every state of the run, the first included, satisfies `P`. -/
def AllStates (P : σ → Prop) : σ → List (α × σ) → Prop
  | s, [] => P s
  | s, (_, t) :: run => P s ∧ AllStates P t run

/-- `s` ends some run that starts in an initial state. -/
def Reachable (A : Lts σ α) (s : σ) : Prop :=
  ∃ s₀ run, A.init s₀ ∧ A.IsRun s₀ run ∧ last s₀ run = s

/-- The run that takes the labels one after the other, as far as `next` allows. -/
def follow (next : σ → α → Option σ) : σ → List α → List (α × σ)
  | _, [] => []
  | s, a :: labels => match next s a with
    | some t => (a, t) :: follow next t labels
    | none => []

variable {A : Lts σ α} {C : σ → α → Prop} {P I : σ → Prop}

theorem follow_isRun {next : σ → α → Option σ} (steps : ∀ s a t, next s a = some t → A.step s a t)
    (s : σ) (labels : List α) : A.IsRun s (follow next s labels) := by
  induction labels generalizing s with
  | nil => exact True.intro
  | cons a labels ih =>
      unfold follow
      rcases step : next s a with _ | t
      · exact True.intro
      · exact ⟨steps s a t step, ih t⟩

theorem AllStates.head {s : σ} {run : List (α × σ)} (h : AllStates P s run) : P s := by
  cases run with
  | nil => exact h
  | cons edge run => exact h.1

theorem AllStates.last {s : σ} {run : List (α × σ)} (h : AllStates P s run) :
    P (last s run) := by
  induction run generalizing s with
  | nil => exact h
  | cons edge run ih => exact ih h.2

theorem AllStates.mono {Q : σ → Prop} (hPQ : ∀ s, P s → Q s) {s : σ} {run : List (α × σ)}
    (h : AllStates P s run) : AllStates Q s run := by
  induction run generalizing s with
  | nil => exact hPQ s h
  | cons edge run ih => exact ⟨hPQ s h.1, ih h.2⟩

/-- Run lemma: a predicate that every step taken under `C` preserves holds in
every state of a run whose steps all meet `C`. -/
theorem IsRun.invariant {s : σ} {run : List (α × σ)} (h : A.IsRun s run)
    (met : AllSteps C s run) (start : I s)
    (preserved : ∀ s a t, I s → C s a → A.step s a t → I t) : AllStates I s run := by
  induction run generalizing s with
  | nil => exact start
  | cons edge run ih =>
      obtain ⟨a, t⟩ := edge
      exact ⟨start, ih h.2 met.2 (preserved s a t start met.1 h.1)⟩

theorem AllSteps.trivial {s : σ} (run : List (α × σ)) : AllSteps (fun _ _ => True) s run := by
  induction run generalizing s with
  | nil => exact True.intro
  | cons edge run ih => exact ⟨True.intro, ih⟩

theorem AllStates.and {Q : σ → Prop} {s : σ} {run : List (α × σ)} (h : AllStates P s run)
    (h' : AllStates Q s run) : AllStates (fun s => P s ∧ Q s) s run := by
  induction run generalizing s with
  | nil => exact ⟨h, h'⟩
  | cons edge run ih => exact ⟨⟨h.1, h'.1⟩, ih h.2 h'.2⟩

/-- What the states at the two ends of a step force on it holds along a run. -/
theorem AllStates.allSteps {s : σ} {run : List (α × σ)} (kept : AllStates P s run)
    (h : A.IsRun s run) (meets : ∀ s a t, P s → P t → A.step s a t → C s a) :
    AllSteps C s run := by
  induction run generalizing s with
  | nil => exact True.intro
  | cons edge run ih =>
      obtain ⟨a, t⟩ := edge
      exact ⟨meets s a t kept.1 kept.2.head h.1, ih kept.2 h.2⟩

/-- What an inductive invariant forces on every step holds along a run. -/
theorem IsRun.allSteps {s : σ} {run : List (α × σ)} (h : A.IsRun s run) (start : I s)
    (preserved : ∀ s a t, I s → A.step s a t → I t) (meets : ∀ s a t, I s → A.step s a t → C s a) :
    AllSteps C s run := by
  have kept : AllStates I s run :=
    h.invariant (AllSteps.trivial run) start fun s a t inv _ => preserved s a t inv
  exact kept.allSteps h fun s a t inv _ => meets s a t inv

/-- Run lemma: a state that is spoilt for good, and by exactly the steps that miss the
condition, is what a run ends in exactly when a step of it misses the condition. -/
theorem IsRun.spoilt_iff {D : σ → Prop} {s : σ} {run : List (α × σ)} (h : A.IsRun s run)
    (start : I s)
    (step : ∀ s a t, I s → A.step s a t → I t ∧ (D t ↔ D s ∨ ¬C s a)) :
    D (last s run) ↔ D s ∨ ¬AllSteps C s run := by
  induction run generalizing s with
  | nil => exact (or_iff_left (not_not_intro True.intro)).symm
  | cons edge run ih =>
      obtain ⟨a, t⟩ := edge
      obtain ⟨next, spoils⟩ := step s a t start h.1
      have rest : D (last t run) ↔ D t ∨ ¬AllSteps C t run := ih h.2 next
      change D (last t run) ↔ D s ∨ ¬(C s a ∧ AllSteps C t run)
      rw [rest, spoils, or_assoc, not_and_or]

/-- Run lemma: a predicate that a step keeps exactly when it meets the condition holds in
every state of a run exactly when every step of the run meets the condition. -/
theorem IsRun.allStates_iff {s : σ} {run : List (α × σ)} (h : A.IsRun s run) (start : I s)
    (first : P s) (step : ∀ s a t, I s → P s → A.step s a t → I t ∧ (P t ↔ C s a)) :
    AllStates P s run ↔ AllSteps C s run := by
  induction run generalizing s with
  | nil => exact iff_of_true first True.intro
  | cons edge run ih =>
      obtain ⟨a, t⟩ := edge
      obtain ⟨next, keeps⟩ := step s a t start first h.1
      constructor
      · intro all
        exact ⟨keeps.mp all.2.head, (ih h.2 next all.2.head).mp all.2⟩
      · intro met
        have kept : P t := keeps.mpr met.1
        exact ⟨first, (ih h.2 next kept).mpr met.2⟩

/-- Run lemma: where every step but the quiet ones lowers a rank, a run has no more of them
than the rank allows. -/
theorem IsRun.count_le (rank : σ → Nat) {Q : α → Prop} [DecidablePred Q] {s : σ}
    {run : List (α × σ)} (h : A.IsRun s run) (start : I s)
    (step : ∀ s a t, I s → A.step s a t → I t ∧ (rank t < rank s ∨ Q a ∧ rank t ≤ rank s)) :
    run.countP (fun edge => ¬Q edge.1) + rank (last s run) ≤ rank s := by
  induction run generalizing s with
  | nil => exact Nat.le_of_eq (Nat.zero_add _)
  | cons edge run ih =>
      obtain ⟨a, t⟩ := edge
      obtain ⟨next, lower⟩ := step s a t start h.1
      have rest := ih h.2 next
      rw [List.countP_cons]
      change _ + rank (last t run) ≤ rank s
      rcases lower with lower | ⟨silent, lower⟩
      · split_ifs <;> omega
      · rw [if_neg (by simpa using silent)]
        omega

/-- An inductive invariant holds in every reachable state. -/
theorem Reachable.invariant {s : σ} (h : A.Reachable s) (start : ∀ s, A.init s → I s)
    (preserved : ∀ s a t, I s → A.step s a t → I t) : I s := by
  obtain ⟨s₀, run, first, isRun, rfl⟩ := h
  exact (isRun.invariant (AllSteps.trivial run) (start s₀ first)
    (fun s a t inv _ => preserved s a t inv)).last

end Lts

/-- A deterministic system that answers every input. -/
def Machine (σ ι ω : Type) : Type := σ → ι → ω × σ

namespace Machine

variable {σ τ ι ω ω' : Type}

/-- The outputs of an input list and the state it ends in. -/
def run (m : Machine σ ι ω) : σ → List ι → List ω × σ
  | s, [] => ([], s)
  | s, i :: is =>
      let (o, t) := m s i
      let (os, u) := run m t is
      (o :: os, u)

/-- The state an input list ends in. -/
def runState (m : Machine σ ι ω) (s : σ) (is : List ι) : σ := (m.run s is).2

@[simp] theorem runState_cons (m : Machine σ ι ω) (s : σ) (i : ι) (is : List ι) :
    m.runState s (i :: is) = m.runState (m s i).2 is := rfl

theorem runState_append (m : Machine σ ι ω) (s : σ) (is js : List ι) :
    m.runState s (is ++ js) = m.runState (m.runState s is) js := by
  induction is generalizing s with
  | nil => rfl
  | cons i is ih => exact ih (m s i).2

/-- Run lemma: what every input that meets `C` preserves holds after every list of
such inputs. -/
theorem runState_invariant_of_mem {m : Machine σ ι ω} {I : σ → Prop} {C : ι → Prop}
    (preserved : ∀ s i, C i → I s → I (m s i).2) {s : σ} (start : I s) (is : List ι)
    (met : ∀ i ∈ is, C i) : I (m.runState s is) := by
  induction is generalizing s with
  | nil => exact start
  | cons i is ih =>
      have first := preserved s i (met i List.mem_cons_self) start
      exact ih first fun j member => met j (List.mem_cons_of_mem i member)

/-- Run lemma: what every input preserves holds after every input list. -/
theorem runState_invariant {m : Machine σ ι ω} {I : σ → Prop}
    (preserved : ∀ s i, I s → I (m s i).2) {s : σ} (start : I s) (is : List ι) :
    I (m.runState s is) :=
  runState_invariant_of_mem (C := fun _ => True) (fun s i _ => preserved s i) start is
    fun _ _ => True.intro

/-- Every input of the list, in the state it meets, satisfies `C`. -/
def AllSteps (m : Machine σ ι ω) (C : σ → ι → Prop) : σ → List ι → Prop
  | _, [] => True
  | s, i :: is => C s i ∧ m.AllSteps C (m s i).2 is

/-- Run lemma: what an inductive invariant forces on every input that meets `P` holds
along every list of such inputs. -/
theorem allSteps_of_mem {m : Machine σ ι ω} {I : σ → Prop} {P : ι → Prop} {C : σ → ι → Prop}
    (step : ∀ s i, P i → I s → C s i ∧ I (m s i).2) {s : σ} (start : I s) (is : List ι)
    (met : ∀ i ∈ is, P i) : m.AllSteps C s is := by
  induction is generalizing s with
  | nil => exact True.intro
  | cons i is ih =>
      obtain ⟨holds, next⟩ := step s i (met i List.mem_cons_self) start
      exact ⟨holds, ih next fun j member => met j (List.mem_cons_of_mem i member)⟩

/-- Run lemma: conditions that agree under an inductive invariant agree on runs. -/
theorem allSteps_iff {m : Machine σ ι ω} {I : σ → Prop} {C D : σ → ι → Prop}
    (preserved : ∀ s i, I s → I (m s i).2) (agree : ∀ s i, I s → (C s i ↔ D s i)) {s : σ}
    (start : I s) (is : List ι) : m.AllSteps C s is ↔ m.AllSteps D s is := by
  induction is generalizing s with
  | nil => exact Iff.rfl
  | cons i is ih => exact and_congr (agree s i start) (ih (preserved s i start))

/-- Run lemma of a simulation: related states with related outputs at every
input give related outputs on every input list. -/
theorem run_related {m : Machine σ ι ω} {n : Machine τ ι ω'} {R : σ → τ → Prop}
    {O : ω → ω' → Prop}
    (step : ∀ s t i, R s t → O (m s i).1 (n t i).1 ∧ R (m s i).2 (n t i).2)
    {s : σ} {t : τ} (start : R s t) (is : List ι) :
    List.Forall₂ O (m.run s is).1 (n.run t is).1 ∧ R (m.run s is).2 (n.run t is).2 := by
  induction is generalizing s t with
  | nil => exact ⟨.nil, start⟩
  | cons i is ih =>
      obtain ⟨output, related⟩ := step s t i start
      obtain ⟨outputs, final⟩ := ih related
      exact ⟨.cons output outputs, final⟩

/-- Run lemma: if, in related states, the outputs at an input that meets `P` are equal exactly
under a condition, and the states stay related under it, then two runs over such inputs put
out the same exactly when the condition holds at every input. -/
theorem run_outputs_iff_of_mem {m : Machine σ ι ω} {n : Machine τ ι ω} {R : σ → τ → Prop}
    {P : ι → Prop} {C : σ → ι → Prop}
    (step : ∀ s t i, P i → R s t →
      ((m s i).1 = (n t i).1 ↔ C s i) ∧ (C s i → R (m s i).2 (n t i).2))
    {s : σ} {t : τ} (start : R s t) (is : List ι) (met : ∀ i ∈ is, P i) :
    (m.run s is).1 = (n.run t is).1 ↔ m.AllSteps C s is := by
  induction is generalizing s t with
  | nil => exact iff_of_true rfl True.intro
  | cons i is ih =>
      obtain ⟨same, related⟩ := step s t i (met i List.mem_cons_self) start
      change (m s i).1 :: (m.run (m s i).2 is).1 = (n t i).1 :: (n.run (n t i).2 is).1 ↔ _
      rw [List.cons_eq_cons, same]
      exact and_congr_right fun holds =>
        ih (related holds) fun j member => met j (List.mem_cons_of_mem i member)

theorem run_outputs_iff {m : Machine σ ι ω} {n : Machine τ ι ω} {R : σ → τ → Prop}
    {C : σ → ι → Prop}
    (step : ∀ s t i, R s t →
      ((m s i).1 = (n t i).1 ↔ C s i) ∧ (C s i → R (m s i).2 (n t i).2))
    {s : σ} {t : τ} (start : R s t) (is : List ι) :
    (m.run s is).1 = (n.run t is).1 ↔ m.AllSteps C s is :=
  run_outputs_iff_of_mem (P := fun _ => True) (fun s t i _ => step s t i) start is
    fun _ _ => True.intro

/-! ## Inputs that one part of the system sees -/

variable {κ : Type}

/-- The outputs at the inputs that `view` lets through, in order. -/
def seenOutputs (view : ι → Option κ) (is : List ι) (os : List ω) : List ω :=
  (is.zip os).filterMap fun p => (view p.1).map fun _ => p.2

/-- Run lemma of noninterference: if what `view` lets through does in `m` what it does in
`n`, and every other input leaves the relation as it is, then in every run the outputs at
the inputs seen are those that `n` gives for these inputs alone. -/
theorem seenOutputs_run {m : Machine σ ι ω} {n : Machine τ κ ω} {R : σ → τ → Prop}
    {view : ι → Option κ}
    (seen : ∀ s t i j, view i = some j → R s t →
      (m s i).1 = (n t j).1 ∧ R (m s i).2 (n t j).2)
    (unseen : ∀ s t i, view i = none → R s t → R (m s i).2 t) {s : σ} {t : τ} (start : R s t)
    (is : List ι) : seenOutputs view is (m.run s is).1 = (n.run t (is.filterMap view)).1 := by
  induction is generalizing s t with
  | nil => rfl
  | cons i is ih =>
      unfold seenOutputs at ih ⊢
      cases through : view i with
      | none =>
          have rest := ih (unseen s t i through start)
          rw [List.filterMap_cons_none through, ← rest]
          exact List.filterMap_cons_none (by rw [through]; rfl)
      | some j =>
          obtain ⟨output, related⟩ := seen s t i j through start
          have rest := ih related
          rw [List.filterMap_cons_some through]
          change _ = (n t j).1 :: (n.run (n t j).2 (is.filterMap view)).1
          rw [← rest, ← output]
          exact List.filterMap_cons_some (by rw [through]; rfl)

end Machine
