import Mathlib.Logic.Function.Basic
import NewtuaPy.Lib.Lts

/-!
# A pool of processes that may die

One thread submits jobs to the pool in their order, while worker processes take
them up and finish them.  A job that cannot be sent to a process is finished by that,
and no process sees it.  When a process dies in the middle of a job the pool is
broken: every future that is not finished fails, and the next submission is
refused, which ends the submitting.

`Whole` says that every job was submitted and every job whose own process does
not die is finished.  A complete run ends whole exactly when it was whole already
at the death of a process, if there was one (`complete_whole_iff`).
-/

/-- So many jobs for so many workers; `sends k` says that the `k`-th job can be sent to
a process, and `dies k` that the process that runs it dies before it has finished it. -/
structure ProcessPool where
  jobs : Nat
  workers : Int
  sends : Nat → Bool
  dies : Nat → Bool
  runs : ∀ k, dies k = true → sends k = true

namespace ProcessPool

/-- What has become of a job. -/
inductive Fate
  | queued
  | running
  | finished
  | lost
deriving DecidableEq, Repr

/-- `refused` is set once a submission has been refused. -/
structure State where
  submitted : Nat := 0
  refused : Bool := false
  broken : Bool := false
  fate : Nat → Fate := fun _ => .queued

inductive Step
  | submit
  | reject (k : Nat)
  | start (k : Nat)
  | finish (k : Nat)
  | crash (k : Nat)
deriving DecidableEq, Repr

/-- The jobs some worker is at. -/
def State.running (s : State) : List Nat :=
  (List.range s.submitted).filter fun k => s.fate k = .running

/-- The process pool breaks: every future that is not finished fails. -/
def State.shattered (s : State) : State :=
  { s with
    broken := true
    fate := fun k => if k < s.submitted ∧ s.fate k ≠ .finished then .lost else s.fate k }

def Enabled (pool : ProcessPool) (s : State) : Step → Prop
  | .submit => s.submitted < pool.jobs ∧ s.refused = false
  | .reject k =>
      k < s.submitted ∧ s.broken = false ∧ s.fate k = .queued ∧ pool.sends k = false
  | .start k =>
      k < s.submitted ∧ s.broken = false ∧ s.fate k = .queued ∧ pool.sends k = true ∧
        (s.running.length : Int) < pool.workers
  | .finish k => s.fate k = .running ∧ pool.dies k = false
  | .crash k => s.fate k = .running ∧ pool.dies k = true

instance (pool : ProcessPool) (s : State) (a : Step) : Decidable (pool.Enabled s a) := by
  cases a <;> exact inferInstanceAs (Decidable (_ ∧ _))

def State.after (s : State) : Step → State
  | .submit =>
      if s.broken then { s with refused := true } else { s with submitted := s.submitted + 1 }
  | .start k => { s with fate := Function.update s.fate k .running }
  | .reject k | .finish k => { s with fate := Function.update s.fate k .finished }
  | .crash _ => s.shattered

/-- The pool with the thread that submits to it. -/
def system (pool : ProcessPool) : Lts State Step where
  init s := s = {}
  step s a t := pool.Enabled s a ∧ t = s.after a

variable {pool : ProcessPool} {s t : State} {a : Step}

/-- The submitting is over, and so is every job submitted. -/
def Complete (pool : ProcessPool) (s : State) : Prop :=
  (s.submitted = pool.jobs ∨ s.refused = true) ∧
    ∀ k < s.submitted, s.fate k = .finished ∨ s.fate k = .lost

instance (pool : ProcessPool) (s : State) : Decidable (pool.Complete s) :=
  inferInstanceAs (Decidable (_ ∧ _))

/-- Every job was submitted, and every job is finished whose process does not die. -/
def Whole (pool : ProcessPool) (s : State) : Prop :=
  s.submitted = pool.jobs ∧ ∀ k < pool.jobs, pool.dies k = false → s.fate k = .finished

/-- Processes die only in whole states. -/
def Harmless (pool : ProcessPool) (s : State) (a : Step) : Prop :=
  ∀ k, a = .crash k → pool.Whole s

/-! ## What holds in every run -/

/-- Only submitted jobs are taken up; a job is lost only to a broken pool, which
has no job under way and takes no more. -/
structure Inv (pool : ProcessPool) (s : State) : Prop where
  bound : s.submitted ≤ pool.jobs
  refused : s.refused = true → s.broken = true ∧ s.submitted < pool.jobs
  taken : ∀ k, s.fate k ≠ .queued → k < s.submitted
  healthy : s.broken = false → ∀ k, s.fate k ≠ .lost
  settled : s.broken = true → ∀ k < s.submitted, s.fate k = .finished ∨ s.fate k = .lost
  finished : ∀ k, s.fate k = .finished → pool.dies k = false

theorem Inv.init : pool.Inv {} where
  bound := Nat.zero_le _
  refused := nofun
  taken := fun _ moved => (moved rfl).elim
  healthy := nofun
  settled := nofun
  finished := nofun

/-- A broken pool has no job under way. -/
theorem Inv.idle (inv : pool.Inv s) (broken : s.broken = true) (k : Nat) :
    s.fate k ≠ .running := by
  intro running
  have known : k < s.submitted := inv.taken k (by rw [running]; exact nofun)
  rcases inv.settled broken k known with done | done <;>
  · rw [done] at running
    cases running

/-- A broken pool can only refuse. -/
theorem Inv.broken_step (inv : pool.Inv s) (broken : s.broken = true)
    (step : pool.system.step s a t) :
    s.submitted < pool.jobs ∧ t = { s with refused := true } := by
  obtain ⟨enabled, rfl⟩ := step
  cases a with
  | submit => exact ⟨enabled.1, if_pos broken⟩
  | start k | reject k =>
      obtain ⟨-, unbroken, -⟩ := enabled
      rw [broken] at unbroken
      cases unbroken
  | finish k => exact (inv.idle broken k enabled.1).elim
  | crash k => exact (inv.idle broken k enabled.1).elim

/-- A job goes from one fate to another in a pool that is not broken. -/
theorem Inv.moved (inv : pool.Inv s) (unbroken : s.broken = false) {k : Nat} {fate : Fate}
    (known : k < s.submitted) (kept : fate ≠ .lost)
    (ends : fate = .finished → pool.dies k = false) :
    pool.Inv { s with fate := Function.update s.fate k fate } where
  bound := inv.bound
  refused := inv.refused
  taken := by
    intro j moved
    by_cases same : j = k
    · rw [same]
      exact known
    · apply inv.taken j
      change Function.update s.fate k fate j ≠ .queued at moved
      rwa [Function.update_of_ne same] at moved
  healthy := by
    intro _ j
    change Function.update s.fate k fate j ≠ .lost
    by_cases same : j = k
    · rw [same, Function.update_self]
      exact kept
    · rw [Function.update_of_ne same]
      exact inv.healthy unbroken j
  settled := by
    intro broken
    change s.broken = true at broken
    rw [unbroken] at broken
    cases broken
  finished := by
    intro j done
    change Function.update s.fate k fate j = .finished at done
    by_cases same : j = k
    · rw [same, Function.update_self] at done
      rw [same]
      exact ends done
    · rw [Function.update_of_ne same] at done
      exact inv.finished j done

theorem Inv.submittedMore (inv : pool.Inv s) (unbroken : s.broken = false)
    (more : s.submitted < pool.jobs) :
    pool.Inv { s with submitted := s.submitted + 1 } where
  bound := more
  refused := by
    intro refused
    have broken := (inv.refused refused).1
    rw [unbroken] at broken
    cases broken
  taken := by
    intro k moved
    have known := inv.taken k moved
    change k < s.submitted + 1
    omega
  healthy := inv.healthy
  settled := by
    intro broken
    change s.broken = true at broken
    rw [unbroken] at broken
    cases broken
  finished := inv.finished

theorem State.shattered_finished {k : Nat} :
    s.shattered.fate k = .finished ↔ s.fate k = .finished := by
  change (if k < s.submitted ∧ s.fate k ≠ .finished then Fate.lost else s.fate k) = .finished ↔ _
  by_cases hit : k < s.submitted ∧ s.fate k ≠ .finished
  · rw [if_pos hit]
    exact iff_of_false nofun hit.2
  · rw [if_neg hit]

theorem Inv.shattered (inv : pool.Inv s) (unbroken : s.broken = false) :
    pool.Inv s.shattered where
  bound := inv.bound
  refused := by
    intro refused
    have broken := (inv.refused refused).1
    rw [unbroken] at broken
    cases broken
  taken := by
    intro k moved
    by_cases known : k < s.submitted
    · exact known
    · apply inv.taken k
      change (if k < s.submitted ∧ s.fate k ≠ .finished then Fate.lost else s.fate k) ≠ _ at moved
      rwa [if_neg fun hit => known hit.1] at moved
  healthy := nofun
  settled := by
    intro _ k known
    change k < s.submitted at known
    by_cases done : s.fate k = .finished
    · exact Or.inl (State.shattered_finished.mpr done)
    · exact Or.inr (if_pos ⟨known, done⟩)
  finished := fun k done => inv.finished k (State.shattered_finished.mp done)

/-- Step lemma. -/
theorem Inv.step (inv : pool.Inv s) (step : pool.system.step s a t) : pool.Inv t := by
  rcases broken : s.broken with _ | _
  · have running {k : Nat} (fate : s.fate k = .running) : k < s.submitted :=
      inv.taken k (by rw [fate]; exact nofun)
    obtain ⟨enabled, rfl⟩ := step
    cases a with
    | submit =>
        have submits : s.after .submit = { s with submitted := s.submitted + 1 } := by
          unfold State.after
          rw [broken]
          rfl
        rw [submits]
        exact inv.submittedMore broken enabled.1
    | reject k =>
        refine inv.moved broken enabled.1 nofun fun _ => ?_
        have unsent := enabled.2.2.2
        rcases dies : pool.dies k with _ | _
        · rfl
        · cases unsent.symm.trans (pool.runs k dies)
    | start k => exact inv.moved broken enabled.1 nofun nofun
    | finish k => exact inv.moved broken (running enabled.1) nofun fun _ => enabled.2
    | crash k => exact inv.shattered broken
  · obtain ⟨more, still⟩ := inv.broken_step broken step
    rw [still]
    exact ⟨inv.bound, fun _ => ⟨broken, more⟩, inv.taken, inv.healthy, inv.settled, inv.finished⟩

theorem Inv.of_run {run : List (Step × State)} (isRun : pool.system.IsRun s run)
    (start : pool.Inv s) : Lts.AllStates pool.Inv s run :=
  isRun.invariant (Lts.AllSteps.trivial run) start fun _ _ _ inv _ step => inv.step step

/-! ## What a death takes with it -/

theorem State.shattered_whole : pool.Whole s.shattered ↔ pool.Whole s :=
  and_congr_right fun _ => forall_congr' fun _ => imp_congr_right fun _ =>
    imp_congr_right fun _ => State.shattered_finished

/-- Unless a process dies, a pool stays in one piece. -/
theorem Inv.unbroken_step (unbroken : s.broken = false) (step : pool.system.step s a t) :
    t.broken = false ∨ ∃ k, a = .crash k ∧ t = s.shattered := by
  obtain ⟨-, rfl⟩ := step
  cases a with
  | submit =>
      refine Or.inl ?_
      unfold State.after
      rw [unbroken]
      rfl
  | start k | reject k | finish k => exact Or.inl unbroken
  | crash k => exact Or.inr ⟨k, rfl, rfl⟩

/-- A pool in one piece that is done is whole. -/
theorem Inv.whole_of_complete (inv : pool.Inv s) (unbroken : s.broken = false)
    (complete : pool.Complete s) : pool.Whole s := by
  obtain ⟨submitted, done⟩ := complete
  have all : s.submitted = pool.jobs := by
    rcases submitted with all | refused
    · exact all
    · have broken := (inv.refused refused).1
      rw [unbroken] at broken
      cases broken
  refine ⟨all, fun k known _ => ?_⟩
  rcases done k (all ▸ known) with finished | lost
  · exact finished
  · exact (inv.healthy unbroken k lost).elim

/-- A complete run ends whole exactly when processes died in whole states only. -/
theorem Inv.complete_whole_iff {run : List (Step × State)} (inv : pool.Inv s)
    (isRun : pool.system.IsRun s run) (complete : pool.Complete (Lts.last s run)) :
    (s.broken = true → pool.Whole s) ∧ Lts.AllSteps pool.Harmless s run ↔
      pool.Whole (Lts.last s run) := by
  induction run generalizing s with
  | nil =>
      refine ⟨fun harmless => ?_, fun whole => ⟨fun _ => whole, True.intro⟩⟩
      rcases broken : s.broken with _ | _
      · exact inv.whole_of_complete broken complete
      · exact harmless.1 broken
  | cons edge run ih =>
      obtain ⟨a, t⟩ := edge
      have next := inv.step isRun.1
      refine Iff.trans ?_ (ih next isRun.2 complete)
      rcases broken : s.broken with _ | _
      · rcases Inv.unbroken_step broken isRun.1 with unbroken | ⟨k, rfl, shattered⟩
        · have calm : pool.Harmless s a := by
            intro k crashed
            obtain ⟨-, after⟩ := isRun.1
            rw [after, crashed] at unbroken
            cases unbroken
          constructor
          · intro harmless
            exact ⟨fun impossible => (by rw [unbroken] at impossible; cases impossible),
              harmless.2.2⟩
          · intro harmless
            exact ⟨nofun, calm, harmless.2⟩
        · have same : pool.Whole t ↔ pool.Whole s := by
            rw [shattered]
            exact State.shattered_whole
          have falls : t.broken = true := by
            rw [shattered]
            rfl
          constructor
          · intro harmless
            exact ⟨fun _ => same.mpr (harmless.2.1 k rfl), harmless.2.2⟩
          · intro harmless
            refine ⟨nofun, ?_, harmless.2⟩
            intro _ _
            exact same.mp (harmless.1 falls)
      · obtain ⟨-, still⟩ := inv.broken_step broken isRun.1
        have same : pool.Whole t ↔ pool.Whole s := by
          rw [still]
          exact Iff.rfl
        have falls : t.broken = true := by
          rw [still]
          exact broken
        have calm : pool.Harmless s a := by
          intro k crashed
          have impossible := isRun.1.1
          rw [crashed] at impossible
          exact (inv.idle broken k impossible.1).elim
        constructor
        · intro harmless
          exact ⟨fun _ => same.mpr (harmless.1 rfl), harmless.2.2⟩
        · intro harmless
          exact ⟨fun _ => same.mp (harmless.1 falls), calm, harmless.2⟩

/-- A complete run ends whole exactly when processes died in whole states only. -/
theorem complete_whole_iff {run : List (Step × State)} (isRun : pool.system.IsRun {} run)
    (complete : pool.Complete (Lts.last {} run)) :
    Lts.AllSteps pool.Harmless {} run ↔ pool.Whole (Lts.last {} run) := by
  refine Iff.trans ?_ (Inv.init.complete_whole_iff isRun complete)
  exact ⟨fun harmless => ⟨nofun, harmless⟩, And.right⟩

/-! ## No schedule gets stuck -/

/-- A pool that has workers and is not done can go on. -/
theorem Inv.progress (inv : pool.Inv s) (manned : 0 < pool.workers) :
    pool.Complete s ∨ ∃ a t, pool.system.step s a t := by
  by_cases submits : s.submitted < pool.jobs ∧ s.refused = false
  · exact Or.inr ⟨.submit, _, submits, rfl⟩
  have submitted : s.submitted = pool.jobs ∨ s.refused = true := by
    rcases refused : s.refused with _ | _
    · have bound := inv.bound
      refine Or.inl ?_
      by_contra short
      exact submits ⟨by omega, refused⟩
    · exact Or.inr rfl
  by_cases done : ∀ k < s.submitted, s.fate k = .finished ∨ s.fate k = .lost
  · exact Or.inl ⟨submitted, done⟩
  push Not at done
  obtain ⟨k, known, unfinished, kept⟩ := done
  have unbroken : s.broken = false := by
    rcases broken : s.broken with _ | _
    · rfl
    · rcases inv.settled broken k known with finished | lost
      · exact (unfinished finished).elim
      · exact (kept lost).elim
  have goes {j : Nat} (running : s.fate j = .running) : ∃ a t, pool.system.step s a t := by
    rcases dies : pool.dies j with _ | _
    · exact ⟨.finish j, _, ⟨running, dies⟩, rfl⟩
    · exact ⟨.crash j, _, ⟨running, dies⟩, rfl⟩
  refine Or.inr ?_
  rcases at_work : s.running with _ | ⟨j, others⟩
  · rcases fate : s.fate k with _ | _ | _ | _
    · rcases sends : pool.sends k with _ | _
      · exact ⟨.reject k, _, ⟨known, unbroken, fate, sends⟩, rfl⟩
      · refine ⟨.start k, _, ⟨known, unbroken, fate, sends, ?_⟩, rfl⟩
        rw [at_work]
        exact manned
    · exact goes fate
    · exact (unfinished fate).elim
    · exact (kept fate).elim
  · have member : j ∈ s.running := by
      rw [at_work]
      exact List.mem_cons_self
    exact goes (of_decide_eq_true (List.mem_filter.mp member).2)

end ProcessPool
