import NewtuaPy.BatchCollates
import NewtuaPy.Lib.Lts
import NewtuaPy.Lib.Tally

/-!
# Executors of threads

`_run_backend` over the executors that `_make_executor` makes for threads, step by
step: one thread submits the tasks, workers take them up and finish them,
`cf.as_completed` hands over finished futures in some order, and `shutdown` waits
for the workers.  Every interleaving comes to an end, and it ends as the batch
does over a `Pool`.
-/

namespace NewtuaPy

namespace Batch

/-- A call of `_run_backend`: `run k item` is how the task of the `k`-th item ends. -/
structure Backend (J α : Type) where
  executor : ThreadExecutor
  workers : Nat
  items : List J
  run : Nat → J → Except PyExc α
  cancellable : Bool

namespace Backend

/-- What has become of a task.  No future is ever cancelled, so a task that is taken up runs
its function once, and the future gets what that returns or raises. -/
inductive Fate
  | unsubmitted
  | queued
  | running
  | finished
deriving DecidableEq, Repr

/-- How often the function of a task has been called. -/
def Fate.calls : Fate → Nat
  | .unsubmitted | .queued => 0
  | .running | .finished => 1

/-- Where the submitting thread is: before the check of the event, in `submit`, in the
collecting loop, or in `shutdown`. -/
inductive Phase (α : Type)
  | looping
  | submitting
  | collecting (out : List (Row α))
  | leaving (result : Except PyExc (List (Row α)))
  | returned (result : Except PyExc (List (Row α)))

/-- `calls k` counts the calls of the `k`-th task's function. -/
structure State (J α : Type) where
  submitted : Nat := 0
  fate : Nat → Fate := fun _ => .unsubmitted
  calls : Nat → Nat := fun _ => 0
  isSet : Bool := false
  yielded : List (J × Nat) := []
  phase : Phase α := .looping

inductive Act
  | setEvent
  | check
  | submit
  | start (k : Nat)
  | finish (k : Nat)
  | yield (k : Nat)
  | exhaust
  | join
deriving DecidableEq, Repr

variable {J α : Type}

namespace State

/-- The tasks at work. -/
def running (s : State J α) : Finset ℕ :=
  (Finset.range s.submitted).filter fun k => s.fate k = .running

/-- The tasks that hold a slot of the pool. -/
def unfinished (s : State J α) : Finset ℕ :=
  (Finset.range s.submitted).filter fun k => s.fate k ≠ .finished

def move (s : State J α) (k : Nat) (fate : Fate) : State J α :=
  { s with fate := Function.update s.fate k fate }

end State

/-- One round of the collecting loop, for the future of the `k`-th item. -/
def collect (b : Backend J α) (s : State J α) (out : List (Row α)) (item : J) (k : Nat) :
    State J α :=
  let s := { s with yielded := s.yielded ++ [(item, k)] }
  match b.run k item with
  | .ok value => { s with phase := .collecting (out ++ [(k, some value, none)]) }
  | .error exc =>
      if exc.isException then
        { s with phase := .collecting (out ++ [(k, none, some (asTyped exc))]) }
      else { s with phase := .leaving (.error exc) }

@[simp] theorem collect_yielded (b : Backend J α) (s : State J α) (out : List (Row α)) (item : J)
    (k : Nat) : (b.collect s out item k).yielded = s.yielded ++ [(item, k)] := by
  unfold collect
  split
  · rfl
  · split_ifs <;> rfl

@[simp] theorem collect_submitted (b : Backend J α) (s : State J α) (out : List (Row α))
    (item : J) (k : Nat) : (b.collect s out item k).submitted = s.submitted := by
  unfold collect
  split
  · rfl
  · split_ifs <;> rfl

def act (b : Backend J α) (s : State J α) : Act → Option (State J α)
  | .setEvent => if b.cancellable then some { s with isSet := true } else none
  | .check => match s.phase with
      | .looping =>
          if s.submitted = b.items.length ∨ s.isSet then some { s with phase := .collecting [] }
          else some { s with phase := .submitting }
      | _ => none
  | .submit => match s.phase with
      | .submitting =>
          if b.executor = .gevent ∧ b.workers ≤ s.unfinished.card then none
          else some { s.move s.submitted .queued with
            submitted := s.submitted + 1
            phase := .looping }
      | _ => none
  | .start k =>
      if s.fate k = .queued ∧ s.running.card < b.workers then
        some { s.move k .running with calls := Function.update s.calls k (s.calls k + 1) }
      else none
  | .finish k => if s.fate k = .running then some (s.move k .finished) else none
  | .yield k => match s.phase, b.items[k]? with
      | .collecting out, some item =>
          if s.fate k = .finished ∧ k ∉ s.yielded.map Prod.snd then some (b.collect s out item k)
          else none
      | _, _ => none
  | .exhaust => match s.phase with
      | .collecting out =>
          if s.yielded.length = s.submitted then some { s with phase := .leaving (.ok out) }
          else none
      | _ => none
  | .join => match s.phase with
      | .leaving result =>
          if s.unfinished = ∅ then some { s with phase := .returned result } else none
      | _ => none

def system (b : Backend J α) : Lts (State J α) Act where
  init s := s = {}
  step s a t := b.act s a = some t

/-! ## What holds in every run -/

/-- The futures submitted, each with its place. -/
def places (b : Backend J α) (s : State J α) : List (J × Nat) :=
  (b.items.take s.submitted).zipIdx

/-- What the collecting loop makes of the futures it has been given. -/
def collected (b : Backend J α) (s : State J α) : Except PyExc (List (Row α)) :=
  collectAll ((b.places s).map fun p => (future b.run p, p.2)) (s.yielded.map (future b.run))

/-- How far the collecting has come. -/
def Collects (b : Backend J α) (s : State J α) : Prop :=
  match s.phase with
  | .looping => s.yielded = []
  | .submitting => s.yielded = [] ∧ s.submitted < b.items.length
  | .collecting out => b.collected s = .ok out
  | .leaving result =>
      b.collected s = result ∧ ∀ out, result = .ok out → s.yielded.length = s.submitted
  | .returned result =>
      (b.collected s = result ∧ ∀ out, result = .ok out → s.yielded.length = s.submitted) ∧
        s.unfinished = ∅

structure Inv (b : Backend J α) (s : State J α) : Prop where
  bound : s.submitted ≤ b.items.length
  fresh : ∀ k, s.fate k = .unsubmitted ↔ s.submitted ≤ k
  called : ∀ k, s.calls k = (s.fate k).calls
  slots : b.executor = .gevent → s.unfinished.card ≤ b.workers
  busy : s.running.card ≤ b.workers
  event : s.isSet = true → b.cancellable = true
  stopped : s.phase ≠ .looping → s.phase ≠ .submitting → s.submitted < b.items.length →
    s.isSet = true
  known : ∀ p ∈ s.yielded, p ∈ b.places s ∧ s.fate p.2 = .finished
  once : (s.yielded.map Prod.snd).Nodup
  collects : b.Collects s

theorem Inv.init (b : Backend J α) : b.Inv {} where
  bound := Nat.zero_le _
  fresh := fun k => iff_of_true rfl (Nat.zero_le k)
  called := fun _ => rfl
  slots := fun _ => Nat.zero_le _
  busy := Nat.zero_le _
  event := nofun
  stopped := fun looping => absurd rfl looping
  known := nofun
  once := List.nodup_nil
  collects := rfl

variable {b : Backend J α} {s t : State J α}

theorem mem_running {k : Nat} : k ∈ s.running ↔ k < s.submitted ∧ s.fate k = .running := by
  simp [State.running]

theorem mem_unfinished {k : Nat} :
    k ∈ s.unfinished ↔ k < s.submitted ∧ s.fate k ≠ .finished := by
  simp [State.unfinished]

theorem Inv.submitted_of_fate (inv : b.Inv s) {k : Nat} (moved : s.fate k ≠ .unsubmitted) :
    k < s.submitted :=
  Nat.lt_of_not_le fun beyond => moved ((inv.fresh k).mpr beyond)

/-- Where the collecting stands does not depend on the tasks at work, while there are any. -/
theorem Collects.moved (collects : b.Collects s) {fate : Nat → Fate} {calls : Nat → Nat} {k : Nat}
    (working : k ∈ s.unfinished) : b.Collects { s with fate, calls } := by
  unfold Collects at collects ⊢
  rcases phase : s.phase with _ | _ | out | result | result <;> rw [phase] at collects
  · exact collects
  · exact collects
  · exact collects
  · exact collects
  · rw [collects.2] at working
    exact absurd working (Finset.notMem_empty k)

/-- A task that is not finished goes from one fate to another. -/
theorem Inv.moved (inv : b.Inv s) {k : Nat} {fate : Fate} {calls : Nat → Nat}
    (working : k ∈ s.unfinished) (submitted : fate ≠ .unsubmitted)
    (called : ∀ j, calls j = ((s.move k fate).fate j).calls)
    (busy : (s.move k fate).running.card ≤ b.workers) :
    b.Inv { s.move k fate with calls } where
  bound := inv.bound
  fresh := by
    intro j
    change Function.update s.fate k fate j = .unsubmitted ↔ s.submitted ≤ j
    by_cases same : j = k
    · subst same
      have known := (mem_unfinished.mp working).1
      rw [Function.update_self]
      exact iff_of_false submitted (by omega)
    · rw [Function.update_of_ne same]
      exact inv.fresh j
  called := called
  slots := by
    intro bounded
    refine le_trans (Finset.card_le_card fun j member => ?_) (inv.slots bounded)
    by_cases same : j = k
    · exact same ▸ working
    · obtain ⟨known, open'⟩ := mem_unfinished.mp member
      exact mem_unfinished.mpr ⟨known, fun finished =>
        open' ((Function.update_of_ne same _ _).trans finished)⟩
  busy := busy
  event := inv.event
  stopped := inv.stopped
  known := by
    intro p member
    obtain ⟨placed, finished⟩ := inv.known p member
    have other : p.2 ≠ k := by
      intro same
      exact (mem_unfinished.mp working).2 (same ▸ finished)
    exact ⟨placed, (Function.update_of_ne other _ _).trans finished⟩
  once := inv.once
  collects := inv.collects.moved working

theorem Inv.start (inv : b.Inv s) {k : Nat} (queued : s.fate k = .queued)
    (free : s.running.card < b.workers) :
    b.Inv { s.move k .running with calls := Function.update s.calls k (s.calls k + 1) } := by
  have known : k < s.submitted := inv.submitted_of_fate (by rw [queued]; exact nofun)
  refine inv.moved (mem_unfinished.mpr ⟨known, by rw [queued]; exact nofun⟩) nofun ?_ ?_
  · intro j
    by_cases same : j = k
    · subst same
      have idle : s.calls j = 0 := by
        rw [inv.called, queued]
        rfl
      simp [State.move, idle, Fate.calls]
    · simp only [State.move, Function.update_of_ne same]
      exact inv.called j
  · have grows : (s.move k .running).running ⊆ insert k s.running := by
      intro j member
      obtain ⟨known, running⟩ := mem_running.mp member
      by_cases same : j = k
      · exact same ▸ Finset.mem_insert_self j s.running
      · exact Finset.mem_insert_of_mem (mem_running.mpr
          ⟨known, (Function.update_of_ne same _ _).symm.trans running⟩)
    have bounded := Finset.card_le_card grows
    have inserted := Finset.card_insert_le k s.running
    omega

theorem Inv.finish (inv : b.Inv s) {k : Nat} (running : s.fate k = .running) :
    b.Inv (s.move k .finished) := by
  have known : k < s.submitted := inv.submitted_of_fate (by rw [running]; exact nofun)
  refine inv.moved (mem_unfinished.mpr ⟨known, by rw [running]; exact nofun⟩) nofun ?_ ?_
  · intro j
    by_cases same : j = k
    · subst same
      have called := inv.called j
      simpa [State.move, running, Fate.calls] using called
    · simp only [State.move, Function.update_of_ne same]
      exact inv.called j
  · refine le_trans (Finset.card_le_card fun j member => ?_) inv.busy
    obtain ⟨known, moved⟩ := mem_running.mp member
    by_cases same : j = k
    · subst same
      exact mem_running.mpr ⟨known, running⟩
    · exact mem_running.mpr ⟨known, (Function.update_of_ne same _ _).symm.trans moved⟩

theorem Inv.setEvent (inv : b.Inv s) (cancellable : b.cancellable = true) :
    b.Inv { s with isSet := true } :=
  { inv with
    event := fun _ => cancellable
    stopped := fun _ _ _ => rfl }

theorem Inv.stop (inv : b.Inv s) (looping : s.phase = .looping)
    (ends : s.submitted = b.items.length ∨ s.isSet = true) :
    b.Inv { s with phase := .collecting [] } :=
  { inv with
    stopped := fun _ _ more => ends.resolve_left more.ne
    collects := by
      have idle := inv.collects
      unfold Collects at idle
      rw [looping] at idle
      unfold Collects collected
      dsimp only at idle ⊢
      rw [idle]
      rfl }

theorem Inv.goOn (inv : b.Inv s) (looping : s.phase = .looping)
    (more : s.submitted ≠ b.items.length) : b.Inv { s with phase := .submitting } :=
  { inv with
    stopped := fun _ submitting => absurd rfl submitting
    collects := by
      have idle := inv.collects
      unfold Collects at idle
      rw [looping] at idle
      exact ⟨idle, lt_of_le_of_ne inv.bound more⟩ }

theorem Inv.submit (inv : b.Inv s) (submitting : s.phase = .submitting)
    (slot : ¬ (b.executor = .gevent ∧ b.workers ≤ s.unfinished.card)) :
    b.Inv { s.move s.submitted .queued with submitted := s.submitted + 1, phase := .looping } := by
  obtain ⟨idle, more⟩ : s.yielded = [] ∧ s.submitted < b.items.length := by
    have collects := inv.collects
    unfold Collects at collects
    rwa [submitting] at collects
  have moved {j : Nat} (other : j ≠ s.submitted) :
      Function.update s.fate s.submitted .queued j = s.fate j := Function.update_of_ne other _ _
  refine
    { bound := more
      fresh := ?_
      called := ?_
      slots := ?_
      busy := ?_
      event := inv.event
      stopped := fun looping => absurd rfl looping
      known := ?_
      once := inv.once
      collects := idle }
  · intro j
    change Function.update s.fate s.submitted .queued j = .unsubmitted ↔ s.submitted + 1 ≤ j
    by_cases same : j = s.submitted
    · subst same
      rw [Function.update_self]
      exact iff_of_false nofun (by omega)
    · rw [moved same, inv.fresh]
      omega
  · intro j
    change s.calls j = (Function.update s.fate s.submitted .queued j).calls
    by_cases same : j = s.submitted
    · subst same
      have fresh : s.fate s.submitted = .unsubmitted := (inv.fresh _).mpr (Nat.le_refl _)
      rw [inv.called, fresh, Function.update_self]
      rfl
    · rw [moved same]
      exact inv.called j
  · intro bounded
    have free : s.unfinished.card < b.workers := Nat.lt_of_not_le fun full => slot ⟨bounded, full⟩
    refine le_trans (Finset.card_le_card fun j member => ?_)
      ((Finset.card_insert_le s.submitted s.unfinished).trans free)
    obtain ⟨known, open'⟩ := mem_unfinished.mp member
    by_cases same : j = s.submitted
    · exact same ▸ Finset.mem_insert_self j s.unfinished
    · refine Finset.mem_insert_of_mem (mem_unfinished.mpr ⟨by grind, ?_⟩)
      exact fun finished => open' ((moved same).trans finished)
  · refine le_trans (Finset.card_le_card fun j member => ?_) inv.busy
    obtain ⟨known, running⟩ := mem_running.mp member
    by_cases same : j = s.submitted
    · subst same
      cases (Function.update_self (f := s.fate) _ _).symm.trans running
    · exact mem_running.mpr ⟨by grind, (moved same).symm.trans running⟩
  · intro p member
    have none : p ∈ ([] : List (J × Nat)) := idle ▸ (show p ∈ s.yielded from member)
    cases none

/-- What the collecting loop makes of one future. -/
def collectOne (futures : List (Future α × Nat)) (fut : Future α) : Except PyExc (Row α) := do
  let i ← futureIndex futures fut
  match fut.outcome with
  | .ok value => .ok (i, some value, none)
  | .error exc => if exc.isException then .ok (i, none, some (asTyped exc)) else .error exc

theorem collectAll_cons (futures : List (Future α × Nat)) (x : Future α) (xs : List (Future α)) :
    collectAll futures (x :: xs) =
      (collectOne futures x).bind fun row => (collectAll futures xs).map (row :: ·) := by
  rw [collectAll, collectOne]
  rcases futureIndex futures x with exc | i
  · rfl
  · rcases x.outcome with exc | value
    · simp only [bind, Except.bind]
      cases exc.isException
      · rfl
      · simp only [if_true]
        rcases collectAll futures xs with _ | _ <;> rfl
    · simp only [bind, Except.bind]
      rcases collectAll futures xs with _ | _ <;> rfl

/-- The collecting loop takes the futures one after the other. -/
theorem collectAll_append (futures : List (Future α × Nat)) (xs ys : List (Future α)) :
    collectAll futures (xs ++ ys) =
      (collectAll futures xs).bind fun out => (collectAll futures ys).map (out ++ ·) := by
  induction xs with
  | nil =>
      change collectAll futures ys = (collectAll futures ys).map ([] ++ ·)
      rcases collectAll futures ys with _ | _ <;> rfl
  | cons x xs ih =>
      rw [List.cons_append, collectAll_cons, collectAll_cons, ih]
      rcases collectOne futures x with _ | row
      · rfl
      · rcases collectAll futures xs with _ | out
        · rfl
        · rcases collectAll futures ys with _ | out' <;> rfl

theorem collectAll_snoc {futures : List (Future α × Nat)} {xs : List (Future α)} {x : Future α}
    {out : List (Row α)} (soFar : collectAll futures xs = .ok out) :
    collectAll futures (xs ++ [x]) = (collectOne futures x).map (out ++ [·]) := by
  rw [collectAll_append, soFar, collectAll_cons]
  rcases collectOne futures x with _ | row <;> rfl

theorem Inv.yield (inv : b.Inv s) {out : List (Row α)} (collecting : s.phase = .collecting out)
    {item : J} {k : Nat} (given : b.items[k]? = some item) (finished : s.fate k = .finished)
    (new : k ∉ s.yielded.map Prod.snd) : b.Inv (b.collect s out item k) := by
  have known : k < s.submitted := inv.submitted_of_fate (by rw [finished]; exact nofun)
  have placed : (item, k) ∈ b.places s := by
    refine List.mem_zipIdx_iff_getElem?.mpr ?_
    rw [List.getElem?_take, if_pos known]
    exact given
  have soFar : b.collected s = .ok out := by
    have collects := inv.collects
    unfold Collects at collects
    rwa [collecting] at collects
  have next (phase : Phase α) :
      b.collected { s with yielded := s.yielded ++ [(item, k)], phase } = match b.run k item with
        | .ok value => .ok (out ++ [(k, some value, none)])
        | .error exc =>
            if exc.isException then .ok (out ++ [(k, none, some (asTyped exc))])
            else .error exc := by
    have index := futureIndex_run b.run placed
    unfold collected
    dsimp only
    rw [List.map_append]
    refine (collectAll_snoc soFar).trans ?_
    unfold collectOne
    rw [index, future_outcome]
    rcases b.run k item with exc | value
    · cases caught : exc.isException <;> simp [caught, bind, Except.bind, Except.map]
    · rfl
  have known' (p : J × Nat) (member : p ∈ s.yielded ++ [(item, k)]) :
      p ∈ b.places s ∧ s.fate p.2 = .finished := by
    rcases List.mem_append.mp member with old | fresh
    · exact inv.known p old
    · obtain rfl := List.mem_singleton.mp fresh
      exact ⟨placed, finished⟩
  have once' : ((s.yielded ++ [(item, k)]).map Prod.snd).Nodup := by
    rw [List.map_append]
    refine List.nodup_append.mpr ⟨inv.once, List.nodup_singleton k, ?_⟩
    intro j old j' fresh same
    obtain rfl : j' = k := List.mem_singleton.mp fresh
    exact new (same ▸ old)
  have stopped' : s.submitted < b.items.length → s.isSet = true :=
    inv.stopped (by rw [collecting]; exact nofun) (by rw [collecting]; exact nofun)
  unfold collect
  dsimp only
  rcases ends : b.run k item with exc | value
  · by_cases caught : exc.isException = true
    · dsimp only
      rw [if_pos caught]
      exact
        { inv with
          stopped := fun _ _ => stopped'
          known := known'
          once := once'
          collects := by
            have collects := next (.collecting (out ++ [(k, none, some (asTyped exc))]))
            rw [ends] at collects
            exact collects.trans (if_pos caught) }
    · dsimp only
      rw [if_neg caught]
      exact
        { inv with
          stopped := fun _ _ => stopped'
          known := known'
          once := once'
          collects := by
            have collects := next (.leaving (.error exc))
            rw [ends] at collects
            exact ⟨collects.trans (if_neg caught), nofun⟩ }
  · exact
      { inv with
        stopped := fun _ _ => stopped'
        known := known'
        once := once'
        collects := by
          have collects := next (.collecting (out ++ [(k, some value, none)]))
          rw [ends] at collects
          exact collects }

theorem Inv.exhaust (inv : b.Inv s) {out : List (Row α)} (collecting : s.phase = .collecting out)
    (all : s.yielded.length = s.submitted) : b.Inv { s with phase := .leaving (.ok out) } :=
  { inv with
    stopped := fun _ _ =>
      inv.stopped (by rw [collecting]; exact nofun) (by rw [collecting]; exact nofun)
    collects := by
      have collects := inv.collects
      unfold Collects at collects
      rw [collecting] at collects
      exact ⟨collects, fun _ _ => all⟩ }

theorem Inv.join (inv : b.Inv s) {result : Except PyExc (List (Row α))}
    (leaving : s.phase = .leaving result) (idle : s.unfinished = ∅) :
    b.Inv { s with phase := .returned result } :=
  { inv with
    stopped := fun _ _ =>
      inv.stopped (by rw [leaving]; exact nofun) (by rw [leaving]; exact nofun)
    collects := by
      have collects := inv.collects
      unfold Collects at collects
      rw [leaving] at collects
      exact ⟨collects, idle⟩ }

/-- What a step can be, and what it needs. -/
inductive Step (b : Backend J α) (s : State J α) : Act → State J α → Prop
  | setEvent (cancellable : b.cancellable = true) : Step b s .setEvent { s with isSet := true }
  | stop (looping : s.phase = .looping)
      (ends : s.submitted = b.items.length ∨ s.isSet = true) :
      Step b s .check { s with phase := .collecting [] }
  | goOn (looping : s.phase = .looping) (more : s.submitted ≠ b.items.length) :
      Step b s .check { s with phase := .submitting }
  | submit (submitting : s.phase = .submitting)
      (slot : ¬ (b.executor = .gevent ∧ b.workers ≤ s.unfinished.card)) :
      Step b s .submit
        { s.move s.submitted .queued with submitted := s.submitted + 1, phase := .looping }
  | start {k : Nat} (queued : s.fate k = .queued) (free : s.running.card < b.workers) :
      Step b s (.start k)
        { s.move k .running with calls := Function.update s.calls k (s.calls k + 1) }
  | finish {k : Nat} (running : s.fate k = .running) : Step b s (.finish k) (s.move k .finished)
  | yield {k : Nat} {out : List (Row α)} {item : J} (collecting : s.phase = .collecting out)
      (given : b.items[k]? = some item) (finished : s.fate k = .finished)
      (new : k ∉ s.yielded.map Prod.snd) : Step b s (.yield k) (b.collect s out item k)
  | exhaust {out : List (Row α)} (collecting : s.phase = .collecting out)
      (all : s.yielded.length = s.submitted) :
      Step b s .exhaust { s with phase := .leaving (.ok out) }
  | join {result : Except PyExc (List (Row α))} (leaving : s.phase = .leaving result)
      (idle : s.unfinished = ∅) : Step b s .join { s with phase := .returned result }

theorem step_of_act {a : Act} (step : b.act s a = some t) : b.Step s a t := by
  cases a with
  | setEvent =>
      obtain ⟨cancellable, same⟩ := Option.ite_none_right_eq_some.mp step
      exact Option.some.inj same ▸ .setEvent cancellable
  | check =>
      dsimp only [act] at step
      split at step
      · next looping =>
        split at step
        · next ends => exact Option.some.inj step ▸ .stop looping ends
        · next goes =>
          exact Option.some.inj step ▸ .goOn looping fun all => goes (Or.inl all)
      · cases step
  | submit =>
      dsimp only [act] at step
      split at step
      · next submitting =>
        obtain ⟨slot, same⟩ := Option.ite_none_left_eq_some.mp step
        exact Option.some.inj same ▸ .submit submitting slot
      · cases step
  | start k =>
      obtain ⟨⟨queued, free⟩, same⟩ := Option.ite_none_right_eq_some.mp step
      exact Option.some.inj same ▸ .start queued free
  | finish k =>
      obtain ⟨running, same⟩ := Option.ite_none_right_eq_some.mp step
      exact Option.some.inj same ▸ .finish running
  | yield k =>
      dsimp only [act] at step
      split at step
      · next collecting given =>
        obtain ⟨⟨finished, new⟩, same⟩ := Option.ite_none_right_eq_some.mp step
        exact Option.some.inj same ▸ .yield collecting given finished new
      · cases step
  | exhaust =>
      dsimp only [act] at step
      split at step
      · next collecting =>
        obtain ⟨all, same⟩ := Option.ite_none_right_eq_some.mp step
        exact Option.some.inj same ▸ .exhaust collecting all
      · cases step
  | join =>
      dsimp only [act] at step
      split at step
      · next leaving =>
        obtain ⟨idle, same⟩ := Option.ite_none_right_eq_some.mp step
        exact Option.some.inj same ▸ .join leaving idle
      · cases step

/-- Step lemma. -/
theorem Inv.step (inv : b.Inv s) {a : Act} (step : b.Step s a t) : b.Inv t := by
  cases step with
  | setEvent cancellable => exact inv.setEvent cancellable
  | stop looping ends => exact inv.stop looping ends
  | goOn looping more => exact inv.goOn looping more
  | submit submitting slot => exact inv.submit submitting slot
  | start queued free => exact inv.start queued free
  | finish running => exact inv.finish running
  | yield collecting given finished new => exact inv.yield collecting given finished new
  | exhaust collecting all => exact inv.exhaust collecting all
  | join leaving idle => exact inv.join leaving idle

theorem Inv.of_reachable (reachable : b.system.Reachable s) : b.Inv s := by
  refine reachable.invariant ?_ fun _ _ _ inv step => inv.step (step_of_act step)
  rintro s rfl
  exact Inv.init b

/-! ## The batch it returns -/

/-- The event, as the submitting thread has seen it. -/
def State.cancel (b : Backend J α) (s : State J α) : Cancel :=
  if s.submitted < b.items.length then some fun k => decide (k = s.submitted) else none

theorem Inv.submitted_cancel (inv : b.Inv s) :
    submitted (s.cancel b) b.items.length = s.submitted := by
  obtain ⟨bound, unset, stop⟩ := submittedFrom_spec (s.cancel b) 0 b.items.length
  unfold submitted
  have most := inv.bound
  by_cases more : s.submitted < b.items.length
  · have seen (k : Nat) : (s.cancel b).isSet k = decide (k = s.submitted) := by
      unfold State.cancel Cancel.isSet
      rw [if_pos more]
      rfl
    have low : submittedFrom (s.cancel b) 0 b.items.length ≤ s.submitted := by
      by_contra high
      have := unset s.submitted (by omega)
      rw [Nat.zero_add, seen] at this
      simp at this
    have stopped := stop (by omega)
    rw [Nat.zero_add, seen] at stopped
    exact of_decide_eq_true stopped
  · have never (k : Nat) : (s.cancel b).isSet k = false := by
      unfold State.cancel Cancel.isSet
      rw [if_neg more]
      rfl
    by_contra other
    have stopped := stop (by omega)
    rw [never] at stopped
    cases stopped

/-- The futures in the order in which they were yielded, those not yielded last. -/
def State.order (b : Backend J α) (s : State J α) : List (J × Nat) :=
  s.yielded ++ (b.places s).filter fun p => p.2 ∉ s.yielded.map Prod.snd

theorem places_nodup (b : Backend J α) (s : State J α) : (b.places s).Nodup := by
  have keys : ((b.places s).map Prod.snd).Nodup := by
    unfold places
    rw [List.zipIdx_map_snd]
    exact List.nodup_range'
  exact keys.of_map

theorem Inv.order_perm (inv : b.Inv s) : (s.order b).Perm (b.places s) := by
  refine (List.perm_ext_iff_of_nodup ?_ (places_nodup b s)).mpr fun p => ?_
  · refine List.nodup_append.mpr ⟨inv.once.of_map, (places_nodup b s).filter _, ?_⟩
    rintro p old q fresh rfl
    have new := of_decide_eq_true (List.mem_filter.mp fresh).2
    exact new (List.mem_map_of_mem old)
  · unfold State.order
    rw [List.mem_append, List.mem_filter]
    constructor
    · rintro (old | fresh)
      · exact (inv.known p old).1
      · exact fresh.1
    · intro placed
      by_cases old : p.2 ∈ s.yielded.map Prod.snd
      · obtain ⟨q, member, same⟩ := List.mem_map.mp old
        have place := List.mem_zipIdx_iff_getElem?.mp (inv.known q member).1
        rw [same, List.mem_zipIdx_iff_getElem?.mp placed] at place
        have item : p.1 = q.1 := Option.some.inj place
        exact Or.inl (Prod.ext item same.symm ▸ member)
      · exact Or.inr ⟨placed, decide_eq_true old⟩

theorem Inv.order_length (inv : b.Inv s) : (s.order b).length = s.submitted := by
  rw [inv.order_perm.length_eq]
  simp [places, inv.bound]

/-- The collecting loop is through with the result that it leaves with. -/
theorem Inv.collected_order (inv : b.Inv s) {result : Except PyExc (List (Row α))}
    (collected : b.collected s = result)
    (all : ∀ out, result = .ok out → s.yielded.length = s.submitted) :
    collectAll ((b.places s).map fun p => (future b.run p, p.2)) ((s.order b).map (future b.run)) =
      result := by
  rcases result with exc | out
  · unfold State.order
    rw [List.map_append, collectAll_append]
    unfold Backend.collected at collected
    rw [collected]
    rfl
  · have length := inv.order_length
    have none : (s.order b) = s.yielded := by
      unfold State.order at length ⊢
      rw [List.length_append, all out rfl] at length
      have empty := List.eq_nil_of_length_eq_zero (Nat.add_eq_left.mp length)
      rw [empty, List.append_nil]
    rw [none]
    exact collected

theorem Inv.placed_cancel (inv : b.Inv s) : placed (s.cancel b) b.items = b.places s := by
  unfold placed places
  rw [inv.submitted_cancel]

open Classical in
/-- An executor whose futures complete in the given order. -/
noncomputable def poolOf (futures ordered : List (Future α)) (perm : ordered.Perm futures) :
    Pool α where
  refuses _ := none
  asCompleted fs := if fs = futures then ordered else fs
  everyOnce fs := by
    split_ifs with same
    · exact same ▸ perm
    · exact List.Perm.refl fs

theorem Inv.returns (inv : b.Inv s) {result : Except PyExc (List (Row α))}
    (returned : s.phase = .returned result) {host : Host} {maxWorkers : Option Int}
    (made : _makeExecutor host "thread" (Batch.workers maxWorkers host.cpuCount) =
      .ok (.threads b.executor)) :
    ∃ pool : Pool α, (∀ k, pool.refuses k = none) ∧
      _runBackend host "thread" maxWorkers pool (b.items.mapIdx fun i item => (i, b.run i item))
        (s.cancel b) = result := by
  obtain ⟨collected, all⟩ : b.collected s = result ∧
      ∀ out, result = .ok out → s.yielded.length = s.submitted := by
    have collects := inv.collects
    unfold Collects at collects
    rw [returned] at collects
    exact collects.1
  let pool := poolOf _ _ (inv.order_perm.map (future b.run))
  have accepts : ∀ k, pool.refuses k = none := fun _ => rfl
  have completes : pool.asCompleted ((b.places s).map (future b.run)) =
      (s.order b).map (future b.run) := if_pos rfl
  obtain ⟨order, -, images, ran⟩ := _runBackend_run accepts made (s.cancel b) b.run b.items
  refine ⟨pool, accepts, ?_⟩
  rw [ran, images, inv.placed_cancel, completes]
  exact inv.collected_order collected all

/-- In every interleaving of the submitting thread with the workers: no more tasks are at work
than there are workers, no task's function is called twice, and however `_run_backend` is
left, every task submitted has run to its end, the others were held back by the event, and
the result is that of the batch over some pool. -/
theorem interleavings_return_batch (b : Backend J α) {s : State J α}
    (reachable : b.system.Reachable s) {host : Host} {maxWorkers : Option Int}
    (made : _makeExecutor host "thread" (Batch.workers maxWorkers host.cpuCount) =
      .ok (.threads b.executor)) :
    s.running.card ≤ b.workers ∧ (∀ k, s.calls k ≤ 1) ∧
      ∀ result, s.phase = .returned result →
        (∀ k < s.submitted, s.fate k = .finished ∧ s.calls k = 1) ∧
        (∀ k, s.submitted ≤ k → s.calls k = 0) ∧
        (s.submitted < b.items.length → s.isSet = true) ∧
        ∃ pool : Pool α, (∀ k, pool.refuses k = none) ∧
          _runBackend host "thread" maxWorkers pool
            (b.items.mapIdx fun i item => (i, b.run i item)) (s.cancel b) = result := by
  have inv := Inv.of_reachable reachable
  refine ⟨inv.busy, fun k => ?_, fun result returned => ?_⟩
  · rw [inv.called]
    cases s.fate k <;> decide
  · have idle : s.unfinished = ∅ := by
      have collects := inv.collects
      unfold Collects at collects
      rw [returned] at collects
      exact collects.2
    have done (k : Nat) (known : k < s.submitted) : s.fate k = .finished := by
      by_contra working
      have member : k ∈ s.unfinished := mem_unfinished.mpr ⟨known, working⟩
      rw [idle] at member
      exact Finset.notMem_empty k member
    refine ⟨fun k known => ⟨done k known, ?_⟩, fun k beyond => ?_, ?_, inv.returns returned made⟩
    · rw [inv.called, done k known]
      rfl
    · rw [inv.called, (inv.fresh k).mpr beyond]
      rfl
    · exact inv.stopped (by rw [returned]; exact nofun) (by rw [returned]; exact nofun)

/-- Two items for one worker; the second fails. -/
def pair : Backend String Nat where
  executor := .gevent
  workers := 1
  items := ["a", "b"]
  run k _ := if k = 0 then .ok 7 else .error { cls := .valueError, text := "bad" }
  cancellable := true

/-- The second submission waits for the slot of the first task. -/
def pairRun : List (Act × State String Nat) :=
  Lts.follow pair.act {} [.check, .submit, .check, .start 0, .finish 0, .submit, .start 1, .check,
    .finish 1, .yield 1, .yield 0, .exhaust, .join]

theorem interleavings_return_batch_pair :
    ∃ pool : Pool Nat, (∀ k, pool.refuses k = none) ∧
      _runBackend { geventPatched := true } "thread" (some 1) pool
          (["a", "b"].mapIdx fun i item => (i, pair.run i item)) none =
        .ok [(1, none, some { cls := .valueError, text := "bad" }), (0, some 7, none)] := by
  have isRun : pair.system.IsRun {} pairRun := Lts.follow_isRun (fun _ _ _ taken => taken) _ _
  have reachable : pair.system.Reachable (Lts.last {} pairRun) := ⟨{}, pairRun, rfl, isRun, rfl⟩
  have made : _makeExecutor { geventPatched := true } "thread" (Batch.workers (some 1) none) =
      .ok (.threads pair.executor) := rfl
  obtain ⟨-, -, served⟩ := interleavings_return_batch pair reachable made
  exact (served _ rfl).2.2.2

/-! ## Progress -/

/-- How many steps a task is from its end. -/
def Fate.weight : Fate → Nat
  | .unsubmitted => 4
  | .queued => 2
  | .running => 1
  | .finished => 0

/-- A bound on the steps that are left. -/
def State.rank (b : Backend J α) (s : State J α) : Nat :=
  (∑ k ∈ Finset.range b.items.length, (s.fate k).weight) + match s.phase with
    | .looping => b.items.length + 4
    | .submitting => b.items.length + 3
    | .collecting _ => b.items.length + 2 - s.yielded.length
    | .leaving _ => 1
    | .returned _ => 0

theorem weight_update {n k : Nat} (inside : k < n) (fate : Nat → Fate) (next : Fate) :
    (∑ j ∈ Finset.range n, (Function.update fate k next j).weight) + (fate k).weight =
      (∑ j ∈ Finset.range n, (fate j).weight) + next.weight :=
  tally_update Fate.weight fate (Finset.mem_range.mpr inside) next

theorem Inv.yielded_le (inv : b.Inv s) : s.yielded.length ≤ s.submitted := by
  rw [← inv.order_length]
  exact (List.sublist_append_left _ _).length_le

/-- Every step but the setting of the event is progress. -/
theorem Inv.rank_step (inv : b.Inv s) {a : Act} (step : b.Step s a t) :
    t.rank b < s.rank b ∨ a = .setEvent ∧ t.rank b = s.rank b := by
  have next := inv.step step
  have most := inv.bound
  have taken := inv.yielded_le
  cases step with
  | setEvent cancellable => exact Or.inr ⟨rfl, rfl⟩
  | stop looping ends =>
      refine Or.inl ?_
      unfold State.rank
      rw [looping]
      dsimp only
      omega
  | goOn looping more =>
      refine Or.inl ?_
      unfold State.rank
      rw [looping]
      dsimp only
      omega
  | submit submitting slot =>
      refine Or.inl ?_
      have more : s.submitted < b.items.length := next.bound
      have moved := weight_update more s.fate .queued
      have fresh : s.fate s.submitted = .unsubmitted := (inv.fresh _).mpr (Nat.le_refl _)
      rw [fresh] at moved
      unfold State.rank
      rw [submitting]
      simp only [State.move, Fate.weight] at moved ⊢
      omega
  | @start k queued free =>
      have known := inv.submitted_of_fate (k := k) (by rw [queued]; exact nofun)
      have moved := weight_update (known.trans_le most) s.fate .running
      rw [queued] at moved
      refine Or.inl (Nat.add_lt_add_right ?_ _)
      simp only [State.move, Fate.weight] at moved ⊢
      omega
  | @finish k running =>
      have known := inv.submitted_of_fate (k := k) (by rw [running]; exact nofun)
      have moved := weight_update (known.trans_le most) s.fate .finished
      rw [running] at moved
      refine Or.inl (Nat.add_lt_add_right ?_ _)
      simp only [State.move, Fate.weight] at moved ⊢
      omega
  | @yield k out item collecting given finished new =>
      have more : s.yielded.length + 1 ≤ s.submitted := by
        have length := next.yielded_le
        rwa [collect_yielded, collect_submitted, List.length_append] at length
      refine Or.inl ?_
      unfold State.rank collect
      rw [collecting]
      rcases b.run k item with exc | value
      · by_cases caught : exc.isException = true
        · simp only [if_pos caught, List.length_append, List.length_singleton]
          omega
        · simp only [if_neg caught]
          omega
      · simp only [List.length_append, List.length_singleton]
        omega
  | exhaust collecting all =>
      refine Or.inl ?_
      unfold State.rank
      rw [collecting]
      dsimp only
      omega
  | join leaving idle =>
      refine Or.inl ?_
      unfold State.rank
      rw [leaving]
      dsimp only
      omega

/-- While a task is not finished, some worker can go on. -/
theorem Inv.works (inv : b.Inv s) (positive : 0 < b.workers) (working : s.unfinished ≠ ∅) :
    ∃ a, a ≠ .setEvent ∧ b.act s a ≠ none := by
  have finishes {k : Nat} (running : s.fate k = .running) :
      ∃ a, a ≠ .setEvent ∧ b.act s a ≠ none :=
    ⟨.finish k, nofun, by simp [act, running]⟩
  obtain ⟨k, member⟩ := Finset.nonempty_iff_ne_empty.mpr working
  obtain ⟨known, open'⟩ := mem_unfinished.mp member
  cases fate : s.fate k with
  | unsubmitted => exact absurd ((inv.fresh k).mp fate) (by omega)
  | queued =>
      by_cases free : s.running.card < b.workers
      · exact ⟨.start k, nofun, by simp [act, fate, free]⟩
      · obtain ⟨j, busy⟩ := Finset.card_pos.mp (show 0 < s.running.card by omega)
        exact finishes (mem_running.mp busy).2
  | running => exact finishes fate
  | finished => exact absurd fate open'

/-- Until all futures have been yielded, there is one that has not. -/
theorem Inv.unyielded (inv : b.Inv s) (more : s.yielded.length ≠ s.submitted) :
    ∃ p ∈ b.places s, p.2 ∉ s.yielded.map Prod.snd := by
  have length := inv.order_length
  unfold State.order at length
  rw [List.length_append] at length
  obtain ⟨p, member⟩ := List.exists_mem_of_length_pos
    (show 0 < ((b.places s).filter fun p => p.2 ∉ s.yielded.map Prod.snd).length by omega)
  obtain ⟨placed, new⟩ := List.mem_filter.mp member
  exact ⟨p, placed, of_decide_eq_true new⟩

/-- Until the function has returned, some step can be taken. -/
theorem Inv.unstuck (inv : b.Inv s) (positive : 0 < b.workers)
    (stuck : ∀ a, a ≠ .setEvent → b.act s a = none) : ∃ result, s.phase = .returned result := by
  by_contra running
  suffices goes : ∃ a, a ≠ .setEvent ∧ b.act s a ≠ none by
    obtain ⟨a, loud, goes⟩ := goes
    exact goes (stuck a loud)
  by_cases idle : s.unfinished = ∅
  · cases phase : s.phase with
    | looping =>
        refine ⟨.check, nofun, ?_⟩
        dsimp only [act]
        rw [phase]
        dsimp only
        split_ifs <;> exact nofun
    | submitting =>
        have slot : ¬ (b.executor = .gevent ∧ b.workers ≤ s.unfinished.card) := by
          rw [idle, Finset.card_empty]
          omega
        exact ⟨.submit, nofun, by simp [act, phase, slot]⟩
    | collecting out =>
        by_cases all : s.yielded.length = s.submitted
        · exact ⟨.exhaust, nofun, by simp [act, phase, all]⟩
        · obtain ⟨p, placed, new⟩ := inv.unyielded all
          have item := List.mem_zipIdx_iff_getElem?.mp placed
          rw [List.getElem?_take] at item
          obtain ⟨known, item⟩ := Option.ite_none_right_eq_some.mp item
          have finished : s.fate p.2 = .finished := by
            by_contra open'
            have member := mem_unfinished.mpr ⟨known, open'⟩
            rw [idle] at member
            exact Finset.notMem_empty _ member
          refine ⟨.yield p.2, nofun, ?_⟩
          dsimp only [act]
          rw [phase, item]
          dsimp only
          rw [if_pos ⟨finished, new⟩]
          exact nofun
    | leaving result => exact ⟨.join, nofun, by simp [act, phase, idle]⟩
    | returned result => exact absurd ⟨result, phase⟩ running
  · exact inv.works positive idle

/-- Every interleaving ends: there are at most so many steps besides the setting of the event,
and where none of them can be taken, `_run_backend` has returned. -/
theorem interleavings_end (b : Backend J α) (positive : 0 < b.workers)
    (run : List (Act × State J α)) (isRun : b.system.IsRun {} run) :
    run.countP (fun edge => ¬ edge.1 = .setEvent) ≤ 5 * b.items.length + 4 ∧
      ((∀ a, a ≠ .setEvent → b.act (Lts.last {} run) a = none) →
        ∃ result, (Lts.last {} run).phase = .returned result) := by
  have steps := isRun.count_le (Q := (· = .setEvent)) (State.rank b) (Inv.init b)
    fun s a t inv step => by
      have taken := step_of_act step
      exact ⟨inv.step taken, (inv.rank_step taken).imp_right fun quiet => ⟨quiet.1, quiet.2.le⟩⟩
  have first : State.rank b ({} : State J α) = 5 * b.items.length + 4 := by
    unfold State.rank
    simp [Fate.weight]
    omega
  have inv : b.Inv (Lts.last {} run) :=
    Inv.of_reachable ⟨{}, run, rfl, isRun, rfl⟩
  refine ⟨by omega, inv.unstuck positive⟩

theorem interleavings_end_pair :
    pairRun.countP (fun edge => ¬ edge.1 = .setEvent) ≤ 5 * pair.items.length + 4 ∧
      ((∀ a, a ≠ .setEvent → pair.act (Lts.last {} pairRun) a = none) →
        ∃ result, (Lts.last {} pairRun).phase = .returned result) :=
  interleavings_end pair (by decide) pairRun (Lts.follow_isRun (fun _ _ _ taken => taken) _ _)

end Backend

end Batch

end NewtuaPy
