import NewtuaPy.Batch
import NewtuaPy.Lib.Slots

/-!
# What a batch collates

Whatever the order in which the futures complete, a batch returns one result for
each submitted item, in the order of the items, and runs one callback for each
in the order of completion.  This holds as long as every submitted task ends in
a value or an `Exception`; one task that ends in any other exception takes the
whole batch down.
-/

namespace NewtuaPy

namespace Batch

variable {α σ J R : Type}

/-! ## Submission -/

/-- How many of `n` tasks are submitted when `k` have been. -/
def submittedFrom (cancel : Cancel) : Nat → Nat → Nat
  | _, 0 => 0
  | k, n + 1 => if cancel.isSet k then 0 else submittedFrom cancel (k + 1) n + 1

def submitted (cancel : Cancel) (n : Nat) : Nat := submittedFrom cancel 0 n

/-- Submission goes on exactly until the event is seen set. -/
theorem submittedFrom_spec (cancel : Cancel) (k n : Nat) :
    submittedFrom cancel k n ≤ n ∧
      (∀ j < submittedFrom cancel k n, cancel.isSet (k + j) = false) ∧
      (submittedFrom cancel k n < n → cancel.isSet (k + submittedFrom cancel k n) = true) := by
  induction n generalizing k with
  | zero => exact ⟨Nat.le_refl 0, nofun, nofun⟩
  | succ n ih =>
      unfold submittedFrom
      by_cases seen : cancel.isSet k = true
      · rw [if_pos seen]
        exact ⟨Nat.zero_le _, nofun, fun _ => seen⟩
      · rw [if_neg seen]
        obtain ⟨bound, unset, stop⟩ := ih (k + 1)
        refine ⟨by omega, ?_, ?_⟩
        · intro j low
          rcases j with _ | j
          · simpa using seen
          · have later := unset j (by omega)
            rwa [show k + 1 + j = k + (j + 1) by omega] at later
        · intro short
          have later := stop (by omega)
          rwa [show k + 1 + submittedFrom cancel (k + 1) n =
            k + (submittedFrom cancel (k + 1) n + 1) by omega] at later

/-- The submitted items, each with its place. -/
def placed (cancel : Cancel) (items : List J) : List (J × Nat) :=
  (items.take (submitted cancel items.length)).zipIdx

theorem mem_placed {cancel : Cancel} {items : List J} {p : J × Nat}
    (h : p ∈ placed cancel items) : items[p.2]? = some p.1 := by
  have place := List.mem_zipIdx_iff_getElem?.mp h
  rw [List.getElem?_take] at place
  split at place
  · exact place
  · cases place

/-- The future of the task at a place. -/
def future (run : Nat → J → Except PyExc α) (p : J × Nat) : Future α := ⟨p.2, run p.2 p.1⟩

@[simp] theorem future_outcome (run : Nat → J → Except PyExc α) (p : J × Nat) :
    (future run p).outcome = run p.2 p.1 := rfl

theorem submitAll_run {pool : Pool α} (accepts : ∀ k, pool.refuses k = none) (cancel : Cancel)
    (run : Nat → J → Except PyExc α) (items : List J) (k : Nat) :
    submitAll pool cancel k ((items.zipIdx k).map fun p => (p.2, run p.2 p.1)) =
      .ok (((items.take (submittedFrom cancel k items.length)).zipIdx k).map
        fun p => (future run p, p.2)) := by
  induction items generalizing k with
  | nil => rfl
  | cons item items ih =>
      simp only [List.zipIdx_cons, List.map_cons, submitAll, List.length_cons, submittedFrom,
        accepts]
      by_cases seen : cancel.isSet k = true
      · simp [seen]
      · simp only [seen, ih]
        rfl

/-! ## Collection -/

/-- The row a task's outcome becomes. -/
def row (run : Nat → J → Except PyExc α) (p : J × Nat) : Row α :=
  match run p.2 p.1 with
  | .ok value => (p.2, some value, none)
  | .error exc => (p.2, none, some (asTyped exc))

theorem futureIndex_run (run : Nat → J → Except PyExc α) {places : List (J × Nat)} {p : J × Nat}
    (h : p ∈ places) :
    futureIndex (places.map fun p => (future run p, p.2)) (future run p) = .ok p.2 := by
  unfold futureIndex
  have found : ((places.map fun p => (future run p, p.2)).find?
      fun q => q.1.id = (future run p).id).isSome = true := by
    rw [List.find?_isSome]
    exact ⟨(future run p, p.2), List.mem_map_of_mem h, by simp⟩
  obtain ⟨q, first⟩ := Option.isSome_iff_exists.mp found
  have same := List.find?_some first
  obtain ⟨p', -, rfl⟩ := List.mem_map.mp (List.mem_of_find?_eq_some first)
  rw [first]
  exact congrArg Except.ok (of_decide_eq_true same)

@[simp] theorem row_key (run : Nat → J → Except PyExc α) (p : J × Nat) :
    (row run p).1 = p.2 := by
  unfold row
  split <;> rfl

/-- A task's outcome is a value or an `Exception`. -/
def Ordinary (outcome : Except PyExc α) : Prop :=
  ∀ exc, outcome = .error exc → exc.isException = true

theorem collectAll_ordinary {run : Nat → J → Except PyExc α} {places order : List (J × Nat)}
    (known : ∀ p ∈ order, p ∈ places) (ordinary : ∀ p ∈ order, Ordinary (run p.2 p.1)) :
    collectAll (places.map fun p => (future run p, p.2)) (order.map (future run)) =
      .ok (order.map (row run)) := by
  induction order with
  | nil => rfl
  | cons p order ih =>
      have index := futureIndex_run run (known p List.mem_cons_self)
      have rest := ih (fun q member => known q (List.mem_cons_of_mem p member))
        (fun q member => ordinary q (List.mem_cons_of_mem p member))
      simp only [List.map_cons, collectAll, index, rest, row]
      rcases ends : run p.2 p.1 with exc | value
      · have caught := ordinary p List.mem_cons_self exc ends
        simp [ends, caught, bind, Except.bind, pure, Except.pure]
      · simp [ends, bind, Except.bind, pure, Except.pure]

theorem collectAll_escapes {run : Nat → J → Except PyExc α} {places order : List (J × Nat)}
    (known : ∀ p ∈ order, p ∈ places) (p : J × Nat) (member : p ∈ order)
    (escapes : ¬ Ordinary (run p.2 p.1)) :
    ∃ exc, collectAll (places.map fun p => (future run p, p.2)) (order.map (future run)) =
      .error exc := by
  induction order with
  | nil => cases member
  | cons q order ih =>
      have index := futureIndex_run run (known q List.mem_cons_self)
      simp only [List.map_cons, collectAll, index]
      by_cases ordinary : Ordinary (run q.2 q.1)
      · have later : p ∈ order := by
          rcases List.mem_cons.mp member with rfl | later
          · exact absurd ordinary escapes
          · exact later
        obtain ⟨exc, rest⟩ := ih (fun q member => known q (List.mem_cons_of_mem _ member)) later
        refine ⟨exc, ?_⟩
        rcases ends : run q.2 q.1 with exc' | value
        · have caught := ordinary exc' ends
          simp [ends, caught, rest, bind, Except.bind]
        · simp [ends, rest, bind, Except.bind]
      · unfold Ordinary at ordinary
        push Not at ordinary
        obtain ⟨exc, ends, uncaught⟩ := ordinary
        exact ⟨exc, by simp [ends, uncaught, bind, Except.bind]⟩

/-- The tasks, as the two functions number them. -/
theorem tasks_eq (run : Nat → J → Except PyExc α) (items : List J) :
    items.mapIdx (fun i item => (i, run i item)) =
      (items.zipIdx 0).map fun p => (p.2, run p.2 p.1) :=
  List.mapIdx_eq_zipIdx_map

/-- A batch on an executor that takes every task collects the futures of the
submitted items, in some order. -/
theorem _runBackend_run {pool : Pool α} (accepts : ∀ k, pool.refuses k = none)
    {host : Host} {backend : String} {maxWorkers : Option Int} {executor : Executor}
    (made : _makeExecutor host backend (workers maxWorkers host.cpuCount) = .ok executor)
    (cancel : Cancel) (run : Nat → J → Except PyExc α) (items : List J) :
    ∃ order : List (J × Nat), order.Perm (placed cancel items) ∧
      order.map (future run) = pool.asCompleted ((placed cancel items).map (future run)) ∧
      _runBackend host backend maxWorkers pool
          (items.mapIdx fun i item => (i, run i item)) cancel =
        collectAll ((placed cancel items).map fun p => (future run p, p.2))
          (order.map (future run)) := by
  have submits := submitAll_run accepts cancel run items 0
  have complete := pool.everyOnce ((placed cancel items).map (future run))
  obtain ⟨order, perm, images⟩ := Slots.exists_perm_of_map complete
  refine ⟨order, perm, images.symm, ?_⟩
  unfold _runBackend
  rw [made, tasks_eq, submits, ← images]
  simp only [bind, Except.bind, List.map_map]
  rfl

/-! ## The results -/

theorem fillSlots_cons {items : List J} {item : J} {r : Row α} (place : items[r.1]? = some item)
    (result : J → Option α → Option PyExc → R) (callbacks : Callbacks σ J α)
    (raw : List (Row α)) (slots : List (Option R)) :
    fillSlots items result callbacks (r :: raw) slots = (do
      callbacks.notify item r.2.1 r.2.2
      fillSlots items result callbacks raw
        (slots.set r.1 (some (result item r.2.1 r.2.2)))) := by
  obtain ⟨i, value, error⟩ := r
  dsimp only at place
  simp only [fillSlots, place]

/-- The loop runs the callbacks in the order of the rows, and fills one slot for
each row. -/
theorem fillSlots_run (items : List J) (result : J → Option α → Option PyExc → R)
    (callbacks : Callbacks σ J α) (run : Nat → J → Except PyExc α) {order : List (J × Nat)}
    (known : ∀ p ∈ order, items[p.2]? = some p.1) (slots : List (Option R)) :
    fillSlots items result callbacks (order.map (row run)) slots = (do
      order.forM fun p => callbacks.notify p.1 (row run p).2.1 (row run p).2.2
      pure (Slots.fill slots
        (order.map fun p => (p.2, result p.1 (row run p).2.1 (row run p).2.2)))) := by
  induction order generalizing slots with
  | nil => rfl
  | cons p order ih =>
      have place : items[(row run p).1]? = some p.1 := by
        rw [row_key]
        exact known p List.mem_cons_self
      have rest := ih fun q member => known q (List.mem_cons_of_mem p member)
      rw [List.map_cons, fillSlots_cons place, rest, row_key]
      exact (Exn.bind_assoc _ _ _).symm

/-- The record of an item whose task has ended. -/
def settle (make : J → Option α → Option PyExc → R) (item : J) : Except PyExc α → R
  | .ok value => make item (some value) none
  | .error exc => make item none (some (asTyped exc))

/-- The callback for an item whose task has ended: `on_result` or `on_error`, if given. -/
def Callbacks.call (callbacks : Callbacks σ J α) (item : J) : Except PyExc α → Py σ Unit
  | .ok value => match callbacks.onResult with
    | some onResult => onResult item (some value)
    | none => pure ()
  | .error exc => match callbacks.onError with
    | some onError => onError item (asTyped exc)
    | none => pure ()

theorem row_settle (make : J → Option α → Option PyExc → R) (run : Nat → J → Except PyExc α)
    (p : J × Nat) : make p.1 (row run p).2.1 (row run p).2.2 = settle make p.1 (run p.2 p.1) := by
  unfold row settle
  rcases run p.2 p.1 with exc | value <;> rfl

theorem settle_notify (callbacks : Callbacks σ J α) (item : J) (outcome : Except PyExc α) :
    settle callbacks.notify item outcome = callbacks.call item outcome := by
  rcases outcome with exc | value <;> rfl

/-- One result for each submitted item, in the order of the items. -/
def collated (result : J → Option α → Option PyExc → R) (run : Nat → J → Except PyExc α)
    (cancel : Cancel) (items : List J) : List R :=
  (placed cancel items).map fun p => settle result p.1 (run p.2 p.1)

theorem placed_results (cancel : Cancel) (items : List J) (f : J × Nat → R) :
    ((placed cancel items).map f).zipIdx.map Prod.swap =
      (placed cancel items).map fun p => (p.2, f p) := by
  apply List.ext_getElem?
  intro i
  simp only [placed, List.getElem?_map, List.getElem?_zipIdx, Option.map_map]
  rcases (items.take (submitted cancel items.length))[i]? with _ | item
  · rfl
  · simp

/-- `x` submits the items up to the first at which the event is seen set, runs
the callback of each submitted item once, in the order in which the pool
completes them, and returns one result for each, whatever that order was. -/
structure Collates (x : Py σ (List R)) (pool : Pool α) (result : J → Option α → Option PyExc → R)
    (run : Nat → J → Except PyExc α) (callbacks : Callbacks σ J α) (cancel : Cancel)
    (items : List J) : Prop where
  bound : submitted cancel items.length ≤ items.length
  unset : ∀ k < submitted cancel items.length, cancel.isSet k = false
  stop : submitted cancel items.length < items.length →
    cancel.isSet (submitted cancel items.length) = true
  runs : ∃ order : List (J × Nat), order.Perm (placed cancel items) ∧
    order.map (future run) = pool.asCompleted ((placed cancel items).map (future run)) ∧
    x = do
      order.forM fun p => callbacks.call p.1 (run p.2 p.1)
      pure (collated result run cancel items)

variable {pool : Pool α} {host : Host} {backend : String} {maxWorkers : Option Int}
  {executor : Executor}
  {result : J → Option α → Option PyExc → R} {run : Nat → J → Except PyExc α}
  {callbacks : Callbacks σ J α} {cancel : Cancel} {items : List J}

variable (result run callbacks cancel items) in
/-- A batch on an executor that takes every task collects the futures of the
submitted items in some order, then fills the slots. -/
theorem runMany_run (accepts : ∀ k, pool.refuses k = none)
    (made : _makeExecutor host backend (workers maxWorkers host.cpuCount) = .ok executor) :
    ∃ order : List (J × Nat), order.Perm (placed cancel items) ∧
      order.map (future run) = pool.asCompleted ((placed cancel items).map (future run)) ∧
      runMany result run host backend maxWorkers pool callbacks cancel items = (do
        let raw ← Exn.lift (collectAll ((placed cancel items).map fun p => (future run p, p.2))
          (order.map (future run)))
        let results ← fillSlots items result callbacks raw (List.replicate items.length none)
        pure (results.filterMap id)) := by
  obtain ⟨order, perm, completed, collects⟩ := _runBackend_run accepts made cancel run items
  refine ⟨order, perm, completed, ?_⟩
  unfold runMany
  dsimp only
  rw [collects]

theorem runMany_collates (accepts : ∀ k, pool.refuses k = none)
    (made : _makeExecutor host backend (workers maxWorkers host.cpuCount) = .ok executor)
    (ordinary : ∀ p ∈ placed cancel items, Ordinary (run p.2 p.1)) :
    Collates (runMany result run host backend maxWorkers pool callbacks cancel items)
      pool result run callbacks cancel items := by
  obtain ⟨bound, unset, stop⟩ := submittedFrom_spec cancel 0 items.length
  simp only [Nat.zero_add] at unset stop
  refine ⟨bound, unset, stop, ?_⟩
  obtain ⟨order, perm, completed, unfolded⟩ :=
    runMany_run result run callbacks cancel items accepts made
  have known : ∀ p ∈ order, p ∈ placed cancel items := fun p member => perm.mem_iff.mp member
  have rows := collectAll_ordinary known fun p member => ordinary p (known p member)
  have keys : (order.map fun p => (p.2, settle result p.1 (run p.2 p.1))).Perm
      ((collated result run cancel items).zipIdx.map Prod.swap) := by
    rw [collated, placed_results]
    exact perm.map _
  have fits : (collated result run cancel items).length ≤ items.length := by
    simp [collated, placed]
  have filled := fillSlots_run items result callbacks run
    (fun p member => mem_placed (known p member)) (List.replicate items.length none)
  simp only [row_settle, settle_notify] at filled
  refine ⟨order, perm, completed, ?_⟩
  rw [unfolded, rows]
  change fillSlots _ _ _ _ _ >>= _ = _
  rw [filled, Exn.bind_assoc]
  change (order.forM _ >>= fun _ => pure ((Slots.fill _ _).filterMap id)) = _
  rw [Slots.filterMap_fill keys fits]

variable (result) in
theorem runMany_escapes (accepts : ∀ k, pool.refuses k = none)
    (made : _makeExecutor host backend (workers maxWorkers host.cpuCount) = .ok executor)
    (p : J × Nat) (member : p ∈ placed cancel items) (escapes : ¬ Ordinary (run p.2 p.1)) (s : σ) :
    ∃ exc,
      runMany result run host backend maxWorkers pool callbacks cancel items s =
        (.error exc, s) := by
  obtain ⟨order, perm, -, unfolded⟩ :=
    runMany_run result run callbacks cancel items accepts made
  have known : ∀ p ∈ order, p ∈ placed cancel items := fun p member => perm.mem_iff.mp member
  obtain ⟨exc, lost⟩ := collectAll_escapes known p (perm.mem_iff.mpr member) escapes
  refine ⟨exc, ?_⟩
  rw [unfolded, lost]
  rfl

/-- The callbacks return. -/
def Callbacks.Quiet (callbacks : Callbacks σ J α) : Prop :=
  ∀ item value error s, ∃ s', callbacks.notify item value error s = (.ok (), s')

theorem Callbacks.forM_quiet (quiet : callbacks.Quiet) (run : Nat → J → Except PyExc α)
    (order : List (J × Nat)) (s : σ) :
    ∃ s', (order.forM fun p => callbacks.call p.1 (run p.2 p.1)) s = (.ok (), s') := by
  induction order generalizing s with
  | nil => exact ⟨s, rfl⟩
  | cons p order ih =>
      have first : ∃ s', callbacks.call p.1 (run p.2 p.1) s = (.ok (), s') := by
        rw [← settle_notify]
        unfold settle
        rcases run p.2 p.1 with exc | value
        · exact quiet _ _ _ s
        · exact quiet _ _ _ s
      obtain ⟨s', first⟩ := first
      obtain ⟨s'', rest⟩ := ih s'
      exact ⟨s'', (Exn.bind_of_ok first _).trans rest⟩

/-! ## Worker counts -/

/-- The worker counts that the executor of a backend takes. -/
def Takes (host : Host) (backend : String) (n : Int) : Prop :=
  0 < n ∧ (backend = "process" →
    (host.windows = true → n ≤ 61) ∧ n < 2 ^ 31 - 1 ∧ n < host.semValueMax)

theorem workers_ne_zero (maxWorkers : Option Int) (cpuCount : Option Nat) :
    workers maxWorkers cpuCount ≠ 0 := by
  unfold workers
  split
  · next found => simpa using (Option.filter_eq_some_iff.mp found).2
  · next found => simpa using (Option.filter_eq_some_iff.mp found).2
  · decide

theorem workers_pos (count cpuCount : Option Nat) :
    0 < workers (count.map Int.ofNat) cpuCount := by
  have nonzero := workers_ne_zero (count.map Int.ofNat) cpuCount
  have natural : 0 ≤ workers (count.map Int.ofNat) cpuCount := by
    unfold workers
    split
    · next found =>
      obtain ⟨given, -⟩ := Option.filter_eq_some_iff.mp found
      obtain ⟨k, -, rfl⟩ := Option.map_eq_some_iff.mp given
      exact Int.natCast_nonneg k
    · exact Int.natCast_nonneg _
    · decide
  omega

theorem _makeExecutor_takes {n : Int} (offered : backend = "thread" ∨ backend = "process")
    (takes : Takes host backend n) : ∃ executor, _makeExecutor host backend n = .ok executor := by
  obtain ⟨positive, limits⟩ := takes
  unfold _makeExecutor
  rcases offered with rfl | rfl
  · rw [if_pos rfl]
    by_cases patched : host.geventPatched = true
    · rw [if_pos patched, if_neg (by omega)]
      exact ⟨_, rfl⟩
    · rw [if_neg patched, if_neg (by omega)]
      exact ⟨_, rfl⟩
  · obtain ⟨windows, queue, semaphore⟩ := limits rfl
    rw [if_neg (by decide), if_pos rfl, if_neg (by omega), if_neg, if_neg (by omega),
      if_neg (by omega)]
    · exact ⟨_, rfl⟩
    · rintro ⟨onWindows, above⟩
      have bound := windows onWindows
      omega

theorem _makeExecutor_refuses {n : Int} (nonzero : n ≠ 0) (refused : ¬Takes host backend n) :
    ∃ exc, _makeExecutor host backend n = .error exc := by
  unfold _makeExecutor
  by_cases thread : backend = "thread"
  · have negative : ¬0 < n := by
      intro positive
      refine refused ⟨positive, fun process => ?_⟩
      rw [thread] at process
      exact absurd process (by decide)
    rw [if_pos thread]
    by_cases patched : host.geventPatched = true
    · rw [if_pos patched, if_pos (by omega)]
      exact ⟨_, rfl⟩
    · rw [if_neg patched, if_pos (by omega)]
      exact ⟨_, rfl⟩
  rw [if_neg thread]
  by_cases process : backend = "process"
  · rw [if_pos process]
    by_cases positive : 0 < n
    · by_cases windows : host.windows = true ∧ 61 < n
      · rw [if_neg (by omega), if_pos windows]
        exact ⟨_, rfl⟩
      by_cases queue : 2 ^ 31 ≤ n + 1
      · rw [if_neg (by omega), if_neg windows, if_pos queue]
        exact ⟨_, rfl⟩
      by_cases semaphore : (host.semValueMax : Int) < n + 1
      · rw [if_neg (by omega), if_neg windows, if_neg queue, if_pos semaphore]
        exact ⟨_, rfl⟩
      refine absurd ⟨positive, fun _ => ⟨fun onWindows => ?_, by omega, by omega⟩⟩ refused
      by_contra above
      exact windows ⟨onWindows, by omega⟩
    · exact ⟨_, if_pos (by omega)⟩
  · rw [if_neg process]
    exact ⟨_, rfl⟩

theorem takes_thread {n : Int} (positive : 0 < n) : Takes host "thread" n :=
  ⟨positive, fun process => absurd process (by decide)⟩

theorem made_thread (host : Host) (count : Option Nat) :
    ∃ executor, _makeExecutor host "thread" (workers (count.map Int.ofNat) host.cpuCount) =
      .ok executor :=
  _makeExecutor_takes (.inl rfl) (takes_thread (workers_pos count host.cpuCount))

/-- A batch whose executor is not made submits nothing: what it raises is the same on every
pool, and no callback runs. -/
theorem runMany_unmade {exc : PyExc}
    (refused : _makeExecutor host backend (workers maxWorkers host.cpuCount) = .error exc)
    (pool : Pool α) (s : σ) :
    runMany result run host backend maxWorkers pool callbacks cancel items s =
      (.error exc, s) := by
  have raised : _runBackend host backend maxWorkers pool
      (items.mapIdx fun i item => (i, run i item)) cancel = .error exc := by
    unfold _runBackend
    rw [refused]
    rfl
  refine Exn.bind_of_error ?_ _
  rw [raised]
  rfl

/-! ## Both functions -/

/-- The job that an argument stands for: itself, or the extraction of one path into another
with the defaults of `ExtractJob`. -/
inductive Stands : JobArg → ExtractJob → Prop
  | job (job : ExtractJob) : Stands (.job job) job
  | pair (archive dest : PathArg) :
      Stands (.pair archive dest)
        { archive, dest
          password := none
          encoding := none
          selection := none
          wrapper := true
          strict := false
          preserve := true
          progress := none }

theorem stands_normalised (jobs : List JobArg) :
    List.Forall₂ Stands jobs (jobs.map _normaliseJob) := by
  induction jobs with
  | nil => exact .nil
  | cons arg jobs ih =>
      refine .cons ?_ ih
      cases arg with
      | job job => exact .job job
      | pair archive dest => exact .pair archive dest

theorem Stands.normalised {arg : JobArg} {job : ExtractJob} (h : Stands arg job) :
    _normaliseJob arg = job := by
  cases h with
  | job => rfl
  | pair => rfl

/-- The backends `extract_many` accepts for these jobs. -/
def Accepted (backend : String) (jobs : List JobArg) : Prop :=
  backend = "thread" ∨ backend = "process" ∧ ∀ job, .job job ∈ jobs → job.progress = none

theorem Accepted.offered {jobs : List JobArg} (h : Accepted backend jobs) :
    backend = "thread" ∨ backend = "process" :=
  h.imp_right And.left

theorem normalised_progress {jobs : List JobArg} :
    (∀ job ∈ jobs.map _normaliseJob, job.progress = none) ↔
      ∀ job, .job job ∈ jobs → job.progress = none := by
  constructor
  · intro plain job member
    exact plain job (List.mem_map.mpr ⟨.job job, member, rfl⟩)
  · intro plain job member
    obtain ⟨arg, listed, rfl⟩ := List.mem_map.mp member
    cases arg with
    | job job => exact plain job listed
    | pair archive dest => rfl

theorem extractMany_eq_runMany {jobs : List JobArg} (accepted : Accepted backend jobs)
    (run : Nat → ExtractJob → Except PyExc Report) (pool : Pool Report)
    (callbacks : Callbacks σ ExtractJob Report) :
    extractMany run host backend maxWorkers pool callbacks cancel jobs =
      runMany BatchResult.mk run host backend maxWorkers pool callbacks cancel
        (jobs.map _normaliseJob) := by
  unfold extractMany
  dsimp only
  rw [if_neg]
  intro rejected
  obtain ⟨process, refused⟩ := rejected
  obtain ⟨job, listed, given⟩ := List.any_eq_true.mp refused
  rcases accepted with thread | ⟨-, plain⟩
  · rw [thread] at process
    exact absurd process (by decide)
  · rw [normalised_progress.mpr plain job listed] at given
    cases given

/-- With a worker count that the executor takes, both functions collate: each of the records
is of a value or of an exception.  With any other count they raise before anything is
submitted. -/
theorem batches_collate (host : Host) (jobs : List JobArg) (archives : List PathArg)
    (extracts : Nat → ExtractJob → Except PyExc Report)
    (lists : Nat → PathArg → Except PyExc (List Entry))
    (extractPool : Pool Report) (listPool : Pool (List Entry)) (maxWorkers : Option Int)
    (cancel : Cancel) (onExtract : Callbacks σ ExtractJob Report)
    (onList : Callbacks σ PathArg (List Entry)) (accepted : Accepted backend jobs)
    (extractAccepts : ∀ k, extractPool.refuses k = none)
    (listAccepts : ∀ k, listPool.refuses k = none)
    (extractOrdinary : ∀ i job, Ordinary (extracts i job))
    (listOrdinary : ∀ i archive, Ordinary (lists i archive)) :
    (Takes host backend (workers maxWorkers host.cpuCount) →
      (∃ normalised, List.Forall₂ Stands jobs normalised ∧
        Collates
          (extractMany extracts host backend maxWorkers extractPool onExtract cancel jobs)
          extractPool BatchResult.mk extracts onExtract cancel normalised ∧
        ∀ r ∈ collated BatchResult.mk extracts cancel normalised,
          r.report.isSome = !r.error.isSome) ∧
      Collates (listMany lists host backend maxWorkers listPool onList cancel archives)
        listPool ListingResult.mk lists onList cancel archives ∧
      ∀ r ∈ collated ListingResult.mk lists cancel archives,
        r.entries.isSome = !r.error.isSome) ∧
    (¬Takes host backend (workers maxWorkers host.cpuCount) →
      ∃ exc, ∀ (extractPool : Pool Report) (listPool : Pool (List Entry)) (s : σ),
        extractMany extracts host backend maxWorkers extractPool onExtract cancel jobs s =
            (.error exc, s) ∧
          listMany lists host backend maxWorkers listPool onList cancel archives s =
            (.error exc, s)) := by
  constructor
  · intro takes
    obtain ⟨executor, made⟩ := _makeExecutor_takes accepted.offered takes
    refine ⟨⟨jobs.map _normaliseJob, stands_normalised jobs, ?_, ?_⟩, ?_, ?_⟩
    · rw [extractMany_eq_runMany accepted]
      exact runMany_collates extractAccepts made fun p _ => extractOrdinary p.2 p.1
    · intro r member
      obtain ⟨p, -, rfl⟩ := List.mem_map.mp member
      rcases extracts p.2 p.1 with exc | report <;> rfl
    · exact runMany_collates listAccepts made fun p _ => listOrdinary p.2 p.1
    · intro r member
      obtain ⟨p, -, rfl⟩ := List.mem_map.mp member
      rcases lists p.2 p.1 with exc | entries <;> rfl
  · intro refused
    obtain ⟨exc, unmade⟩ :=
      _makeExecutor_refuses (workers_ne_zero maxWorkers host.cpuCount) refused
    refine ⟨exc, fun extractPool listPool s => ⟨?_, runMany_unmade unmade listPool s⟩⟩
    rw [extractMany_eq_runMany accepted]
    exact runMany_unmade unmade extractPool s

/-- Futures complete in the opposite order. -/
def backwards : Pool α where
  refuses _ := none
  asCompleted := List.reverse
  everyOnce := List.reverse_perm

def silent : Callbacks σ J α := ⟨none, none⟩

theorem silent_quiet : (silent : Callbacks σ J α).Quiet := by
  intro item value error s
  cases error <;> exact ⟨s, rfl⟩

/-- The first archive lists, the others are damaged. -/
def firstLists : Nat → PathArg → Except PyExc (List Entry)
  | 0, _ => .ok []
  | _, _ => .error { cls := .corruptArchiveError, text := "damaged" }

def extractsNothing (_ : Nat) (_ : ExtractJob) : Except PyExc Report := .ok ⟨0, 0, false⟩

def twoArchives : List PathArg := [⟨"a.zip", "a.zip"⟩, ⟨"b.zip", "b.zip"⟩]

theorem firstLists_ordinary (i : Nat) (archive : PathArg) : Ordinary (firstLists i archive) := by
  intro exc ends
  rcases i with _ | i <;> cases ends
  rfl

theorem batches_collate_backwards :
    Collates
      (listMany firstLists {} "process" (some 3) backwards (silent : Callbacks Unit _ _) none
        twoArchives)
      backwards ListingResult.mk firstLists silent none twoArchives := by
  have takes : Takes {} "process" (workers (some 3) none) :=
    ⟨by decide, fun _ => ⟨nofun, by decide, by decide⟩⟩
  exact ((batches_collate {} [] twoArchives extractsNothing firstLists backwards backwards (some 3)
    none silent silent (.inr ⟨rfl, nofun⟩) (fun _ => rfl) (fun _ => rfl) (fun _ _ => nofun)
    firstLists_ordinary).1 takes).2.1

/-- On Windows no more than 61 processes are waited for. -/
theorem windows_refuses_processes :
    ¬Collates
      (listMany firstLists { windows := true } "process" (some 62) backwards
        (silent : Callbacks Unit _ _) none twoArchives)
      backwards ListingResult.mk firstLists silent none twoArchives := by
  intro collates
  obtain ⟨order, -, -, returns⟩ := collates.runs
  have raised : ∃ exc,
      listMany firstLists { windows := true } "process" (some 62) backwards
        (silent : Callbacks Unit _ _) none twoArchives () = (.error exc, ()) := ⟨_, rfl⟩
  obtain ⟨exc, raised⟩ := raised
  obtain ⟨s', called⟩ := Callbacks.forM_quiet silent_quiet firstLists order ()
  rw [returns, Exn.bind_of_ok called] at raised
  cases raised

/-! ## Tasks that end in any exception -/

/-- A batch whose callbacks return is itself returned from exactly when every
submitted task ends in a value or an `Exception`. -/
theorem runMany_returns_iff (accepts : ∀ k, pool.refuses k = none)
    (made : _makeExecutor host backend (workers maxWorkers host.cpuCount) = .ok executor)
    (quiet : callbacks.Quiet) (s : σ) :
    (∃ s', runMany result run host backend maxWorkers pool callbacks cancel items s =
      (.ok (collated result run cancel items), s')) ↔
    ∀ p ∈ placed cancel items, Ordinary (run p.2 p.1) := by
  constructor
  · intro returns p member
    obtain ⟨s', returned⟩ := returns
    by_contra escapes
    obtain ⟨exc, raised⟩ := runMany_escapes result accepts made p member escapes s
    rw [raised] at returned
    cases returned
  · intro ordinary
    obtain ⟨order, -, -, unfolded⟩ := (runMany_collates accepts made ordinary).runs
    obtain ⟨s', called⟩ := Callbacks.forM_quiet quiet run order s
    exact ⟨s', by rw [unfolded, Exn.bind_of_ok called]; rfl⟩

theorem thread_batches_return_iff (host : Host) (jobs : List JobArg) (archives : List PathArg)
    (extracts : Nat → ExtractJob → Except PyExc Report)
    (lists : Nat → PathArg → Except PyExc (List Entry))
    (extractPool : Pool Report) (listPool : Pool (List Entry)) (count : Option Nat)
    (cancel : Cancel) (onExtract : Callbacks σ ExtractJob Report)
    (onList : Callbacks σ PathArg (List Entry)) (s : σ)
    (extractAccepts : ∀ k, extractPool.refuses k = none)
    (listAccepts : ∀ k, listPool.refuses k = none)
    (extractQuiet : onExtract.Quiet) (listQuiet : onList.Quiet) :
    ((∃ s', extractMany extracts host "thread" (count.map Int.ofNat) extractPool onExtract
          cancel jobs s =
        (.ok (collated BatchResult.mk extracts cancel (jobs.map _normaliseJob)), s')) ↔
      ∀ p ∈ placed cancel (jobs.map _normaliseJob), Ordinary (extracts p.2 p.1)) ∧
    ((∃ s', listMany lists host "thread" (count.map Int.ofNat) listPool onList cancel
          archives s =
        (.ok (collated ListingResult.mk lists cancel archives), s')) ↔
      ∀ p ∈ placed cancel archives, Ordinary (lists p.2 p.1)) := by
  obtain ⟨executor, made⟩ := made_thread host count
  refine ⟨?_, runMany_returns_iff listAccepts made listQuiet s⟩
  rw [extractMany_eq_runMany (.inl rfl)]
  exact runMany_returns_iff extractAccepts made extractQuiet s

theorem thread_batches_return_iff_damaged :
    ∃ s', listMany firstLists {} "thread" (some 2) backwards (silent : Callbacks Unit _ _) none
        twoArchives () =
      (.ok (collated ListingResult.mk firstLists none twoArchives), s') :=
  (thread_batches_return_iff {} [] twoArchives extractsNothing firstLists backwards backwards
    (some 2) none silent silent () (fun _ => rfl) (fun _ => rfl) silent_quiet
    silent_quiet).2.mpr fun p _ => firstLists_ordinary p.2 p.1

/-- The engine panics on the only archive of the batch. -/
def panics (_ : Nat) (_ : ExtractJob) : Except PyExc Report :=
  .error (Fault.panic "index out of bounds").toPyExc

theorem panic_takes_batch_down :
    ¬ ∃ results s',
      extractMany panics {} "thread" none backwards (silent : Callbacks Unit _ _) none
        [.pair ⟨"a.zip", "a.zip"⟩ ⟨"out", "out"⟩] () = (.ok results, s') := by
  intro returns
  obtain ⟨results, s', returned⟩ := returns
  have raised :
      extractMany panics {} "thread" none backwards (silent : Callbacks Unit _ _) none
        [.pair ⟨"a.zip", "a.zip"⟩ ⟨"out", "out"⟩] () =
        (.error (Fault.panic "index out of bounds").toPyExc, ()) := rfl
  rw [raised] at returned
  cases returned

end Batch

end NewtuaPy
