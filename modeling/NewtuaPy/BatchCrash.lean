import NewtuaPy.BatchSelection
import NewtuaPy.Sending
import NewtuaPy.Lib.ProcessPool

/-!
# Worker processes that die under a batch

On `backend="process"` the batch functions submit to a `ProcessPoolExecutor`.  A
process that dies abruptly breaks the whole pool, so the jobs that have not
finished fail with it, and a later submission raises out of `_run_backend`.  A
batch keeps a death to the jobs that caused it only when nothing else was left
to do, and gives every other job its own outcome only if the job can be sent to a
process and its outcome back.
-/

namespace NewtuaPy

namespace Batch

/-! ## The executor -/

/-- The `BrokenProcessPool` an unfinished future fails with. -/
def terminated : PyExc where
  cls := .brokenProcessPool
  text := "A process in the process pool was terminated abruptly " ++
    "while the future was running or pending."

/-- The `BrokenProcessPool` a later submission raises. -/
def notUsable : PyExc where
  cls := .brokenProcessPool
  text := "A child process terminated abruptly, the process pool is not usable anymore"

/-- A schedule of a process pool: a complete run of it, and the order in which
`as_completed` yields the futures. -/
structure Schedule (pool : ProcessPool) (α : Type) where
  steps : List (ProcessPool.Step × ProcessPool.State)
  isRun : pool.system.IsRun {} steps
  complete : pool.Complete (Lts.last {} steps)
  asCompleted : List (Future α) → List (Future α)
  everyOnce : ∀ futures, (asCompleted futures).Perm futures

variable {α σ J R : Type}

namespace Schedule

variable {pool : ProcessPool} (schedule : Schedule pool α)

def final : ProcessPool.State := Lts.last {} schedule.steps

/-- The executor, as the submitting thread meets it. -/
def executor : Pool α where
  refuses k :=
    if schedule.final.refused = true ∧ k = schedule.final.submitted then some notUsable else none
  asCompleted := schedule.asCompleted
  everyOnce := schedule.everyOnce

/-- How the futures end, when `sent` is what the worker processes send back. -/
def delivers (sent : Nat → J → Except PyExc α) (i : Nat) (item : J) : Except PyExc α :=
  if schedule.final.fate i = .finished then sent i item else .error terminated

end Schedule

/-- Every job ends of its own, except those whose process dies. -/
def isolated (dies : Nat → Bool) (own : Nat → J → Except PyExc α) (i : Nat) (item : J) :
    Except PyExc α :=
  if dies i then .error terminated else own i item

/-! ## A batch over a schedule -/

theorem submittedFrom_none (k n : Nat) : submittedFrom none k n = n := by
  induction n generalizing k with
  | zero => rfl
  | succ n ih => exact congrArg (· + 1) (ih (k + 1))

/-- Without an event every item has its place. -/
theorem mem_placed_none {items : List J} {p : J × Nat} :
    p ∈ placed none items ↔ items[p.2]? = some p.1 := by
  unfold placed submitted
  rw [submittedFrom_none, List.take_length]
  exact List.mem_zipIdx_iff_getElem?

/-- A refused submission is raised. -/
theorem submitAll_refused {pool : Pool α} {m : Nat} {exc : PyExc}
    (refused : pool.refuses m = some exc) (tasks : List (Nat × Except PyExc α)) (k : Nat)
    (early : k ≤ m) (reached : m < k + tasks.length) :
    ∃ exc, submitAll pool none k tasks = .error exc := by
  induction tasks generalizing k with
  | nil =>
      rw [List.length_nil] at reached
      omega
  | cons task tasks ih =>
      obtain ⟨i, outcome⟩ := task
      unfold submitAll
      rcases refuses : pool.refuses k with _ | exc'
      · have later : k ≠ m := by
          intro same
          rw [same, refused] at refuses
          cases refuses
        rw [List.length_cons] at reached
        obtain ⟨exc, raised⟩ := ih (k + 1) (by omega) (by omega)
        exact ⟨exc, by rw [raised]; rfl⟩
      · exact ⟨exc', rfl⟩

variable {pool : ProcessPool} {schedule : Schedule pool α}
  {result : J → Option α → Option PyExc → R} {sent own : Nat → J → Except PyExc α}
  {host : Host} {maxWorkers : Option Int} {callbacks : Callbacks σ J α} {items : List J}

theorem Schedule.inv (schedule : Schedule pool α) : pool.Inv schedule.final :=
  (ProcessPool.Inv.init.of_run schedule.isRun).last

/-- A schedule in which a submission was refused raises out of the batch. -/
theorem runMany_refused (takes : Takes host "process" (workers maxWorkers host.cpuCount))
    (jobs : pool.jobs = items.length) (refused : schedule.final.refused = true)
    (run : Nat → J → Except PyExc α) (s : σ) :
    ∃ exc, runMany result run host "process" maxWorkers schedule.executor callbacks none items s =
      (.error exc, s) := by
  have refuses : schedule.executor.refuses schedule.final.submitted = some notUsable :=
    if_pos ⟨refused, rfl⟩
  have short := (schedule.inv.refused refused).2
  obtain ⟨exc, raised⟩ := submitAll_refused refuses
    (items.mapIdx fun i item => (i, run i item)) 0 (Nat.zero_le _) (by
      rw [List.length_mapIdx, ← jobs]
      omega)
  obtain ⟨executor, made⟩ := _makeExecutor_takes (.inr rfl) takes
  refine ⟨exc, Exn.bind_of_error ?_ _⟩
  have backend : _runBackend host "process" maxWorkers schedule.executor
      (items.mapIdx fun i item => (i, run i item)) none = .error exc := by
    unfold _runBackend
    rw [made, raised]
    rfl
  rw [backend]
  rfl

theorem Schedule.accepts (unrefused : schedule.final.refused = false) (k : Nat) :
    schedule.executor.refuses k = none := by
  apply if_neg
  intro refused
  rw [unrefused] at refused
  cases refused.1

/-- In a whole schedule the jobs whose process dies are lost, and no others. -/
theorem Schedule.delivers_whole (whole : pool.Whole schedule.final) {i : Nat}
    (known : i < pool.jobs) (item : J) :
    schedule.delivers sent i item = isolated pool.dies sent i item := by
  unfold Schedule.delivers isolated
  rcases dies : pool.dies i with _ | _
  · rw [if_pos (whole.2 i known dies)]
    rfl
  · apply if_neg
    intro finished
    cases (schedule.inv.finished i finished).symm.trans dies

theorem terminated_ordinary : Ordinary (.error terminated : Except PyExc α) := by
  intro exc ends
  cases ends
  rfl

theorem Schedule.delivers_ordinary (schedule : Schedule pool α)
    (ordinary : ∀ i item, Ordinary (sent i item)) (i : Nat) (item : J) :
    Ordinary (schedule.delivers sent i item) := by
  unfold Schedule.delivers
  split
  · exact ordinary i item
  · exact terminated_ordinary

/-- The pool's own exception is none that a task ends in. -/
theorem terminated_ne (faithful : Faithful result) {i : Nat} {item : J}
    (own' : ∀ exc, own i item = .error exc → Own exc) :
    settle result item (.error terminated) ≠ settle result item (own i item) := by
  intro same
  obtain ⟨exc, ends, typed⟩ := faithful.settle_error same
  have task := own' exc ends
  rw [task.asTyped] at typed
  have known : ExcClass.brokenProcessPool ∈ ownClasses := by
    have listed := task.cls
    rwa [← typed] at listed
  exact absurd known (by decide)

theorem isolated_dies {i : Nat} {item : J} {dies : Nat → Bool} (crashes : dies i = true) :
    isolated dies own i item = .error terminated := if_pos crashes

theorem isolated_lives {i : Nat} {item : J} {dies : Nat → Bool} (lives : dies i = false) :
    isolated dies own i item = own i item := by
  unfold isolated
  rw [lives]
  rfl

/-- The records of a batch that returns are those of the jobs' own outcomes exactly when the
schedule is whole and what comes back of every job whose process lives has the same record. -/
theorem collated_isolated_iff (complete : pool.Complete schedule.final)
    (unrefused : schedule.final.refused = false) (jobs : pool.jobs = items.length)
    (faithful : Faithful result) (ownFaults : ∀ i item exc, own i item = .error exc → Own exc) :
    collated result (schedule.delivers sent) none items =
        collated result (isolated pool.dies own) none items ↔
      pool.Whole schedule.final ∧ ∀ i item, items[i]? = some item → pool.dies i = false →
        settle result item (sent i item) = settle result item (own i item) := by
  constructor
  · intro records
    have settled := List.map_inj_left.mp records
    have spared (i : Nat) (item : J) (place : items[i]? = some item) (lives : pool.dies i = false) :
        schedule.final.fate i = .finished := by
      by_contra unfinished
      have same := settled (item, i) (mem_placed_none.mpr place)
      have lost : schedule.delivers sent i item = .error terminated := if_neg unfinished
      dsimp only at same
      rw [lost, isolated_lives lives] at same
      exact terminated_ne faithful (ownFaults i item) same
    have all : schedule.final.submitted = pool.jobs := by
      rcases complete.1 with all | refused
      · exact all
      · cases unrefused.symm.trans refused
    refine ⟨⟨all, fun k known lives => ?_⟩, fun i item place lives => ?_⟩
    · have inside : k < items.length := by
        rw [← jobs]
        exact known
      exact spared k items[k] (List.getElem?_eq_getElem inside) lives
    · have same := settled (item, i) (mem_placed_none.mpr place)
      have delivered : schedule.delivers sent i item = sent i item :=
        if_pos (spared i item place lives)
      dsimp only at same
      rwa [delivered, isolated_lives lives] at same
  · rintro ⟨whole, carried⟩
    apply List.map_congr_left
    rintro ⟨item, i⟩ member
    have place := mem_placed_none.mp member
    have known : i < pool.jobs := by
      rw [jobs]
      exact (List.getElem?_eq_some_iff.mp place).1
    dsimp only at place ⊢
    rw [Schedule.delivers_whole whole known]
    rcases dies : pool.dies i with _ | _
    · rw [isolated_lives dies, isolated_lives dies]
      exact carried i item place dies
    · rw [isolated_dies dies, isolated_dies dies]

/-- A batch keeps each death to the job that caused it exactly when its executor takes the
count of workers, the schedule is whole, and what comes back of every job whose process lives
has the record of its own outcome. -/
theorem runMany_isolates_iff (jobs : pool.jobs = items.length) (quiet : callbacks.Quiet)
    (faithful : Faithful result) (ordinary : ∀ i item, Ordinary (sent i item))
    (ownFaults : ∀ i item exc, own i item = .error exc → Own exc) (s : σ) :
    (∃ s', runMany result (schedule.delivers sent) host "process" maxWorkers schedule.executor
        callbacks none items s =
      (.ok (collated result (isolated pool.dies own) none items), s')) ↔
    Takes host "process" (workers maxWorkers host.cpuCount) ∧ pool.Whole schedule.final ∧
      ∀ i item, items[i]? = some item → pool.dies i = false →
        settle result item (sent i item) = settle result item (own i item) := by
  by_cases takes : Takes host "process" (workers maxWorkers host.cpuCount)
  case neg =>
    refine iff_of_false ?_ fun held => takes held.1
    rintro ⟨s', returned⟩
    obtain ⟨exc, unmade⟩ := _makeExecutor_refuses (workers_ne_zero maxWorkers host.cpuCount) takes
    cases (runMany_unmade unmade schedule.executor s).symm.trans returned
  obtain ⟨executor, made⟩ := _makeExecutor_takes (.inr rfl) takes
  rw [and_iff_right takes]
  rcases refused : schedule.final.refused with _ | _
  · have accepts := Schedule.accepts refused
    rw [← collated_isolated_iff schedule.complete refused jobs faithful ownFaults]
    have returns : ∃ s', runMany result (schedule.delivers sent) host "process" maxWorkers
        schedule.executor callbacks none items s =
          (.ok (collated result (schedule.delivers sent) none items), s') :=
      (runMany_returns_iff accepts made quiet s).mpr fun p _ =>
        schedule.delivers_ordinary ordinary p.2 p.1
    obtain ⟨s', returned⟩ := returns
    constructor
    · rintro ⟨s'', returned'⟩
      exact Except.ok.inj (congrArg Prod.fst (returned.symm.trans returned'))
    · intro records
      rw [records] at returned
      exact ⟨s', returned⟩
  · refine iff_of_false ?_ fun held => ?_
    · rintro ⟨s', returned⟩
      obtain ⟨exc, raised⟩ := runMany_refused takes jobs refused (schedule.delivers sent) s
      cases raised.symm.trans returned
    · have short := (schedule.inv.refused refused).2
      have all := held.1.1
      omega

/-! ## Both functions -/

/-- The items that can be sent to a process. -/
def sendable (send : J → Except PyExc Unit) (items : List J) (k : Nat) : Bool :=
  items[k]?.any fun item => (send item).isOk

/-- The items whose process dies over them.  An item that is not sent reaches no process. -/
structure Crashes (send : J → Except PyExc Unit) (items : List J) where
  dies : Nat → Bool
  runs : ∀ k, dies k = true → sendable send items k = true

/-- The pool of a batch. -/
def processPool {send : J → Except PyExc Unit} {items : List J} (crashes : Crashes send items)
    (workers : Int) : ProcessPool where
  jobs := items.length
  workers := workers
  sends := sendable send items
  dies := crashes.dies
  runs := crashes.runs

/-- A batch on processes returns with every job's own outcome, but for the jobs whose
process dies, exactly when no job has a progress callback, the executor takes the count of
workers, processes die only once every job has been submitted and every other one is
finished, and every other job can be sent and does not panic (or pickling refuses it with the
very exception that it would end in). -/
theorem process_batches_isolate_iff (pickle : Pickle) (engines : Nat → Engine)
    (worlds : Nat → World) (password encoding : Option String) (host : Host)
    (maxWorkers : Option Int) (jobs : List JobArg)
    (extractCrashes : Crashes pickle.sendJob (jobs.map _normaliseJob))
    (extractSchedule : Schedule
      (processPool extractCrashes (workers maxWorkers host.cpuCount)) Report)
    (archives : List PathArg) (listCrashes : Crashes pickle.sendPath archives)
    (listSchedule : Schedule
      (processPool listCrashes (workers maxWorkers host.cpuCount)) (List Entry))
    (onExtract : Callbacks σ ExtractJob Report) (onList : Callbacks σ PathArg (List Entry))
    (extractQuiet : onExtract.Quiet) (listQuiet : onList.Quiet) (s : σ) :
    ((∃ s', extractMany
          (extractSchedule.delivers (pickle.sent pickle.sendJob (extracts engines worlds)))
          host "process" maxWorkers extractSchedule.executor onExtract none jobs s =
        (.ok (collated BatchResult.mk (isolated extractCrashes.dies (extracts engines worlds)) none
          (jobs.map _normaliseJob)), s')) ↔
      (∀ job, .job job ∈ jobs → job.progress = none) ∧
      Takes host "process" (workers maxWorkers host.cpuCount) ∧
      Lts.AllSteps (processPool extractCrashes (workers maxWorkers host.cpuCount)).Harmless {}
        extractSchedule.steps ∧
      ∀ i job, (jobs.map _normaliseJob)[i]? = some job → extractCrashes.dies i = false →
        Portable pickle job ∧ Ordinary (extracts engines worlds i job) ∨
          Echoes pickle.sendJob (extracts engines worlds) i job) ∧
    ((∃ s', listMany
          (listSchedule.delivers (pickle.sent pickle.sendPath
            (lists engines worlds password encoding)))
          host "process" maxWorkers listSchedule.executor onList none archives s =
        (.ok (collated ListingResult.mk
          (isolated listCrashes.dies (lists engines worlds password encoding)) none archives),
            s')) ↔
      Takes host "process" (workers maxWorkers host.cpuCount) ∧
      Lts.AllSteps (processPool listCrashes (workers maxWorkers host.cpuCount)).Harmless {}
        listSchedule.steps ∧
      ∀ i archive, archives[i]? = some archive → listCrashes.dies i = false →
        pickle.refusal archive = none ∧
            Ordinary (lists engines worlds password encoding i archive) ∨
          Echoes pickle.sendPath (lists engines worlds password encoding) i archive) := by
  have extractWhole := ProcessPool.complete_whole_iff extractSchedule.isRun extractSchedule.complete
  have listWhole := ProcessPool.complete_whole_iff listSchedule.isRun listSchedule.complete
  constructor
  · rw [extractWhole]
    simp only [← Pickle.sendJob_ok]
    have carried (i : Nat) (job : ExtractJob) :
        settle BatchResult.mk job (pickle.sent pickle.sendJob (extracts engines worlds) i job) =
            settle BatchResult.mk job (extracts engines worlds i job) ↔
          Carried pickle.sendJob (extracts engines worlds) i job :=
      pickle.settle_sent_iff batchResult_faithful (extracts_own engines worlds i job)
    by_cases plain : ∀ job, .job job ∈ jobs → job.progress = none
    · rw [extractMany_eq_runMany (Or.inr ⟨rfl, plain⟩), and_iff_right plain]
      refine (runMany_isolates_iff rfl extractQuiet batchResult_faithful
        (fun i job => pickle.sent_ordinary pickle.sendJob_refuses
          (extracts_own engines worlds i job)) (extracts_own engines worlds) s).trans ?_
      simp only [carried]
      exact Iff.rfl
    · refine iff_of_false ?_ fun held => plain held.1
      rintro ⟨s', returned⟩
      push Not at plain
      obtain ⟨job, listed, given⟩ := plain
      have refused : (jobs.map _normaliseJob).any (fun job => job.progress.isSome) = true :=
        List.any_eq_true.mpr ⟨job, List.mem_map.mpr ⟨_, listed, rfl⟩,
          Option.isSome_iff_ne_none.mpr given⟩
      unfold extractMany at returned
      rw [if_pos ⟨rfl, refused⟩] at returned
      cases returned
  · rw [listWhole]
    simp only [← Pickle.sendPath_ok]
    have carried (i : Nat) (archive : PathArg) :
        settle ListingResult.mk archive
              (pickle.sent pickle.sendPath (lists engines worlds password encoding) i archive) =
            settle ListingResult.mk archive (lists engines worlds password encoding i archive) ↔
          Carried pickle.sendPath (lists engines worlds password encoding) i archive :=
      pickle.settle_sent_iff listingResult_faithful
        (lists_own engines worlds password encoding i archive)
    refine (runMany_isolates_iff rfl listQuiet listingResult_faithful
      (fun i archive => pickle.sent_ordinary pickle.sendPath_refuses
        (lists_own engines worlds password encoding i archive))
      (lists_own engines worlds password encoding) s).trans ?_
    simp only [carried]
    exact Iff.rfl

/-- One of two archives takes its process down. -/
def crashOver (k : Nat) (listed : k < 2) : Crashes plainPickle.sendPath twoArchives where
  dies := (· = k)
  runs := by
    intro j dies
    obtain rfl : j = k := of_decide_eq_true dies
    rcases j with _ | _ | j
    · rfl
    · rfl
    · omega

/-- One worker lists two archives, and dies over the second when the first is
done. -/
def diesLast : Schedule (processPool (crashOver 1 (by decide)) 1) (List Entry) where
  steps :=
    let s₁ := ProcessPool.State.after {} .submit
    let s₂ := s₁.after .submit
    let s₃ := s₂.after (.start 0)
    let s₄ := s₃.after (.finish 0)
    let s₅ := s₄.after (.start 1)
    [(.submit, s₁), (.submit, s₂), (.start 0, s₃), (.finish 0, s₄), (.start 1, s₅),
      (.crash 1, s₅.after (.crash 1))]
  isRun := by
    refine ⟨⟨?_, rfl⟩, ⟨?_, rfl⟩, ⟨?_, rfl⟩, ⟨?_, rfl⟩, ⟨?_, rfl⟩, ⟨?_, rfl⟩, True.intro⟩ <;> decide
  complete := by
    decide
  asCompleted := List.reverse
  everyOnce := List.reverse_perm

/-- Of two archives the second takes its process down after the first is done. -/
theorem process_batches_isolate_iff_last :
    ∃ s', listMany
        (diesLast.delivers (plainPickle.sent plainPickle.sendPath
          (lists (fun _ => oneFile) (fun _ => anyFile) none none)))
        {} "process" (some 1) diesLast.executor (silent : Callbacks Unit _ _) none
        twoArchives () =
      (.ok (collated ListingResult.mk
        (isolated (· = 1) (lists (fun _ => oneFile) (fun _ => anyFile) none none)) none
        twoArchives), s') := by
  let none' : Crashes plainPickle.sendJob ([].map _normaliseJob) := ⟨fun _ => false, nofun⟩
  have idle : Schedule (processPool none' 1) Report :=
    { steps := [], isRun := True.intro, complete := by decide,
      asCompleted := id, everyOnce := List.Perm.refl }
  refine (process_batches_isolate_iff plainPickle (fun _ => oneFile) (fun _ => anyFile) none none
    {} (some 1) [] none' idle twoArchives (crashOver 1 (by decide)) diesLast silent silent
    silent_quiet silent_quiet ()).2.mpr ⟨?_, ?_, ?_⟩
  · exact ⟨by decide, fun _ => ⟨nofun, by decide, by decide⟩⟩
  · refine ⟨nofun, nofun, nofun, nofun, nofun, ?_, True.intro⟩
    intro _ _
    refine ⟨rfl, ?_⟩
    decide
  · intro i archive _ _
    refine .inl ⟨rfl, fun exc raised => ?_⟩
    cases raised

/-- One worker lists two archives, and dies over the first before the second is
submitted. -/
def diesFirst : Schedule (processPool (crashOver 0 (by decide)) 1) (List Entry) where
  steps :=
    let s₁ := ProcessPool.State.after {} .submit
    let s₂ := s₁.after (.start 0)
    let s₃ := s₂.after (.crash 0)
    [(.submit, s₁), (.start 0, s₂), (.crash 0, s₃), (.submit, s₃.after .submit)]
  isRun := by
    refine ⟨⟨?_, rfl⟩, ⟨?_, rfl⟩, ⟨?_, rfl⟩, ⟨?_, rfl⟩, True.intro⟩ <;> decide
  complete := by decide
  asCompleted := List.reverse
  everyOnce := List.reverse_perm

/-- The second archive is never listed, and the batch does not return. -/
theorem death_takes_batch_down :
    ¬ ∃ results s',
      listMany
        (diesFirst.delivers (plainPickle.sent plainPickle.sendPath
          (lists (fun _ => oneFile) (fun _ => anyFile) none none)))
        {} "process" (some 1) diesFirst.executor (silent : Callbacks Unit _ _) none
        twoArchives () = (.ok results, s') := by
  rintro ⟨results, s', returned⟩
  have takes : Takes {} "process" (workers (some 1) none) :=
    ⟨by decide, fun _ => ⟨nofun, by decide, by decide⟩⟩
  have refused : diesFirst.final.refused = true := rfl
  have lost : ∃ exc, listMany
      (diesFirst.delivers (plainPickle.sent plainPickle.sendPath
        (lists (fun _ => oneFile) (fun _ => anyFile) none none)))
      {} "process" (some 1) diesFirst.executor (silent : Callbacks Unit _ _) none
      twoArchives () = (.error exc, ()) := runMany_refused takes rfl refused _ ()
  obtain ⟨exc, raised⟩ := lost
  cases raised.symm.trans returned

end Batch

end NewtuaPy
