import NewtuaPy.Archive

/-!
# Batches

`extract_many` and `list_many`: one task for each item is submitted to an
executor until the cancel event is seen set, the futures are collected in the
order in which they complete, and the outcomes are put back in the order of the
items.  The two functions share everything but the task and the result record.
-/

namespace NewtuaPy

namespace Batch

/-! ## Jobs and tasks -/

structure ExtractJob where
  archive : PathArg
  dest : PathArg
  password : Option String := none
  encoding : Option String := none
  selection : Option (List Ref) := none
  wrapper : Bool := true
  strict : Bool := false
  preserve : Bool := true
  progress : Option ProgressCallback := none

/-- What a caller may list as a job. -/
inductive JobArg
  | job (job : ExtractJob)
  | pair (archive dest : PathArg)

def _normaliseJob : JobArg → ExtractJob
  | .job job => job
  | .pair archive dest => { archive, dest }

/-- `isinstance(ref, int)`, with `int(ref)`. -/
def asInt : Ref → Option Int
  | .int i => some i
  | _ => none

/-- `_selection_indices`: a selection of integers is not looked up. -/
def _selectionIndices (eng : Engine) (job : ExtractJob) : Py World (Option (List Int)) :=
  match job.selection with
  | none => pure none
  | some refs =>
      if refs.all (fun ref => (asInt ref).isSome) then pure (some (refs.filterMap asInt))
      else do
        let (raw, _, _) ← listPath eng (.named job.archive.str) job.password job.encoding
        let (entries, _) := entriesFromRaw raw false
        let indices ← Exn.lift (refs.mapM (resolveIndex entries))
        pure (some indices)

/-- `except Exception as exc: raise _as_typed(exc)`. -/
def retyped {α : Type} (x : Py World α) : Py World α :=
  Exn.handle x fun exc => Exn.raise (if exc.isException then asTyped exc else exc)

def _extractOne (eng : Engine) (job : ExtractJob) : Py World Report :=
  retyped do
    let selection ← _selectionIndices eng job
    extractPath eng (.named job.archive.str)
      { dest := job.dest.str
        selection
        wrapper := job.wrapper
        strict := job.strict
        preserve := job.preserve
        progress := job.progress.map wrapProgress
        nameSource := some job.archive.fspath }
      job.password job.encoding

def _listOne (eng : Engine) (archive : PathArg) (password encoding : Option String) :
    Py World (List Entry) := do
  let (raw, _, _) ← retyped (listPath eng (.named archive.str) password encoding)
  pure (entriesFromRaw raw false).1

/-! ## The executor -/

/-- A `concurrent.futures.Future`: its identity, and how the task it was made for
ends.  `result()` returns or raises that outcome. -/
structure Future (α : Type) where
  id : Nat
  outcome : Except PyExc α

/-- An executor with `as_completed`.  `refuses k` is what the `k`-th `submit`
raises, if it raises. -/
structure Pool (α : Type) where
  refuses : Nat → Option PyExc
  asCompleted : List (Future α) → List (Future α)
  everyOnce : ∀ futures, (asCompleted futures).Perm futures

/-- The system the package runs on, as far as an executor depends on it. -/
structure Host where
  cpuCount : Option Nat := none
  /-- `_gevent_patched_threading()` -/
  geventPatched : Bool := false
  windows : Bool := false
  /-- `SEM_VALUE_MAX` -/
  semValueMax : Nat := 2 ^ 31 - 1

/-- `max_workers or os.cpu_count() or 1`. -/
def workers (maxWorkers : Option Int) (cpuCount : Option Nat) : Int :=
  match maxWorkers.filter (· ≠ 0), cpuCount.filter (· ≠ 0) with
  | some n, _ => n
  | none, some n => n
  | none, none => 1

/-- The executors for threads.  `_GeventExecutor` submits with `ThreadPool.spawn`, which
waits for a free slot of the pool; `cf.ThreadPoolExecutor` queues the task. -/
inductive ThreadExecutor
  | gevent
  | threadPool
deriving DecidableEq, Repr

inductive Executor
  | threads (executor : ThreadExecutor)
  | processes
deriving DecidableEq, Repr

def tooFewWorkers : PyExc where
  cls := .valueError
  text := "max_workers must be greater than 0"

/-- `_make_executor`, with what the constructors refuse. -/
def _makeExecutor (host : Host) (backend : String) (maxWorkers : Int) : Except PyExc Executor :=
  if backend = "thread" then
    if host.geventPatched then
      if maxWorkers < 0 then
        .error
          { cls := .valueError, text := "maxsize must not be negative: " ++ toString maxWorkers }
      else .ok (.threads .gevent)
    else if maxWorkers ≤ 0 then .error tooFewWorkers
    else .ok (.threads .threadPool)
  else if backend = "process" then
    if maxWorkers ≤ 0 then .error tooFewWorkers
    else if host.windows ∧ 61 < maxWorkers then
      .error { cls := .valueError, text := "max_workers must be <= 61" }
    -- the queue of calls has one place more, and its size goes to a semaphore
    else if 2 ^ 31 ≤ maxWorkers + 1 then
      .error { cls := .overflowError, text := "Python int too large to convert to C int" }
    else if host.semValueMax < maxWorkers + 1 then
      .error { cls := .osError, text := "[Errno 22] Invalid argument" }
    else .ok .processes
  else .error
    { cls := .valueError,
      text := "unknown backend '" ++ backend ++ "'; use 'thread' or 'process'" }

/-- An event that may be consulted before each submission: what `is_set()` says
before the `k`-th. -/
abbrev Cancel := Option (Nat → Bool)

def Cancel.isSet (cancel : Cancel) (k : Nat) : Bool := cancel.any (· k)

variable {α : Type}

/-- The submitting loop of `_run_backend`, with `k` tasks submitted. -/
def submitAll (pool : Pool α) (cancel : Cancel) (k : Nat) :
    List (Nat × Except PyExc α) → Except PyExc (List (Future α × Nat))
  | [] => .ok []
  | (i, outcome) :: tasks =>
      if cancel.isSet k then .ok []
      else match pool.refuses k with
        | some exc => .error exc
        | none => do
            let futures ← submitAll pool cancel (k + 1) tasks
            pure ((⟨k, outcome⟩, i) :: futures)

/-- `futures[fut]`. -/
def futureIndex (futures : List (Future α × Nat)) (fut : Future α) : Except PyExc Nat :=
  match futures.find? (fun p => p.1.id = fut.id) with
  | some (_, i) => .ok i
  | none => .error { cls := .keyError, text := "future" }

/-- A row of `_run_backend`'s result. -/
abbrev Row (α : Type) := Nat × Option α × Option PyExc

/-- The collecting loop of `_run_backend`.  Only an `Exception` is caught; any
other exception leaves the function, and what was collected is lost. -/
def collectAll (futures : List (Future α × Nat)) :
    List (Future α) → Except PyExc (List (Row α))
  | [] => .ok []
  | fut :: rest => do
      let i ← futureIndex futures fut
      let row ← match fut.outcome with
        | .ok value => .ok (i, some value, none)
        | .error exc =>
            if exc.isException then .ok (i, none, some (asTyped exc)) else .error exc
      let out ← collectAll futures rest
      pure (row :: out)

def _runBackend (host : Host) (backend : String) (maxWorkers : Option Int) (pool : Pool α)
    (tasks : List (Nat × Except PyExc α)) (cancel : Cancel) : Except PyExc (List (Row α)) := do
  let _ ← _makeExecutor host backend (workers maxWorkers host.cpuCount)
  let futures ← submitAll pool cancel 0 tasks
  collectAll futures (pool.asCompleted (futures.map Prod.fst))

/-! ## The two functions -/

variable {σ J R : Type}

/-- The callbacks of a batch over the items `J`. -/
structure Callbacks (σ J α : Type) where
  onResult : Option (J → Option α → Py σ Unit)
  onError : Option (J → PyExc → Py σ Unit)

/-- The callback a row of the result triggers. -/
def Callbacks.notify (callbacks : Callbacks σ J α) (item : J) (value : Option α) :
    Option PyExc → Py σ Unit
  | none => match callbacks.onResult with
    | some onResult => onResult item value
    | none => pure ()
  | some exc => match callbacks.onError with
    | some onError => onError item exc
    | none => pure ()

/-- The loop over the rows, which fills the slots and runs the callbacks. -/
def fillSlots (items : List J) (result : J → Option α → Option PyExc → R)
    (callbacks : Callbacks σ J α) :
    List (Row α) → List (Option R) → Py σ (List (Option R))
  | [], results => pure results
  | (i, value, error) :: raw, results =>
      match items[i]? with
      | none => Exn.raise (indexError "list index out of range")
      | some item => do
          callbacks.notify item value error
          fillSlots items result callbacks raw (results.set i (some (result item value error)))

/-- The common body of `extract_many` and `list_many`.  `run i item` is how the
task of the `i`-th item ends. -/
def runMany (result : J → Option α → Option PyExc → R) (run : Nat → J → Except PyExc α)
    (host : Host) (backend : String) (maxWorkers : Option Int) (pool : Pool α)
    (callbacks : Callbacks σ J α) (cancel : Cancel) (items : List J) : Py σ (List R) := do
  let tasks := items.mapIdx fun i item => (i, run i item)
  let raw ← Exn.lift (_runBackend host backend maxWorkers pool tasks cancel)
  let results ← fillSlots items result callbacks raw (List.replicate items.length none)
  pure (results.filterMap id)

structure BatchResult where
  job : ExtractJob
  report : Option Report
  error : Option PyExc

structure ListingResult where
  archive : PathArg
  entries : Option (List Entry)
  error : Option PyExc

def progressRefused : PyExc where
  cls := .valueError
  text := "progress callbacks are not supported with backend='process'; use backend='thread'"

/-- `extract_many`; `run i job` is how `_extract_one` ends as the `i`-th task. -/
def extractMany (run : Nat → ExtractJob → Except PyExc Report) (host : Host) (backend : String)
    (maxWorkers : Option Int) (pool : Pool Report)
    (callbacks : Callbacks σ ExtractJob Report) (cancel : Cancel) (jobs : List JobArg) :
    Py σ (List BatchResult) :=
  let normalised := jobs.map _normaliseJob
  if backend = "process" ∧ normalised.any (fun job => job.progress.isSome) then
    Exn.raise progressRefused
  else runMany BatchResult.mk run host backend maxWorkers pool callbacks cancel normalised

/-- `list_many`; `run i archive` is how `_list_one` ends as the `i`-th task. -/
def listMany (run : Nat → PathArg → Except PyExc (List Entry)) (host : Host) (backend : String)
    (maxWorkers : Option Int) (pool : Pool (List Entry))
    (callbacks : Callbacks σ PathArg (List Entry)) (cancel : Cancel) (archives : List PathArg) :
    Py σ (List ListingResult) :=
  runMany ListingResult.mk run host backend maxWorkers pool callbacks cancel archives

end Batch

end NewtuaPy
