import NewtuaPy.AsyncLifetime
import NewtuaPy.BatchSelection

/-!
# Entering an asynchronous archive, and failing

`__aenter__` waits twice: for the backing path, and for the listing.  Each time a
worker thread does the work, and goes on with it when the task that waits is
cancelled.  `__aexit__` does not follow a failed `__aenter__`, and the handler
inside it is for an `Exception` of the listing call only; a `CancelledError` and a
panic pass it by.
-/

namespace NewtuaPy.AsyncArchive

/-! ## The coroutine between its awaits -/

/-- `_newtua.list_path(str(self._path), self._password, self._encoding)`, handed to
`asyncio.to_thread`. -/
structure ListCall where
  path : FilePath
  password : Option String
  encoding : Option String

/-- What `list_path` returns. -/
abbrev Listing : Type := List EntryData × String × String

def ListCall.run (eng : Engine) (call : ListCall) : Py World Listing :=
  listPath eng call.path call.password call.encoding

/-- From the first `await` to the second. -/
def afterSpill (outcome : Except PyExc FilePath) : Py AsyncSession ListCall := do
  let path ← Exn.lift outcome
  modifySelf fun self => { self with path := some path }
  let s ← Exn.get
  match s.self.sync.source.ownPath, s.world.files path with
  | some (.named own), none => do
      onSync Archive.close
      Exn.raise (fileNotFound own)
  | _, _ => pure { path, password := s.self.password, encoding := s.self.encoding }

/-- From the second `await` to the end. -/
def afterListing (outcome : Except PyExc Listing) : Py AsyncSession Unit := do
  let (raw, format, encoding) ← Exn.handle (Exn.lift outcome) fun exc =>
    -- `except Exception`
    if exc.isException then do
      onSync Archive.close
      Exn.raise (raiseFor exc)
    else Exn.raise exc
  let (entries, byName) := entriesFromRaw raw false
  modifySelf fun self =>
    { self with
      entries
      byName
      _format := some format
      _detectedEncoding := some encoding }

/-! ## The system -/

/-- A call on its way through the thread pool. -/
inductive Job (α : Type)
  | queued
  | running
  | done (outcome : Except PyExc α)

/-- A call that a worker thread goes on with although nobody waits for it. -/
inductive Orphan
  | spill
  | list (call : ListCall)

/-- Where the coroutine is. -/
inductive Point
  | spilling (job : Job FilePath)
  | listing (call : ListCall) (job : Job Listing)
  | ended (outcome : Except PyExc Unit) (orphan : Option Orphan)

structure Entering where
  session : AsyncSession
  point : Point := .spilling .queued
  /-- `Task.cancel` has been called, and the coroutine has not been resumed since. -/
  cancelled : Bool := false

inductive EnterEvent
  /-- A worker thread takes the call. -/
  | take
  /-- The worker thread is done with the call. -/
  | finish
  /-- The listing call raises, whatever the engine has to say. -/
  | fail (exc : PyExc)
  | cancel
  /-- The event loop resumes the coroutine. -/
  | resume

def cancelledError : PyExc := { cls := .cancelledError, text := "" }

/-- What an `await` on a job ends with, if the coroutine can be resumed.  A
cancellation comes first, even if the job is done. -/
def awaited {α : Type} (cancelled : Bool) (job : Job α) : Option (Except PyExc α) :=
  if cancelled then some (.error cancelledError)
  else match job with
    | .done outcome => some outcome
    | _ => none

/-- A cancelled call that no thread has taken never runs. -/
def Job.orphan {α : Type} (orphan : Orphan) : Job α → Option Orphan
  | .running => some orphan
  | _ => none

namespace Entering

def next (eng : Engine) (c : Entering) : EnterEvent → Option Entering
  | .take => match c.point with
    | .spilling .queued => some { c with point := .spilling .running }
    | .listing call .queued => some { c with point := .listing call .running }
    | _ => none
  | .finish => match c.point with
    | .spilling .running =>
        let (outcome, session) := onSync Archive._backingPath c.session
        some { c with session, point := .spilling (.done outcome) }
    | .listing call .running =>
        let (outcome, session) := onWorld (call.run eng) c.session
        some { c with session, point := .listing call (.done outcome) }
    | .ended outcome (some .spill) =>
        let (_, session) := onSync Archive._backingPath c.session
        some { c with session, point := .ended outcome none }
    | .ended outcome (some (.list call)) =>
        let (_, session) := onWorld (call.run eng) c.session
        some { c with session, point := .ended outcome none }
    | _ => none
  | .fail exc => match c.point with
    | .listing call .queued => some { c with point := .listing call (.done (.error exc)) }
    | .listing call .running => some { c with point := .listing call (.done (.error exc)) }
    | .ended outcome (some (.list _)) => some { c with point := .ended outcome none }
    | _ => none
  | .cancel => match c.point with
    | .ended _ _ => none
    | _ => some { c with cancelled := true }
  | .resume => match c.point with
    | .spilling job => do
        let outcome ← awaited c.cancelled job
        match afterSpill outcome c.session with
        | (.error exc, session) =>
            some { c with session, point := .ended (.error exc) (job.orphan .spill) }
        | (.ok call, session) => some { c with session, point := .listing call .queued }
    | .listing call job => do
        let outcome ← awaited c.cancelled job
        let (result, session) := afterListing outcome c.session
        some { c with session, point := .ended result (job.orphan (.list call)) }
    | .ended _ _ => none

end Entering

/-- The runs of `__aenter__`. -/
def entering (eng : Engine) (a : AsyncSession) : Lts Entering EnterEvent where
  init c := c = { session := a }
  step c e c' := c.next eng e = some c'

/-! ## Left to itself -/

variable {eng : Engine} {a s : AsyncSession} {c c' : Entering} {e : EnterEvent}

/-- An exception may be handled after the thread has handed it over. -/
theorem handle_lift {α : Type} {x : Py AsyncSession α} {outcome : Except PyExc α}
    {s' : AsyncSession} (run : x s = (outcome, s')) (handler : PyExc → Py AsyncSession α) :
    Exn.handle x handler s = Exn.handle (Exn.lift outcome) handler s' := by
  rcases outcome with exc | value
  · exact Exn.handle_of_error run handler
  · exact Exn.handle_of_ok run handler

theorem enterAt_of_answer {p : FilePath} {listed : Except PyExc Listing} {s' : AsyncSession}
    (answered : onWorld (listPath eng p s.self.password s.self.encoding) s = (listed, s')) :
    enterAt eng p s = afterListing listed s' := by
  unfold enterAt afterListing
  rw [Exn.get_bind_apply, Exn.bind_apply, handle_lift answered, ← Exn.bind_apply]

/-- The session once the backing path is known. -/
def located (p : FilePath) (s : AsyncSession) : AsyncSession :=
  { s with self := { s.self with path := some p } }

theorem afterSpill_ok (p : FilePath) (s : AsyncSession) :
    afterSpill (.ok p) s = (match s.self.sync.source.ownPath, s.world.files p with
      | some (.named own), none => do
          onSync Archive.close
          Exn.raise (fileNotFound own)
      | _, _ => pure { path := p, password := s.self.password, encoding := s.self.encoding } :
        Py AsyncSession ListCall) (located p s) := rfl

theorem afterSpill_missing {own : String} {p : FilePath}
    (source : s.self.sync.source.ownPath = some (.named own)) (missing : s.world.files p = none) :
    afterSpill (.ok p) s = (.error (fileNotFound own), (onSync Archive.close (located p s)).2) := by
  rw [afterSpill_ok, source, missing]
  exact Exn.bind_of_ok (onSync_close _) _

theorem afterSpill_present {p : FilePath}
    (present : s.self.sync.source.ownPath = none ∨ (s.world.files p).isSome = true) :
    afterSpill (.ok p) s =
      (.ok { path := p, password := s.self.password, encoding := s.self.encoding },
        located p s) := by
  rw [afterSpill_ok]
  rcases present with noPath | there
  · rw [noPath]
    rfl
  · obtain ⟨content, there⟩ := Option.isSome_iff_exists.mp there
    rw [there]
    rcases s.self.sync.source.ownPath with _ | ⟨own⟩ | n <;> rfl

theorem aenter_of_error {outcome : Except PyExc FilePath} {exc : PyExc} {s' : AsyncSession}
    (run : onSync Archive._backingPath a = (outcome, s))
    (ended : afterSpill outcome s = (.error exc, s')) : aenter eng a = (.error exc, s') := by
  rcases outcome with failure | p
  · cases ended
    exact Exn.bind_of_error run _
  · rcases missing_or_present s.self.sync.source (s.world.files p) with
      ⟨own, named, missing⟩ | present
    · cases (afterSpill_missing named missing).symm.trans ended
      rw [aenter_run eng run, named, missing]
      exact Exn.bind_of_ok (onSync_close _) _
    · cases (afterSpill_present present).symm.trans ended

theorem aenter_of_ok {outcome : Except PyExc FilePath} {call : ListCall} {s' : AsyncSession}
    (run : onSync Archive._backingPath a = (outcome, s))
    (submitted : afterSpill outcome s = (.ok call, s')) {listed : Except PyExc Listing}
    {t : AsyncSession} (answered : onWorld (call.run eng) s' = (listed, t)) :
    aenter eng a = afterListing listed t := by
  rcases outcome with failure | p
  · cases submitted
  · rcases missing_or_present s.self.sync.source (s.world.files p) with
      ⟨own, named, missing⟩ | present
    · cases (afterSpill_missing named missing).symm.trans submitted
    · cases (afterSpill_present present).symm.trans submitted
      rw [aenter_run eng run, enterBacked_present eng present]
      exact enterAt_of_answer answered

/-- The task is not cancelled, and the listing call is left to the engine. -/
def Undisturbed (_ : Entering) : EnterEvent → Prop
  | .cancel => False
  | .fail _ => False
  | _ => True

/-- The call `call` has been handed to the thread pool, in the session `s`. -/
def Submitted (a : AsyncSession) (call : ListCall) (s : AsyncSession) : Prop :=
  ∃ outcome s₁, onSync Archive._backingPath a = (outcome, s₁) ∧
    afterSpill outcome s₁ = (.ok call, s)

/-- How far the coroutine has come with what `__aenter__` does. -/
def Follows (eng : Engine) (a : AsyncSession) (c : Entering) : Prop :=
  c.cancelled = false ∧ match c.point with
    | .spilling (.done outcome) => onSync Archive._backingPath a = (outcome, c.session)
    | .spilling _ => c.session = a
    | .listing call (.done outcome) =>
        ∃ s, Submitted a call s ∧ onWorld (call.run eng) s = (outcome, c.session)
    | .listing call _ => Submitted a call c.session
    | .ended outcome orphan => orphan = none ∧ aenter eng a = (outcome, c.session)

theorem Follows.step (follows : Follows eng a c) (undisturbed : Undisturbed c e)
    (step : c.next eng e = some c') : Follows eng a c' := by
  obtain ⟨session, point, cancelled⟩ := c
  obtain ⟨patient, done⟩ := follows
  cases patient
  cases e with
  | cancel => cases undisturbed
  | fail exc => cases undisturbed
  | take =>
      rcases point with (_ | _ | _) | ⟨call, _ | _ | _⟩ | ⟨outcome, orphan⟩ <;> cases step
      · exact ⟨rfl, done⟩
      · exact ⟨rfl, done⟩
  | finish =>
      rcases point with (_ | _ | _) | ⟨call, _ | _ | _⟩ | ⟨outcome, orphan⟩
      · cases step
      · cases step
        cases done
        exact ⟨rfl, rfl⟩
      · cases step
      · cases step
      · cases step
        exact ⟨rfl, session, done, rfl⟩
      · cases step
      · obtain ⟨none, -⟩ := done
        cases none
        cases step
  | resume =>
      rcases point with (_ | _ | outcome) | ⟨call, _ | _ | outcome⟩ | ⟨outcome, orphan⟩
      · cases step
      · cases step
      · have resumed : Entering.next eng ⟨session, .spilling (.done outcome), false⟩ .resume =
            match afterSpill outcome session with
            | (.error exc, s) => some ⟨s, .ended (.error exc) none, false⟩
            | (.ok call, s) => some ⟨s, .listing call .queued, false⟩ := rfl
        rw [resumed] at step
        rcases after : afterSpill outcome session with ⟨exc | call, s⟩ <;> rw [after] at step
        · cases step
          exact ⟨rfl, rfl, aenter_of_error done after⟩
        · cases step
          exact ⟨rfl, outcome, session, done, after⟩
      · cases step
      · cases step
      · obtain ⟨s, submitted, answered⟩ := done
        obtain ⟨o, s₁, run, accepted⟩ := submitted
        cases step
        exact ⟨rfl, rfl, aenter_of_ok run accepted answered⟩
      · cases step

/-- Left to itself, the coroutine does what `aenter` says. -/
theorem entering_undisturbed {run : List (EnterEvent × Entering)}
    (isRun : (entering eng a).IsRun { session := a } run)
    (undisturbed : Lts.AllSteps Undisturbed { session := a } run)
    {outcome : Except PyExc Unit} {orphan : Option Orphan}
    (ended : (Lts.last { session := a } run).point = .ended outcome orphan) :
    aenter eng a = (outcome, (Lts.last { session := a } run).session) := by
  have start : Follows eng a { session := a } := ⟨rfl, rfl⟩
  have kept := isRun.invariant undisturbed start fun s e t follows met step => follows.step met step
  have final := kept.last.2
  rw [ended] at final
  exact final.2

/-! ## The spilled file -/

/-- The archive holds the one claim on the file it has spilled since `a`. -/
structure Claimed (a s : AsyncSession) : Prop where
  temps : s.world.temps = a.world.temps ++ [{ path := .temp a.world.nextTemp }]
  files : ∃ content,
    s.world.files = Function.update a.world.files (.temp a.world.nextTemp) (some content)
  tempfile : s.self.sync.tempfile = some a.world.temps.length
  noPath : s.self.sync.source.ownPath = none

/-- Whatever has been spilled since `a` has lost its last claim and is gone. -/
structure LeavesNothing (a s : AsyncSession) : Prop where
  released : ∀ t f, a.world.temps.length ≤ t → s.world.temps[t]? = some f →
    f.holders = 0 ∧ s.world.files f.path = none
  files : ∀ n, (s.world.files (.temp n)).isSome = true → (a.world.files (.temp n)).isSome = true

theorem LeavesNothing.refl (a : AsyncSession) : LeavesNothing a a where
  released t f later found := by
    rw [List.getElem?_eq_none later] at found
    cases found
  files _ there := there

theorem Claimed.not_leavesNothing (claimed : Claimed a s) : ¬LeavesNothing a s := by
  intro nothing
  have found : s.world.temps[a.world.temps.length]? =
      some { path := .temp a.world.nextTemp } := by
    rw [claimed.temps, List.getElem?_concat_length]
  have lost := (nothing.released _ _ (Nat.le_refl _) found).1
  cases lost

theorem not_claimed_self : ¬Claimed a a := fun claimed =>
  claimed.not_leavesNothing (.refl a)

/-- Closing the archive inside gives up the claim and deletes the file. -/
theorem Claimed.close (claimed : Claimed a s) : LeavesNothing a (onSync Archive.close s).2 := by
  have found : s.world.temps[a.world.temps.length]? =
      some { path := .temp a.world.nextTemp } := by
    rw [claimed.temps, List.getElem?_concat_length]
  have closed : (onSync Archive.close s).2.world = s.world.afterRelease a.world.temps.length := by
    rw [onSync_run (Archive.close_run (inner s))]
    unfold Archive.dropped Archive.shut inner
    dsimp only
    rw [claimed.tempfile]
  have temps : (onSync Archive.close s).2.world.temps =
      a.world.temps ++ [{ path := .temp a.world.nextTemp, holders := 0, deleteCalls := 1 }] := by
    rw [closed]
    unfold World.afterRelease
    rw [found, claimed.temps]
    simp
  have files : (onSync Archive.close s).2.world.files =
      Function.update s.world.files (.temp a.world.nextTemp) none := by
    rw [closed]
    unfold World.afterRelease
    rw [found]
    rfl
  refine ⟨fun t f later there => ?_, fun n there => ?_⟩
  · rw [temps, List.getElem?_append_right later] at there
    rcases distance : t - a.world.temps.length with _ | k <;> rw [distance] at there
    · cases there
      rw [files, Function.update_self]
      exact ⟨rfl, rfl⟩
    · cases there
  · obtain ⟨content, spilled⟩ := claimed.files
    rw [files, spilled, Function.update_idem] at there
    by_cases same : FilePath.temp n = .temp a.world.nextTemp
    · rw [same, Function.update_self] at there
      cases there
    · rwa [Function.update_of_ne same] at there

/-- Entering the archive spills its source, and the spill succeeds. -/
structure SpillsWell (a : AsyncSession) : Prop where
  noPath : a.self.sync.source.ownPath = none
  dead : Archive.liveTempfile (inner a) = none
  delivers : ∃ content, a.self.sync.source.Delivers content

theorem SpillsWell.spill (spills : SpillsWell a) :
    ∃ s, onSync Archive._backingPath a = (.ok (.temp a.world.nextTemp), s) ∧ Claimed a s := by
  obtain ⟨noPath, dead, content, delivers⟩ := spills
  have spilled := backingPath_spills (s := inner a) noPath dead delivers
  refine ⟨_, onSync_run spilled, ?_⟩
  exact ⟨rfl, ⟨content, rfl⟩, rfl, (Source.afterCopy_ownPath _).trans noPath⟩

theorem Claimed.call (claimed : Claimed a s) (eng : Engine) (call : ListCall) :
    Claimed a (onWorld (call.run eng) s).2 := by
  have listing := onWorld_run (a := s)
    (listPath_run eng call.path call.password call.encoding s.world)
  unfold ListCall.run
  rw [listing]
  exact ⟨claimed.temps, claimed.files, claimed.tempfile, claimed.noPath⟩

theorem Claimed.afterSpill (claimed : Claimed a s) (p : FilePath) :
    ∃ call s', AsyncArchive.afterSpill (.ok p) s = (.ok call, s') ∧ Claimed a s' :=
  ⟨_, _, afterSpill_present (.inl claimed.noPath),
    claimed.temps, claimed.files, claimed.tempfile, claimed.noPath⟩

/-- The handler closes the archive. -/
theorem Claimed.caught (claimed : Claimed a s) {exc : PyExc} (caught : exc.isException = true) :
    ∃ s', afterListing (.error exc) s = (.error (raiseFor exc), s') ∧ LeavesNothing a s' := by
  refine ⟨_, Exn.bind_of_error ?_ _, claimed.close⟩
  have failed : Exn.lift (Except.error exc : Except PyExc Listing) s = (.error exc, s) := rfl
  rw [Exn.handle_of_error failed, if_pos caught, Exn.bind_of_ok (onSync_close s)]
  rfl

theorem afterListing_passed {exc : PyExc} (passed : exc.isException = false) (s : AsyncSession) :
    afterListing (.error exc) s = (.error exc, s) := by
  refine Exn.bind_of_error ?_ _
  have failed : Exn.lift (Except.error exc : Except PyExc Listing) s = (.error exc, s) := rfl
  rw [Exn.handle_of_error failed, passed]
  rfl

theorem afterListing_ok (listing : Listing) (s : AsyncSession) :
    ∃ s', afterListing (.ok listing) s = (.ok (), s') := ⟨_, rfl⟩

/-! ## What each step decides -/

/-- The step does not reach the defect: the task is cancelled, if at all, while the
spill is queued, and no thread takes the spill after that; the listing call raises
no exception but an `Exception`, so that the engine does not panic. -/
def Spares (eng : Engine) (c : Entering) : EnterEvent → Prop
  | .take => match c.point with
    | .spilling _ => c.cancelled = false
    | _ => True
  | .finish => match c.point with
    | .listing call _ => ∀ message,
        eng.snapshot (c.session.world.files call.path) call.password call.encoding ≠
          .error (.panic message)
    | _ => True
  | .fail exc => match c.point with
    | .listing _ _ => exc.isException = true
    | _ => True
  | .cancel => match c.point with
    | .spilling .queued => True
    | _ => False
  | .resume => True

/-- What the session of each point has of the spilled file. -/
def Traced (a : AsyncSession) (c : Entering) : Prop :=
  match c.point with
  | .spilling (.done outcome) => Claimed a c.session ∧ ∃ p, outcome = .ok p
  | .spilling _ => c.session = a
  | .listing _ _ => Claimed a c.session
  | .ended (.ok ()) _ => True
  | .ended (.error _) (some .spill) => c.session = a
  | .ended (.error _) (some (.list _)) => Claimed a c.session
  | .ended (.error _) none => Claimed a c.session ∨ LeavesNothing a c.session

/-- The file stays, or is going to: a thread spills for nobody, or an exception that
is no `Exception` is on its way, or has passed the handler. -/
def Doomed (a : AsyncSession) (c : Entering) : Prop :=
  match c.point with
  | .spilling .queued => False
  | .spilling _ => c.cancelled = true
  | .listing _ (.done (.error exc)) => c.cancelled = true ∨ exc.isException = false
  | .listing _ _ => c.cancelled = true
  | .ended (.ok ()) _ => False
  | .ended (.error _) (some .spill) => True
  | .ended (.error _) _ => Claimed a c.session

theorem take_decides (traced : Traced a c) (step : c.next eng .take = some c') :
    Traced a c' ∧ (Doomed a c' ↔ Doomed a c ∨ ¬Spares eng c .take) := by
  obtain ⟨session, point, cancelled⟩ := c
  rcases point with (_ | _ | _) | ⟨call, _ | _ | _⟩ | ⟨outcome, orphan⟩ <;> cases step
  · refine ⟨traced, ?_⟩
    change cancelled = true ↔ False ∨ ¬cancelled = false
    simp
  · refine ⟨traced, ?_⟩
    change cancelled = true ↔ cancelled = true ∨ ¬True
    simp

theorem cancel_decides (traced : Traced a c) (step : c.next eng .cancel = some c') :
    Traced a c' ∧ (Doomed a c' ↔ Doomed a c ∨ ¬Spares eng c .cancel) := by
  obtain ⟨session, point, cancelled⟩ := c
  rcases point with (_ | _ | _) | ⟨call, _ | _ | exc | _⟩ | ⟨outcome, orphan⟩ <;> cases step
  · exact ⟨traced, (or_iff_left (not_not_intro True.intro)).symm⟩
  all_goals
    refine ⟨traced, iff_of_true ?_ (.inr not_false)⟩
  · rfl
  · rfl
  · rfl
  · rfl
  · exact .inl rfl
  · rfl

theorem fail_decides (traced : Traced a c) {exc : PyExc}
    (step : c.next eng (.fail exc) = some c') :
    Traced a c' ∧ (Doomed a c' ↔ Doomed a c ∨ ¬Spares eng c (.fail exc)) := by
  obtain ⟨session, point, cancelled⟩ := c
  have decided : (cancelled = true ∨ exc.isException = false) ↔
      (cancelled = true ∨ ¬exc.isException = true) := by simp
  rcases point with (_ | _ | _) | ⟨call, _ | _ | _⟩ | ⟨outcome, _ | _ | call⟩ <;> cases step
  · exact ⟨traced, decided⟩
  · exact ⟨traced, decided⟩
  · rcases outcome with failure | _
    · exact ⟨.inl traced, (or_iff_left (not_not_intro True.intro)).symm⟩
    · exact ⟨True.intro, (or_iff_left (not_not_intro True.intro)).symm⟩

namespace Entering

variable {cancelled : Bool} {s' : AsyncSession}

theorem next_spilled {outcome : Except PyExc FilePath}
    (run : onSync Archive._backingPath s = (outcome, s')) :
    next eng ⟨s, .spilling .running, cancelled⟩ .finish =
      some ⟨s', .spilling (.done outcome), cancelled⟩ := by
  unfold next
  dsimp only
  rw [run]

theorem next_listed {call : ListCall} {outcome : Except PyExc Listing}
    (run : onWorld (call.run eng) s = (outcome, s')) :
    next eng ⟨s, .listing call .running, cancelled⟩ .finish =
      some ⟨s', .listing call (.done outcome), cancelled⟩ := by
  unfold next
  dsimp only
  rw [run]

theorem next_spilled_orphan {result : Except PyExc Unit} {outcome : Except PyExc FilePath}
    (run : onSync Archive._backingPath s = (outcome, s')) :
    next eng ⟨s, .ended result (some .spill), cancelled⟩ .finish =
      some ⟨s', .ended result none, cancelled⟩ := by
  unfold next
  dsimp only
  rw [run]

theorem next_submitted {job : Job FilePath} {outcome : Except PyExc FilePath} {call : ListCall}
    (ready : awaited cancelled job = some outcome)
    (after : afterSpill outcome s = (.ok call, s')) :
    next eng ⟨s, .spilling job, cancelled⟩ .resume =
      some ⟨s', .listing call .queued, cancelled⟩ := by
  unfold next
  dsimp only
  rw [ready]
  dsimp only [Option.bind_eq_bind, Option.bind_some]
  rw [after]

theorem next_resumed {call : ListCall} {job : Job Listing} {outcome : Except PyExc Listing}
    {result : Except PyExc Unit} (ready : awaited cancelled job = some outcome)
    (run : afterListing outcome s = (result, s')) :
    next eng ⟨s, .listing call job, cancelled⟩ .resume =
      some ⟨s', .ended result (job.orphan (.list call)), cancelled⟩ := by
  unfold next
  dsimp only
  rw [ready]
  dsimp only [Option.bind_eq_bind, Option.bind_some]
  rw [run]

end Entering

theorem answer_decides (eng : Engine) (call : ListCall) (cancelled : Bool)
    {outcome : Except PyExc Listing} {s' : AsyncSession}
    (answered : onWorld (call.run eng) s = (outcome, s')) :
    Doomed a ⟨s', .listing call (.done outcome), cancelled⟩ ↔
      cancelled = true ∨ ¬Spares eng ⟨s, .listing call .running, cancelled⟩ .finish := by
  have listing := onWorld_run (a := s)
    (listPath_run eng call.path call.password call.encoding s.world)
  cases answered.symm.trans listing
  unfold Spares
  dsimp only
  rcases eng.snapshot (s.world.files call.path) call.password call.encoding with
    (error | message) | opened
  · change (cancelled = true ∨ true = false) ↔ _
    simp
  · exact iff_of_true (.inr rfl) (.inr fun spared => spared message rfl)
  · change cancelled = true ↔ _
    simp

theorem finish_decides (spills : SpillsWell a) (traced : Traced a c)
    (step : c.next eng .finish = some c') :
    Traced a c' ∧ (Doomed a c' ↔ Doomed a c ∨ ¬Spares eng c .finish) := by
  obtain ⟨session, point, cancelled⟩ := c
  have kept {P : Prop} : P ↔ P ∨ ¬True := (or_iff_left (not_not_intro True.intro)).symm
  rcases point with (_ | _ | _) | ⟨call, _ | _ | _⟩ | ⟨outcome, _ | _ | call⟩
  · cases step
  · obtain ⟨s, spilled, claimed⟩ := spills.spill
    have same : session = a := traced
    rw [← same] at spilled
    cases (Entering.next_spilled spilled).symm.trans step
    exact ⟨⟨claimed, _, rfl⟩, kept⟩
  · cases step
  · cases step
  · rcases answered : onWorld (call.run eng) session with ⟨outcome, s⟩
    have claimed : Claimed a s := by
      have listed := Claimed.call traced eng call
      rwa [answered] at listed
    cases (Entering.next_listed answered).symm.trans step
    exact ⟨claimed, answer_decides eng call cancelled answered⟩
  · cases step
  · cases step
  · rcases outcome with exc | _
    · obtain ⟨s, spilled, claimed⟩ := spills.spill
      have same : session = a := traced
      rw [← same] at spilled
      cases (Entering.next_spilled_orphan spilled).symm.trans step
      exact ⟨.inl claimed, iff_of_true claimed (.inl True.intro)⟩
    · cases step
      exact ⟨True.intro, kept⟩
  · rcases outcome with exc | _
    · have claimed := Claimed.call traced eng call
      cases step
      exact ⟨.inl claimed, iff_of_true claimed (.inl traced)⟩
    · cases step
      exact ⟨True.intro, kept⟩

theorem resume_decides (traced : Traced a c) (step : c.next eng .resume = some c') :
    Traced a c' ∧ (Doomed a c' ↔ Doomed a c ∨ ¬Spares eng c .resume) := by
  obtain ⟨session, point, cancelled⟩ := c
  have kept {P : Prop} : P ↔ P ∨ ¬True := (or_iff_left (not_not_intro True.intro)).symm
  rcases point with job | ⟨call, job⟩ | ⟨outcome, orphan⟩
  · rcases cancelled with _ | _
    · rcases job with _ | _ | outcome
      · cases step
      · cases step
      · obtain ⟨claimed, p, delivered⟩ := traced
        obtain ⟨call, s, after, still⟩ := claimed.afterSpill p
        cases delivered
        cases (Entering.next_submitted rfl after).symm.trans step
        exact ⟨still, kept⟩
    · cases step
      rcases job with _ | _ | outcome
      · have same : session = a := traced
        cases same
        refine ⟨.inr (.refl _), iff_of_false not_claimed_self ?_⟩
        exact not_or.mpr ⟨id, not_not_intro True.intro⟩
      · exact ⟨traced, iff_of_true True.intro (.inl rfl)⟩
      · obtain ⟨claimed, -⟩ := traced
        exact ⟨.inl claimed, iff_of_true claimed (.inl rfl)⟩
  · have claimed : Claimed a session := traced
    rcases cancelled with _ | _
    · rcases job with _ | _ | exc | listing
      · cases step
      · cases step
      · rcases caught : exc.isException with _ | _
        · have passed := afterListing_passed caught session
          cases (Entering.next_resumed rfl passed).symm.trans step
          exact ⟨.inl claimed, iff_of_true claimed (.inl (.inr caught))⟩
        · obtain ⟨s, closed, nothing⟩ := claimed.caught caught
          cases (Entering.next_resumed rfl closed).symm.trans step
          refine ⟨.inr nothing, iff_of_false (fun held => held.not_leavesNothing nothing) ?_⟩
          rintro ((cancelled | passed) | unspared)
          · cases cancelled
          · cases caught.symm.trans passed
          · exact unspared True.intro
      · obtain ⟨s, returned⟩ := afterListing_ok listing session
        cases (Entering.next_resumed rfl returned).symm.trans step
        exact ⟨True.intro, iff_of_false id (not_or.mpr ⟨nofun, not_not_intro True.intro⟩)⟩
    · have passed : afterListing (.error cancelledError) session =
          (.error cancelledError, session) := afterListing_passed rfl session
      cases (Entering.next_resumed rfl passed).symm.trans step
      rcases job with _ | _ | _ | _
      · exact ⟨.inl claimed, iff_of_true claimed (.inl rfl)⟩
      · exact ⟨claimed, iff_of_true claimed (.inl rfl)⟩
      · exact ⟨.inl claimed, iff_of_true claimed (.inl (.inl rfl))⟩
      · exact ⟨.inl claimed, iff_of_true claimed (.inl rfl)⟩
  · cases step

theorem step_decides (spills : SpillsWell a) (traced : Traced a c)
    (step : c.next eng e = some c') :
    Traced a c' ∧ (Doomed a c' ↔ Doomed a c ∨ ¬Spares eng c e) := by
  cases e with
  | take => exact take_decides traced step
  | finish => exact finish_decides spills traced step
  | fail exc => exact fail_decides traced step
  | cancel => exact cancel_decides traced step
  | resume => exact resume_decides traced step

/-- Entering has failed, and every worker thread is through: the claim on the spilled
file has been given up, and the file deleted, exactly when every step of the run spared
it. -/
theorem failed_entering_leaves_nothing_iff (eng : Engine) {a : AsyncSession}
    (spills : SpillsWell a) {run : List (EnterEvent × Entering)}
    (isRun : (entering eng a).IsRun { session := a } run) {exc : PyExc}
    (failed : (Lts.last { session := a } run).point = .ended (.error exc) none) :
    LeavesNothing a (Lts.last { session := a } run).session ↔
      Lts.AllSteps (Spares eng) { session := a } run := by
  have start : Traced a { session := a } := rfl
  have decided := isRun.spoilt_iff (C := Spares eng) (D := Doomed a) start
    fun c e c' traced step => step_decides spills traced step
  have traced := (isRun.invariant (Lts.AllSteps.trivial run) start
    fun c e c' traced _ step => (step_decides spills traced step).1).last
  have held : Doomed a (Lts.last { session := a } run) ↔
      Claimed a (Lts.last { session := a } run).session := by
    unfold Doomed
    rw [failed]
  unfold Traced at traced
  rw [failed] at traced
  rw [held] at decided
  have unspoilt : ¬Doomed a { session := a } := id
  constructor
  · intro nothing
    by_contra missed
    exact (decided.mpr (.inr missed)).not_leavesNothing nothing
  · intro spared
    rcases traced with claimed | nothing
    · rcases decided.mp claimed with spoilt | missed
      · exact (unspoilt spoilt).elim
      · exact (missed spared).elim
    · exact nothing

/-- One byte in memory, nothing on disk. -/
def oneByte : AsyncSession := init (fun _ => none) (.bytes [80]) none none

theorem oneByte_spillsWell : SpillsWell oneByte := ⟨rfl, rfl, [80], rfl⟩

def memoryError : PyExc := { cls := .otherException "MemoryError", text := "" }

/-- The listing call runs out of memory, and nothing is left. -/
theorem failed_entering_leaves_nothing_iff_memory :
    ∃ run, (entering Batch.oneFile oneByte).IsRun { session := oneByte } run ∧
      LeavesNothing oneByte (Lts.last { session := oneByte } run).session := by
  refine ⟨[(.take, _), (.finish, _), (.resume, _), (.take, _), (.fail memoryError, _),
    (.resume, _)], ⟨rfl, rfl, rfl, rfl, rfl, rfl, True.intro⟩, ?_⟩
  refine (failed_entering_leaves_nothing_iff Batch.oneFile oneByte_spillsWell ?_ rfl).mpr ?_
  · exact ⟨rfl, rfl, rfl, rfl, rfl, rfl, True.intro⟩
  · exact ⟨rfl, True.intro, True.intro, True.intro, rfl, True.intro, True.intro⟩

/-- The task is cancelled while it waits for the listing; the file stays, and the claim
on it. -/
theorem cancelled_entering_leaves_file :
    ∃ run, (entering Batch.oneFile oneByte).IsRun { session := oneByte } run ∧
      (Lts.last { session := oneByte } run).point = .ended (.error cancelledError) none ∧
        ¬LeavesNothing oneByte (Lts.last { session := oneByte } run).session := by
  refine ⟨[(.take, _), (.finish, _), (.resume, _), (.cancel, _), (.resume, _)],
    ⟨rfl, rfl, rfl, rfl, rfl, True.intro⟩, rfl, ?_⟩
  intro nothing
  have there := nothing.files 0 rfl
  cases there

end NewtuaPy.AsyncArchive
