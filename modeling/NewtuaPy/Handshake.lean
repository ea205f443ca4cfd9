import NewtuaPy.Lib.Lts

/-!
# The handshake of a POSIX pipe

`_open_pipe_posix` on the calling thread and the worker that `open_stream`
spawns, as two parties that share one descriptor.  The caller makes the pipe and
waits for one message; the worker opens the archive, reports, and only then
takes the writing end over.  The channel delivers what was sent, or reports that
its sender is gone.
-/

namespace NewtuaPy

namespace Handshake

/-- The result that goes through the channel; the parts of an error do not
matter here. -/
inductive Message
  | ok
  | err
deriving DecidableEq, Repr

inductive Party
  | caller
  | worker
deriving DecidableEq, Repr

/-- Where the calling thread is. -/
inductive Caller
  /-- after `os.pipe()` -/
  | created
  /-- after `tempfile.hold()`, about to call `open_stream` -/
  | held
  /-- in `rx.recv()` -/
  | receiving
  /-- `open_stream` has returned -/
  | returned
  /-- in the `except` clause, about to close the reading end -/
  | raising
  /-- about to close the writing end -/
  | readClosed
  /-- about to release the temp file -/
  | writeClosed
  | raised
  /-- the stream object has been returned -/
  | opened
deriving DecidableEq, Repr

/-- Where the worker thread is. -/
inductive Worker
  | unborn
  /-- in `core_open` -/
  | opening
  /-- about to send `Ok` -/
  | opened
  /-- about to send `Err` -/
  | refused
  /-- about to call `File::from_raw_fd` -/
  | adopting
  /-- in `read_entry` -/
  | writing
  /-- returned or unwound; its sender is dropped -/
  | gone
deriving DecidableEq, Repr

structure State where
  tempfile : Bool
  caller : Caller := .created
  worker : Worker := .unborn
  /-- what is in the channel -/
  message : Option Message := none
  /-- what has ever been sent -/
  sent : Option Message := none
  archiveOpened : Bool := false
  readOpen : Bool := true
  readCloses : Nat := 0
  /-- stream objects that own the reading end -/
  streams : Nat := 0
  writeOpen : Bool := true
  writeClosers : List Party := []
  /-- a closed descriptor has been written to or closed -/
  misuse : Bool := false
  holds : Nat := 0
  releases : Nat := 0
deriving DecidableEq, Repr

/-- How a call of the engine ends. -/
inductive Ending
  | ok
  | error
  | panic
deriving DecidableEq, Repr

/-- The steps of the two parties. -/
inductive Act
  | hold
  | refuse
  | spawn
  | receive
  | disconnect
  | interrupt
  | closeRead
  | closeWrite
  | closeWriteFails
  | release
  | hand
  | coreOpen (ending : Ending)
  | send
  | adopt
  | write
  | readEntry (ending : Ending)
deriving DecidableEq, Repr

namespace State

/-- `os.close(read_fd)`. -/
def closeRead (s : State) : State :=
  { s with
    readOpen := false
    readCloses := s.readCloses + 1
    misuse := s.misuse || !s.readOpen }

/-- `os.close(write_fd)`, or the drop of the worker's `File`.  A number that is closed
already is some other file's by now. -/
def closeWrite (s : State) (by' : Party) : State :=
  { s with
    writeOpen := false
    writeClosers := s.writeClosers ++ [by']
    misuse := s.misuse || !s.writeOpen }

/-- One `write(2)` of the worker. -/
def writeChunk (s : State) : State := { s with misuse := s.misuse || !s.writeOpen }

end State

/-- One step; `interrupts` allows a `KeyboardInterrupt` in the `try` block. -/
def act (interrupts : Bool) (s : State) : Act → Option State
  | .hold =>
      if s.caller = .created then
        some { s with caller := .held, holds := s.holds + s.tempfile.toNat }
      else none
  -- a bad index, or a thread that cannot be spawned: no worker exists
  | .refuse => if s.caller = .held then some { s with caller := .raising } else none
  | .spawn =>
      if s.caller = .held then some { s with caller := .receiving, worker := .opening } else none
  | .receive =>
      if s.caller = .receiving then
        match s.message with
        | some .ok => some { s with caller := .returned, message := none }
        | some .err => some { s with caller := .raising, message := none }
        | none => none
      else none
  | .disconnect =>
      if s.caller = .receiving ∧ s.message = none ∧ s.worker = .gone then
        some { s with caller := .raising }
      else none
  | .interrupt =>
      if interrupts = true ∧ (s.caller = .held ∨ s.caller = .returned) then
        some { s with caller := .raising }
      else none
  | .closeRead =>
      if s.caller = .raising then some { s.closeRead with caller := .readClosed } else none
  | .closeWrite =>
      if s.caller = .readClosed then some { s.closeWrite .caller with caller := .writeClosed }
      else none
  -- the number is closed and not in use: `EBADF` leaves the `except` block before the release
  | .closeWriteFails =>
      if s.caller = .readClosed ∧ s.writeOpen = false then some { s with caller := .raised }
      else none
  | .release =>
      if s.caller = .writeClosed then
        some { s with caller := .raised, releases := s.releases + s.tempfile.toNat }
      else none
  | .hand =>
      if s.caller = .returned then some { s with caller := .opened, streams := s.streams + 1 }
      else none
  | .coreOpen ending =>
      if s.worker = .opening then
        match ending with
        | .ok => some { s with worker := .opened, archiveOpened := true }
        | .error => some { s with worker := .refused }
        | .panic => some { s with worker := .gone }
      else none
  | .send =>
      match s.worker with
      | .opened => some { s with worker := .adopting, message := some .ok, sent := some .ok }
      | .refused => some { s with worker := .gone, message := some .err, sent := some .err }
      | _ => none
  | .adopt => if s.worker = .adopting then some { s with worker := .writing } else none
  | .write => if s.worker = .writing then some s.writeChunk else none
  -- whatever the result of `read_entry`, the `File` is dropped
  | .readEntry _ =>
      if s.worker = .writing then some { s.closeWrite .worker with worker := .gone } else none

/-- The system: from a fresh pipe, any interleaving. -/
def system (interrupts : Bool) : Lts State Act where
  init s := s = { tempfile := s.tempfile }
  step s a t := act interrupts s a = some t

/-! ## The invariant -/

/-- The caller is on its way out with an exception. -/
def Caller.failing : Caller → Bool
  | .raising | .readClosed | .writeClosed | .raised => true
  | _ => false

/-- The caller has closed the writing end. -/
def Caller.closedWrite : Caller → Bool
  | .writeClosed | .raised => true
  | _ => false

/-- Which positions of the two parties go together, by what has been sent. -/
def Fits (caller : Caller) (worker : Worker) : Option Message → Prop
  | none =>
      match worker with
      | .unborn => caller = .created ∨ caller = .held ∨ caller.failing = true
      | .opening | .opened | .refused => caller = .receiving
      | .gone => caller = .receiving ∨ caller.failing = true
      | .adopting | .writing => False
  | some .err => worker = .gone ∧ (caller = .receiving ∨ caller.failing = true)
  | some .ok =>
      (worker = .adopting ∨ worker = .writing ∨ worker = .gone) ∧
        (caller = .receiving ∨ caller = .returned ∨ caller = .opened)

/-- Every field that is not a position is determined by the positions and by
what has been sent. -/
structure Inv (s : State) : Prop where
  fits : Fits s.caller s.worker s.sent
  message : s.message = if s.caller = .receiving then s.sent else none
  archiveOpened : s.sent = some .ok → s.archiveOpened = true
  opened : s.worker = .opened → s.archiveOpened = true
  writeClosers : s.writeClosers =
    if s.caller.closedWrite then [.caller]
    else if s.sent = some .ok ∧ s.worker = .gone then [.worker] else []
  writeOpen : s.writeOpen = s.writeClosers.isEmpty
  readOpen : s.readOpen = decide (s.readCloses = 0)
  readCloses : s.readCloses =
    if s.caller.failing = true ∧ s.caller ≠ .raising then 1 else 0
  streams : s.streams = if s.caller = .opened then 1 else 0
  misuse : s.misuse = false
  holds : s.holds = if s.caller = .created then 0 else s.tempfile.toNat
  releases : s.releases = if s.caller = .raised then s.tempfile.toNat else 0

namespace Fits

variable {c d : Caller} {w : Worker} {m : Option Message}

theorem alone (h : Fits c w m) (at' : c = .created ∨ c = .held) : w = .unborn ∧ m = none := by
  rcases at' with rfl | rfl <;> rcases m with _ | _ | _ <;> cases w <;>
    simp_all [Fits, Caller.failing]

theorem returned (h : Fits c w m) (at' : c = .returned ∨ c = .opened) :
    m = some .ok ∧ (w = .adopting ∨ w = .writing ∨ w = .gone) := by
  rcases at' with rfl | rfl <;> rcases m with _ | _ | _ <;> cases w <;>
    simp_all [Fits, Caller.failing]

theorem spawned (h : Fits .receiving w m) : w ≠ .unborn := by
  rcases m with _ | _ | _ <;> cases w <;> simp_all [Fits, Caller.failing]

theorem failed (h : Fits c w m) (at' : c.failing = true) :
    m ≠ some .ok ∧ (w = .unborn ∨ w = .gone) := by
  rcases m with _ | _ | _ <;> cases w <;> cases c <;> simp_all [Fits, Caller.failing]

/-- On the way out the caller and the worker no longer depend on each other. -/
theorem move (h : Fits c w m) (at' : c.failing = true) (next : d.failing = true) : Fits d w m := by
  obtain ⟨unsent, apart⟩ := h.failed at'
  rcases apart with rfl | rfl <;> rcases m with _ | _ | _ <;> simp_all [Fits]

theorem waited (h : Fits c w m) (at' : w = .opening ∨ w = .opened ∨ w = .refused) :
    c = .receiving ∧ m = none := by
  rcases at' with rfl | rfl | rfl <;> rcases m with _ | _ | _ <;> simp_all [Fits]

theorem accepted (h : Fits c w m) (at' : w = .adopting ∨ w = .writing) :
    m = some .ok ∧ (c = .receiving ∨ c = .returned ∨ c = .opened) := by
  rcases at' with rfl | rfl <;> rcases m with _ | _ | _ <;> simp_all [Fits]

end Fits

/-- Step lemma. -/
theorem Inv.step {s t : State} {a : Act} (h : Inv s) (step : act false s a = some t) : Inv t := by
  rcases s with ⟨tempfile, caller, worker, message, sent, archiveOpened, readOpen, readCloses,
    streams, writeOpen, writeClosers, misuse, holds, releases⟩
  obtain ⟨fits, message, archiveOpened, opened, writeClosers, writeOpen, readOpen, readCloses,
    streams, misuse, holds, releases⟩ := h
  dsimp only at *
  cases a with
  | hold =>
      simp only [act, Option.ite_none_right_eq_some, Option.some.injEq] at step
      obtain ⟨rfl, rfl⟩ := step
      obtain ⟨rfl, rfl⟩ := fits.alone (.inl rfl)
      constructor <;> simp_all [Fits, Caller.failing, Caller.closedWrite]
  | refuse =>
      simp only [act, Option.ite_none_right_eq_some, Option.some.injEq] at step
      obtain ⟨rfl, rfl⟩ := step
      obtain ⟨rfl, rfl⟩ := fits.alone (.inr rfl)
      constructor <;> simp_all [Fits, Caller.failing, Caller.closedWrite]
  | spawn =>
      simp only [act, Option.ite_none_right_eq_some, Option.some.injEq] at step
      obtain ⟨rfl, rfl⟩ := step
      obtain ⟨rfl, rfl⟩ := fits.alone (.inr rfl)
      constructor <;> simp_all [Fits, Caller.failing, Caller.closedWrite]
  | receive =>
      simp only [act, Option.ite_none_right_eq_some] at step
      obtain ⟨rfl, step⟩ := step
      rcases sent with _ | _ | _ <;> simp only [↓reduceIte] at message <;> subst message <;>
        cases step
      · constructor <;> simp_all [Fits, Caller.failing, Caller.closedWrite]
      · constructor <;> simp_all [Fits, Caller.failing, Caller.closedWrite]
  | disconnect =>
      simp only [act, Option.ite_none_right_eq_some, Option.some.injEq] at step
      obtain ⟨⟨rfl, rfl, rfl⟩, rfl⟩ := step
      replace message : sent = none := by simpa only [↓reduceIte] using message.symm
      subst message
      constructor <;> simp_all [Fits, Caller.failing, Caller.closedWrite]
  | interrupt => simp [act] at step
  | closeRead =>
      simp only [act, Option.ite_none_right_eq_some, Option.some.injEq] at step
      obtain ⟨rfl, rfl⟩ := step
      have unsent := (fits.failed rfl).1
      constructor
      case fits => exact fits.move rfl rfl
      all_goals simp_all [State.closeRead, Caller.failing, Caller.closedWrite]
  | closeWrite =>
      simp only [act, Option.ite_none_right_eq_some, Option.some.injEq] at step
      obtain ⟨rfl, rfl⟩ := step
      have unsent := (fits.failed rfl).1
      constructor
      case fits => exact fits.move rfl rfl
      all_goals simp_all [State.closeWrite, Caller.failing, Caller.closedWrite]
  | closeWriteFails =>
      simp only [act, Option.ite_none_right_eq_some, Option.some.injEq] at step
      obtain ⟨⟨rfl, closed⟩, -⟩ := step
      have unsent := (fits.failed rfl).1
      simp_all [Caller.closedWrite]
  | release =>
      simp only [act, Option.ite_none_right_eq_some, Option.some.injEq] at step
      obtain ⟨rfl, rfl⟩ := step
      have unsent := (fits.failed rfl).1
      constructor
      case fits => exact fits.move rfl rfl
      all_goals simp_all [Caller.failing, Caller.closedWrite]
  | hand =>
      simp only [act, Option.ite_none_right_eq_some, Option.some.injEq] at step
      obtain ⟨rfl, rfl⟩ := step
      obtain ⟨rfl, at'⟩ := fits.returned (.inl rfl)
      constructor <;> simp_all [Fits, Caller.failing, Caller.closedWrite]
  | coreOpen ending =>
      simp only [act, Option.ite_none_right_eq_some] at step
      obtain ⟨rfl, step⟩ := step
      obtain ⟨rfl, rfl⟩ := fits.waited (.inl rfl)
      cases ending <;> cases step <;> constructor <;>
        simp_all [Fits, Caller.failing, Caller.closedWrite]
  | send =>
      simp only [act] at step
      split at step
      · obtain ⟨rfl, rfl⟩ := fits.waited (.inr (.inl rfl))
        cases step
        constructor <;> simp_all [Fits, Caller.failing, Caller.closedWrite]
      · obtain ⟨rfl, rfl⟩ := fits.waited (.inr (.inr rfl))
        cases step
        constructor <;> simp_all [Fits, Caller.failing, Caller.closedWrite]
      · cases step
  | adopt =>
      simp only [act, Option.ite_none_right_eq_some, Option.some.injEq] at step
      obtain ⟨rfl, rfl⟩ := step
      obtain ⟨rfl, at'⟩ := fits.accepted (.inl rfl)
      constructor <;> simp_all [Fits, Caller.failing, Caller.closedWrite]
  | write =>
      simp only [act, Option.ite_none_right_eq_some, Option.some.injEq] at step
      obtain ⟨rfl, rfl⟩ := step
      obtain ⟨rfl, at'⟩ := fits.accepted (.inr rfl)
      rcases at' with rfl | rfl | rfl <;> constructor <;>
        simp_all [State.writeChunk, Fits, Caller.failing, Caller.closedWrite]
  | readEntry ending =>
      simp only [act, Option.ite_none_right_eq_some, Option.some.injEq] at step
      obtain ⟨rfl, rfl⟩ := step
      obtain ⟨rfl, at'⟩ := fits.accepted (.inr rfl)
      rcases at' with rfl | rfl | rfl <;> constructor <;>
        simp_all [State.closeWrite, Fits, Caller.failing, Caller.closedWrite]

theorem Inv.of_init {s : State} (h : (system false).init s) : Inv s := by
  have start : s = { tempfile := s.tempfile } := h
  rw [start]
  constructor <;> simp [Fits, Caller.failing, Caller.closedWrite]

theorem Inv.of_reachable {s : State} (h : (system false).Reachable s) : Inv s :=
  h.invariant (fun _ => Inv.of_init) (fun _ _ _ inv step => inv.step step)

/-! ## What the two parties own -/

/-- Who has to close the writing end. -/
def State.closer (s : State) : Party := if s.sent = some .ok then .worker else .caller

/-- How a run ends: both ends have one owner, and the caller knows which. -/
structure Settled (s : State) : Prop where
  worker : s.worker = .gone ∨ s.worker = .unborn
  writeOpen : s.writeOpen = false
  writeClosers : s.writeClosers = [s.closer]
  outcome :
    s.caller = .opened ∧ s.sent = some .ok ∧ s.readCloses = 0 ∧ s.streams = 1 ∧
        s.holds = s.releases + s.tempfile.toNat ∨
      s.caller = .raised ∧ s.sent ≠ some .ok ∧ s.readCloses = 1 ∧ s.streams = 0 ∧
        s.holds = s.releases

/-- How far the two parties are from their ends. -/
def State.rank (s : State) : Nat :=
  (match s.caller with
    | .created => 7
    | .held => 6
    | .receiving => 5
    | .returned => 4
    | .raising => 3
    | .readClosed => 2
    | .writeClosed => 1
    | .raised | .opened => 0) +
  (match s.worker with
    | .unborn => 5
    | .opening => 4
    | .opened => 3
    | .adopting => 2
    | .refused | .writing => 1
    | .gone => 0)

/-- Nothing but `write` can be repeated. -/
theorem Inv.rank_step {s t : State} {a : Act} (h : Inv s) (step : act false s a = some t) :
    t.rank < s.rank ∨ a = .write ∧ t.rank = s.rank := by
  cases a with
  | receive =>
      simp only [act, Option.ite_none_right_eq_some] at step
      obtain ⟨at', step⟩ := step
      split at step <;> cases step <;> simp [State.rank, at']
  | coreOpen ending =>
      simp only [act, Option.ite_none_right_eq_some] at step
      obtain ⟨at', step⟩ := step
      cases ending <;> cases step <;> simp [State.rank, at']
  | send =>
      simp only [act] at step
      split at step <;> cases step <;> simp [State.rank, *]
  | interrupt =>
      simp only [act, Option.ite_none_right_eq_some, Option.some.injEq] at step
      obtain ⟨⟨-, at' | at'⟩, rfl⟩ := step <;> simp [State.rank, at']
  | disconnect =>
      simp only [act, Option.ite_none_right_eq_some, Option.some.injEq] at step
      obtain ⟨⟨at', -, -⟩, rfl⟩ := step
      simp [State.rank, at']
  | closeWriteFails =>
      simp only [act, Option.ite_none_right_eq_some, Option.some.injEq] at step
      obtain ⟨⟨at', -⟩, rfl⟩ := step
      simp [State.rank, at']
  | spawn =>
      simp only [act, Option.ite_none_right_eq_some, Option.some.injEq] at step
      obtain ⟨at', rfl⟩ := step
      have unborn := (h.fits.alone (.inr at')).1
      simp [State.rank, at', unborn]
  | _ =>
      simp only [act, Option.ite_none_right_eq_some, Option.some.injEq] at step
      obtain ⟨at', rfl⟩ := step
      simp [State.rank, State.closeRead, State.closeWrite, State.writeChunk, at']

theorem Inv.closers {s : State} (h : Inv s) : s.writeClosers <+: [s.closer] := by
  rw [h.writeClosers, State.closer]
  split
  · next closed =>
    have unsent := (h.fits.failed (by revert closed; cases s.caller <;> decide)).1
    simp [unsent]
  · split
    · next sent => simp [sent.1]
    · exact List.nil_prefix

/-- A run can stop nowhere but at its end. -/
theorem Inv.settled {s : State} (h : Inv s) (stuck : ∀ a, act false s a = none) : Settled s := by
  have worker : s.worker = .gone ∨ s.worker = .unborn := by
    have opening := stuck (.coreOpen .ok)
    have sending := stuck .send
    have adopting := stuck .adopt
    have writing := stuck (.readEntry .ok)
    cases at' : s.worker <;> simp [act, at'] at opening sending adopting writing ⊢
  have caller : s.caller = .opened ∨ s.caller = .raised ∨ s.caller = .receiving := by
    have created := stuck .hold
    have held := stuck .refuse
    have returned := stuck .hand
    have raising := stuck .closeRead
    have readClosed := stuck .closeWrite
    have writeClosed := stuck .release
    cases at' : s.caller <;>
      simp [act, at'] at created held returned raising readClosed writeClosed ⊢
  have closers := h.writeClosers
  have writeOpen := h.writeOpen
  have readCloses := h.readCloses
  have streams := h.streams
  rcases caller with at' | at' | at'
  · obtain ⟨sent, born⟩ := h.fits.returned (.inr at')
    obtain gone : s.worker = .gone := by
      rcases worker with gone | unborn
      · exact gone
      · simp [unborn] at born
    simp only [at', sent, gone, Caller.closedWrite, Caller.failing] at closers readCloses streams
    exact ⟨worker, by simpa [closers] using writeOpen, by simpa [State.closer, sent] using closers,
      .inl ⟨at', sent, by simpa using readCloses, by simpa using streams,
        by simp [h.holds, h.releases, at']⟩⟩
  · have unsent := (h.fits.failed (by rw [at']; rfl)).1
    simp only [at', Caller.closedWrite, Caller.failing] at closers readCloses streams
    exact ⟨worker, by simpa [closers] using writeOpen,
      by simpa [State.closer, unsent] using closers,
      .inr ⟨at', unsent, by simpa using readCloses, by simpa using streams,
        by simp [h.holds, h.releases, at']⟩⟩
  · -- a receiver whose worker is gone gets its message or is disconnected
    exfalso
    have message := h.message
    have fits := h.fits
    rw [at'] at fits
    have gone := worker.resolve_right fits.spawned
    have received := stuck .receive
    have disconnected := stuck .disconnect
    rcases sent : s.sent with _ | _ | _ <;>
      simp [act, at', gone, message, sent] at received disconnected

/-- A writing end that is closed stays closed. -/
theorem writeOpen_step {interrupts : Bool} {s t : State} {a : Act}
    (step : act interrupts s a = some t) (closed : s.writeOpen = false) : t.writeOpen = false := by
  cases a with
  | receive =>
      simp only [act, Option.ite_none_right_eq_some] at step
      obtain ⟨-, step⟩ := step
      split at step <;> cases step <;> exact closed
  | coreOpen ending =>
      simp only [act, Option.ite_none_right_eq_some] at step
      obtain ⟨-, step⟩ := step
      cases ending <;> cases step <;> exact closed
  | send =>
      simp only [act] at step
      split at step <;> cases step <;> exact closed
  | closeWrite =>
      simp only [act, Option.ite_none_right_eq_some, Option.some.injEq] at step
      obtain ⟨-, rfl⟩ := step
      rfl
  | readEntry =>
      simp only [act, Option.ite_none_right_eq_some, Option.some.injEq] at step
      obtain ⟨-, rfl⟩ := step
      rfl
  | _ =>
      simp only [act, Option.ite_none_right_eq_some, Option.some.injEq] at step
      obtain ⟨-, rfl⟩ := step
      exact closed

theorem Inv.no_write {s t : State} (h : Inv s) (closed : s.writeOpen = false)
    (step : act false s .write = some t) : False := by
  have kept := (h.step step).misuse
  simp only [act, Option.ite_none_right_eq_some, Option.some.injEq] at step
  obtain ⟨-, rfl⟩ := step
  simp [State.writeChunk, closed] at kept

theorem handshake_owns_descriptors {s : State} (reachable : (system false).Reachable s) :
    (s.caller = .returned ∨ s.caller = .opened → s.archiveOpened = true) ∧
      s.misuse = false ∧
      s.writeClosers <+: [s.closer] ∧
      (s.writeOpen = false →
        ∀ run, (system false).IsRun s run → Lts.AllSteps (fun _ a => a ≠ .write) s run) ∧
      (∀ a t, act false s a = some t → t.rank < s.rank ∨ a = .write ∧ t.rank = s.rank) ∧
      ((∀ a, act false s a = none) → Settled s) := by
  have inv := Inv.of_reachable reachable
  refine ⟨?_, inv.misuse, inv.closers, ?_, fun _ _ => inv.rank_step, inv.settled⟩
  · intro at'
    exact inv.archiveOpened (inv.fits.returned at').1
  · intro closed run isRun
    refine isRun.allSteps (I := fun s => Inv s ∧ s.writeOpen = false) ⟨inv, closed⟩ ?_ ?_
    · intro s a t held step
      exact ⟨held.1.step step, writeOpen_step step held.2⟩
    · intro s a t held step same
      obtain rfl := same
      exact held.1.no_write held.2 step

/-- A whole run in which the caller has its stream before the worker takes the
descriptor over, and the decoding then fails. -/
def broken : State where
  tempfile := true
  caller := .opened
  worker := .gone
  sent := some .ok
  archiveOpened := true
  streams := 1
  writeOpen := false
  writeClosers := [.worker]
  holds := 1

theorem broken_reachable : (system false).Reachable broken :=
  ⟨{ tempfile := true },
    [(.hold, _), (.spawn, _), (.coreOpen .ok, _), (.send, _), (.receive, _), (.hand, _),
      (.adopt, _), (.write, _), (.readEntry .error, _)],
    rfl, ⟨rfl, rfl, rfl, rfl, rfl, rfl, rfl, rfl, rfl, True.intro⟩, rfl⟩

theorem handshake_owns_descriptors_broken : broken.archiveOpened = true ∧ Settled broken := by
  have owns := handshake_owns_descriptors broken_reachable
  refine ⟨owns.1 (.inr rfl), owns.2.2.2.2.2 ?_⟩
  intro a
  cases a <;> rfl

end Handshake

end NewtuaPy
