import NewtuaPy.Lib.Lts

/-!
# The handshake of a Windows pipe

`_open_pipe_windows` on the calling thread and the worker that
`open_stream_windows` spawns.  Here the compiled module makes the pipe: the
writing end moves into the worker and never leaves it, the reading end stays
with the caller until the worker has opened the archive, and is then given up as
a raw handle for Python to adopt: `open_osfhandle` makes a descriptor of it, the raw
file within `os.fdopen` takes the descriptor, and the stream the file.  What is
dropped is closed; what is only a number is not.
-/

namespace NewtuaPy

namespace WindowsPipe

/-- The result that goes through the channel; the parts of an error do not
matter here. -/
inductive Message
  | ok
  | err
deriving DecidableEq, Repr

inductive Party
  | caller
  | worker
deriving DecidableEq, Repr

/-- Where the calling thread is. -/
inductive Caller
  /-- about to enter `open_stream_windows` -/
  | calling
  /-- after `pipe()`, about to spawn the worker -/
  | piped
  /-- in `rx.recv()` -/
  | receiving
  /-- about to drop `reader_end` -/
  | dropping
  /-- `open_stream_windows` has returned the raw handle -/
  | returned
  /-- `msvcrt.open_osfhandle` has made a descriptor of it -/
  | adopted
  /-- `os.fdopen` has made a file object of that -/
  | wrapped
  /-- the file object has become the backing of a stream -/
  | built
  /-- an exception is about to drop the object that owns the descriptor -/
  | discarding
  /-- the stream object has been returned -/
  | opened
  | raised
deriving DecidableEq, Repr

/-- Where the worker thread is. -/
inductive Worker
  | unborn
  /-- in `core_open` -/
  | opening
  /-- about to send `Ok` -/
  | opened
  /-- about to send `Err` -/
  | refused
  /-- in `read_entry` -/
  | writing
  /-- returned or unwound, about to drop `writer_end` and the sender -/
  | leaving
  /-- `writer_end` is dropped, the sender is not -/
  | closed
  /-- the sender is dropped, `writer_end` is not -/
  | hungUp
  | gone
deriving DecidableEq, Repr

structure State where
  caller : Caller := .calling
  worker : Worker := .unborn
  /-- what is in the channel -/
  message : Option Message := none
  /-- what has ever been sent -/
  sent : Option Message := none
  archiveOpened : Bool := false
  /-- `pipe()` has returned -/
  made : Bool := false
  readOpen : Bool := false
  readClosers : List Party := []
  /-- the descriptor belongs, or has belonged, to a Python object -/
  wrapped : Bool := false
  writeOpen : Bool := false
  writeClosers : List Party := []
  /-- a closed end has been written to, closed or given up -/
  misuse : Bool := false
  /-- stream objects that own the reading end -/
  streams : Nat := 0
deriving DecidableEq, Repr

/-- How a call of the engine ends. -/
inductive Ending
  | ok
  | error
  | panic
deriving DecidableEq, Repr

/-- The steps of the two parties. -/
inductive Act
  | refuse
  | pipe
  | spawn
  | spawnFails
  | receive
  | disconnect
  | dropRead
  | adopt
  | adoptFails
  | wrap
  | wrapFails
  | bufferFails
  | build
  | hand
  | interrupt
  | discard
  | coreOpen (ending : Ending)
  | send
  | write
  | readEntry (ending : Ending)
  | dropWrite
  | hangUp
deriving DecidableEq, Repr

namespace State

def closeRead (s : State) (by' : Party) : State :=
  { s with
    readOpen := false
    readClosers := s.readClosers ++ [by']
    misuse := s.misuse || !s.readOpen }

def closeWrite (s : State) (by' : Party) : State :=
  { s with
    writeOpen := false
    writeClosers := s.writeClosers ++ [by']
    misuse := s.misuse || !s.writeOpen }

/-- One write of the worker. -/
def writeChunk (s : State) : State := { s with misuse := s.misuse || !s.writeOpen }

/-- Use of the reading end as a handle or as a descriptor. -/
def useRead (s : State) : State := { s with misuse := s.misuse || !s.readOpen }

end State

/-- One step. -/
def act (s : State) : Act → Option State
  -- a bad index, or a pipe that cannot be made
  | .refuse => if s.caller = .calling then some { s with caller := .raised } else none
  | .pipe =>
      if s.caller = .calling then
        some { s with caller := .piped, made := true, readOpen := true, writeOpen := true }
      else none
  | .spawn =>
      if s.caller = .piped then some { s with caller := .receiving, worker := .opening } else none
  -- the panic of `spawn` drops the closure, and `writer_end` with it
  | .spawnFails =>
      if s.caller = .piped then some { s.closeWrite .caller with caller := .dropping } else none
  | .receive =>
      if s.caller = .receiving then
        match s.message with
        | some .ok => some { s.useRead with caller := .returned, message := none }
        | some .err => some { s with caller := .dropping, message := none }
        | none => none
      else none
  | .disconnect =>
      if s.caller = .receiving ∧ s.message = none ∧ (s.worker = .hungUp ∨ s.worker = .gone) then
        some { s with caller := .dropping }
      else none
  | .dropRead =>
      if s.caller = .dropping then some { s.closeRead .caller with caller := .raised } else none
  | .adopt => if s.caller = .returned then some { s.useRead with caller := .adopted } else none
  -- `open_osfhandle` raises: the handle stays a number
  | .adoptFails => if s.caller = .returned then some { s with caller := .raised } else none
  | .wrap =>
      if s.caller = .adopted then some { s.useRead with caller := .wrapped, wrapped := true }
      else none
  -- there is no raw file, and the descriptor stays a number
  | .wrapFails => if s.caller = .adopted then some { s with caller := .raised } else none
  -- there is no buffer around the raw file, which `io.open` then closes
  | .bufferFails =>
      if s.caller = .adopted then some { s.useRead with caller := .discarding, wrapped := true }
      else none
  | .build => if s.caller = .wrapped then some { s with caller := .built } else none
  | .hand =>
      if s.caller = .built then some { s with caller := .opened, streams := s.streams + 1 }
      else none
  -- a `KeyboardInterrupt` or a `MemoryError` surfaces in Python code, where no `finally` stands
  | .interrupt =>
      match s.caller with
      | .calling | .returned | .adopted => some { s with caller := .raised }
      | .wrapped | .built => some { s with caller := .discarding }
      | _ => none
  -- the finalizer of the object
  | .discard =>
      if s.caller = .discarding then some { s.closeRead .caller with caller := .raised } else none
  | .coreOpen ending =>
      if s.worker = .opening then
        match ending with
        | .ok => some { s with worker := .opened, archiveOpened := true }
        | .error => some { s with worker := .refused }
        | .panic => some { s with worker := .leaving }
      else none
  | .send =>
      match s.worker with
      | .opened => some { s with worker := .writing, message := some .ok, sent := some .ok }
      | .refused => some { s with worker := .leaving, message := some .err, sent := some .err }
      | _ => none
  | .write => if s.worker = .writing then some s.writeChunk else none
  | .readEntry _ => if s.worker = .writing then some { s with worker := .leaving } else none
  | .dropWrite =>
      match s.worker with
      | .leaving => some { s.closeWrite .worker with worker := .closed }
      | .hungUp => some { s.closeWrite .worker with worker := .gone }
      | _ => none
  | .hangUp =>
      match s.worker with
      | .leaving => some { s with worker := .hungUp }
      | .closed => some { s with worker := .gone }
      | _ => none

/-- The system: any interleaving of the two parties. -/
def system : Lts State Act where
  init s := s = {}
  step s a t := act s a = some t

/-! ## The invariant -/

/-- The body of the worker is over. -/
def Worker.over : Worker → Bool
  | .leaving | .closed | .hungUp | .gone => true
  | _ => false

/-- The worker has closed the writing end. -/
def Worker.closedWrite : Worker → Bool
  | .closed | .gone => true
  | _ => false

/-- The worker has dropped the sender. -/
def Worker.silent : Worker → Bool
  | .hungUp | .gone => true
  | _ => false

/-- Python has the reading end. -/
def Caller.holding : Caller → Bool
  | .returned | .adopted | .wrapped | .built | .discarding | .opened => true
  | _ => false

/-- The reading end belongs to a Python object. -/
@[simp] def Caller.owning : Caller → Bool
  | .wrapped | .built | .discarding | .opened => true
  | _ => false

/-- Which positions of the two parties go together, by what has been sent. -/
def Fits (caller : Caller) (worker : Worker) (made : Bool) : Option Message → Prop
  | none =>
      match worker with
      | .unborn =>
          if made then caller = .piped ∨ caller = .dropping ∨ caller = .raised
          else caller = .calling ∨ caller = .raised
      | .opening | .opened | .refused | .leaving | .closed => made = true ∧ caller = .receiving
      | .hungUp | .gone =>
          made = true ∧ (caller = .receiving ∨ caller = .dropping ∨ caller = .raised)
      | .writing => False
  | some .err =>
      made = true ∧ worker.over = true ∧
        (caller = .receiving ∨ caller = .dropping ∨ caller = .raised)
  | some .ok =>
      made = true ∧ (worker = .writing ∨ worker.over = true) ∧
        (caller = .receiving ∨ caller.holding = true ∨ caller = .raised)

/-- Every field that is not a position is determined by the positions, by whether there is a
pipe, and by what has been sent. -/
structure Inv (s : State) : Prop where
  fits : Fits s.caller s.worker s.made s.sent
  message : s.message = if s.caller = .receiving then s.sent else none
  archiveOpened : s.sent = some .ok ∨ s.worker = .opened → s.archiveOpened = true
  writeClosers : s.writeClosers =
    if s.worker.closedWrite then [.worker]
    else if s.made = true ∧ s.worker = .unborn ∧ s.caller ≠ .piped then [.caller] else []
  writeOpen : s.writeOpen = (s.made && s.writeClosers.isEmpty)
  wrapped : s.caller ≠ .raised → s.wrapped = s.caller.owning
  readClosers : s.readClosers =
    if s.made = true ∧ s.caller = .raised ∧ (s.sent = some .ok → s.wrapped = true)
    then [.caller] else []
  readOpen : s.readOpen = (s.made && s.readClosers.isEmpty)
  streams : s.streams = if s.caller = .opened then 1 else 0
  misuse : s.misuse = false

namespace Fits

variable {c d : Caller} {w : Worker} {p : Bool} {m : Option Message}

theorem calling (h : Fits .calling w p m) : w = .unborn ∧ p = false ∧ m = none := by
  rcases m with _ | _ | _ <;> cases w <;> cases p <;> simp_all [Fits, Caller.holding]

theorem piped (h : Fits .piped w p m) : w = .unborn ∧ p = true ∧ m = none := by
  rcases m with _ | _ | _ <;> cases w <;> cases p <;> simp_all [Fits, Caller.holding]

theorem receiving (h : Fits .receiving w p m) : w ≠ .unborn ∧ p = true := by
  rcases m with _ | _ | _ <;> cases w <;> cases p <;> simp_all [Fits, Worker.over]

theorem dropping (h : Fits .dropping w p m) :
    p = true ∧ m ≠ some .ok ∧ Fits .raised w p m := by
  rcases m with _ | _ | _ <;> cases w <;> cases p <;> simp_all [Fits, Caller.holding]

theorem holding (h : Fits c w p m) (at' : c.holding = true) :
    p = true ∧ m = some .ok ∧ (w = .writing ∨ w.over = true) := by
  rcases m with _ | _ | _ <;> cases w <;> cases p <;> cases c <;>
    simp_all [Fits, Caller.holding, Worker.over]

theorem before (h : Fits c w p m) (at' : w = .opening ∨ w = .opened ∨ w = .refused) :
    c = .receiving ∧ p = true ∧ m = none := by
  rcases at' with rfl | rfl | rfl <;> rcases m with _ | _ | _ <;> cases p <;>
    simp_all [Fits, Worker.over]

theorem writing (h : Fits c .writing p m) : p = true ∧ m = some .ok ∧ Fits c .leaving p m := by
  rcases m with _ | _ | _ <;> cases p <;> simp_all [Fits, Worker.over]

theorem leaving (h : Fits c w p m) (at' : w.over = true) : p = true := by
  rcases m with _ | _ | _ <;> cases w <;> cases p <;> simp_all [Fits, Worker.over]

/-- A worker that is over may still drop what it has. -/
theorem drop (h : Fits c w p m) (at' : w.over = true) {w' : Worker} (next : w'.over = true)
    (silent : w.silent = true → w'.silent = true) : Fits c w' p m := by
  rcases m with _ | _ | _ <;> cases w <;> cases w' <;>
    simp_all [Fits, Worker.over, Worker.silent]

end Fits

/-- What is raised passes a number by, and drops an object. -/
theorem interrupt_cases {s t : State} (step : act s .interrupt = some t) :
    (s.caller = .calling ∨ s.caller = .returned ∨ s.caller = .adopted) ∧
        t = { s with caller := .raised } ∨
      (s.caller = .wrapped ∨ s.caller = .built) ∧ t = { s with caller := .discarding } := by
  simp only [act] at step
  split at step <;> cases step <;> simp [*]

/-- Step lemma. -/
theorem Inv.step {s t : State} {a : Act} (h : Inv s) (step : act s a = some t) : Inv t := by
  rcases s with ⟨caller, worker, message, sent, archiveOpened, made, readOpen, readClosers,
    wrapped, writeOpen, writeClosers, misuse, streams⟩
  obtain ⟨fits, message, archiveOpened, writeClosers, writeOpen, wrapped, readClosers, readOpen,
    streams, misuse⟩ := h
  dsimp only at *
  cases a with
  | refuse =>
      simp only [act, Option.ite_none_right_eq_some, Option.some.injEq] at step
      obtain ⟨rfl, rfl⟩ := step
      obtain ⟨rfl, rfl, rfl⟩ := fits.calling
      constructor <;> simp_all [Fits, Worker.closedWrite]
  | pipe =>
      simp only [act, Option.ite_none_right_eq_some, Option.some.injEq] at step
      obtain ⟨rfl, rfl⟩ := step
      obtain ⟨rfl, rfl, rfl⟩ := fits.calling
      constructor <;> simp_all [Fits, Worker.closedWrite]
  | spawn =>
      simp only [act, Option.ite_none_right_eq_some, Option.some.injEq] at step
      obtain ⟨rfl, rfl⟩ := step
      obtain ⟨rfl, rfl, rfl⟩ := fits.piped
      constructor <;> simp_all [Fits, Worker.closedWrite]
  | spawnFails =>
      simp only [act, Option.ite_none_right_eq_some, Option.some.injEq] at step
      obtain ⟨rfl, rfl⟩ := step
      obtain ⟨rfl, rfl, rfl⟩ := fits.piped
      constructor <;> simp_all [Fits, Worker.closedWrite, State.closeWrite]
  | receive =>
      simp only [act, Option.ite_none_right_eq_some] at step
      obtain ⟨rfl, step⟩ := step
      obtain ⟨born, rfl⟩ := fits.receiving
      rcases sent with _ | _ | _ <;> simp only [↓reduceIte] at message <;> subst message <;>
        cases step
      · constructor <;> simp_all [Fits, Caller.holding, State.useRead]
      · constructor <;> simp_all [Fits]
  | disconnect =>
      simp only [act, Option.ite_none_right_eq_some, Option.some.injEq] at step
      obtain ⟨⟨rfl, rfl, silent⟩, rfl⟩ := step
      replace message : sent = none := by simpa only [↓reduceIte] using message.symm
      subst message
      obtain ⟨born, rfl⟩ := fits.receiving
      rcases silent with rfl | rfl <;> constructor <;> simp_all [Fits]
  | dropRead =>
      simp only [act, Option.ite_none_right_eq_some, Option.some.injEq] at step
      obtain ⟨rfl, rfl⟩ := step
      obtain ⟨rfl, unsent, raised⟩ := fits.dropping
      constructor
      case fits => exact raised
      all_goals simp_all [State.closeRead]
  | adopt =>
      simp only [act, Option.ite_none_right_eq_some, Option.some.injEq] at step
      obtain ⟨rfl, rfl⟩ := step
      obtain ⟨rfl, rfl, worker⟩ := fits.holding rfl
      constructor <;> simp_all [Fits, Caller.holding, State.useRead]
  | adoptFails =>
      simp only [act, Option.ite_none_right_eq_some, Option.some.injEq] at step
      obtain ⟨rfl, rfl⟩ := step
      obtain ⟨rfl, rfl, worker⟩ := fits.holding rfl
      constructor <;> simp_all [Fits]
  | wrap | bufferFails =>
      simp only [act, Option.ite_none_right_eq_some, Option.some.injEq] at step
      obtain ⟨rfl, rfl⟩ := step
      obtain ⟨rfl, rfl, worker⟩ := fits.holding rfl
      constructor <;> simp_all [Fits, Caller.holding, State.useRead]
  | wrapFails =>
      simp only [act, Option.ite_none_right_eq_some, Option.some.injEq] at step
      obtain ⟨rfl, rfl⟩ := step
      obtain ⟨rfl, rfl, worker⟩ := fits.holding rfl
      constructor <;> simp_all [Fits]
  | build | hand =>
      simp only [act, Option.ite_none_right_eq_some, Option.some.injEq] at step
      obtain ⟨rfl, rfl⟩ := step
      obtain ⟨rfl, rfl, worker⟩ := fits.holding rfl
      constructor <;> simp_all [Fits, Caller.holding]
  | interrupt =>
      obtain ⟨rfl | rfl | rfl, rfl⟩ | ⟨rfl | rfl, rfl⟩ := interrupt_cases step
      · obtain ⟨rfl, rfl, rfl⟩ := fits.calling
        constructor <;> simp_all [Fits, Worker.closedWrite]
      all_goals
        obtain ⟨rfl, rfl, worker⟩ := fits.holding rfl
        constructor <;> simp_all [Fits, Caller.holding]
  | discard =>
      simp only [act, Option.ite_none_right_eq_some, Option.some.injEq] at step
      obtain ⟨rfl, rfl⟩ := step
      obtain ⟨rfl, rfl, worker⟩ := fits.holding rfl
      constructor <;> simp_all [Fits, State.closeRead]
  | coreOpen ending =>
      simp only [act, Option.ite_none_right_eq_some] at step
      obtain ⟨rfl, step⟩ := step
      obtain ⟨rfl, rfl, rfl⟩ := fits.before (.inl rfl)
      cases ending <;> cases step <;> constructor <;> simp_all [Fits, Worker.closedWrite]
  | send =>
      simp only [act] at step
      split at step
      · obtain ⟨rfl, rfl, rfl⟩ := fits.before (.inr (.inl rfl))
        cases step
        constructor <;> simp_all [Fits, Worker.closedWrite]
      · obtain ⟨rfl, rfl, rfl⟩ := fits.before (.inr (.inr rfl))
        cases step
        constructor <;> simp_all [Fits, Worker.closedWrite, Worker.over]
      · cases step
  | write =>
      simp only [act, Option.ite_none_right_eq_some, Option.some.injEq] at step
      obtain ⟨rfl, rfl⟩ := step
      obtain ⟨rfl, rfl, -⟩ := fits.writing
      constructor <;> simp_all [State.writeChunk, Worker.closedWrite]
  | readEntry ending =>
      simp only [act, Option.ite_none_right_eq_some, Option.some.injEq] at step
      obtain ⟨rfl, rfl⟩ := step
      obtain ⟨rfl, rfl, leaving⟩ := fits.writing
      constructor
      case fits => exact leaving
      all_goals simp_all [Worker.closedWrite]
  | dropWrite =>
      simp only [act] at step
      split at step
      · cases step
        obtain rfl := fits.leaving rfl
        constructor
        case fits => exact fits.drop rfl rfl nofun
        all_goals simp_all [State.closeWrite, Worker.closedWrite]
      · cases step
        obtain rfl := fits.leaving rfl
        constructor
        case fits => exact fits.drop rfl rfl fun _ => rfl
        all_goals simp_all [State.closeWrite, Worker.closedWrite]
      · cases step
  | hangUp =>
      simp only [act] at step
      split at step
      · cases step
        obtain rfl := fits.leaving rfl
        constructor
        case fits => exact fits.drop rfl rfl nofun
        all_goals simp_all [Worker.closedWrite]
      · cases step
        obtain rfl := fits.leaving rfl
        constructor
        case fits => exact fits.drop rfl rfl nofun
        all_goals simp_all [Worker.closedWrite]
      · cases step

theorem Inv.of_init {s : State} (h : system.init s) : Inv s := by
  have start : s = {} := h
  rw [start]
  constructor <;> simp [Fits, Worker.closedWrite]

theorem Inv.of_reachable {s : State} (h : system.Reachable s) : Inv s :=
  h.invariant (fun _ => Inv.of_init) (fun _ _ _ inv step => inv.step step)

/-! ## What the two parties own -/

/-- The writing end is closed by the worker, unless there never was one. -/
def State.closer (s : State) : Party := if s.worker = .unborn then .caller else .worker

/-- The worker is over, and the writing end is closed once. -/
structure Ended (s : State) : Prop where
  worker : s.worker = .gone ∨ s.worker = .unborn
  writeOpen : s.writeOpen = false
  writeClosers : s.writeClosers = if s.made then [s.closer] else []

/-- The reading end belongs to a stream, or the call has failed and the end is closed once. -/
def Accounted (s : State) : Prop :=
  s.caller = .opened ∧ s.sent = some .ok ∧ s.readOpen = true ∧ s.streams = 1 ∨
    s.caller = .raised ∧ s.readOpen = false ∧ s.streams = 0 ∧
      s.readClosers = if s.made then [.caller] else []

/-- The call has failed, and nobody will close the reading end. -/
def Lost (s : State) : Prop := s.caller = .raised ∧ s.readOpen = true
deriving Decidable

/-- How far the two parties are from their ends. -/
def State.rank (s : State) : Nat :=
  (match s.caller with
    | .calling => 15
    | .piped => 14
    | .receiving => 7
    | .returned => 6
    | .adopted => 5
    | .wrapped => 4
    | .built => 3
    | .dropping | .discarding => 2
    | .opened | .raised => 0) +
  (match s.worker with
    | .opening => 6
    | .opened | .refused => 5
    | .writing => 4
    | .leaving => 3
    | .closed | .hungUp => 2
    | .unborn | .gone => 0)

/-- Nothing but `write` can be repeated. -/
theorem Inv.rank_step {s t : State} {a : Act} (h : Inv s) (step : act s a = some t) :
    t.rank < s.rank ∨ a = .write ∧ t.rank = s.rank := by
  cases a with
  | receive =>
      simp only [act, Option.ite_none_right_eq_some] at step
      obtain ⟨at', step⟩ := step
      split at step <;> cases step <;> simp [State.rank, State.useRead, at']
  | coreOpen ending =>
      simp only [act, Option.ite_none_right_eq_some] at step
      obtain ⟨at', step⟩ := step
      cases ending <;> cases step <;> simp [State.rank, at']
  | send =>
      simp only [act] at step
      split at step <;> cases step <;> simp [State.rank, *]
  | dropWrite =>
      simp only [act] at step
      split at step <;> cases step <;> simp [State.rank, State.closeWrite, *]
  | hangUp =>
      simp only [act] at step
      split at step <;> cases step <;> simp [State.rank, *]
  | interrupt =>
      obtain ⟨at' | at' | at', rfl⟩ | ⟨at' | at', rfl⟩ := interrupt_cases step <;>
        simp [State.rank, at']
  | disconnect =>
      simp only [act, Option.ite_none_right_eq_some, Option.some.injEq] at step
      obtain ⟨⟨at', -, -⟩, rfl⟩ := step
      simp [State.rank, at']
  | spawn =>
      simp only [act, Option.ite_none_right_eq_some, Option.some.injEq] at step
      obtain ⟨at', rfl⟩ := step
      have fits := h.fits
      rw [at'] at fits
      simp [State.rank, at', fits.piped.1]
  | _ =>
      simp only [act, Option.ite_none_right_eq_some, Option.some.injEq] at step
      obtain ⟨at', rfl⟩ := step
      simp [State.rank, State.closeRead, State.closeWrite, State.writeChunk, State.useRead, at']

/-- Neither end is closed twice, and the writing end by nobody but the worker it moved to. -/
theorem Inv.closers {s : State} (h : Inv s) :
    s.writeClosers <+: [s.closer] ∧ s.readClosers <+: [.caller] := by
  constructor
  · rw [h.writeClosers]
    split
    · next closed =>
      have born : s.worker ≠ .unborn := by
        intro unborn
        rw [unborn] at closed
        cases closed
      have closer : s.closer = .worker := if_neg born
      exact ⟨[], by simp [closer]⟩
    · split
      · next never =>
        have closer : s.closer = .caller := if_pos never.2.1
        exact ⟨[], by simp [closer]⟩
      · exact List.nil_prefix
  · rw [h.readClosers]
    split
    · exact List.prefix_refl _
    · exact List.nil_prefix

/-- A caller that can go no further has ended: a receiver whose worker is gone gets its
message or is disconnected. -/
theorem Inv.caller_stuck {s : State} (h : Inv s) (stuck : ∀ a, act s a = none)
    (worker : s.worker = .gone ∨ s.worker = .unborn) : s.caller = .opened ∨ s.caller = .raised := by
  have caller : s.caller = .opened ∨ s.caller = .raised ∨ s.caller = .receiving := by
    have calling := stuck .refuse
    have piped := stuck .spawn
    have dropping := stuck .dropRead
    have returned := stuck .adopt
    have adopted := stuck .wrap
    have wrapped := stuck .build
    have built := stuck .hand
    have discarding := stuck .discard
    cases at' : s.caller <;>
      simp [act, at'] at calling piped dropping returned adopted wrapped built discarding ⊢
  rcases caller with opened | raised | at'
  · exact Or.inl opened
  · exact Or.inr raised
  · exfalso
    have message := h.message
    have fits := h.fits
    rw [at'] at fits
    have gone := worker.resolve_right fits.receiving.1
    have received := stuck .receive
    have disconnected := stuck .disconnect
    rcases sent : s.sent with _ | _ | _ <;>
      simp [act, at', gone, message, sent] at received disconnected

/-- A run can stop nowhere but at its end. -/
theorem Inv.ended {s : State} (h : Inv s) (stuck : ∀ a, act s a = none) :
    Ended s ∧ (Accounted s ∨ Lost s) := by
  have worker : s.worker = .gone ∨ s.worker = .unborn := by
    have opening := stuck (.coreOpen .ok)
    have sending := stuck .send
    have writing := stuck (.readEntry .ok)
    have dropping := stuck .dropWrite
    have hanging := stuck .hangUp
    cases at' : s.worker <;> simp [act, at'] at opening sending writing dropping hanging ⊢
  have caller := h.caller_stuck stuck worker
  have closers : s.writeClosers = if s.made then [s.closer] else [] := by
    rw [h.writeClosers]
    rcases worker with gone | unborn
    · have made := h.fits.leaving (by rw [gone]; rfl)
      simp [gone, made, State.closer, Worker.closedWrite]
    · have unpiped : s.caller ≠ .piped := by
        rcases caller with at' | at' <;> rw [at'] <;> decide
      cases made : s.made <;> simp [unborn, unpiped, State.closer, Worker.closedWrite]
  refine ⟨⟨worker, ?_, closers⟩, ?_⟩
  · rw [h.writeOpen, closers]
    cases s.made <;> rfl
  · rcases caller with at' | at'
    · obtain ⟨made, sent, -⟩ := h.fits.holding (by rw [at']; rfl)
      refine Or.inl (Or.inl ⟨at', sent, ?_, by rw [h.streams, if_pos at']⟩)
      rw [h.readOpen, h.readClosers, made, at']
      simp
    · cases isOpen : s.readOpen with
      | true => exact Or.inr ⟨at', isOpen⟩
      | false =>
          have streams : s.streams = 0 := by
            rw [h.streams, at']
            rfl
          refine Or.inl (Or.inr ⟨at', isOpen, streams, ?_⟩)
          have readOpen := h.readOpen
          have readClosers := h.readClosers
          rw [isOpen, readClosers] at readOpen
          rw [readClosers]
          cases made : s.made with
          | false => simp
          | true =>
              by_cases closed : s.sent = some .ok → s.wrapped = true
              · rw [if_pos ⟨rfl, at', closed⟩, if_pos rfl]
              · simp [made, at', closed] at readOpen

/-- In every interleaving, failures and interrupts included: nothing is closed twice or used
once it is closed, Python gets the reading end only of an archive that has been opened, and a
run ends with the writing end closed once, and with the reading end accounted for or lost. -/
theorem handshake_owns_ends {s : State} (reachable : system.Reachable s) :
    s.misuse = false ∧
      (s.writeClosers <+: [s.closer] ∧ s.readClosers <+: [.caller]) ∧
      (s.caller.holding = true → s.archiveOpened = true ∧ s.readOpen = true) ∧
      (∀ a t, act s a = some t → t.rank < s.rank ∨ a = .write ∧ t.rank = s.rank) ∧
      ((∀ a, act s a = none) → Ended s ∧ (Accounted s ∨ Lost s)) := by
  have inv := Inv.of_reachable reachable
  refine ⟨inv.misuse, inv.closers, ?_, fun _ _ => inv.rank_step, inv.ended⟩
  intro holding
  obtain ⟨made, sent, -⟩ := inv.fits.holding holding
  refine ⟨inv.archiveOpened (Or.inl sent), ?_⟩
  have unraised : s.caller ≠ .raised := by
    intro raised
    rw [raised] at holding
    cases holding
  rw [inv.readOpen, inv.readClosers, made]
  simp [unraised]

/-- A whole run in which the decoding fails after the stream has been returned. -/
def broken : State where
  caller := .opened
  worker := .gone
  sent := some .ok
  archiveOpened := true
  made := true
  readOpen := true
  wrapped := true
  writeClosers := [.worker]
  streams := 1

theorem broken_reachable : system.Reachable broken :=
  ⟨{}, [(.pipe, _), (.spawn, _), (.coreOpen .ok, _), (.send, _), (.receive, _), (.adopt, _),
      (.wrap, _), (.build, _), (.hand, _), (.write, _), (.readEntry .error, _), (.hangUp, _),
      (.dropWrite, _)],
    rfl, ⟨rfl, rfl, rfl, rfl, rfl, rfl, rfl, rfl, rfl, rfl, rfl, rfl, rfl, True.intro⟩, rfl⟩

theorem handshake_owns_ends_broken :
    broken.misuse = false ∧ Ended broken ∧ (Accounted broken ∨ Lost broken) := by
  have owns := handshake_owns_ends broken_reachable
  refine ⟨owns.1, owns.2.2.2.2 ?_⟩
  intro a
  cases a <;> rfl

/-! ## The lost handle -/

/-- Nothing raises in Python while the reading end is a number. -/
def InTime (s : State) (a : Act) : Prop :=
  a = .interrupt ∨ a = .adoptFails ∨ a = .wrapFails → s.caller ≠ .returned ∧ s.caller ≠ .adopted

theorem Inv.lost_iff {s : State} (h : Inv s) :
    Lost s ↔ s.caller = .raised ∧ s.sent = some .ok ∧ s.wrapped = false := by
  unfold Lost
  rw [h.readOpen, h.readClosers]
  constructor
  · rintro ⟨raised, isOpen⟩
    refine ⟨raised, ?_⟩
    by_contra unsent
    cases made : s.made <;> simp_all
  · rintro ⟨raised, sent, number⟩
    have fits := h.fits
    rw [sent] at fits
    simp [raised, sent, number, fits.1]

/-- Step lemma: the handle is lost by exactly the steps that raise while it is a number. -/
theorem Inv.lost_step {s t : State} {a : Act} (h : Inv s) (step : act s a = some t) :
    Lost t ↔ Lost s ∨ ¬InTime s a := by
  rw [h.lost_iff, (h.step step).lost_iff]
  have moved (other : a ≠ .interrupt ∧ a ≠ .adoptFails ∧ a ≠ .wrapFails)
      (same : t.caller = .raised ∧ t.sent = some .ok ∧ t.wrapped = false ↔
        s.caller = .raised ∧ s.sent = some .ok ∧ s.wrapped = false) :
      t.caller = .raised ∧ t.sent = some .ok ∧ t.wrapped = false ↔
        (s.caller = .raised ∧ s.sent = some .ok ∧ s.wrapped = false) ∨ ¬InTime s a := by
    have inTime : InTime s a := by
      rintro (interrupt | unadopted | unwrapped)
      · exact absurd interrupt other.1
      · exact absurd unadopted other.2.1
      · exact absurd unwrapped other.2.2
    rw [same]
    exact (or_iff_left (not_not_intro inTime)).symm
  have number (at' : s.caller = .returned ∨ s.caller = .adopted) :
      s.sent = some .ok ∧ s.wrapped = false := by
    rcases at' with at' | at' <;>
      exact ⟨(h.fits.holding (by rw [at']; rfl)).2.1, by rw [h.wrapped (by simp [at']), at']; rfl⟩
  cases a with
  | interrupt =>
      obtain ⟨at' | at' | at', rfl⟩ | ⟨at' | at', rfl⟩ := interrupt_cases step
      · have fits := h.fits
        rw [at'] at fits
        simp [at', fits.calling.2.2, InTime]
      · simp [at', number (.inl at'), InTime]
      · simp [at', number (.inr at'), InTime]
      · simp [at', InTime]
      · simp [at', InTime]
  | adoptFails =>
      simp only [act, Option.ite_none_right_eq_some, Option.some.injEq] at step
      obtain ⟨at', rfl⟩ := step
      simp [at', number (.inl at'), InTime]
  | wrapFails =>
      simp only [act, Option.ite_none_right_eq_some, Option.some.injEq] at step
      obtain ⟨at', rfl⟩ := step
      simp [at', number (.inr at'), InTime]
  | discard =>
      simp only [act, Option.ite_none_right_eq_some, Option.some.injEq] at step
      obtain ⟨at', rfl⟩ := step
      refine moved ⟨nofun, nofun, nofun⟩ ?_
      simp [State.closeRead, at', h.wrapped (by simp [at'])]
  | receive =>
      simp only [act, Option.ite_none_right_eq_some] at step
      obtain ⟨at', step⟩ := step
      refine moved ⟨nofun, nofun, nofun⟩ ?_
      split at step <;> cases step <;> simp [State.useRead, at']
  | coreOpen ending =>
      simp only [act, Option.ite_none_right_eq_some] at step
      obtain ⟨at', step⟩ := step
      refine moved ⟨nofun, nofun, nofun⟩ ?_
      cases ending <;> cases step <;> exact Iff.rfl
  | send =>
      simp only [act] at step
      refine moved ⟨nofun, nofun, nofun⟩ ?_
      split at step
      · next at' =>
        cases step
        simp [(h.fits.before (.inr (.inl at'))).1]
      · next at' =>
        cases step
        simp [(h.fits.before (.inr (.inr at'))).2.2]
      · cases step
  | dropWrite =>
      simp only [act] at step
      refine moved ⟨nofun, nofun, nofun⟩ ?_
      split at step <;> cases step <;> exact Iff.rfl
  | hangUp =>
      simp only [act] at step
      refine moved ⟨nofun, nofun, nofun⟩ ?_
      split at step <;> cases step <;> exact Iff.rfl
  | disconnect =>
      simp only [act, Option.ite_none_right_eq_some, Option.some.injEq] at step
      obtain ⟨⟨at', -, -⟩, rfl⟩ := step
      refine moved ⟨nofun, nofun, nofun⟩ ?_
      simp [at']
  | dropRead =>
      simp only [act, Option.ite_none_right_eq_some, Option.some.injEq] at step
      obtain ⟨at', rfl⟩ := step
      refine moved ⟨nofun, nofun, nofun⟩ ?_
      have fits := h.fits
      rw [at'] at fits
      simp [State.closeRead, at', fits.dropping.2.1]
  | refuse =>
      simp only [act, Option.ite_none_right_eq_some, Option.some.injEq] at step
      obtain ⟨at', rfl⟩ := step
      refine moved ⟨nofun, nofun, nofun⟩ ?_
      have fits := h.fits
      rw [at'] at fits
      simp [at', fits.calling.2.2]
  | write =>
      simp only [act, Option.ite_none_right_eq_some, Option.some.injEq] at step
      obtain ⟨-, rfl⟩ := step
      exact moved ⟨nofun, nofun, nofun⟩ Iff.rfl
  | readEntry ending =>
      simp only [act, Option.ite_none_right_eq_some, Option.some.injEq] at step
      obtain ⟨-, rfl⟩ := step
      exact moved ⟨nofun, nofun, nofun⟩ Iff.rfl
  | _ =>
      simp only [act, Option.ite_none_right_eq_some, Option.some.injEq] at step
      obtain ⟨at', rfl⟩ := step
      refine moved ⟨nofun, nofun, nofun⟩ ?_
      simp [State.useRead, State.closeWrite, at']

/-- In every run, the reading end is left open with nobody to close it exactly when something
was raised in Python while it was only a number: a `KeyboardInterrupt`, or the failure of
`open_osfhandle` or of the raw file within `os.fdopen`. -/
theorem lost_iff_late (run : List (Act × State)) (isRun : system.IsRun {} run) :
    Lost (Lts.last {} run) ↔ ¬Lts.AllSteps InTime {} run := by
  have start : Inv ({} : State) := Inv.of_init rfl
  have fresh : ¬Lost ({} : State) := fun lost => by cases lost.1
  rw [isRun.spoilt_iff start fun s a t inv step => ⟨inv.step step, inv.lost_step step⟩]
  exact or_iff_right fresh

/-- An interrupt between `open_stream_windows` and `open_osfhandle`. -/
def interrupted : List (Act × State) :=
  Lts.follow act {} [.pipe, .spawn, .coreOpen .ok, .send, .receive, .interrupt]

theorem lost_iff_late_interrupted :
    Lost (Lts.last {} interrupted) ∧ ¬Lts.AllSteps InTime {} interrupted := by
  have isRun : system.IsRun {} interrupted := Lts.follow_isRun (fun _ _ _ taken => taken) _ _
  have lost : Lost (Lts.last {} interrupted) := by decide
  exact ⟨lost, (lost_iff_late interrupted isRun).mp lost⟩

end WindowsPipe

end NewtuaPy
