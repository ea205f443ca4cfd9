import NewtuaPy.Representation

/-!
# Platforms

`_open_pipe` chooses by `os.name`.  On POSIX the archive makes the pipe and the
stream takes a claim on a spilled file; on Windows the compiled module makes the
pipe, Python adopts a handle of it, and only sources with a path of their own are let
through; elsewhere there are no streams.
-/

namespace NewtuaPy

/-- `os.name`. -/
inductive OsName
  | posix
  | nt
  | other
deriving DecidableEq, Repr

/-- The system has streams for the source. -/
def OsName.Streams (os : OsName) (source : Source) : Prop :=
  os = .posix ∨ os = .nt ∧ source.ownPath.isSome = true

/-- What the system refuses the Windows path: the text of the error of `std::io::pipe`, and
what `msvcrt.open_osfhandle` and `os.fdopen` raise. -/
structure HandleFaults where
  pipe : Option String := none
  osfhandle : Option PyExc := none
  fdopen : Option PyExc := none

/-- `exc` comes of one of the faults; only that of the pipe goes through the translator. -/
inductive HandleFaults.Raises (faults : HandleFaults) : PyExc → Prop
  | pipe (text : String) (failed : faults.pipe = some text) :
      faults.Raises { cls := .osError, text }
  | osfhandle (exc : PyExc) (failed : faults.osfhandle = some exc) : faults.Raises exc
  | fdopen (exc : PyExc) (failed : faults.fdopen = some exc) : faults.Raises exc

/-- A call that raises if it fails. -/
def attempt {σ : Type} : Option PyExc → Py σ Unit
  | none => pure ()
  | some exc => Exn.raise exc

/-- `spawn_stream_worker_windows`, run to the end of the handshake. -/
def spawnStreamWorkerWindows (faults : HandleFaults) (eng : Engine) (path : FilePath)
    (password encoding : Option String) (index : Nat) : Py World Bytes := do
  attempt (faults.pipe.map fun text => pyerrFromParts text "io")
  logCall { path, password, encoding, work := .stream index }
  let file ← fileAt path
  match eng.coreOpen file password encoding with
  | .error (.error e) => Exn.raise (pyerrFromParts e.message (errorKind e.variant))
  | .error (.panic _) =>
      Exn.raise (pyerrFromParts "extraction worker thread terminated abnormally" "io")
  | .ok reader => pure (reader.readEntry file index).chunks.flatten

/-- `Archive::open_stream_windows`. -/
def RustArchive.openStreamWindows (faults : HandleFaults) (eng : Engine) (self : RustArchive)
    (index : Int) : Py World Bytes := do
  let i ← Exn.lift (usizeArg index)
  if self.entries.length ≤ i then
    Exn.raise (toPyerr { variant := .invalidIndex, message := eng.invalidIndex i })
  else spawnStreamWorkerWindows faults eng self.path self.password self.encoding i

def notImplemented (text : String) : PyExc := { cls := .notImplementedError, text }

namespace Archive

/-- `_has_own_path`. -/
def hasOwnPath (self : Archive) : Bool := self.source.ownPath.isSome

def _openPipeWindows (faults : HandleFaults) (eng : Engine) (reader : RustArchive) (index : Int)
    (expectedSize : Option Int) : Py Session (Nat × PipeStream) := do
  let s ← Exn.get
  if s.self.hasOwnPath then do
    let data ← typed (onWorld (reader.openStreamWindows faults eng index))
    attempt faults.osfhandle
    attempt faults.fdopen
    let stream : PipeStream := { data, expectedSize, onClose := none }
    let k ← onWorld (newStream stream)
    pure (k, stream)
  else
    Exn.raise (notImplemented ("stream=True is not supported for in-memory (bytes) or stream " ++
      "sources on Windows; use a file path, or stream=False"))

def _openPipe (os : OsName) (faults : HandleFaults) (eng : Engine) (reader : RustArchive)
    (index : Int) (expectedSize : Option Int) : Py Session (Nat × PipeStream) :=
  match os with
  | .posix => _openPipePosix eng reader index expectedSize
  | .nt => _openPipeWindows faults eng reader index expectedSize
  | .other => Exn.raise (notImplemented "stream=True needs POSIX pipes or Windows")

/-- `open(ref, stream=True)`. -/
def openStreamOn (os : OsName) (faults : HandleFaults) (eng : Engine) (ref : Ref) :
    Py Session (Nat × PipeStream) := do
  let reader ← _open eng
  let index ← _indexOf eng ref
  let entries ← _listing eng
  let entry ← Exn.lift (tupleItem entries index)
  _openPipe os faults eng reader index (some entry.size)

/-! ## What the lookups leave alone -/

section Lookups

variable {I : Session → Prop}

/-- The part of `open` that is the same everywhere. -/
def streamArgs (eng : Engine) (ref : Ref) : Py Session (RustArchive × Int × Option Int) := do
  let reader ← _open eng
  let index ← _indexOf eng ref
  let entries ← _listing eng
  let entry ← Exn.lift (tupleItem entries index)
  pure (reader, index, some entry.size)

theorem openStreamOn_run (os : OsName) (faults : HandleFaults) (eng : Engine) (ref : Ref)
    (s : Session) :
    openStreamOn os faults eng ref s =
      match streamArgs eng ref s with
      | (.error exc, s') => (.error exc, s')
      | (.ok (reader, index, size), s') => _openPipe os faults eng reader index size s' := by
  unfold openStreamOn streamArgs
  rcases opened : _open eng s with ⟨exc | reader, s₁⟩
  · rw [Exn.bind_of_error opened, Exn.bind_of_error opened]
  · rw [Exn.bind_of_ok opened, Exn.bind_of_ok opened]
    rcases resolved : _indexOf eng ref s₁ with ⟨exc | index, s₂⟩
    · rw [Exn.bind_of_error resolved, Exn.bind_of_error resolved]
    · rw [Exn.bind_of_ok resolved, Exn.bind_of_ok resolved]
      rcases listed : _listing eng s₂ with ⟨exc | entries, s₃⟩
      · rw [Exn.bind_of_error listed, Exn.bind_of_error listed]
      · rw [Exn.bind_of_ok listed, Exn.bind_of_ok listed]
        cases tupleItem entries index <;> rfl

theorem streamArgs_keeps (opening : Opening I) (eng : Engine) (ref : Ref) :
    Exn.Keeps I (streamArgs eng ref) :=
  (opening._open eng).bind fun _ =>
    ((opening._listing eng).bind fun _ => Exn.Keeps.lift _).bind fun _ =>
      (opening._listing eng).bind fun _ => (Exn.Keeps.lift _).bind fun _ => Exn.Keeps.pure _

/-- Where a source has its path, it stays. -/
theorem ownPath_opening (path : Option FilePath) :
    Opening fun s => s.self.source.ownPath = path :=
  Opening.ofSource (P := fun source => source.ownPath = path)
    fun source same => (Source.afterCopy_ownPath source).trans same

/-- Opening opens no streams. -/
theorem streams_opening (streams : List PipeStream) :
    Opening fun s => s.world.streams = streams where
  spills := by
    intro s same _ noPath _
    rcases Source.delivers_or_fails noPath with ⟨content, delivers⟩ | ⟨file, exc, stream, failed⟩
    · rw [spill_run delivers]
      exact same
    · rw [spill_failed stream failed]
      exact same
  asks := fun _ _ same quiet => quiet.streams.trans same
  drops := by
    intro s same
    unfold dropped
    rcases s.self.tempfile with _ | t
    · exact same
    · exact (s.world.afterRelease_streams t).trans same
  reads := fun _ _ same => same
  lists := fun _ _ _ same => same

/-- An archive with a path of its own never claims a temp file. -/
theorem pathed_opening :
    Opening fun s => s.self.source.ownPath.isSome = true ∧ s.self.tempfile = none where
  spills := by
    intro s pathed _ noPath _
    rw [noPath] at pathed
    cases pathed.1
  asks := fun _ _ pathed _ => pathed
  drops := by
    intro s pathed
    unfold dropped
    rw [pathed.2]
    exact pathed
  reads := fun _ _ pathed => pathed
  lists := fun _ _ _ pathed => pathed

end Lookups

/-! ## Windows and POSIX -/

/-- Up to the pipe the two workers are one, and a pipe that cannot be made fails before the
engine is asked. -/
theorem openStreamWindows_cases (faults : HandleFaults) (eng : Engine) (reader : RustArchive)
    (index : Int) (w : World) :
    reader.openStreamWindows faults eng index w = reader.openStream eng index w ∨
      ∃ text, faults.pipe = some text ∧
        reader.openStreamWindows faults eng index w = (.error (pyerrFromParts text "io"), w) := by
  unfold RustArchive.openStreamWindows RustArchive.openStream
  rcases usizeArg index with exc | i
  · exact Or.inl rfl
  · rw [Exn.lift_ok_bind_apply, Exn.lift_ok_bind_apply]
    by_cases outside : reader.entries.length ≤ i
    · rw [if_pos outside, if_pos outside]
      exact Or.inl rfl
    · rw [if_neg outside, if_neg outside]
      unfold spawnStreamWorkerWindows
      cases failed : faults.pipe with
      | none => exact Or.inl rfl
      | some text => exact Or.inr ⟨text, rfl, rfl⟩

/-- Without a claim to take, both kinds of pipe end alike, unless the system refuses Windows
the pipe or the adoption of its handle: then there is no stream. -/
theorem _openPipeWindows_cases (faults : HandleFaults) (eng : Engine) (reader : RustArchive)
    (index : Int) (size : Option Int) {s : Session} (path : s.self.source.ownPath.isSome = true)
    (unclaimed : s.self.tempfile = none) :
    let run := _openPipeWindows faults eng reader index size s
    run = _openPipePosix eng reader index size s ∨
      run.2.world.streams = s.world.streams ∧ ∃ exc, run.1 = .error exc ∧ faults.Raises exc := by
  have held : holdClaim none s.world = (.ok (), s.world) := rfl
  unfold _openPipeWindows _openPipePosix hasOwnPath
  rw [Exn.get_bind_apply, Exn.get_bind_apply, if_pos path, unclaimed]
  rcases openStreamWindows_cases faults eng reader index s.world with same | ⟨text, failed, run⟩
  · rcases run : reader.openStream eng index s.world with ⟨exc | data, w⟩ <;> rw [run] at same
    · have released : releaseClaim none w = (.ok (), w) := rfl
      have failed : typed (onWorld (reader.openStreamWindows faults eng index)) s =
          (.error exc.raised, { s with world := w }) := Exn.handle_of_error (onWorld_run same) _
      rw [Exn.bind_of_error failed]
      exact Or.inl (onWorld_run (openPipe_error held run released size)).symm
    · have quiet : s.world.Quiet (reader.openStream eng index s.world).2 :=
        openStream_quiet eng reader index s.world
      have returned : typed (onWorld (reader.openStreamWindows faults eng index)) s =
          (.ok data, { s with world := w }) := Exn.handle_of_ok (onWorld_run same) _
      rw [run] at quiet
      rw [Exn.bind_of_ok returned]
      rcases unadopted : faults.osfhandle with _ | exc
      · rcases unopened : faults.fdopen with _ | exc
        · exact Or.inl (onWorld_run (openPipe_ok held run size)).symm
        · exact Or.inr ⟨quiet.streams, exc, rfl, .fdopen exc unopened⟩
      · exact Or.inr ⟨quiet.streams, exc, rfl, .osfhandle exc unadopted⟩
  · have failed' : typed (onWorld (reader.openStreamWindows faults eng index)) s =
        (.error { cls := .osError, text }, s) := Exn.handle_of_error (onWorld_run run) _
    rw [Exn.bind_of_error failed']
    exact Or.inr ⟨rfl, _, rfl, .pipe text failed⟩

theorem openStreamOn_nt (faults : HandleFaults) (eng : Engine) (ref : Ref) {s : Session}
    (path : s.self.source.ownPath.isSome = true) (unclaimed : s.self.tempfile = none) :
    let run := openStreamOn .nt faults eng ref s
    run = openStreamOn .posix faults eng ref s ∨
      run.2.world.streams = s.world.streams ∧ ∃ exc, run.1 = .error exc ∧ faults.Raises exc := by
  rw [openStreamOn_run, openStreamOn_run]
  have pathed := streamArgs_keeps pathed_opening eng ref s ⟨path, unclaimed⟩
  have streams := streamArgs_keeps (streams_opening s.world.streams) eng ref s rfl
  rcases run : streamArgs eng ref s with ⟨exc | ⟨reader, index, size⟩, s'⟩
  · exact Or.inl rfl
  · rw [run] at pathed streams
    rw [← streams]
    exact _openPipeWindows_cases faults eng reader index size pathed.1 pathed.2

/-- Where there are no streams, none is opened: what fails on POSIX fails alike, and what
does not is refused. -/
theorem openStreamOn_refused {os : OsName} (faults : HandleFaults) (eng : Engine) (ref : Ref)
    {s : Session} (unsupported : ¬os.Streams s.self.source) :
    let run := openStreamOn os faults eng ref s
    run.2.world.streams = s.world.streams ∧ ∃ exc, run.1 = .error exc ∧
      (exc.cls = .notImplementedError ∨ openStreamOn .posix faults eng ref s = run) := by
  have streams := streamArgs_keeps (streams_opening s.world.streams) eng ref s rfl
  have path := streamArgs_keeps (ownPath_opening s.self.source.ownPath) eng ref s rfl
  rw [openStreamOn_run, openStreamOn_run]
  rcases run : streamArgs eng ref s with ⟨exc | ⟨reader, index, size⟩, s'⟩ <;>
    rw [run] at streams path
  · exact ⟨streams, exc, rfl, Or.inr rfl⟩
  · cases os with
    | posix => exact absurd (Or.inl rfl) unsupported
    | other => exact ⟨streams, _, rfl, Or.inl rfl⟩
    | nt =>
        have without : ¬s'.self.hasOwnPath = true := by
          unfold hasOwnPath
          rw [path]
          exact fun present => unsupported (Or.inr ⟨rfl, present⟩)
        dsimp only
        unfold _openPipe _openPipeWindows
        dsimp only
        rw [Exn.get_bind_apply, if_neg without]
        exact ⟨streams, _, rfl, Or.inl rfl⟩

/-! ## Every run -/

/-- No operation moves a source. -/
theorem operate_ownPath (s : Session) (op : Operation) :
    (operate s op).2.self.source.ownPath = s.self.source.ownPath := by
  let Stays (source : Source) : Prop := source.ownPath = s.self.source.ownPath
  have copied (source : Source) (same : Stays source) : Stays source.afterCopy :=
    (Source.afterCopy_ownPath source).trans same
  have closed : Stays (close s).2.self.source := close_source (P := Stays) rfl
  cases op with
  | call eng c => exact (Upheld.ofSource copied eng).call c s rfl
  | setPassword password => rfl
  | repr => exact congrArg (fun s' : Session => s'.self.source.ownPath) (repr_snd s)
  | enter eng =>
      exact ((Upheld.ofSource copied eng).lists.bind fun _ => Exn.Keeps.pure ()) s rfl
  | exit => exact closed
  | close => exact closed
  | closeStream k fault => rfl
  | outside path content => rfl

/-- After every run of operations: a source with a path of its own streams on Windows as it
does on POSIX, with the same outcome and the same state after it, unless the system refuses
the pipe or the adoption of its handle; then there is no stream, and what the system has said
is raised.  Where there are no streams, none is opened, and whatever fails on POSIX before
there is a pipe fails alike. -/
theorem streams_alike_or_refused (files : FilePath → Option Bytes) (source : Source)
    (password encoding : Option String) (run : List Operation) (os : OsName)
    (faults : HandleFaults) (eng : Engine) (ref : Ref) :
    let s := operate.runState (init files source password encoding) run
    let opened := openStreamOn os faults eng ref s
    (os.Streams source →
        opened = openStreamOn .posix faults eng ref s ∨
          opened.2.world.streams = s.world.streams ∧
            ∃ exc, opened.1 = .error exc ∧ faults.Raises exc) ∧
      (¬os.Streams source →
        opened.2.world.streams = s.world.streams ∧
          ∃ exc, opened.1 = .error exc ∧
            (exc.cls = .notImplementedError ∨ openStreamOn .posix faults eng ref s = opened)) := by
  intro s opened
  have represents := run_represents files source password encoding run
  have path : s.self.source.ownPath = source.ownPath :=
    Machine.runState_invariant (I := fun s => s.self.source.ownPath = source.ownPath)
      (fun s op same => (operate_ownPath s op).trans same) rfl run
  have streams : os.Streams s.self.source ↔ os.Streams source := by
    unfold OsName.Streams
    rw [path]
  rw [← streams]
  constructor
  · rintro (rfl | ⟨rfl, own⟩)
    · exact Or.inl rfl
    · obtain ⟨p, same⟩ := Option.isSome_iff_exists.mp own
      exact openStreamOn_nt faults eng ref own (represents.pathed p same)
  · exact openStreamOn_refused faults eng ref

end Archive

end NewtuaPy
