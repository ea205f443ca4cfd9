import NewtuaPy.Sink
import NewtuaPy.World

/-!
# The compiled module

The functions of `lib.rs` that the Python layer calls, over the engine and the
files on disk: the `Archive` class with its live reader, and the `*_path`
functions, which open the archive afresh on every call.
-/

namespace NewtuaPy

/-- What opening an archive tells: the reader, its listing and the encoding. -/
structure Opened where
  reader : Reader
  entries : List EntryData
  detectedEncoding : String

/-- `Archive` of the compiled module. -/
structure RustArchive extends Opened where
  path : FilePath
  password : Option String
  encoding : Option String

def logCall (call : EngineCall) : Py World Unit :=
  Exn.modify fun w => { w with log := w.log ++ [call] }

/-- What a path holds now. -/
def fileAt (p : FilePath) : Py World (Option Bytes) := do
  let w ← Exn.get
  pure (w.files p)

/-- The result of an engine call, as its Python caller sees it. -/
def liftFault {α σ : Type} (r : Except Fault α) : Py σ α := Exn.lift (r.mapError Fault.toPyExc)

/-- `core_open`, then the listing, then the encoding detected over the real bytes
of every name at once: the common part of `open` and `list_path`. -/
def Engine.snapshot (eng : Engine) (file : Option Bytes) (password encoding : Option String) :
    Except Fault Opened := do
  let reader ← eng.coreOpen file password encoding
  let found ← reader.entries
  let entries := found.toList.map entryData
  pure { reader, entries,
         detectedEncoding := eng.detectEncoding (entries.map (·.rawName)) encoding }

theorem Engine.snapshot_ok {eng : Engine} {file : Option Bytes}
    {password encoding : Option String} {o : Opened}
    (h : eng.snapshot file password encoding = .ok o) :
    eng.coreOpen file password encoding = .ok o.reader ∧
      ∃ found, o.reader.entries = .ok found ∧ o.entries = found.toList.map entryData := by
  unfold Engine.snapshot at h
  rcases opened : eng.coreOpen file password encoding with fault | reader <;>
    simp only [opened, bind, Except.bind, pure, Except.pure] at h
  · cases h
  · rcases listed : reader.entries with fault | found <;> rw [listed] at h <;> cases h
    exact ⟨rfl, found, listed, rfl⟩

/-- `open(path, password, encoding)`. -/
def Compiled.open (eng : Engine) (path : FilePath) (password encoding : Option String) :
    Py World RustArchive := do
  logCall { path, password, encoding, work := .open }
  let file ← fileAt path
  let opened ← liftFault (eng.snapshot file password encoding)
  pure { opened with path, password, encoding }

/-- The world with one more engine call in its log. -/
def World.logged (w : World) (call : EngineCall) : World := { w with log := w.log ++ [call] }

theorem Compiled.open_run (eng : Engine) (path : FilePath) (password encoding : Option String)
    (w : World) :
    Compiled.open eng path password encoding w =
      (match eng.snapshot (w.files path) password encoding with
        | .ok o => .ok { o with path, password, encoding }
        | .error fault => .error fault.toPyExc,
       w.logged { path, password, encoding, work := .open }) := by
  unfold Compiled.open logCall fileAt liftFault
  rcases found : eng.snapshot (w.files path) password encoding with fault | o <;>
    simp [Exn.bind_apply, found, Except.mapError, World.logged]

namespace RustArchive

def call (self : RustArchive) (work : Work) : EngineCall :=
  { path := self.path, password := self.password, encoding := self.encoding, work }

/-- `Archive::format`. -/
def format (self : RustArchive) : String := formatName self.reader.format

/-- `Archive::read`. -/
def read (self : RustArchive) (index : Int) : Py World Bytes := do
  let i ← Exn.lift (usizeArg index)
  logCall (self.call (.read i))
  let file ← fileAt self.path
  let decoded := self.reader.readEntry file i
  liftFault decoded.status
  pure decoded.chunks.flatten

/-- `Archive::write_entry_to`, with the sink's state on return. -/
def writeEntryTo {τ : Type} (self : RustArchive) (index : Int) (sink : Sink τ) (obj : τ) :
    Py World τ := do
  let i ← Exn.lift (usizeArg index)
  logCall (self.call (.write i))
  let file ← fileAt self.path
  let (outcome, obj) := NewtuaPy.writeEntryTo (self.reader.readEntry file i) sink obj
  Exn.lift outcome
  pure obj

end RustArchive

/-- `spawn_stream_worker_unix`, run to the end of the handshake: the worker
opens the archive afresh, and what it will write before it closes its end of the
pipe is what the stream delivers. -/
def spawnStreamWorkerUnix (eng : Engine) (path : FilePath) (password encoding : Option String)
    (index : Nat) : Py World Bytes := do
  logCall { path, password, encoding, work := .stream index }
  let file ← fileAt path
  match eng.coreOpen file password encoding with
  | .error (.error e) => Exn.raise (toPyerr e)
  | .error (.panic _) =>
      Exn.raise (pyerrFromParts "extraction worker thread terminated abnormally" "io")
  | .ok reader => pure (reader.readEntry file index).chunks.flatten

/-- `Archive::open_stream`: the index is checked before the worker is spawned. -/
def RustArchive.openStream (eng : Engine) (self : RustArchive) (index : Int) :
    Py World Bytes := do
  let i ← Exn.lift (usizeArg index)
  if self.entries.length ≤ i then
    Exn.raise (toPyerr { variant := .invalidIndex, message := eng.invalidIndex i })
  else spawnStreamWorkerUnix eng self.path self.password self.encoding i

/-- The keyword arguments of an extraction. -/
structure ExtractCall where
  dest : String
  selection : Option (List Int)
  wrapper : Bool
  strict : Bool
  preserve : Bool
  progress : Option (List RawEvent → RawEvent → Reply)
  nameSource : Option String

/-- PyO3's conversion of the selection to `Option<Vec<usize>>`. -/
def selectionArg : Option (List Int) → Except PyExc (Option (List Nat))
  | none => .ok none
  | some indices => (indices.mapM usizeArg).map some

/-- What an extraction hands over, with its selection converted. -/
def ExtractCall.args (c : ExtractCall) (selection : Option (List Nat)) : ExtractArgs where
  dest := c.dest
  selection := selection
  wrapper := c.wrapper
  strict := c.strict
  preserve := c.preserve
  nameSource := c.nameSource
  hasProgress := c.progress.isSome

/-- The `ExtractOptions` both extraction functions build. -/
def ExtractCall.options (eng : Engine) (c : ExtractCall) (selection : Option (List Nat)) :
    ExtractOptions where
  dest := c.dest
  wrapperName := c.nameSource.bind fun p => eng.wrapperName p c.wrapper
  strict := c.strict
  preserve := c.preserve
  selection := selection
  progress := c.progress.map buildProgressFn
  keepMacosMetadata := false

/-- `Report`. -/
structure Report where
  extracted : Nat
  failed : Nat
  aborted : Bool
deriving DecidableEq, Repr

def CoreReport.report (r : CoreReport) : Report := ⟨r.extracted, r.failed.length, r.aborted⟩

/-- `Archive::extract`. -/
def RustArchive.extract (eng : Engine) (self : RustArchive) (c : ExtractCall) :
    Py World Report := do
  let selection ← Exn.lift (selectionArg c.selection)
  logCall (self.call (.extract (c.args selection)))
  let file ← fileAt self.path
  let report ← liftFault (self.reader.extractAll file (c.options eng selection))
  pure report.report

/-! ## The functions that take a path -/

/-- `list_path`. -/
def listPath (eng : Engine) (path : FilePath) (password encoding : Option String) :
    Py World (List EntryData × String × String) := do
  logCall { path, password, encoding, work := .list }
  let file ← fileAt path
  let opened ← liftFault (eng.snapshot file password encoding)
  pure (opened.entries, formatName opened.reader.format, opened.detectedEncoding)

theorem listPath_run (eng : Engine) (path : FilePath) (password encoding : Option String)
    (w : World) :
    listPath eng path password encoding w =
      (match eng.snapshot (w.files path) password encoding with
        | .ok o => .ok (o.entries, formatName o.reader.format, o.detectedEncoding)
        | .error fault => .error fault.toPyExc,
       w.logged { path, password, encoding, work := .list }) := by
  unfold listPath logCall fileAt liftFault
  rcases found : eng.snapshot (w.files path) password encoding with fault | o <;>
    simp [Exn.bind_apply, found, Except.mapError, World.logged]

/-- `read_path`. -/
def readPath (eng : Engine) (path : FilePath) (index : Int) (password encoding : Option String) :
    Py World Bytes := do
  let i ← Exn.lift (usizeArg index)
  logCall { path, password, encoding, work := .read i }
  let file ← fileAt path
  let reader ← liftFault (eng.coreOpen file password encoding)
  let decoded := reader.readEntry file i
  liftFault decoded.status
  pure decoded.chunks.flatten

/-- `extract_path`. -/
def extractPath (eng : Engine) (path : FilePath) (c : ExtractCall)
    (password encoding : Option String) : Py World Report := do
  let selection ← Exn.lift (selectionArg c.selection)
  logCall { path, password, encoding, work := .extract (c.args selection) }
  let file ← fileAt path
  let reader ← liftFault (eng.coreOpen file password encoding)
  let report ← liftFault (reader.extractAll file (c.options eng selection))
  pure report.report

/-- `open_stream_path`. -/
def openStreamPath (eng : Engine) (path : FilePath) (index : Int)
    (password encoding : Option String) : Py World Bytes := do
  let i ← Exn.lift (usizeArg index)
  spawnStreamWorkerUnix eng path password encoding i

/-! ## One shape of call

Every function above that decodes or extracts converts its argument, puts one
call in the log and then depends on nothing but what its path holds. -/

/-- `x` converts `argument`, logs `call` of it, and ends with `result` of it and
of the file at `path`. -/
def Asks {α β : Type} (x : Py World β) (path : FilePath) (argument : Except PyExc α)
    (call : α → EngineCall) (result : α → Option Bytes → Except PyExc β) : Prop :=
  ∀ w, x w =
    match argument with
    | .error exc => (.error exc, w)
    | .ok a => (result a (w.files path), w.logged (call a))

/-- What decoding an entry to the end gives. -/
def Decoded.bytes (d : Decoded) : Except PyExc Bytes :=
  (d.status.mapError Fault.toPyExc).map fun _ => d.chunks.flatten

/-- What extracting gives. -/
def Reader.report (reader : Reader) (file : Option Bytes) (options : ExtractOptions) :
    Except PyExc Report :=
  ((reader.extractAll file options).mapError Fault.toPyExc).map CoreReport.report

theorem RustArchive.read_asks (self : RustArchive) (index : Int) :
    Asks (self.read index) self.path (usizeArg index) (fun i => self.call (.read i))
      fun i file => (self.reader.readEntry file i).bytes := by
  intro w
  unfold RustArchive.read Decoded.bytes
  rcases usizeArg index with exc | i
  · rfl
  · rcases status : (self.reader.readEntry (w.files self.path) i).status with fault | _ <;>
      simp [Exn.bind_apply, logCall, fileAt, liftFault, status, Except.mapError, Except.map,
        World.logged]

/-- Into a spooled file an entry is decoded as `read` decodes it. -/
theorem RustArchive.writeEntryTo_asks (self : RustArchive) (index : Int) :
    Asks (self.writeEntryTo index spooled []) self.path (usizeArg index)
      (fun i => self.call (.write i)) fun i file => (self.reader.readEntry file i).bytes := by
  intro w
  unfold RustArchive.writeEntryTo Decoded.bytes
  rcases usizeArg index with exc | i
  · rfl
  · rcases status : (self.reader.readEntry (w.files self.path) i).status with fault | _ <;>
      simp [Exn.bind_apply, logCall, fileAt, writeEntryTo_spooled, status, Except.mapError,
        Except.map, World.logged]

theorem RustArchive.extract_asks (eng : Engine) (self : RustArchive) (c : ExtractCall) :
    Asks (self.extract eng c) self.path (selectionArg c.selection)
      (fun selection => self.call (.extract (c.args selection)))
      fun selection file => self.reader.report file (c.options eng selection) := by
  intro w
  unfold RustArchive.extract Reader.report
  rcases selectionArg c.selection with exc | selection
  · rfl
  · rcases report : self.reader.extractAll (w.files self.path) (c.options eng selection) with
      fault | report <;>
      simp [Exn.bind_apply, logCall, fileAt, liftFault, report, Except.mapError, Except.map,
        World.logged]

/-- What the stream worker delivers, or how the handshake fails. -/
def Engine.piped (eng : Engine) (password encoding : Option String) (i : Nat)
    (file : Option Bytes) : Except PyExc Bytes :=
  match eng.coreOpen file password encoding with
  | .error (.error e) => .error (toPyerr e)
  | .error (.panic _) =>
      .error (pyerrFromParts "extraction worker thread terminated abnormally" "io")
  | .ok reader => .ok (reader.readEntry file i).chunks.flatten

theorem spawnStreamWorkerUnix_run (eng : Engine) (path : FilePath)
    (password encoding : Option String) (i : Nat) (w : World) :
    spawnStreamWorkerUnix eng path password encoding i w =
      (eng.piped password encoding i (w.files path),
        w.logged { path, password, encoding, work := .stream i }) := by
  unfold spawnStreamWorkerUnix Engine.piped logCall fileAt
  rcases found : eng.coreOpen (w.files path) password encoding with (e | message) | reader <;>
    simp [Exn.bind_apply, found, World.logged]

theorem RustArchive.openStream_asks (eng : Engine) (self : RustArchive) (index : Int)
    (listed : ∀ i, usizeArg index = .ok i → i < self.entries.length) :
    Asks (self.openStream eng index) self.path (usizeArg index)
      (fun i => self.call (.stream i)) fun i file =>
        eng.piped self.password self.encoding i file := by
  intro w
  unfold RustArchive.openStream
  rcases argument : usizeArg index with exc | i
  · rfl
  · rw [Exn.lift_ok_bind_apply, if_neg (Nat.not_le.mpr (listed i argument))]
    exact spawnStreamWorkerUnix_run eng self.path self.password self.encoding i w

theorem readPath_asks (eng : Engine) (path : FilePath) (index : Int)
    (password encoding : Option String) :
    Asks (readPath eng path index password encoding) path (usizeArg index)
      (fun i => { path, password, encoding, work := .read i }) fun i file =>
        match eng.coreOpen file password encoding with
        | .error fault => .error fault.toPyExc
        | .ok reader => (reader.readEntry file i).bytes := by
  intro w
  unfold readPath
  rcases usizeArg index with exc | i
  · rfl
  · rcases found : eng.coreOpen (w.files path) password encoding with fault | reader
    · simp [Exn.bind_apply, logCall, fileAt, liftFault, found, Except.mapError, World.logged]
    · rcases status : (reader.readEntry (w.files path) i).status with fault | _ <;>
        simp [Exn.bind_apply, logCall, fileAt, liftFault, found, status, Decoded.bytes,
          Except.mapError, Except.map, World.logged]

theorem extractPath_asks (eng : Engine) (path : FilePath) (c : ExtractCall)
    (password encoding : Option String) :
    Asks (extractPath eng path c password encoding) path (selectionArg c.selection)
      (fun selection => { path, password, encoding, work := .extract (c.args selection) })
      fun selection file =>
        match eng.coreOpen file password encoding with
        | .error fault => .error fault.toPyExc
        | .ok reader => reader.report file (c.options eng selection) := by
  intro w
  unfold extractPath
  rcases selectionArg c.selection with exc | selection
  · rfl
  · rcases found : eng.coreOpen (w.files path) password encoding with fault | reader
    · simp [Exn.bind_apply, logCall, fileAt, liftFault, found, Except.mapError, World.logged]
    · rcases report : reader.extractAll (w.files path) (c.options eng selection) with
        fault | report <;>
        simp [Exn.bind_apply, logCall, fileAt, liftFault, found, report, Reader.report,
          Except.mapError, Except.map, World.logged]

theorem openStreamPath_asks (eng : Engine) (path : FilePath) (index : Int)
    (password encoding : Option String) :
    Asks (openStreamPath eng path index password encoding) path (usizeArg index)
      (fun i => { path, password, encoding, work := .stream i }) fun i file =>
        eng.piped password encoding i file := by
  intro w
  unfold openStreamPath
  rcases usizeArg index with exc | i
  · rfl
  · exact spawnStreamWorkerUnix_run eng path password encoding i w

end NewtuaPy
