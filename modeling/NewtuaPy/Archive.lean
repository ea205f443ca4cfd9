import NewtuaPy.Compiled

/-!
# The `Archive` class

The lazily opened archive of `_archive.py`: its fields, the spilling of bytes
and file objects to a temp file, the lazy open, the accessors, and `close`.  A
session is an archive object together with the world it acts on; an exception
leaves both as they were when it was raised.
-/

namespace NewtuaPy

/-! ## Sources -/

/-- A `str` or `os.PathLike` argument: its `os.fspath()` and its `str()`. -/
structure PathArg where
  fspath : String
  str : String
deriving DecidableEq, Repr

/-- The `name` attribute of a file object. -/
inductive NameAttr
  | missing
  | text (name : String)
  | other
deriving DecidableEq, Repr

/-- A binary file object: the answers of its successive `read(n)` calls from its
current position on.  After the last of them it is at its end and answers `b""`. -/
structure FileObj where
  replies : List (Except PyExc Bytes)
  name : NameAttr

inductive Source
  | path (arg : PathArg)
  | bytes (content : Bytes)
  | stream (file : FileObj)

/-- `Path(source)` of a path source, as the string handed to the system. -/
def Source.ownPath : Source → Option FilePath
  | .path arg => some (.named (PurePosixPath.ofString arg.fspath).str)
  | _ => none

/-- `_wrapper_name_source`. -/
def Source.wrapperNameSource : Source → Option String
  | .path arg => some arg.fspath
  | .bytes _ => none
  | .stream file => match file.name with
    | .text name => if name = "" then none else some name
    | _ => none

/-- `shutil.copyfileobj`: how the loop over `read` ends, what it has written by
then, and the answers it has not asked for. -/
def copyLoop : List (Except PyExc Bytes) →
    Except PyExc Unit × Bytes × List (Except PyExc Bytes)
  | [] => (.ok (), [], [])
  | .error exc :: rest => (.error exc, [], rest)
  | .ok [] :: rest => (.ok (), [], rest)
  | .ok (b :: bs) :: rest =>
      let (outcome, written, unread) := copyLoop rest
      (outcome, (b :: bs) ++ written, unread)

/-! ## The object -/

structure Archive where
  source : Source
  password : Option String
  encoding : Option String
  reader : Option RustArchive := none
  entries : Option (List Entry) := none
  byName : Option NameIndex := none
  tempfile : Option Nat := none
  closed : Bool := false

structure Session where
  world : World
  self : Archive

/-- Run a computation on the world of a session. -/
def onWorld {α : Type} (x : Py World α) : Py Session α :=
  Exn.zoom Session.world (fun s world => { s with world }) x

theorem onWorld_run {α : Type} {x : Py World α} {s : Session} {a : Except PyExc α} {w : World}
    (h : x s.world = (a, w)) : onWorld x s = (a, { s with world := w }) := by
  unfold onWorld
  rw [Exn.zoom_apply, h]

def modifySelf (f : Archive → Archive) : Py Session Unit :=
  Exn.modify fun s => { s with self := f s.self }

def closedArchive : PyExc := { cls := .valueError, text := "operation on a closed archive" }

/-- `FileNotFoundError(errno.ENOENT, os.strerror(errno.ENOENT), path)`; of a path that
`repr` escapes, the text has the escaped form. -/
def fileNotFound (path : String) : PyExc :=
  { cls := .fileNotFoundError, text := "[Errno 2] No such file or directory: '" ++ path ++ "'" }

namespace Archive

/-! ## Lazy opening -/

/-- The path of the spilled file, if the archive has one that still exists. -/
def liveTempfile (s : Session) : Option FilePath :=
  s.self.tempfile.bind fun t => s.world.temps[t]?.bind fun f =>
    if (s.world.files f.path).isSome then some f.path else none

/-- Write the source into a fresh spill file. -/
def fillSpill (path : FilePath) : Py Session Unit := do
  let s ← Exn.get
  match s.self.source with
  | .path _ => pure ()
  | .bytes content => onWorld (appendFile path content)
  | .stream file =>
      let (outcome, written, unread) := copyLoop file.replies
      onWorld (appendFile path written)
      modifySelf fun self => { self with source := .stream { file with replies := unread } }
      Exn.lift outcome

/-- The spilling half of `_backing_path`. -/
def spill : Py Session FilePath := do
  let path ← onWorld namedTemporaryFile
  fillSpill path
  let t ← onWorld (TempFile.new path)
  modifySelf fun self => { self with tempfile := some t }
  pure path

def _backingPath : Py Session FilePath := do
  let s ← Exn.get
  match s.self.source.ownPath with
  | some path => pure path
  | none => match liveTempfile s with
    | some path => pure path
    | none => spill

/-- Give up the archive's own claim on its spilled file. -/
def dropTempfile : Py Session Unit := do
  let s ← Exn.get
  match s.self.tempfile with
  | none => pure ()
  | some t =>
      onWorld (TempFile.release t)
      modifySelf fun self => { self with tempfile := none }

/-- The `try` statement of `_open`. -/
def openAt (eng : Engine) (path : FilePath) : Py Session RustArchive := do
  let s ← Exn.get
  Exn.handle
    (do
      let reader ← onWorld (Compiled.open eng path s.self.password s.self.encoding)
      modifySelf fun self => { self with reader := some reader }
      pure reader)
    fun exc =>
      -- `except Exception`: a panic passes by, and the spilled file stays
      if exc.isException then do
        dropTempfile
        Exn.raise (raiseFor exc)
      else Exn.raise exc

def _open (eng : Engine) : Py Session RustArchive := do
  let s ← Exn.get
  if s.self.closed then Exn.raise closedArchive
  else match s.self.reader with
    | some reader => pure reader
    | none =>
        let path ← _backingPath
        let s ← Exn.get
        match s.self.source.ownPath, s.world.files path with
        | some (.named own), none => Exn.raise (fileNotFound own)
        | _, _ => openAt eng path

/-- The compiled module as an archive finds it: while an extraction has the reader `&mut`, the
reader is lent out. -/
structure CompiledModule where
  engine : Engine
  lent : Bool := false

instance : Coe Engine CompiledModule := ⟨fun engine => { engine }⟩

/-- PyO3's answer to a `&self` method of an object that is mutably borrowed. -/
def alreadyMutablyBorrowed : PyExc where
  cls := .otherException "RuntimeError"
  text := "Already mutably borrowed"

/-- Its answer to a `&mut self` method. -/
def alreadyBorrowed : PyExc where
  cls := .otherException "RuntimeError"
  text := "Already borrowed"

/-- A method of the reader, which borrows it. -/
abbrev CompiledModule.borrowing {σ α : Type} (mod : CompiledModule) (refusal : PyExc)
    (method : Py σ α) : Py σ α :=
  match mod.lent with
  | true => Exn.raise refusal
  | false => method

def _listing (mod : CompiledModule) : Py Session (List Entry) := do
  let s ← Exn.get
  match s.self.entries with
  | some entries => pure entries
  | none =>
      let reader ← _open mod.engine
      mod.borrowing alreadyMutablyBorrowed do
        let (entries, byName) := entriesFromRaw reader.entries true
        modifySelf fun self => { self with entries := some entries, byName := some byName }
        pure entries

/-- `__enter__`. -/
def enter (eng : Engine) : Py Session Unit := do
  let _ ← _listing eng
  pure ()

/-! ## The accessors -/

/-- The keys of `archive[key]`. -/
inductive Key
  | int (i : Int)
  | slice (s : PySlice)
  | name (s : String)
  | path (p : PurePosixPath)
deriving DecidableEq

/-- The keys of `key in archive`. -/
inductive Member
  | entry (e : Entry)
  | name (s : String)
  | path (p : PurePosixPath)
  | other
deriving DecidableEq

/-- What an accessor returns.  A pipe stream stands for what it will deliver and
the size it expects; a buffered one for its contents. -/
inductive Value
  | nat (n : Nat)
  | bool (b : Bool)
  | str (s : String)
  | format (f : Format)
  | entry (e : Entry)
  | entries (es : List Entry)
  | bytes (b : Bytes)
  | buffered (b : Bytes)
  | stream (data : Bytes) (expectedSize : Option Int)
  | report (r : Report)
deriving DecidableEq

/-- The arguments of `extract`. -/
structure ExtractRequest where
  dest : PathArg
  selection : Option (List Ref)
  wrapper : Bool
  strict : Bool
  preserve : Bool
  progress : Option ProgressCallback

def assertionError : PyExc := { cls := .assertionError, text := "" }

/-- The name index, asserted to be there. -/
def nameIndex : Py Session NameIndex := do
  let s ← Exn.get
  match s.self.byName with
  | some byName => pure byName
  | none => Exn.raise assertionError

/-- The last lines of `__getitem__`, for a name. -/
def itemByName (byName : NameIndex) (path : PurePosixPath) (text : String) :
    Except PyExc Entry :=
  match byName.lookup path with
  | some e => .ok e
  | none => .error (entryNotFound text)

/-- `__getitem__`. -/
def getitem (mod : CompiledModule) (key : Key) : Py Session Value := do
  let entries ← _listing mod
  match key with
  | .slice s => do
      let slice ← Exn.lift (tupleSlice entries s)
      pure (.entries slice)
  | .int i => do
      let e ← Exn.lift (tupleItem entries i)
      pure (.entry e)
  | .name s => do
      let byName ← nameIndex
      let e ← Exn.lift (itemByName byName (PurePosixPath.ofString s) s)
      pure (.entry e)
  | .path p => do
      let byName ← nameIndex
      let e ← Exn.lift (itemByName byName p p.str)
      pure (.entry e)

/-- `__contains__`. -/
def contains (mod : CompiledModule) (key : Member) : Py Session Bool :=
  match key with
  | .entry e => do
      let entries ← _listing mod
      pure (entries.any (e.pyEq ·))
  | .name s => do
      let _ ← _listing mod
      let byName ← nameIndex
      pure (byName.lookup (PurePosixPath.ofString s)).isSome
  | .path p => do
      let _ ← _listing mod
      let byName ← nameIndex
      pure (byName.lookup p).isSome
  | .other => pure false

/-- `Format(name)`. -/
def formatOf (name : String) : Except PyExc Format :=
  match Format.ofValue name with
  | some f => .ok f
  | none => .error
      { cls := .valueError, text := "'" ++ name ++ "' is not a valid Format" }

/-- The `format` property. -/
def format (mod : CompiledModule) : Py Session Format := do
  let reader ← _open mod.engine
  mod.borrowing alreadyMutablyBorrowed (Exn.lift (formatOf reader.format))

/-- The `detected_encoding` property. -/
def detectedEncoding (mod : CompiledModule) : Py Session String := do
  let reader ← _open mod.engine
  mod.borrowing alreadyMutablyBorrowed (pure reader.detectedEncoding)

/-- The `needs_password` property. -/
def needsPassword (mod : CompiledModule) : Py Session Bool :=
  Exn.handle
    (do
      let entries ← _listing mod
      pure (entries.any (·.isEncrypted)))
    fun exc =>
      if exc.cls = .passwordRequiredError ∨ exc.cls = .wrongPasswordError then pure true
      else Exn.raise exc

/-- What `__repr__` shows: the source, or the format with the number of entries and
their total size. -/
inductive Shown
  | unopened (source : Source)
  | opened (format : Format) (count total : Nat)

/-- `__repr__`: only what is already loaded is looked at. -/
def repr : Py Session Shown := do
  let s ← Exn.get
  match s.self.entries with
  | none => pure (.unopened s.self.source)
  | some entries => match s.self.reader with
    | none => Exn.raise assertionError
    | some reader => do
        let format ← Exn.lift (formatOf reader.format)
        pure (.opened format entries.length (entries.map (·.size)).sum)

def _indexOf (mod : CompiledModule) (ref : Ref) : Py Session Int := do
  let entries ← _listing mod
  Exn.lift (resolveIndex entries ref)

/-- `except Exception as exc: raise_for(exc)` around a call of the compiled module. -/
def typed {σ α : Type} (x : Py σ α) : Py σ α :=
  Exn.handle x fun exc => Exn.raise exc.raised

theorem typed_apply {σ α : Type} (x : Py σ α) (s : σ) :
    typed x s = ((x s).1.mapError PyExc.raised, (x s).2) := by
  unfold typed Exn.handle
  rcases x s with ⟨exc | a, s'⟩ <;> rfl

def read (mod : CompiledModule) (ref : Ref) : Py Session Bytes := do
  let reader ← _open mod.engine
  let index ← _indexOf mod ref
  typed (mod.borrowing alreadyBorrowed (onWorld (reader.read index)))

/-- `open(ref)`: the entry is decoded into a spooled file, then rewound. -/
def openBuffered (mod : CompiledModule) (ref : Ref) : Py Session Bytes := do
  let reader ← _open mod.engine
  let index ← _indexOf mod ref
  typed (mod.borrowing alreadyBorrowed (onWorld (reader.writeEntryTo index spooled [])))

def _openPipePosix (mod : CompiledModule) (reader : RustArchive) (index : Int)
    (expectedSize : Option Int) : Py Session (Nat × PipeStream) := do
  let s ← Exn.get
  onWorld (openPipe s.self.tempfile
    (mod.borrowing alreadyMutablyBorrowed (reader.openStream mod.engine index)) expectedSize)

/-- `open(ref, stream=True)` on POSIX. -/
def openStream (mod : CompiledModule) (ref : Ref) : Py Session (Nat × PipeStream) := do
  let reader ← _open mod.engine
  let index ← _indexOf mod ref
  let entries ← _listing mod
  let entry ← Exn.lift (tupleItem entries index)
  _openPipePosix mod reader index (some entry.size)

/-- `[self._index_of(ref) for ref in selection]`. -/
def indices (mod : CompiledModule) : List Ref → Py Session (List Int)
  | [] => pure []
  | ref :: refs => do
      let i ← _indexOf mod ref
      let is ← indices mod refs
      pure (i :: is)

/-- The selection of `extract`, resolved. -/
def selected (mod : CompiledModule) : Option (List Ref) → Py Session (Option (List Int))
  | none => pure none
  | some refs => do
      let is ← indices mod refs
      pure (some is)

/-- What `extract` hands to the compiled module. -/
def ExtractRequest.toCall (r : ExtractRequest) (selection : Option (List Int))
    (nameSource : Option String) : ExtractCall where
  dest := r.dest.str
  selection := selection
  wrapper := r.wrapper
  strict := r.strict
  preserve := r.preserve
  progress := r.progress.map wrapProgress
  nameSource := nameSource

def extract (mod : CompiledModule) (r : ExtractRequest) : Py Session Report := do
  let reader ← _open mod.engine
  let selection ← selected mod r.selection
  let s ← Exn.get
  typed (mod.borrowing alreadyBorrowed
    (onWorld (reader.extract mod.engine (r.toCall selection s.self.source.wrapperNameSource))))

/-! ## Everything a caller can do -/

/-- An accessor call. -/
inductive Call
  | len
  | iter
  | getitem (key : Key)
  | contains (key : Member)
  | format
  | detectedEncoding
  | needsPassword
  | read (ref : Ref)
  | openBuffered (ref : Ref)
  | openStream (ref : Ref)
  | extract (request : ExtractRequest)

def call (mod : CompiledModule) : Call → Py Session Value
  | .len => do
      let entries ← _listing mod
      pure (.nat entries.length)
  | .iter => do
      let entries ← _listing mod
      pure (.entries entries)
  | .getitem key => Archive.getitem mod key
  | .contains key => do
      let b ← Archive.contains mod key
      pure (.bool b)
  | .format => do
      let f ← Archive.format mod
      pure (.format f)
  | .detectedEncoding => do
      let s ← Archive.detectedEncoding mod
      pure (.str s)
  | .needsPassword => do
      let b ← Archive.needsPassword mod
      pure (.bool b)
  | .read ref => do
      let b ← Archive.read mod ref
      pure (.bytes b)
  | .openBuffered ref => do
      let b ← Archive.openBuffered mod ref
      pure (.buffered b)
  | .openStream ref => do
      let (_, stream) ← Archive.openStream mod ref
      pure (.stream stream.data stream.expectedSize)
  | .extract request => do
      let r ← Archive.extract mod request
      pure (.report r)

/-- The `password` setter: the reader must be re-created. -/
def setPassword (password : Option String) : Py Session Unit :=
  modifySelf fun self =>
    { self with password, reader := none, entries := none, byName := none }

def close : Py Session Unit := do
  modifySelf fun self =>
    { self with reader := none, entries := none, byName := none, closed := true }
  dropTempfile

/-- `__exit__`. -/
def exit : Py Session Unit := close

/-- `Archive(source, password=password, encoding=encoding)` over the files `files`. -/
def init (files : FilePath → Option Bytes) (source : Source) (password encoding : Option String) :
    Session where
  world := { files }
  self := { source, password, encoding }

end Archive

end NewtuaPy
