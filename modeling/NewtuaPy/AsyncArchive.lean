import NewtuaPy.Archive

/-!
# The `AsyncArchive` class

The asynchronous archive of `_async.py`: the listing is taken once, when the
archive is entered, and every byte-touching call opens the backing path afresh
on a worker thread.  A synchronous `Archive` inside it is used for its source,
its spilled file and its wrapper name; its reader is never opened.
-/

namespace NewtuaPy

structure AsyncArchive where
  /-- `_sync` -/
  sync : Archive
  password : Option String
  encoding : Option String
  path : Option FilePath := none
  entries : List Entry := []
  byName : NameIndex := []
  _format : Option String := none
  _detectedEncoding : Option String := none
  closed : Bool := false

structure AsyncSession where
  world : World
  self : AsyncArchive

namespace AsyncArchive

open Archive (Key Member Value ExtractRequest)

/-- Run a computation on the world of a session. -/
def onWorld {α : Type} (x : Py World α) : Py AsyncSession α :=
  Exn.zoom AsyncSession.world (fun s world => { s with world }) x

/-- The session of the archive inside. -/
def inner (s : AsyncSession) : Session := { world := s.world, self := s.self.sync }

/-- Run a computation on the archive inside. -/
def onSync {α : Type} (x : Py Session α) : Py AsyncSession α :=
  Exn.zoom inner (fun s t => { world := t.world, self := { s.self with sync := t.self } }) x

def modifySelf (f : AsyncArchive → AsyncArchive) : Py AsyncSession Unit :=
  Exn.modify fun s => { s with self := f s.self }

/-- `AsyncArchive(source, password=password, encoding=encoding)` over `files`. -/
def init (files : FilePath → Option Bytes) (source : Source) (password encoding : Option String) :
    AsyncSession where
  world := { files }
  self := { sync := { source, password, encoding }, password, encoding }

/-! ## Entering and leaving -/

/-- The listing half of `__aenter__`. -/
def enterAt (eng : Engine) (path : FilePath) : Py AsyncSession Unit := do
  let s ← Exn.get
  let (raw, format, encoding) ← Exn.handle
    (onWorld (listPath eng path s.self.password s.self.encoding))
    fun exc =>
      -- `except Exception`: a panic passes by, and the spilled file stays
      if exc.isException then do
        onSync Archive.close
        Exn.raise (raiseFor exc)
      else Exn.raise exc
  let (entries, byName) := entriesFromRaw raw false
  modifySelf fun self =>
    { self with
      entries
      byName
      _format := some format
      _detectedEncoding := some encoding }

/-- `__aenter__`. -/
def aenter (eng : Engine) : Py AsyncSession Unit := do
  let path ← onSync Archive._backingPath
  modifySelf fun self => { self with path := some path }
  let s ← Exn.get
  match s.self.sync.source.ownPath, s.world.files path with
  | some (.named own), none => do
      onSync Archive.close
      Exn.raise (fileNotFound own)
  | _, _ => enterAt eng path

/-- `__aexit__`. -/
def aexit : Py AsyncSession Unit := do
  onSync Archive.close
  modifySelf fun self => { self with closed := true }

def notReady : PyExc where
  cls := .valueError
  text := "operation on an unopened or closed AsyncArchive"

/-- `_ensure_ready`, with `self._path`. -/
def _ensureReady : Py AsyncSession FilePath := do
  let s ← Exn.get
  match s.self.path with
  | some path => if s.self.closed then Exn.raise notReady else pure path
  | none => Exn.raise notReady

/-! ## The cached metadata -/

/-- `__getitem__`. -/
def getitem (key : Key) : Py AsyncSession Value := do
  let s ← Exn.get
  match key with
  | .slice slice => do
      let entries ← Exn.lift (tupleSlice s.self.entries slice)
      pure (.entries entries)
  | .int i => do
      let e ← Exn.lift (tupleItem s.self.entries i)
      pure (.entry e)
  | .name text => do
      let e ← Exn.lift (Archive.itemByName s.self.byName (PurePosixPath.ofString text) text)
      pure (.entry e)
  | .path path => do
      let e ← Exn.lift (Archive.itemByName s.self.byName path path.str)
      pure (.entry e)

/-- `__contains__`. -/
def contains (key : Member) : Py AsyncSession Bool := do
  let s ← Exn.get
  match key with
  | .entry e => pure (s.self.entries.any (e.pyEq ·))
  | .name text => pure (s.self.byName.lookup (PurePosixPath.ofString text)).isSome
  | .path path => pure (s.self.byName.lookup path).isSome
  | .other => pure false

/-- `assert value is not None`. -/
def asserted {α : Type} : Option α → Py AsyncSession α
  | some value => pure value
  | none => Exn.raise Archive.assertionError

/-- The `format` property. -/
def format : Py AsyncSession Format := do
  let s ← Exn.get
  let name ← asserted s.self._format
  Exn.lift (Archive.formatOf name)

/-- The `detected_encoding` property. -/
def detectedEncoding : Py AsyncSession String := do
  let s ← Exn.get
  asserted s.self._detectedEncoding

/-- The `needs_password` property. -/
def needsPassword : Py AsyncSession Bool := do
  let s ← Exn.get
  pure (s.self.entries.any (·.isEncrypted))

/-! ## Reading and extraction -/

/-- `_resolve_index(self._entries, ref)`. -/
def indexOf (ref : Ref) : Py AsyncSession Int := do
  let s ← Exn.get
  Exn.lift (resolveIndex s.self.entries ref)

def read (eng : Engine) (ref : Ref) : Py AsyncSession Bytes := do
  let path ← _ensureReady
  let index ← indexOf ref
  let s ← Exn.get
  Archive.typed (onWorld (readPath eng path index s.self.password s.self.encoding))

/-- The selection of `extract`, resolved. -/
def selected (selection : Option (List Ref)) : Py AsyncSession (Option (List Int)) := do
  let s ← Exn.get
  match selection with
  | none => pure none
  | some refs => do
      let indices ← Exn.lift (refs.mapM (resolveIndex s.self.entries))
      pure (some indices)

def extract (eng : Engine) (r : ExtractRequest) : Py AsyncSession Report := do
  let path ← _ensureReady
  let selection ← selected r.selection
  let s ← Exn.get
  let request := r.toCall selection s.self.sync.source.wrapperNameSource
  Archive.typed (onWorld (extractPath eng path request s.self.password s.self.encoding))

/-! ## Streams -/

/-- `_AsyncStreamCtx`: what `open` has resolved. -/
structure StreamCtx where
  index : Int
  size : Nat
deriving DecidableEq, Repr

/-- `open(ref)`: nothing is opened yet. -/
def «open» (ref : Ref) : Py AsyncSession StreamCtx := do
  let _ ← _ensureReady
  let index ← indexOf ref
  let s ← Exn.get
  let entry ← Exn.lift (tupleItem s.self.entries index)
  pure { index, size := entry.size }

/-- `_open_pipe_sync` on POSIX. -/
def _openPipeSync (eng : Engine) (index : Int) (expectedSize : Nat) :
    Py AsyncSession (Nat × PipeStream) := do
  let s ← Exn.get
  let path ← asserted s.self.path
  onWorld (openPipe s.self.sync.tempfile
    (openStreamPath eng path index s.self.password s.self.encoding) (some expectedSize))

/-- `_AsyncStreamCtx.__aenter__`. -/
def StreamCtx.aenter (eng : Engine) (ctx : StreamCtx) : Py AsyncSession (Nat × PipeStream) :=
  _openPipeSync eng ctx.index ctx.size

/-! ## Everything a caller can do -/

/-- An accessor call. -/
inductive Call
  | len
  | iter
  | getitem (key : Key)
  | contains (key : Member)
  | format
  | detectedEncoding
  | needsPassword
  | read (ref : Ref)
  | extract (request : ExtractRequest)

def call (eng : Engine) : Call → Py AsyncSession Value
  | .len => do
      let s ← Exn.get
      pure (.nat s.self.entries.length)
  | .iter => do
      let s ← Exn.get
      pure (.entries s.self.entries)
  | .getitem key => getitem key
  | .contains key => do
      let b ← contains key
      pure (.bool b)
  | .format => do
      let f ← format
      pure (.format f)
  | .detectedEncoding => do
      let text ← detectedEncoding
      pure (.str text)
  | .needsPassword => do
      let b ← needsPassword
      pure (.bool b)
  | .read ref => do
      let b ← read eng ref
      pure (.bytes b)
  | .extract request => do
      let r ← extract eng request
      pure (.report r)

end AsyncArchive

end NewtuaPy
