import Mathlib.Logic.Function.Basic
import NewtuaPy.Stream

/-!
# The world outside an archive object

What outlives any one archive object: the files on disk, the `_TempFile`
objects, the open pipe streams, and the log of what the engine was asked for.
`_TempFile` counts its holders; the last one to release deletes the file.
-/

namespace NewtuaPy

/-- A path handed to the operating system: one a caller named, or the `n`-th
spilled file. -/
inductive FilePath
  | named (path : String)
  | temp (n : Nat)
deriving DecidableEq, Repr

/-- A `_TempFile` object.  `deleteCalls` counts the calls of `self._delete()`;
being a `weakref.finalize`, only the first one unlinks the file. -/
structure TempFile where
  path : FilePath
  holders : Int := 1
  deleteCalls : Nat := 0
deriving DecidableEq

/-- The arguments of one extraction, as the Python layer hands them over. -/
structure ExtractArgs where
  dest : String
  selection : Option (List Nat)
  wrapper : Bool
  strict : Bool
  preserve : Bool
  nameSource : Option String
  hasProgress : Bool
deriving DecidableEq, Repr

/-- What one call of the compiled module asks of the engine. -/
inductive Work
  | open
  | list
  | read (index : Nat)
  | write (index : Nat)
  | stream (index : Nat)
  | extract (args : ExtractArgs)
deriving DecidableEq, Repr

/-- One entry of the engine log: the archive it works on, and the work. -/
structure EngineCall where
  path : FilePath
  password : Option String
  encoding : Option String
  work : Work
deriving DecidableEq, Repr

structure World where
  files : FilePath → Option Bytes
  nextTemp : Nat := 0
  temps : List TempFile := []
  streams : List PipeStream := []
  log : List EngineCall := []

/-! ## Files -/

def World.writeFile (w : World) (p : FilePath) (content : Option Bytes) : World :=
  { w with files := Function.update w.files p content }

/-- `NamedTemporaryFile(suffix=".newtua", delete=False)`: a new empty file. -/
def namedTemporaryFile : Py World FilePath := do
  let w ← Exn.get
  let path := FilePath.temp w.nextTemp
  Exn.modify fun w => { w.writeFile path (some []) with nextTemp := w.nextTemp + 1 }
  pure path

/-- `fh.write(content)` at the end of a file. -/
def appendFile (p : FilePath) (content : Bytes) : Py World Unit :=
  Exn.modify fun w => w.writeFile p (some ((w.files p).getD [] ++ content))

/-- `_delete_tempfile`: `path.unlink(missing_ok=True)`. -/
def deleteTempfile (p : FilePath) : Py World Unit :=
  Exn.modify fun w => w.writeFile p none

/-! ## `_TempFile` -/

def World.modifyTemp (w : World) (t : Nat) (f : TempFile → TempFile) : World :=
  { w with temps := w.temps.modify t f }

namespace TempFile

/-- `_TempFile(path)`; the object is named by its place in the table. -/
def new (path : FilePath) : Py World Nat := do
  let w ← Exn.get
  Exn.modify fun w => { w with temps := w.temps ++ [{ path }] }
  pure w.temps.length

def hold (t : Nat) : Py World Unit :=
  Exn.modify fun w => w.modifyTemp t fun f => { f with holders := f.holders + 1 }

/-- `self._delete()`: the finalizer runs its callback once. -/
def delete (t : Nat) : Py World Unit := do
  let w ← Exn.get
  Exn.modify fun w => w.modifyTemp t fun f => { f with deleteCalls := f.deleteCalls + 1 }
  match w.temps[t]? with
  | some f => if f.deleteCalls = 0 then deleteTempfile f.path else pure ()
  | none => pure ()

def release (t : Nat) : Py World Unit := do
  Exn.modify fun w => w.modifyTemp t fun f => { f with holders := f.holders - 1 }
  let w ← Exn.get
  match w.temps[t]? with
  | some f => if 0 < f.holders then pure () else delete t
  | none => pure ()

end TempFile

/-- `if tempfile is not None: tempfile.hold()`. -/
def holdClaim : Option Nat → Py World Unit
  | some t => TempFile.hold t
  | none => pure ()

/-- `if tempfile is not None: tempfile.release()`. -/
def releaseClaim : Option Nat → Py World Unit
  | some t => TempFile.release t
  | none => pure ()

/-- The world after one claim on the temp file `t` is given up. -/
def World.afterRelease (w : World) (t : Nat) : World :=
  match w.temps[t]? with
  | none => w
  | some f =>
      if 1 < f.holders then
        { w with temps := w.temps.set t { f with holders := f.holders - 1 } }
      else
        { w with
          temps := w.temps.set t
            { f with holders := f.holders - 1, deleteCalls := f.deleteCalls + 1 }
          files := if f.deleteCalls = 0 then Function.update w.files f.path none else w.files }

theorem TempFile.release_run (t : Nat) (w : World) :
    TempFile.release t w = (.ok (), w.afterRelease t) := by
  unfold TempFile.release TempFile.delete World.afterRelease World.modifyTemp
  rcases found : w.temps[t]? with _ | f
  · have outside : w.temps.length ≤ t := List.getElem?_eq_none_iff.mp found
    simp [found, List.modify_eq_self outside]
  · obtain ⟨inside, rfl⟩ := List.getElem?_eq_some_iff.mp found
    by_cases last : 1 < w.temps[t].holders
    · simp [inside, last, List.modify_eq_set_getElem?]
    · by_cases fresh : w.temps[t].deleteCalls = 0 <;>
        simp [inside, last, fresh, deleteTempfile, World.writeFile, List.modify_eq_set_getElem?]

@[simp] theorem World.afterRelease_log (w : World) (t : Nat) :
    (w.afterRelease t).log = w.log := by
  unfold World.afterRelease
  split
  · rfl
  · split <;> rfl

@[simp] theorem World.afterRelease_streams (w : World) (t : Nat) :
    (w.afterRelease t).streams = w.streams := by
  unfold World.afterRelease
  split
  · rfl
  · split <;> rfl

/-- The world after `content` has been spilled to a new temp file. -/
def World.spilled (w : World) (content : Bytes) : World :=
  { w with
    files := Function.update w.files (.temp w.nextTemp) (some content)
    nextTemp := w.nextTemp + 1
    temps := w.temps ++ [{ path := .temp w.nextTemp }] }

/-! ## Streams in the world -/

/-- A new `_PipeStream`, named by its place in the table. -/
def newStream (s : PipeStream) : Py World Nat := do
  let w ← Exn.get
  Exn.modify fun w => { w with streams := w.streams ++ [s] }
  pure w.streams.length

/-- Run a computation on the stream at place `k`. -/
def onStream {α : Type} (k : Nat) (x : Py PipeStream α) : Py World α := fun w =>
  match w.streams[k]? with
  | some s => ((x s).1, { w with streams := w.streams.set k (x s).2 })
  | none => (.error PipeStream.closedFile, w)

/-- The plumbing of `_open_pipe_posix` and `_open_pipe_sync`: the claim on the
spilled file is taken before the handshake and kept by the stream, or given up
if the handshake fails.  The stream is returned with its place in the table. -/
def openPipe (tempfile : Option Nat) (handshake : Py World Bytes) (expectedSize : Option Int) :
    Py World (Nat × PipeStream) := do
  holdClaim tempfile
  let data ← Exn.handle handshake fun exc => do
    releaseClaim tempfile
    Exn.raise exc.raised
  let stream : PipeStream := { data, expectedSize, onClose := tempfile }
  let k ← newStream stream
  pure (k, stream)

theorem openPipe_ok {tempfile : Option Nat} {handshake : Py World Bytes} {w w₁ w₂ : World}
    {data : Bytes} (held : holdClaim tempfile w = (.ok (), w₁))
    (ready : handshake w₁ = (.ok data, w₂)) (expectedSize : Option Int) :
    openPipe tempfile handshake expectedSize w =
      (.ok (w₂.streams.length, { data, expectedSize, onClose := tempfile }),
       { w₂ with streams := w₂.streams ++ [{ data, expectedSize, onClose := tempfile }] }) := by
  unfold openPipe
  rw [Exn.bind_of_ok held, Exn.bind_of_ok (Exn.handle_of_ok ready _)]
  rfl

theorem openPipe_error {tempfile : Option Nat} {handshake : Py World Bytes} {w w₁ w₂ w₃ : World}
    {exc : PyExc} (held : holdClaim tempfile w = (.ok (), w₁))
    (refused : handshake w₁ = (.error exc, w₂))
    (released : releaseClaim tempfile w₂ = (.ok (), w₃)) (expectedSize : Option Int) :
    openPipe tempfile handshake expectedSize w = (.error exc.raised, w₃) := by
  unfold openPipe
  rw [Exn.bind_of_ok held]
  refine Exn.bind_of_error ?_ _
  rw [Exn.handle_of_error refused, Exn.bind_of_ok released]
  rfl

theorem holdClaim_ok (tempfile : Option Nat) (w : World) :
    ∃ w', holdClaim tempfile w = (.ok (), w') ∧ w'.log = w.log := by
  cases tempfile with
  | none => exact ⟨w, rfl, rfl⟩
  | some t => exact ⟨_, rfl, rfl⟩

theorem releaseClaim_ok (tempfile : Option Nat) (w : World) :
    ∃ w', releaseClaim tempfile w = (.ok (), w') ∧ w'.log = w.log := by
  cases tempfile with
  | none => exact ⟨w, rfl, rfl⟩
  | some t => exact ⟨_, TempFile.release_run t w, w.afterRelease_log t⟩

/-- Opening a pipe ends as its handshake does, and logs what the handshake logs. -/
theorem openPipe_cases (tempfile : Option Nat) (handshake : Py World Bytes)
    (expectedSize : Option Int) (w : World) :
    ∃ w₁ w₃, w₁.log = w.log ∧ w₃.log = (handshake w₁).2.log ∧
      ((∃ data p, (handshake w₁).1 = .ok data ∧
          openPipe tempfile handshake expectedSize w = (.ok p, w₃)) ∨
        ∃ exc, (handshake w₁).1 = .error exc ∧
          openPipe tempfile handshake expectedSize w = (.error exc.raised, w₃)) := by
  obtain ⟨w₁, held, log⟩ := holdClaim_ok tempfile w
  rcases shake : handshake w₁ with ⟨exc | data, w₂⟩
  · obtain ⟨w₃, released, same⟩ := releaseClaim_ok tempfile w₂
    refine ⟨w₁, w₃, log, by rw [shake]; exact same, Or.inr ⟨exc, by rw [shake], ?_⟩⟩
    exact openPipe_error held shake released expectedSize
  · refine ⟨w₁, _, log, ?_, Or.inl ⟨data, _, by rw [shake], openPipe_ok held shake expectedSize⟩⟩
    rw [shake]

/-- `_PipeStream.close`.  `fault` is what the backing's `close` raises, if it is
called and raises; the base class sets the closed flag only after it returns. -/
def closeStream (k : Nat) (fault : Option PyExc) : Py World Unit := do
  let w ← Exn.get
  match w.streams[k]? with
  | none => pure ()
  | some s =>
      -- `super().close()`, whose outcome waits for the `finally` block
      let outcome : Except PyExc Unit := match s.closed, fault with
        | false, some exc => .error exc
        | _, _ => .ok ()
      if s.closed = false ∧ fault = none then
        Exn.modify fun w => { w with streams := w.streams.modify k ({ · with closed := true }) }
      -- only the first `close()` runs the callback
      match s.closed, s.onClose with
      | false, some t => TempFile.release t
      | _, _ => pure ()
      Exn.lift outcome

end NewtuaPy
