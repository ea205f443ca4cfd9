import NewtuaPy.Archive

/-!
# Filling a spooled file

The `try` statement of `from_writer` and the buffered `open` above it, over any file that can
be written to, rewound and closed.  Whatever goes wrong on the way closes the file; what goes
wrong in closing it takes the place of what went wrong before.
-/

namespace NewtuaPy

variable {σ τ α : Type}

/-- What `from_writer` asks of a file. -/
structure SpoolFile (τ : Type) where
  sink : Sink τ
  rewind : Py τ Unit
  close : Py τ Unit

/-! ## The file beside the state -/

/-- A computation of the state beside the file. -/
def beside (x : Py σ α) : Py (σ × τ) α := Exn.zoom Prod.fst (fun p s => (s, p.2)) x

def onFile (x : Py τ α) : Py (σ × τ) α := Exn.zoom Prod.snd (fun p file => (p.1, file)) x

theorem beside_run {x : Py σ α} {s t : σ} {result : Except PyExc α} (ran : x s = (result, t))
    (file : τ) : beside x (s, file) = (result, t, file) := by
  unfold beside
  rw [Exn.zoom_apply, ran]

theorem onFile_run {x : Py τ α} {file file' : τ} {result : Except PyExc α}
    (ran : x file = (result, file')) (s : σ) : onFile x (s, file) = (result, s, file') := by
  unfold onFile
  rw [Exn.zoom_apply, ran]

namespace SpoolFile

/-- The `try` statement of `from_writer`. -/
def fill (spool : SpoolFile τ) (writeInto : Py (σ × τ) Unit) : Py (σ × τ) Unit :=
  Exn.handle
    (do
      writeInto
      onFile spool.rewind)
    fun exc => do
      onFile spool.close
      Exn.raise exc

variable {spool : SpoolFile τ} {writeInto : Py (σ × τ) Unit} {p : σ × τ} {s : σ}
  {file file' : τ} {exc : PyExc}

theorem fill_ok (wrote : writeInto p = (.ok (), s, file))
    (rewound : spool.rewind file = (.ok (), file')) :
    spool.fill writeInto p = (.ok (), s, file') :=
  Exn.handle_of_ok ((Exn.bind_of_ok wrote _).trans (onFile_run rewound s)) _

/-- The end of a failure: `close` has the last word. -/
theorem closing_run (closed : spool.close file = (.ok (), file')) (s : σ) :
    (do
      onFile spool.close
      Exn.raise exc : Py (σ × τ) Unit) (s, file) = (.error exc, s, file') :=
  Exn.bind_of_ok (onFile_run closed s) _

theorem closing_fails {exc' : PyExc} (failed : spool.close file = (.error exc', file')) (s : σ) :
    (do
      onFile spool.close
      Exn.raise exc : Py (σ × τ) Unit) (s, file) = (.error exc', s, file') :=
  Exn.bind_of_error (onFile_run failed s) _

/-- Writing fails. -/
theorem fill_unwritten (raised : writeInto p = (.error exc, s, file)) :
    spool.fill writeInto p =
      (do
        onFile spool.close
        Exn.raise exc : Py (σ × τ) Unit) (s, file) :=
  Exn.handle_of_error (Exn.bind_of_error raised _) _

/-- Rewinding fails. -/
theorem fill_stuck (wrote : writeInto p = (.ok (), s, file))
    (failed : spool.rewind file = (.error exc, file')) :
    spool.fill writeInto p =
      (do
        onFile spool.close
        Exn.raise exc : Py (σ × τ) Unit) (s, file') :=
  Exn.handle_of_error ((Exn.bind_of_ok wrote _).trans (onFile_run failed s)) _

end SpoolFile

/-! ## The buffered `open` -/

/-- `Archive::write_entry_to`, with the file beside the archive. -/
def RustArchive.writeTo (self : RustArchive) (index : Int) (sink : Sink τ) :
    Py (Session × τ) Unit := do
  let i ← Exn.lift (usizeArg index)
  beside (onWorld (logCall (self.call (.write i))))
  let content ← beside (onWorld (fileAt self.path))
  let p ← Exn.get
  let (result, file) := NewtuaPy.writeEntryTo (self.reader.readEntry content i) sink p.2
  onFile (Exn.modify fun _ => file)
  Exn.lift result

theorem RustArchive.writeTo_run (self : RustArchive) (index : Int) (sink : Sink τ) (s : Session)
    (file : τ) :
    self.writeTo index sink (s, file) =
      match usizeArg index with
      | .error exc => (.error exc, s, file)
      | .ok i =>
          let wrote :=
            NewtuaPy.writeEntryTo (self.reader.readEntry (s.world.files self.path) i) sink file
          (wrote.1, { s with world := s.world.logged (self.call (.write i)) }, wrote.2) := by
  unfold RustArchive.writeTo
  rcases usizeArg index with exc | i
  · rfl
  · rcases wrote :
      NewtuaPy.writeEntryTo (self.reader.readEntry (s.world.files self.path) i) sink file
      with ⟨result, file'⟩
    simp [Exn.bind_apply, beside, onFile, onWorld, logCall, fileAt, wrote, World.logged]

namespace Archive

/-- `write_into` of `open`. -/
def writeInto (reader : RustArchive) (sink : Sink τ) (index : Int) : Py (Session × τ) Unit :=
  typed (reader.writeTo index sink)

/-- `open(ref)`, up to the stream that is put over the file. -/
def openInto (eng : Engine) (spool : SpoolFile τ) (ref : Ref) : Py (Session × τ) Unit := do
  let reader ← beside (_open eng)
  let index ← beside (_indexOf eng ref)
  spool.fill (writeInto reader spool.sink index)

variable {eng : Engine} {spool : SpoolFile τ} {ref : Ref} {s s₁ s₂ : Session}
  {reader : RustArchive} {index : Int} {exc : PyExc}

theorem openInto_unopened (failed : _open eng s = (.error exc, s₁)) (file : τ) :
    openInto eng spool ref (s, file) = (.error exc, s₁, file) :=
  Exn.bind_of_error (beside_run failed file) _

theorem openInto_unresolved (opened : _open eng s = (.ok reader, s₁))
    (failed : _indexOf eng ref s₁ = (.error exc, s₂)) (file : τ) :
    openInto eng spool ref (s, file) = (.error exc, s₂, file) :=
  (Exn.bind_of_ok (beside_run opened file) _).trans (Exn.bind_of_error (beside_run failed file) _)

theorem openInto_run (opened : _open eng s = (.ok reader, s₁))
    (resolved : _indexOf eng ref s₁ = (.ok index, s₂)) (file : τ) :
    openInto eng spool ref (s, file) =
      spool.fill (writeInto reader spool.sink index) (s₂, file) :=
  (Exn.bind_of_ok (beside_run opened file) _).trans (Exn.bind_of_ok (beside_run resolved file) _)

end Archive

end NewtuaPy
