import NewtuaPy.Engine

/-!
# Writing an entry into a Python sink

`PySink`, the adapter between `std::io::Write` and a Python object with a
`write` method, under `write_all`'s loop, and `Archive::write_entry_to` over it.
-/

namespace NewtuaPy

variable {τ : Type}

/-- A Python object with a `write` method and the state `τ`. -/
structure Sink (τ : Type) where
  write : τ → Bytes → Reply × τ

/-- `PySink`: the object, and the exception it raised. -/
structure PySink (τ : Type) where
  obj : τ
  err : Option PyExc := none

/-- `PySink::write`.  The count is clamped to the chunk; an answer that is not a
`usize` counts as the whole chunk. -/
def PySink.write (sink : Sink τ) (self : PySink τ) (buf : Bytes) :
    Except String Nat × PySink τ :=
  match sink.write self.obj buf with
  | (.raises exc, obj) => (.error exc.text, { obj, err := some exc })
  | (.returns ret, obj) =>
      match ret.extractUsize with
      | some n => (.ok (min n buf.length), { self with obj })
      | none => (.ok buf.length, { self with obj })

theorem PySink.write_le {sink : Sink τ} {self self' : PySink τ} {buf : Bytes} {n : Nat}
    (h : self.write sink buf = (.ok n, self')) : n ≤ buf.length := by
  unfold PySink.write at h
  rcases reply : sink.write self.obj buf with ⟨ret | exc, obj⟩
  · rw [reply] at h
    dsimp only at h
    split at h
    · cases h
      exact Nat.min_le_right _ _
    · cases h
      exact Nat.le_refl _
  · rw [reply] at h
    cases h

/-- `std::io::Write::write_all`. -/
def writeAll (sink : Sink τ) (self : PySink τ) (buf : Bytes) : Except String Unit × PySink τ :=
  if buf.isEmpty then (.ok (), self)
  else match self.write sink buf with
    | (.error message, self') => (.error message, self')
    | (.ok n, self') =>
        if 0 < n ∧ 0 < buf.length then writeAll sink self' (buf.drop n)
        else (.error "failed to write whole buffer", self')
termination_by buf.length
decreasing_by simp only [List.length_drop]; omega

/-- The engine writes its chunks in order and stops at the first write error. -/
def writeChunks (sink : Sink τ) (self : PySink τ) : List Bytes → Except String Unit × PySink τ
  | [] => (.ok (), self)
  | chunk :: chunks =>
      match writeAll sink self chunk with
      | (.error message, self') => (.error message, self')
      | (.ok (), self') => writeChunks sink self' chunks

/-- `reader.read_entry(index, &mut sink)`. -/
def Decoded.into (d : Decoded) (sink : Sink τ) (self : PySink τ) :
    Except Fault Unit × PySink τ :=
  match writeChunks sink self d.chunks with
  | (.error message, self') => (.error (.error { variant := .io, message }), self')
  | (.ok (), self') => (d.status, self')

/-- `Archive::write_entry_to`: an exception of the sink comes back as it went in. -/
def writeEntryTo (d : Decoded) (sink : Sink τ) (obj : τ) : Except PyExc Unit × τ :=
  match d.into sink { obj } with
  | (.ok (), self) => (.ok (), self.obj)
  | (.error (.error e), self) => (.error (self.err.getD (toPyerr e)), self.obj)
  | (.error (.panic message), self) => (.error (Fault.panic message).toPyExc, self.obj)

/-! ## A sink that takes everything -/

/-- `SpooledTemporaryFile`: `write` takes the whole chunk and returns its length. -/
def spooled : Sink Bytes where
  write := fun file chunk => (.returns (.int chunk.length), file ++ chunk)

theorem PySink.write_spooled (self : PySink Bytes) (buf : Bytes) :
    self.write spooled buf = (.ok buf.length, { self with obj := self.obj ++ buf }) := by
  unfold PySink.write spooled
  dsimp only
  rcases PyObj.extractUsize_natCast buf.length with count | count
  · rw [count]
    simp only [Nat.min_self]
  · rw [count]

theorem writeAll_spooled (self : PySink Bytes) (buf : Bytes) :
    writeAll spooled self buf = (.ok (), { self with obj := self.obj ++ buf }) := by
  cases buf with
  | nil => simp [writeAll]
  | cons b buf =>
      rw [writeAll, PySink.write_spooled]
      simp [writeAll]

theorem writeChunks_spooled (self : PySink Bytes) (chunks : List Bytes) :
    writeChunks spooled self chunks =
      (.ok (), { self with obj := self.obj ++ chunks.flatten }) := by
  induction chunks generalizing self with
  | nil => simp [writeChunks]
  | cons chunk chunks ih =>
      rw [writeChunks, writeAll_spooled]
      simp [ih]

/-- Into a spooled file, an entry is written whole, and the call ends as the
engine's `read_entry` does. -/
theorem writeEntryTo_spooled (d : Decoded) :
    writeEntryTo d spooled [] = (d.status.mapError Fault.toPyExc, d.chunks.flatten) := by
  unfold writeEntryTo Decoded.into
  rw [writeChunks_spooled]
  rcases d.status with (_ | _) | _ <;> rfl

end NewtuaPy
