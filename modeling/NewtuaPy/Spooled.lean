import NewtuaPy.Spooling
import NewtuaPy.StreamAgree

/-!
# Buffered streams

`EntryStream` over the `SpooledTemporaryFile` that `from_writer` fills: an `io.BytesIO` that
is rolled over to a file on disk once more than `max_size` bytes have been written.  Whatever
the file on disk is asked to do may fail.  Where the disk does not fail, the two kinds of file
agree on ordinary calls and differ at the edges: a position before the start or beyond what a
file can hold, a length below `-1` or beyond what can be allocated.  `whence` is one of the
three values that every file knows, and what a stream holds fits into memory.
-/

namespace NewtuaPy

open PipeStream (ReadCall closedFile badLength)

/-! ## The backing file -/

/-- `sys.maxsize`, the largest `Py_ssize_t` and the largest `off_t`. -/
def maxsize : Int := 2 ^ 63 - 1

/-- The longest `bytes` that CPython asks memory for. -/
def longestBytes : Int := maxsize - 33

/-- What the system grants: how long a `bytes` memory can be found for, and how large a file
can be. -/
structure Limits where
  allocatable : Nat := 2 ^ 32
  largestFile : Nat := 2 ^ 43
  positive : 0 < allocatable := by decide
  allocates : (allocatable : Int) ≤ longestBytes := by decide
  addresses : (largestFile : Int) ≤ maxsize := by decide
deriving DecidableEq

/-- The integer fits into a `Py_ssize_t`. -/
def Index (i : Int) : Prop := -maxsize - 1 ≤ i ∧ i ≤ maxsize

instance (i : Int) : Decidable (Index i) := inferInstanceAs (Decidable (_ ∧ _))

/-- `SpooledTemporaryFile`.  `faults` says of each operation on the file on disk to come what
it raises, if it raises.  `onDisk` is the kind of `_file`, `rolled` the flag `_rolled`, which
lags behind when a rollover fails half way. -/
structure SpooledTemporaryFile where
  maxSize : Nat
  limits : Limits := {}
  faults : List (Option PyExc) := []
  data : Bytes := []
  pos : Nat := 0
  onDisk : Bool := false
  rolled : Bool := false
  closed : Bool := false
deriving DecidableEq

inductive Whence
  | set
  | cur
  | fromEnd
deriving DecidableEq, Repr

namespace SpooledTemporaryFile

/-- An operation on the file on disk. -/
def disk : Py SpooledTemporaryFile Unit := do
  let file ← Exn.get
  match file.faults with
  | [] => pure ()
  | fault :: faults => do
      Exn.modify fun file => { file with faults }
      match fault with
      | some exc => Exn.raise exc
      | none => pure ()

/-- An operation on whichever file there is: in memory it does not fail. -/
def touch : Py SpooledTemporaryFile Unit := do
  let file ← Exn.get
  if file.onDisk then disk else pure ()

def closedBacking : PyExc := { cls := .valueError, text := "I/O operation on closed file." }

def _checkOpen : Py SpooledTemporaryFile Unit := do
  let file ← Exn.get
  if file.closed then Exn.raise closedBacking else pure ()

/-- What a file of content `data` holds after `chunk` has been written at `pos`. -/
def overwrite (data : Bytes) (pos : Nat) (chunk : Bytes) : Bytes :=
  if chunk = [] then data
  else data.take pos ++ List.replicate (pos - data.length) 0 ++ chunk ++
    data.drop (pos + chunk.length)

/-- `rollover` uses `_TemporaryFileArgs` up, whatever happens next. -/
def noArguments : PyExc where
  cls := .attributeError
  text := "'SpooledTemporaryFile' object has no attribute '_TemporaryFileArgs'"

/-- `rollover`. -/
def rollover : Py SpooledTemporaryFile Unit := do
  let file ← Exn.get
  if file.onDisk then Exn.raise noArguments
  else do
    -- `TemporaryFile(...)`
    disk
    Exn.modify fun new => { new with onDisk := true, data := [], pos := 0 }
    -- `newfile.write(file.getvalue())`
    disk
    Exn.modify fun new => { new with data := file.data, pos := file.data.length }
    -- `newfile.seek(pos, 0)`
    disk
    Exn.modify fun new => { new with pos := file.pos, rolled := true }

/-- `_check`: a `max_size` of zero is no limit. -/
def _check : Py SpooledTemporaryFile Unit := do
  let file ← Exn.get
  if ¬file.rolled ∧ file.maxSize ≠ 0 ∧ file.maxSize < file.pos then rollover else pure ()

def write (chunk : Bytes) : Py SpooledTemporaryFile Nat := do
  _checkOpen
  touch
  Exn.modify fun file =>
    { file with
      data := overwrite file.data file.pos chunk
      pos := file.pos + chunk.length }
  _check
  pure chunk.length

def notAnIndex : PyExc :=
  { cls := .overflowError, text := "cannot fit 'int' into an index-sized integer" }

def tooLarge : PyExc := { cls := .overflowError, text := "byte string is too large" }

def outOfMemory : PyExc := { cls := .otherException "MemoryError", text := "" }

/-- What `read` raises over its argument.  `io.BytesIO` takes every negative size for all and
allocates what there is; a file on disk takes `-1` for all, and allocates what is asked for. -/
def readRefusal (file : SpooledTemporaryFile) (size : Int) : Option PyExc :=
  if ¬Index size then some notAnIndex
  else if ¬file.onDisk then none
  else if size < -1 then some badLength
  else if longestBytes < size then some tooLarge
  else if file.limits.allocatable < size then some outOfMemory
  else none

/-- The next bytes, all of them if the size is negative. -/
def take (size : Int) : Py SpooledTemporaryFile Bytes := do
  touch
  let file ← Exn.get
  let rest := file.data.drop file.pos
  let chunk := if size < 0 then rest else rest.take size.toNat
  Exn.modify fun file => { file with pos := file.pos + chunk.length }
  pure chunk

def read (size : Int) : Py SpooledTemporaryFile Bytes := do
  _checkOpen
  let file ← Exn.get
  match file.readRefusal size with
  | some exc => Exn.raise exc
  | none => take size

/-- `readinto`, for a buffer of `length` bytes. -/
def readinto (length : Nat) : Py SpooledTemporaryFile Bytes := do
  _checkOpen
  take length

def notASize : PyExc :=
  { cls := .overflowError, text := "Python int too large to convert to C ssize_t" }

def notAnOffset : PyExc :=
  { cls := .valueError, text := "cannot fit 'int' into an offset-sized integer" }

def negativeSeek (pos : Int) : PyExc :=
  { cls := .valueError, text := "negative seek value " ++ toString pos }

def newPositionTooLarge : PyExc := { cls := .overflowError, text := "new position too large" }

def invalidArgument : PyExc := { cls := .osError, text := "[Errno 22] Invalid argument" }

/-- Where `seek` is asked to go. -/
def target (file : SpooledTemporaryFile) (pos : Int) : Whence → Int
  | .set => pos
  | .cur => file.pos + pos
  | .fromEnd => file.data.length + pos

/-- What `seek` raises over its arguments.  Before the start, `io.BytesIO` refuses a position
but stops at the start when it is asked for an offset; a file on disk refuses both. -/
def seekRefusal (file : SpooledTemporaryFile) (pos : Int) (whence : Whence) : Option PyExc :=
  let goal := file.target pos whence
  if file.onDisk then
    if ¬Index pos then some notAnOffset
    else if goal < 0 ∨ file.limits.largestFile < goal then some invalidArgument
    else none
  else if ¬Index pos then some notASize
  else if whence = .set ∧ pos < 0 then some (negativeSeek pos)
  else if maxsize < goal then some newPositionTooLarge
  else none

def seek (pos : Int) (whence : Whence) : Py SpooledTemporaryFile Nat := do
  _checkOpen
  let file ← Exn.get
  match file.seekRefusal pos whence with
  | some exc => Exn.raise exc
  | none => do
      touch
      let goal := (file.target pos whence).toNat
      Exn.modify fun file => { file with pos := goal }
      pure goal

def tell : Py SpooledTemporaryFile Nat := do
  _checkOpen
  touch
  let file ← Exn.get
  pure file.pos

/-- `close`: the file is closed even if what is left in its buffer cannot be written. -/
def close : Py SpooledTemporaryFile Unit := do
  let file ← Exn.get
  Exn.modify fun file => { file with closed := true }
  if file.closed then pure () else touch

/-- `SpooledTemporaryFile` as the sink of an entry. -/
def sink : Sink SpooledTemporaryFile where
  write := fun file chunk => match write chunk file with
    | (.ok n, file') => (.returns (.int n), file')
    | (.error exc, file') => (.raises exc, file')

/-- `SpooledTemporaryFile`, as `from_writer` uses it. -/
def spool : SpoolFile SpooledTemporaryFile where
  sink := sink
  rewind := do
    let _ ← seek 0 .set
    pure ()
  close := close

end SpooledTemporaryFile

/-! ## The stream -/

/-- `EntryStream`, with the closed flag of its `io` base class. -/
structure EntryStream where
  backing : SpooledTemporaryFile
  closed : Bool := false
deriving DecidableEq

namespace EntryStream

def onBacking {α : Type} (x : Py SpooledTemporaryFile α) : Py EntryStream α :=
  Exn.zoom EntryStream.backing (fun self backing => { self with backing }) x

def _checkOpen : Py EntryStream Unit := do
  let self ← Exn.get
  if self.closed then Exn.raise closedFile else pure ()

/-- `_took`: nothing to do here. -/
def _took (_n : Nat) (_exhausted : Bool) : Py EntryStream Unit := pure ()

def _readChunk (size : Int) : Py EntryStream Bytes := do
  _checkOpen
  let data ← onBacking (SpooledTemporaryFile.read size)
  _took data.length (decide (size < 0) || data.isEmpty)
  pure data

def read (size : Option Int) : Py EntryStream Bytes := _readChunk (size.getD (-1))

def read1 (size : Int) : Py EntryStream Bytes := _readChunk size

def readinto (length : Nat) : Py EntryStream Bytes := do
  _checkOpen
  let data ← onBacking (SpooledTemporaryFile.readinto length)
  _took data.length data.isEmpty
  pure data

def seek (pos : Int) (whence : Whence) : Py EntryStream Nat := do
  _checkOpen
  onBacking (SpooledTemporaryFile.seek pos whence)

def tell : Py EntryStream Nat := do
  _checkOpen
  onBacking SpooledTemporaryFile.tell

/-- `close`: if the backing file cannot be closed, the stream stays open. -/
def close : Py EntryStream Unit := do
  let self ← Exn.get
  if self.closed then pure () else onBacking SpooledTemporaryFile.close
  Exn.modify fun self => { self with closed := true }

end EntryStream

/-! ## Calls -/

/-- The public surface of a stream. -/
inductive StreamCall
  | reading (q : ReadCall)
  | seek (pos : Int) (whence : Whence)
  | tell
  | readable
  | seekable
  | close
deriving DecidableEq, Repr

inductive StreamAnswer
  | bytes (chunk : Bytes)
  | position (n : Nat)
  | flag (b : Bool)
  | none
deriving DecidableEq, Repr

namespace EntryStream

/-- The three reading methods. -/
def reading : ReadCall → Py EntryStream Bytes
  | .read size => read size
  | .read1 size => read1 size
  | .readinto length => readinto length

def call : StreamCall → Py EntryStream StreamAnswer
  | .reading q => do
      let chunk ← reading q
      pure (.bytes chunk)
  | .seek pos whence => do
      let n ← seek pos whence
      pure (.position n)
  | .tell => do
      let n ← tell
      pure (.position n)
  | .readable => pure (.flag true)
  | .seekable => pure (.flag true)
  | .close => do
      close
      pure .none

/-- A buffered stream in use. -/
def use : Machine EntryStream StreamCall (Except PyExc StreamAnswer) := fun self c => call c self

end EntryStream

/-! ## One call -/

namespace SpooledTemporaryFile

variable {file : SpooledTemporaryFile}

theorem disk_calm (calm : file.faults = []) : disk file = (.ok (), file) := by
  unfold disk
  rw [Exn.get_bind_apply, calm]
  rfl

theorem touch_calm (calm : file.faults = []) : touch file = (.ok (), file) := by
  unfold touch
  rw [Exn.get_bind_apply]
  split_ifs
  · exact disk_calm calm
  · rfl

theorem unclosed (isOpen : file.closed = false) : _checkOpen file = (.ok (), file) := by
  unfold _checkOpen
  rw [Exn.get_bind_apply, isOpen]
  rfl

theorem take_calm (calm : file.faults = []) (size : Int) :
    take size file =
      let chunk := if size < 0 then file.data.drop file.pos
        else (file.data.drop file.pos).take size.toNat
      (.ok chunk, { file with pos := file.pos + chunk.length }) :=
  Exn.bind_of_ok (touch_calm calm) _

/-- What a reading call raises over its argument. -/
def refusal (file : SpooledTemporaryFile) : ReadCall → Option PyExc
  | .read size => file.readRefusal (size.getD (-1))
  | .read1 size => file.readRefusal size
  | .readinto _ => none

/-- `seek` is asked for a position that a file can have. -/
structure Within (file : SpooledTemporaryFile) (offset : Int) (whence : Whence) : Prop where
  index : Index offset
  inside : 0 ≤ file.target offset whence
  held : file.target offset whence ≤ file.limits.largestFile

end SpooledTemporaryFile

namespace EntryStream

/-- A call that is refused moves nothing. -/
def orRefused {α : Type} (pos : Nat) (refused : Option PyExc) (done : α × Nat) :
    Except PyExc α × Nat :=
  match refused with
  | some exc => (.error exc, pos)
  | none => (.ok done.1, done.2)

/-- What `reading` gives over an open file, and the position it leaves. -/
def readOutcome (file : SpooledTemporaryFile) (q : ReadCall) : Except PyExc Bytes × Nat :=
  let chunk := q.chunk (file.data.drop file.pos)
  orRefused file.pos (file.refusal q) (chunk, file.pos + chunk.length)

/-- What `seek` gives over an open file, and the position it leaves. -/
def seekOutcome (file : SpooledTemporaryFile) (offset : Int) (whence : Whence) :
    Except PyExc Nat × Nat :=
  let goal := (file.target offset whence).toNat
  orRefused file.pos (file.seekRefusal offset whence) (goal, goal)

/-- What a call gives over an open file, and the position it leaves. -/
def outcome (file : SpooledTemporaryFile) : StreamCall → Except PyExc StreamAnswer × Nat
  | .reading q => ((readOutcome file q).1.map .bytes, (readOutcome file q).2)
  | .seek offset whence =>
      ((seekOutcome file offset whence).1.map .position, (seekOutcome file offset whence).2)
  | .tell => (.ok (.position file.pos), file.pos)
  | .readable => (.ok (.flag true), file.pos)
  | .seekable => (.ok (.flag true), file.pos)
  | .close => (.ok .none, file.pos)

/-- The stream is open, and so is its backing file, which no disk lets down. -/
structure Open (stream : EntryStream) : Prop where
  unclosed : stream.closed = false
  unclosed' : stream.backing.closed = false
  calm : stream.backing.faults = []

/-- The stream with its backing file at another position. -/
def moveTo (self : EntryStream) (pos : Nat) : EntryStream :=
  { self with backing := { self.backing with pos } }

variable {self : EntryStream}

theorem Open.checked (isOpen : self.Open) : _checkOpen self = (.ok (), self) := by
  unfold _checkOpen
  rw [Exn.get_bind_apply, isOpen.unclosed]
  rfl

/-- A reading method that hands `size` to the backing file. -/
theorem Open.backing_read (isOpen : self.Open) (q : ReadCall)
    (handed : self.backing.refusal q = self.backing.readRefusal q.size) :
    onBacking (SpooledTemporaryFile.read q.size) self =
      ((readOutcome self.backing q).1, self.moveTo (readOutcome self.backing q).2) := by
  have ran : SpooledTemporaryFile.read q.size self.backing =
      ((readOutcome self.backing q).1,
        { self.backing with pos := (readOutcome self.backing q).2 }) := by
    unfold SpooledTemporaryFile.read readOutcome orRefused
    rw [Exn.bind_of_ok (SpooledTemporaryFile.unclosed isOpen.unclosed'), Exn.get_bind_apply, handed]
    rcases self.backing.readRefusal q.size with _ | exc
    · exact SpooledTemporaryFile.take_calm isOpen.calm q.size
    · rfl
  unfold onBacking
  rw [Exn.zoom_apply, ran]
  rfl

theorem Open.backing_readinto (isOpen : self.Open) (length : Nat) :
    onBacking (SpooledTemporaryFile.readinto length) self =
      ((readOutcome self.backing (.readinto length)).1,
        self.moveTo (readOutcome self.backing (.readinto length)).2) := by
  have ran : SpooledTemporaryFile.readinto length self.backing = _ :=
    (Exn.bind_of_ok (SpooledTemporaryFile.unclosed isOpen.unclosed') _).trans
      (SpooledTemporaryFile.take_calm isOpen.calm length)
  unfold onBacking
  rw [Exn.zoom_apply, ran]
  rfl

theorem Open.reading (isOpen : self.Open) (q : ReadCall) :
    EntryStream.reading q self =
      ((readOutcome self.backing q).1, self.moveTo (readOutcome self.backing q).2) := by
  -- `_took` has nothing to do here
  have hooked {x : Py EntryStream Bytes} {result : Except PyExc Bytes × EntryStream}
      (ran : x self = result) (exhausted : Bytes → Bool) :
      (do
        let data ← x
        _took data.length (exhausted data)
        pure data : Py EntryStream Bytes) self = result := by
    refine (Exn.bind_pure_apply x id self).trans ?_
    rw [Except.map_id, ran]
    rfl
  cases q with
  | read size =>
      exact (Exn.bind_of_ok isOpen.checked _).trans
        (hooked (isOpen.backing_read (.read size) rfl) _)
  | read1 size =>
      exact (Exn.bind_of_ok isOpen.checked _).trans
        (hooked (isOpen.backing_read (.read1 size) rfl) _)
  | readinto length =>
      exact (Exn.bind_of_ok isOpen.checked _).trans (hooked (isOpen.backing_readinto length) _)

theorem Open.seek (isOpen : self.Open) (offset : Int) (whence : Whence) :
    EntryStream.seek offset whence self =
      ((seekOutcome self.backing offset whence).1,
        self.moveTo (seekOutcome self.backing offset whence).2) := by
  have ran : SpooledTemporaryFile.seek offset whence self.backing =
      ((seekOutcome self.backing offset whence).1,
        { self.backing with pos := (seekOutcome self.backing offset whence).2 }) := by
    unfold SpooledTemporaryFile.seek seekOutcome orRefused
    rw [Exn.bind_of_ok (SpooledTemporaryFile.unclosed isOpen.unclosed'), Exn.get_bind_apply]
    rcases self.backing.seekRefusal offset whence with _ | exc
    · exact Exn.bind_of_ok (SpooledTemporaryFile.touch_calm isOpen.calm) _
    · rfl
  refine (Exn.bind_of_ok isOpen.checked _).trans ?_
  unfold onBacking
  rw [Exn.zoom_apply, ran]
  rfl

theorem Open.tell (isOpen : self.Open) : EntryStream.tell self = (.ok self.backing.pos, self) := by
  have ran : SpooledTemporaryFile.tell self.backing = (.ok self.backing.pos, self.backing) :=
    (Exn.bind_of_ok (SpooledTemporaryFile.unclosed isOpen.unclosed') _).trans
      (Exn.bind_of_ok (SpooledTemporaryFile.touch_calm isOpen.calm) _)
  refine (Exn.bind_of_ok isOpen.checked _).trans ?_
  unfold onBacking
  rw [Exn.zoom_apply, ran]

/-- One call on an open stream. -/
theorem Open.use (isOpen : self.Open) {c : StreamCall} (kept : c ≠ .close) :
    EntryStream.use self c =
      ((outcome self.backing c).1, self.moveTo (outcome self.backing c).2) := by
  unfold EntryStream.use call outcome
  cases c with
  | reading q => exact (Exn.bind_pure_apply _ _ self).trans (by rw [isOpen.reading])
  | seek offset whence => exact (Exn.bind_pure_apply _ _ self).trans (by rw [isOpen.seek])
  | tell => exact (Exn.bind_pure_apply _ _ self).trans (by rw [isOpen.tell]; rfl)
  | readable => rfl
  | seekable => rfl
  | close => exact absurd rfl kept

theorem Open.use_reading (isOpen : self.Open) (q : ReadCall) :
    EntryStream.use self (.reading q) =
      ((readOutcome self.backing q).1.map .bytes, self.moveTo (readOutcome self.backing q).2) :=
  isOpen.use nofun

theorem Open.use_seek (isOpen : self.Open) (offset : Int) (whence : Whence) :
    EntryStream.use self (.seek offset whence) =
      ((seekOutcome self.backing offset whence).1.map .position,
        self.moveTo (seekOutcome self.backing offset whence).2) :=
  isOpen.use nofun

theorem Open.use_tell (isOpen : self.Open) :
    EntryStream.use self .tell = (.ok (.position self.backing.pos), self) :=
  isOpen.use nofun

/-- The stream closed, its backing file with it. -/
def shut (self : EntryStream) : EntryStream :=
  { backing := { self.backing with closed := true }, closed := true }

theorem Open.use_close (isOpen : self.Open) :
    EntryStream.use self .close = (.ok .none, self.shut) := by
  have ran : SpooledTemporaryFile.close self.backing =
      (.ok (), { self.backing with closed := true }) := by
    unfold SpooledTemporaryFile.close
    rw [Exn.get_bind_apply, Exn.modify_bind_apply, isOpen.unclosed']
    exact SpooledTemporaryFile.touch_calm isOpen.calm
  have closing : onBacking SpooledTemporaryFile.close self =
      (.ok (), { self with backing := { self.backing with closed := true } }) := by
    unfold onBacking
    rw [Exn.zoom_apply, ran]
  unfold EntryStream.use call EntryStream.close
  dsimp only
  rw [Exn.bind_apply, Exn.get_bind_apply, isOpen.unclosed, if_neg Bool.false_ne_true,
    Exn.bind_of_ok closing]
  rfl

/-- A closed stream refuses every access and stays as it is. -/
def closedOutcome : StreamCall → Except PyExc StreamAnswer
  | .reading _ => .error closedFile
  | .seek _ _ => .error closedFile
  | .tell => .error closedFile
  | .readable => .ok (.flag true)
  | .seekable => .ok (.flag true)
  | .close => .ok .none

theorem use_closed (closed : self.closed = true) (c : StreamCall) :
    EntryStream.use self c = (closedOutcome c, self) := by
  obtain ⟨backing, _⟩ := self
  obtain rfl : _ = true := closed
  cases c with
  | reading q => cases q <;> rfl
  | seek | tell | readable | seekable | close => rfl

/-! ## In memory and on disk -/

/-- Both kinds of file answer the call, or neither can take its size. -/
def PlainRead (limits : Limits) : ReadCall → Prop
  | .readinto _ => True
  | q => ¬Index q.size ∨ -1 ≤ q.size ∧ q.size ≤ limits.allocatable

/-- The call means the same to both kinds of file: its length is at least `-1` and can be
allocated, its position is within a file, or the stream is closed. -/
def Plain (self : EntryStream) (c : StreamCall) : Prop :=
  self.closed = true ∨ match c with
    | .reading q => PlainRead self.backing.limits q
    | .seek offset whence => self.backing.Within offset whence
    | _ => True

/-- Two streams of the same contents at the same position, on files of either kind. -/
structure Twins (r r' : Bool) (s t : EntryStream) : Prop where
  closed : s.closed = t.closed
  closes : s.closed = s.backing.closed
  closes' : t.closed = t.backing.closed
  calm : s.backing.faults = []
  calm' : t.backing.faults = []
  limits : s.backing.limits = t.backing.limits
  data : s.backing.data = t.backing.data
  pos : s.backing.pos = t.backing.pos
  onDisk : s.backing.onDisk = r
  onDisk' : t.backing.onDisk = r'

end EntryStream

namespace SpooledTemporaryFile

variable {file file' : SpooledTemporaryFile}

theorem readRefusal_memory (memory : file.onDisk = false) (size : Int) :
    file.readRefusal size = if Index size then none else some notAnIndex := by
  unfold readRefusal
  rw [memory, ite_not]
  exact if_congr Iff.rfl rfl rfl

theorem readRefusal_disk_iff (onDisk : file.onDisk = true) (size : Int) :
    file.readRefusal size = (if Index size then none else some notAnIndex) ↔
      ¬Index size ∨ -1 ≤ size ∧ size ≤ file.limits.allocatable := by
  have allocates := file.limits.allocates
  unfold readRefusal
  rw [onDisk]
  by_cases index : Index size
  · rw [if_neg (not_not_intro index), if_neg (by simp), if_pos index,
      or_iff_right (not_not_intro index)]
    split_ifs with low long far
    · exact iff_of_false nofun fun plain => by omega
    · exact iff_of_false nofun fun plain => by omega
    · exact iff_of_false nofun fun plain => by omega
    · exact iff_of_true rfl ⟨by omega, by omega⟩
  · rw [if_pos index, if_neg index]
    exact iff_of_true rfl (Or.inl index)

/-- The kind of file shows in what a reading call raises, unless the call is plain. -/
theorem readRefusal_eq_iff (limits : file.limits = file'.limits) (size : Int) :
    file.readRefusal size = file'.readRefusal size ↔ file.onDisk = file'.onDisk ∨
      (¬Index size ∨ -1 ≤ size ∧ size ≤ file.limits.allocatable) := by
  rcases left : file.onDisk with _ | _ <;> rcases right : file'.onDisk with _ | _
  · rw [readRefusal_memory left, readRefusal_memory right]
    exact iff_of_true rfl (Or.inl rfl)
  · rw [readRefusal_memory left, or_iff_right Bool.false_ne_true, limits]
    exact eq_comm.trans (readRefusal_disk_iff right size)
  · rw [readRefusal_memory right, or_iff_right (by simp)]
    exact readRefusal_disk_iff left size
  · unfold readRefusal
    rw [left, right, limits]
    exact iff_of_true rfl (Or.inl rfl)

theorem refusal_eq_iff (limits : file.limits = file'.limits) (q : ReadCall) :
    file.refusal q = file'.refusal q ↔
      file.onDisk = file'.onDisk ∨ EntryStream.PlainRead file.limits q := by
  cases q with
  | read size => exact readRefusal_eq_iff limits (size.getD (-1))
  | read1 size => exact readRefusal_eq_iff limits size
  | readinto length => exact iff_of_true rfl (Or.inr True.intro)

theorem target_eq (data : file.data = file'.data) (pos : file.pos = file'.pos) (offset : Int)
    (whence : Whence) : file.target offset whence = file'.target offset whence := by
  unfold target
  rw [data, pos]

/-- A position that both kinds of file take. -/
theorem Within.taken {offset : Int} {whence : Whence} (within : file.Within offset whence) :
    file.seekRefusal offset whence = none := by
  obtain ⟨index, inside, held⟩ := within
  have addresses := file.limits.addresses
  have absolute : ¬(whence = .set ∧ offset < 0) := by
    rintro ⟨rfl, negative⟩
    exact absurd inside (not_le.mpr negative)
  unfold seekRefusal
  dsimp only
  rw [if_neg (not_not_intro index), if_neg (not_not_intro index), if_neg absolute]
  split_ifs <;> first | rfl | omega

/-- A position that they do not both take is refused differently. -/
theorem seekRefusal_differs (memory : file.onDisk = false) (onDisk : file'.onDisk = true)
    {offset : Int} {whence : Whence}
    (same : file.target offset whence = file'.target offset whence)
    (beyond : ¬file'.Within offset whence) :
    file.seekRefusal offset whence ≠ file'.seekRefusal offset whence := by
  unfold seekRefusal
  dsimp only
  rw [memory, onDisk, same, if_neg Bool.false_ne_true, if_pos rfl]
  by_cases index : Index offset
  · have out : file'.target offset whence < 0 ∨
        file'.limits.largestFile < file'.target offset whence := by
      by_contra inside
      exact beyond ⟨index, by omega, by omega⟩
    rw [if_neg (not_not_intro index), if_neg (not_not_intro index), if_pos out]
    split_ifs
    · exact fun equal => by cases congrArg (Option.map PyExc.cls) equal
    · exact fun equal => by cases congrArg (Option.map PyExc.cls) equal
    · exact nofun
  · rw [if_pos index, if_pos index]
    exact fun equal => by cases congrArg (Option.map PyExc.cls) equal

/-- The kind of file shows in what `seek` raises, unless the position is within a file. -/
theorem seekRefusal_eq_iff (data : file.data = file'.data) (pos : file.pos = file'.pos)
    (limits : file.limits = file'.limits) (offset : Int) (whence : Whence) :
    file.seekRefusal offset whence = file'.seekRefusal offset whence ↔
      file.onDisk = file'.onDisk ∨ file.Within offset whence := by
  have same := target_eq data pos offset whence
  have both : file.Within offset whence ↔ file'.Within offset whence := by
    refine ⟨fun within => ?_, fun within => ?_⟩
    · exact ⟨within.index, same ▸ within.inside, same ▸ limits ▸ within.held⟩
    · exact ⟨within.index, same ▸ within.inside, same ▸ limits ▸ within.held⟩
  by_cases kinds : file.onDisk = file'.onDisk
  · unfold seekRefusal
    rw [kinds, same, limits]
    exact iff_of_true rfl (Or.inl rfl)
  rw [or_iff_right kinds]
  by_cases within : file.Within offset whence
  · refine iff_of_true ?_ within
    rw [within.taken, (both.mp within).taken]
  · refine iff_of_false ?_ within
    rcases left : file.onDisk with _ | _ <;> rcases right : file'.onDisk with _ | _
    · exact absurd (left.trans right.symm) kinds
    · exact seekRefusal_differs left right same (mt both.mpr within)
    · exact Ne.symm (seekRefusal_differs right left same.symm within)
    · exact absurd (left.trans right.symm) kinds

end SpooledTemporaryFile

namespace EntryStream

theorem orRefused_eq_iff {α : Type} {pos : Nat} {refused refused' : Option PyExc} {done : α × Nat} :
    ((orRefused pos refused done).1 = (orRefused pos refused' done).1 ↔ refused = refused') ∧
      (refused = refused' → (orRefused pos refused done).2 = (orRefused pos refused' done).2) := by
  refine ⟨?_, fun same => by rw [same]⟩
  unfold orRefused
  cases refused <;> cases refused' <;> simp

theorem map_eq_iff {α β : Type} {a b : Except PyExc α} {f : α → β}
    (injective : Function.Injective f) : a.map f = b.map f ↔ a = b := by
  cases a <;> cases b <;> simp [Except.map, injective.eq_iff]

theorem readOutcome_eq_iff {file file' : SpooledTemporaryFile} (data : file.data = file'.data)
    (pos : file.pos = file'.pos) (limits : file.limits = file'.limits) (q : ReadCall) :
    ((readOutcome file q).1 = (readOutcome file' q).1 ↔
      file.onDisk = file'.onDisk ∨ PlainRead file.limits q) ∧
    (file.onDisk = file'.onDisk ∨ PlainRead file.limits q →
      (readOutcome file q).2 = (readOutcome file' q).2) := by
  unfold readOutcome
  rw [← SpooledTemporaryFile.refusal_eq_iff limits q, data, pos]
  exact orRefused_eq_iff

theorem seekOutcome_eq_iff {file file' : SpooledTemporaryFile} (data : file.data = file'.data)
    (pos : file.pos = file'.pos) (limits : file.limits = file'.limits) (offset : Int)
    (whence : Whence) :
    ((seekOutcome file offset whence).1 = (seekOutcome file' offset whence).1 ↔
      file.onDisk = file'.onDisk ∨ file.Within offset whence) ∧
    (file.onDisk = file'.onDisk ∨ file.Within offset whence →
      (seekOutcome file offset whence).2 = (seekOutcome file' offset whence).2) := by
  rw [← SpooledTemporaryFile.seekRefusal_eq_iff data pos limits offset whence]
  unfold seekOutcome
  rw [SpooledTemporaryFile.target_eq data pos, pos]
  exact orRefused_eq_iff

/-- On an open stream the kind of file shows exactly in the calls that are not plain. -/
theorem outcome_eq_iff {s t : EntryStream} {r r' : Bool} (twins : Twins r r' s t)
    (isOpen : s.closed = false) (c : StreamCall) :
    ((outcome s.backing c).1 = (outcome t.backing c).1 ↔ r = r' ∨ s.Plain c) ∧
    (r = r' ∨ s.Plain c → (outcome s.backing c).2 = (outcome t.backing c).2) := by
  have open' : ¬ s.closed = true := by simp [isOpen]
  obtain rfl := twins.onDisk
  obtain rfl := twins.onDisk'
  unfold Plain outcome
  rw [or_iff_right open']
  cases c with
  | reading q =>
      obtain ⟨same, left⟩ := readOutcome_eq_iff twins.data twins.pos twins.limits q
      refine ⟨?_, left⟩
      rw [← same]
      exact map_eq_iff fun _ _ => StreamAnswer.bytes.inj
  | seek offset whence =>
      obtain ⟨same, left⟩ :=
        seekOutcome_eq_iff twins.data twins.pos twins.limits offset whence
      refine ⟨?_, left⟩
      rw [← same]
      exact map_eq_iff fun _ _ => StreamAnswer.position.inj
  | tell | readable | seekable | close => simp [twins.pos]

theorem Twins.use {s t : EntryStream} {r r' : Bool} (twins : Twins r r' s t) (c : StreamCall) :
    ((EntryStream.use s c).1 = (EntryStream.use t c).1 ↔ r = r' ∨ s.Plain c) ∧
    (r = r' ∨ s.Plain c → Twins r r' (EntryStream.use s c).2 (EntryStream.use t c).2) := by
  by_cases closed : s.closed = true
  · rw [use_closed closed, use_closed (twins.closed ▸ closed)]
    exact ⟨iff_of_true rfl (Or.inr (Or.inl closed)), fun _ => twins⟩
  · have isOpen : s.closed = false := by simpa using closed
    have left : s.Open := ⟨isOpen, twins.closes ▸ isOpen, twins.calm⟩
    have right : t.Open := by
      have unclosed : t.closed = false := twins.closed ▸ isOpen
      exact ⟨unclosed, twins.closes' ▸ unclosed, twins.calm'⟩
    by_cases closing : c = .close
    · subst closing
      rw [left.use_close, right.use_close]
      refine ⟨iff_of_true rfl (Or.inr (Or.inr True.intro)), fun _ => ?_⟩
      exact { twins with closed := rfl, closes := rfl, closes' := rfl }
    · rw [left.use closing, right.use closing]
      obtain ⟨same, moved⟩ := outcome_eq_iff twins isOpen c
      exact ⟨same, fun met => { twins with pos := moved met }⟩

/-- Whether a stream has been rolled over to disk shows in a run exactly when some call of
it is not plain. -/
theorem Twins.run_iff {s t : EntryStream} {r r' : Bool} (twins : Twins r r' s t)
    (calls : List StreamCall) :
    (EntryStream.use.run s calls).1 = (EntryStream.use.run t calls).1 ↔
      EntryStream.use.AllSteps (fun s c => r = r' ∨ s.Plain c) s calls :=
  Machine.run_outputs_iff (fun _ _ c twins => twins.use c) twins calls

end EntryStream

/-! ## A disk that may fail -/

/-- So many bytes are kept on disk, not in memory. -/
def Spills (maxSize n : Nat) : Bool := decide (maxSize ≠ 0 ∧ maxSize < n)

theorem spills_of_le {maxSize m n : Nat} (spills : Spills maxSize m = true) (le : m ≤ n) :
    Spills maxSize n = true := by
  unfold Spills at spills ⊢
  simp only [decide_eq_true_eq] at spills ⊢
  omega

namespace SpooledTemporaryFile

/-- What is raised over a file is one of the failures of the disk that were to come; `E` is
what it takes for the disk to be asked. -/
def Does {α : Type} (E : Prop) (x : Py SpooledTemporaryFile α) (file : SpooledTemporaryFile)
    (Q : α → SpooledTemporaryFile → Prop) : Prop :=
  match x file with
  | (.ok a, file') => file'.faults <:+ file.faults ∧ Q a file'
  | (.error exc, file') => file'.faults <:+ file.faults ∧ some exc ∈ file.faults ∧ E

variable {α β : Type} {E : Prop} {x : Py SpooledTemporaryFile α} {file : SpooledTemporaryFile}
  {Q : α → SpooledTemporaryFile → Prop} {R : β → SpooledTemporaryFile → Prop}

theorem Does.of_ok {a : α} (ran : x file = (.ok a, file)) (post : Q a file) : Does E x file Q := by
  unfold Does
  rw [ran]
  exact ⟨List.suffix_refl _, post⟩

theorem Does.cases (does : Does E x file Q) :
    (∃ a file', x file = (.ok a, file') ∧ file'.faults <:+ file.faults ∧ Q a file') ∨
      ∃ exc file', x file = (.error exc, file') ∧ file'.faults <:+ file.faults ∧
        some exc ∈ file.faults ∧ E := by
  unfold Does at does
  rcases ran : x file with ⟨exc | a, file'⟩ <;> rw [ran] at does
  · exact Or.inr ⟨exc, file', rfl, does⟩
  · exact Or.inl ⟨a, file', rfl, does⟩

theorem Does.bind {f : α → Py SpooledTemporaryFile β} (first : Does E x file Q)
    (rest : ∀ a file', Q a file' → Does E (f a) file' R) : Does E (x >>= f) file R := by
  rcases first.cases with ⟨a, file', ran, kept, post⟩ | ⟨exc, file', ran, fails⟩
  · unfold Does
    rw [Exn.bind_of_ok ran]
    rcases (rest a file' post).cases with
      ⟨b, file'', ran', kept', post'⟩ | ⟨exc, file'', ran', kept', met, spilt⟩
    · rw [ran']
      exact ⟨kept'.trans kept, post'⟩
    · rw [ran']
      exact ⟨kept'.trans kept, kept.subset met, spilt⟩
  · unfold Does
    rw [Exn.bind_of_error ran]
    exact fails

/-- A change that leaves the disk alone. -/
theorem Does.modify {f : SpooledTemporaryFile → SpooledTemporaryFile}
    {rest : Unit → Py SpooledTemporaryFile β} (kept : (f file).faults = file.faults)
    (does : Does E (rest ()) (f file) R) : Does E (Exn.modify f >>= rest) file R := by
  unfold Does at does ⊢
  rw [← kept]
  exact does

theorem Does.after {f : α → Py SpooledTemporaryFile β} {a : α} (ran : x file = (.ok a, file))
    (rest : Does E (f a) file R) : Does E (x >>= f) file R := by
  unfold Does
  rw [Exn.bind_of_ok ran]
  exact rest

theorem Does.get {f : SpooledTemporaryFile → Py SpooledTemporaryFile α}
    (rest : Does E (f file) file Q) : Does E (Exn.get >>= f) file Q := rest

theorem Does.conseq {Q' : α → SpooledTemporaryFile → Prop} (does : Does E x file Q)
    (post : ∀ a file', Q a file' → Q' a file') : Does E x file Q' := by
  unfold Does at does ⊢
  rcases ran : x file with ⟨exc | a, file'⟩ <;> rw [ran] at does
  · exact does
  · exact ⟨does.1, post a file' does.2⟩

theorem disk_does (spilt : E) : Does E disk file fun _ file' =>
    ∃ faults, file' = { file with faults } := by
  unfold Does disk
  rw [Exn.get_bind_apply]
  rcases ahead : file.faults with _ | ⟨_ | exc, faults⟩
  · exact ⟨ahead ▸ List.suffix_refl _, file.faults, rfl⟩
  · exact ⟨List.suffix_cons none faults, faults, rfl⟩
  · exact ⟨List.suffix_cons (some exc) faults, List.mem_cons_self, spilt⟩

theorem touch_does (spilt : file.onDisk = true → E) : Does E touch file fun _ file' =>
    ∃ faults, file' = { file with faults } := by
  refine Does.get ?_
  by_cases onDisk : file.onDisk = true
  · rw [if_pos onDisk]
    exact disk_does (spilt onDisk)
  · rw [if_neg onDisk]
    exact Does.of_ok rfl ⟨file.faults, rfl⟩

theorem rollover_does (memory : file.onDisk = false) (spilt : E) :
    Does E rollover file fun _ file' =>
      ∃ faults, file' = { file with faults, onDisk := true, rolled := true } := by
  refine Does.get ?_
  rw [memory]
  refine (disk_does spilt).bind fun _ _ created => ?_
  obtain ⟨faults₁, rfl⟩ := created
  refine Does.modify rfl ((disk_does spilt).bind fun _ _ copied => ?_)
  obtain ⟨faults₂, rfl⟩ := copied
  refine Does.modify rfl ((disk_does spilt).bind fun _ _ sought => ?_)
  obtain ⟨faults₃, rfl⟩ := sought
  exact ⟨List.suffix_refl _, faults₃, rfl⟩

/-- The file, which was `start`, has been filled with `bytes` and stands at their end. -/
structure Fills (start : SpooledTemporaryFile) (bytes : Bytes) (file : SpooledTemporaryFile) :
    Prop where
  maxSize : file.maxSize = start.maxSize
  limits : file.limits = start.limits
  faults : file.faults <:+ start.faults
  data : file.data = bytes
  pos : file.pos = bytes.length
  onDisk : file.onDisk = Spills start.maxSize bytes.length
  rolled : file.rolled = Spills start.maxSize bytes.length
  isOpen : file.closed = false

variable {start : SpooledTemporaryFile} {data : Bytes}

theorem overwrite_end (data chunk : Bytes) : overwrite data data.length chunk = data ++ chunk := by
  unfold overwrite
  split_ifs with empty
  · rw [empty, List.append_nil]
  · simp

/-- The rollover after a write, if there is now too much for memory. -/
theorem _check_does (kinds : file.rolled = file.onDisk)
    (larger : file.rolled = true → Spills file.maxSize file.pos = true) :
    Does (Spills file.maxSize file.pos = true) _check file fun _ file' => ∃ faults, file' =
      { file with
        faults
        onDisk := Spills file.maxSize file.pos
        rolled := Spills file.maxSize file.pos } := by
  have stays (same : Spills file.maxSize file.pos = file.rolled) : file =
      { file with
        onDisk := Spills file.maxSize file.pos
        rolled := Spills file.maxSize file.pos } := by
    obtain ⟨maxSize, limits, faults, data, pos, onDisk, rolled, closed⟩ := file
    obtain rfl : rolled = onDisk := kinds
    rw [same]
  refine Does.get ?_
  by_cases rolled : file.rolled = true
  · rw [if_neg fun now => now.1 rolled]
    exact Does.of_ok rfl ⟨file.faults, stays ((larger rolled).trans rolled.symm)⟩
  · have memory : file.rolled = false := by simpa using rolled
    by_cases now : file.maxSize ≠ 0 ∧ file.maxSize < file.pos
    · have spills : Spills file.maxSize file.pos = true := decide_eq_true now
      rw [if_pos ⟨rolled, now⟩, spills]
      exact rollover_does (kinds ▸ memory) rfl
    · have fits : Spills file.maxSize file.pos = false := decide_eq_false now
      rw [if_neg fun both => now both.2]
      exact Does.of_ok rfl ⟨file.faults, stays (fits.trans memory.symm)⟩

theorem Fills.write (fills : Fills start data file) (chunk : Bytes) :
    Does (Spills start.maxSize (data ++ chunk).length = true) (write chunk) file
      fun n file' => n = chunk.length ∧ (file'.faults <:+ start.faults →
        Fills start (data ++ chunk) file') := by
  have further : Spills start.maxSize data.length = true →
      Spills start.maxSize (data ++ chunk).length = true := by
    intro spills
    exact spills_of_le spills (by simp)
  refine Does.after (unclosed fills.isOpen) ?_
  refine (touch_does fun onDisk => further (fills.onDisk ▸ onDisk)).bind fun _ _ touched => ?_
  obtain ⟨faults₁, rfl⟩ := touched
  refine Does.modify rfl ?_
  have size : Spills file.maxSize (file.pos + chunk.length) =
      Spills start.maxSize (data ++ chunk).length := by
    rw [fills.maxSize, fills.pos, List.length_append]
  rw [← size] at further ⊢
  refine (_check_does ?_ ?_).bind fun _ _ checked => ?_
  · exact fills.rolled.trans fills.onDisk.symm
  · exact fun rolled => further (fills.rolled ▸ rolled)
  obtain ⟨faults₂, rfl⟩ := checked
  refine Does.of_ok rfl ⟨rfl, fun kept => ?_⟩
  exact
  { maxSize := fills.maxSize
    limits := fills.limits
    faults := kept
    data := by
      change overwrite file.data file.pos chunk = _
      rw [fills.data, fills.pos, overwrite_end]
    pos := by
      change file.pos + chunk.length = _
      rw [fills.pos, List.length_append]
    onDisk := size
    rolled := size
    isOpen := fills.isOpen }

end SpooledTemporaryFile

/-! ## Filling the file -/

namespace SpooledTemporaryFile

variable {start file : SpooledTemporaryFile} {data : Bytes}

/-- The disk failed, and it was needed for `data`. -/
structure Strikes (start : SpooledTemporaryFile) (data : Bytes) (exc : PyExc)
    (file : SpooledTemporaryFile) : Prop where
  faults : file.faults <:+ start.faults
  met : some exc ∈ start.faults
  spills : Spills start.maxSize data.length = true

theorem Strikes.of_le {exc : PyExc} {more : Bytes} (strikes : Strikes start data exc file)
    (le : data.length ≤ more.length) : Strikes start more exc file :=
  { strikes with spills := spills_of_le strikes.spills le }

theorem Fills.struck {α : Type} {x : Py SpooledTemporaryFile α}
    {Q : α → SpooledTemporaryFile → Prop} (fills : Fills start data file)
    (does : Does (Spills start.maxSize data.length = true) x file Q) :
    (∃ a file', x file = (.ok a, file') ∧ file'.faults <:+ start.faults ∧ Q a file') ∨
      ∃ exc file', x file = (.error exc, file') ∧ Strikes start data exc file' := by
  rcases does.cases with ⟨a, file', ran, kept, post⟩ | ⟨exc, file', ran, kept, met, spilt⟩
  · exact Or.inl ⟨a, file', ran, kept.trans fills.faults, post⟩
  · exact Or.inr ⟨exc, file', ran, kept.trans fills.faults, fills.faults.subset met, spilt⟩

theorem Fills.sink (fills : Fills start data file) (chunk : Bytes) :
    (∃ file', SpooledTemporaryFile.sink.write file chunk = (.returns (.int chunk.length), file') ∧
        Fills start (data ++ chunk) file') ∨
      ∃ exc file', SpooledTemporaryFile.sink.write file chunk = (.raises exc, file') ∧
        Strikes start (data ++ chunk) exc file' := by
  unfold SpooledTemporaryFile.sink
  dsimp only
  rcases (fills.write chunk).cases with
    ⟨n, file', ran, kept, rfl, filled⟩ | ⟨exc, file', ran, kept, met, spilt⟩
  · rw [ran]
    exact Or.inl ⟨file', rfl, filled (kept.trans fills.faults)⟩
  · rw [ran]
    exact Or.inr ⟨exc, file', rfl, kept.trans fills.faults, fills.faults.subset met, spilt⟩

theorem Fills.pySink {self : PySink SpooledTemporaryFile} (fills : Fills start data self.obj)
    (chunk : Bytes) :
    (∃ file', PySink.write SpooledTemporaryFile.sink self chunk =
        (.ok chunk.length, { self with obj := file' }) ∧ Fills start (data ++ chunk) file') ∨
      ∃ exc file', PySink.write SpooledTemporaryFile.sink self chunk =
        (.error exc.text, { obj := file', err := some exc }) ∧
        Strikes start (data ++ chunk) exc file' := by
  unfold PySink.write
  rcases fills.sink chunk with ⟨file', wrote, filled⟩ | ⟨exc, file', failed, strikes⟩
  · refine Or.inl ⟨file', ?_, filled⟩
    rw [wrote]
    dsimp only
    rcases PyObj.extractUsize_natCast chunk.length with count | count
    · rw [count]
      simp only [Nat.min_self]
    · rw [count]
  · refine Or.inr ⟨exc, file', ?_, strikes⟩
    rw [failed]

theorem Fills.writeAll {self : PySink SpooledTemporaryFile} (fills : Fills start data self.obj)
    (chunk : Bytes) :
    (∃ file', NewtuaPy.writeAll SpooledTemporaryFile.sink self chunk =
        (.ok (), { self with obj := file' }) ∧ Fills start (data ++ chunk) file') ∨
      ∃ exc file', NewtuaPy.writeAll SpooledTemporaryFile.sink self chunk =
        (.error exc.text, { obj := file', err := some exc }) ∧
        Strikes start (data ++ chunk) exc file' := by
  cases chunk with
  | nil =>
      refine Or.inl ⟨self.obj, ?_, by rwa [List.append_nil]⟩
      rw [NewtuaPy.writeAll]
      rfl
  | cons b chunk =>
      rw [NewtuaPy.writeAll]
      rcases fills.pySink (b :: chunk) with ⟨file', wrote, filled⟩ | ⟨exc, file', failed, strikes⟩
      · refine Or.inl ⟨file', ?_, filled⟩
        rw [wrote]
        simp [NewtuaPy.writeAll]
      · refine Or.inr ⟨exc, file', ?_, strikes⟩
        rw [failed]
        rfl

theorem Fills.writeChunks {self : PySink SpooledTemporaryFile}
    (fills : Fills start data self.obj) (chunks : List Bytes) :
    (∃ file', NewtuaPy.writeChunks SpooledTemporaryFile.sink self chunks =
        (.ok (), { self with obj := file' }) ∧ Fills start (data ++ chunks.flatten) file') ∨
      ∃ exc file', NewtuaPy.writeChunks SpooledTemporaryFile.sink self chunks =
        (.error exc.text, { obj := file', err := some exc }) ∧
        Strikes start (data ++ chunks.flatten) exc file' := by
  induction chunks generalizing data self with
  | nil => exact Or.inl ⟨self.obj, rfl, by simpa using fills⟩
  | cons chunk chunks ih =>
      rw [List.flatten_cons, ← List.append_assoc, NewtuaPy.writeChunks]
      rcases fills.writeAll chunk with ⟨file', wrote, filled⟩ | ⟨exc, file', failed, strikes⟩
      · rw [wrote]
        have filled : Fills start (data ++ chunk)
            ({ self with obj := file' } : PySink SpooledTemporaryFile).obj := filled
        exact ih filled
      · rw [failed]
        exact Or.inr ⟨exc, file', rfl, strikes.of_le (by simp)⟩

/-- Into a spooled file an entry is written whole, and the call ends as decoding does, unless
the disk fails, which surfaces as it was raised. -/
theorem Fills.writeEntryTo (fills : Fills start [] file) (d : Decoded) :
    (∃ file', NewtuaPy.writeEntryTo d SpooledTemporaryFile.sink file =
        (d.status.mapError Fault.toPyExc, file') ∧ Fills start d.chunks.flatten file') ∨
      ∃ exc file', NewtuaPy.writeEntryTo d SpooledTemporaryFile.sink file = (.error exc, file') ∧
        Strikes start d.chunks.flatten exc file' := by
  have fills : Fills start [] ({ obj := file } : PySink SpooledTemporaryFile).obj := fills
  unfold NewtuaPy.writeEntryTo Decoded.into
  rcases fills.writeChunks d.chunks with ⟨file', wrote, filled⟩ | ⟨exc, file', failed, strikes⟩
  · refine Or.inl ⟨file', ?_, filled⟩
    rw [wrote]
    rcases d.status with (_ | _) | _ <;> rfl
  · refine Or.inr ⟨exc, file', ?_, strikes⟩
    rw [failed]
    rfl

/-- The file, which was `start`, stands at the start of `data`. -/
structure Holds (start : SpooledTemporaryFile) (data : Bytes) (file : SpooledTemporaryFile) :
    Prop where
  faults : file.faults <:+ start.faults
  same : file = { start with
    faults := file.faults
    data
    pos := 0
    onDisk := Spills start.maxSize data.length
    rolled := Spills start.maxSize data.length
    closed := false }

theorem Fills.rewind (fills : Fills start data file) :
    Does (Spills start.maxSize data.length = true) spool.rewind file fun _ file' =>
      file'.faults <:+ start.faults → Holds start data file' := by
  have within : file.Within 0 .set :=
    { index := by decide
      inside := Int.le_refl 0
      held := Int.natCast_nonneg _ }
  refine Does.bind (Q := fun _ file' => file'.faults <:+ start.faults → Holds start data file')
    ?_ fun _ _ held => Does.of_ok rfl held
  refine Does.after (unclosed fills.isOpen) (Does.get ?_)
  rw [within.taken]
  refine (touch_does fun onDisk => fills.onDisk ▸ onDisk).bind fun _ _ touched => ?_
  obtain ⟨faults, rfl⟩ := touched
  refine Does.modify rfl (Does.of_ok rfl fun kept => ⟨kept, ?_⟩)
  obtain ⟨maxSize, limits, -, data, -, onDisk, rolled, isOpen⟩ := fills
  obtain ⟨_, _, _, _, _, _, _, _⟩ := file
  dsimp only at maxSize limits data onDisk rolled isOpen
  subst maxSize limits data onDisk rolled isOpen
  rfl

theorem Fills.close (fills : Fills start data file) :
    Does (Spills start.maxSize data.length = true) close file fun _ file' =>
      file'.closed = true := by
  refine Does.get (Does.modify rfl ?_)
  rw [fills.isOpen]
  refine (touch_does fun onDisk => fills.onDisk ▸ onDisk).conseq ?_
  rintro _ _ ⟨faults, rfl⟩
  rfl

end SpooledTemporaryFile

/-! ## Opening -/

namespace SpooledTemporaryFile

variable {σ : Type} {start file : SpooledTemporaryFile} {data : Bytes}
  {p : σ × SpooledTemporaryFile} {s : σ} {exc : PyExc} {writeInto : Py (σ × SpooledTemporaryFile) Unit}

/-- Closing in the wake of `exc`: the disk may have the last word. -/
theorem closing_cases (file : SpooledTemporaryFile) (exc : PyExc) (s : σ) :
    ∃ last file', (do
        onFile spool.close
        Exn.raise exc : Py (σ × SpooledTemporaryFile) Unit) (s, file) = (.error last, s, file') ∧
      file'.closed = true ∧ (last = exc ∨ some last ∈ file.faults ∧ file.onDisk = true) := by
  have closes : Does (file.onDisk = true) close file fun _ file' => file'.closed = true := by
    refine Does.get (Does.modify rfl ?_)
    split_ifs
    · exact Does.of_ok rfl rfl
    · refine (touch_does id).conseq ?_
      rintro _ _ ⟨faults, rfl⟩
      rfl
  have shut : (close file).2.closed = true := by
    unfold close touch disk
    rw [Exn.get_bind_apply, Exn.modify_bind_apply]
    split_ifs
    · rfl
    rw [Exn.get_bind_apply]
    split_ifs
    · rw [Exn.get_bind_apply]
      rcases ahead : file.faults with _ | ⟨_ | fault, faults⟩ <;> simp
    · rfl
  rcases closes.cases with ⟨_, file', ran, -, closed⟩ | ⟨fault, file', ran, -, met, onDisk⟩
  · exact ⟨exc, file', SpoolFile.closing_run ran s, closed, Or.inl rfl⟩
  · rw [ran] at shut
    exact ⟨fault, file', SpoolFile.closing_fails ran s, shut, Or.inr ⟨met, onDisk⟩⟩

theorem fill_unwritten (raised : writeInto p = (.error exc, s, file)) :
    ∃ last file', spool.fill writeInto p = (.error last, s, file') ∧ file'.closed = true ∧
      (last = exc ∨ some last ∈ file.faults ∧ file.onDisk = true) := by
  rw [SpoolFile.fill_unwritten raised]
  exact closing_cases file exc s

theorem Fills.fill (fills : Fills start data file) (wrote : writeInto p = (.ok (), s, file)) :
    (∃ file', spool.fill writeInto p = (.ok (), s, file') ∧ Holds start data file') ∨
      ∃ last file', spool.fill writeInto p = (.error last, s, file') ∧ file'.closed = true ∧
        some last ∈ start.faults ∧ Spills start.maxSize data.length = true := by
  rcases fills.struck fills.rewind with
    ⟨_, file', rewound, kept, held⟩ | ⟨fault, file', failed, strikes⟩
  · exact Or.inl ⟨file', SpoolFile.fill_ok wrote rewound, held kept⟩
  · obtain ⟨last, file'', ran, closed, which⟩ := closing_cases file' fault s
    refine Or.inr ⟨last, file'', (SpoolFile.fill_stuck wrote failed).trans ran, closed, ?_,
      strikes.spills⟩
    rcases which with rfl | ⟨met, -⟩
    · exact strikes.met
    · exact strikes.faults.subset met

end SpooledTemporaryFile

namespace EntryStream

/-- The stream of `data`, at its start, over a disk that does not fail. -/
def atStart (maxSize : Nat) (limits : Limits) (data : Bytes) : EntryStream where
  backing :=
    { maxSize
      limits
      data
      onDisk := Spills maxSize data.length
      rolled := Spills maxSize data.length }

end EntryStream

namespace Archive

open SpooledTemporaryFile (Fills Holds spool)

/-- `open(ref)`, with the stream it returns. -/
def openSpooled (eng : Engine) (ref : Ref) : Py (Session × SpooledTemporaryFile) EntryStream := do
  openInto eng spool ref
  let p ← Exn.get
  pure { backing := p.2 }

/-- How `open` ends over the file `start`, by how decoding the entry ends: with a stream of
all of it; with the failure of the decoding; or with a failure of the disk, if there is too
much for memory. -/
inductive SpoolsTo (start : SpooledTemporaryFile) :
    Except PyExc Bytes → Except PyExc EntryStream → Prop
  | opened {data : Bytes} {file : SpooledTemporaryFile} (held : Holds start data file) :
      SpoolsTo start (.ok data) (.ok { backing := file })
  | failed {exc : PyExc} : SpoolsTo start (.error exc) (.error exc)
  | struck {contents : Except PyExc Bytes} {fault exc : PyExc} (met : some fault ∈ start.faults)
      (surfaces : exc = fault ∨ exc = fault.raised)
      (spills : ∀ data, contents = .ok data → Spills start.maxSize data.length = true) :
      SpoolsTo start contents (.error exc)

/-- The file is as it was made, or has been closed. -/
def Dropped (start file : SpooledTemporaryFile) : Prop := file = start ∨ file.closed = true

theorem typed_run {σ α : Type} {x : Py σ α} {s t : σ} {result : Except PyExc α}
    (ran : x s = (result, t)) : typed x s = (result.mapError PyExc.raised, t) := by
  rw [typed_apply, ran]

/-- The decoding of an entry, from its position on. -/
theorem fill_exact (reader : RustArchive) (index : Int) (s : Session)
    {start : SpooledTemporaryFile} (fresh : Fills start [] start) :
    let spooling := spool.fill (writeInto reader spool.sink index) (s, start)
    let decoding := typed (onWorld (reader.writeEntryTo index spooled [])) s
    spooling.2.1 = decoding.2 ∧
      SpoolsTo start decoding.1
        (spooling.1.map fun _ => ({ backing := spooling.2.2 } : EntryStream)) ∧
      (∀ exc, spooling.1 = .error exc → Dropped start spooling.2.2) := by
  intro spooling decoding
  have writing : writeInto reader spool.sink index (s, start) = _ :=
    typed_run (reader.writeTo_run index spool.sink s start)
  have decodes : decoding = _ := typed_run (onWorld_run (reader.writeEntryTo_asks index s.world))
  rcases argument : usizeArg index with exc | i
  · rw [argument] at writing decodes
    obtain ⟨last, file', ran, closed, which⟩ := SpooledTemporaryFile.fill_unwritten writing
    have spools : spooling = _ := ran
    rw [spools, decodes]
    refine ⟨rfl, ?_, fun _ _ => Or.inr closed⟩
    rcases which with rfl | ⟨-, onDisk⟩
    · exact .failed
    · have memory : start.onDisk = false := by
        rw [fresh.onDisk]
        simp [Spills]
      exact absurd (memory.symm.trans onDisk) Bool.false_ne_true
  · rw [argument] at writing decodes
    dsimp only at writing decodes
    generalize decoded : reader.reader.readEntry (s.world.files reader.path) i = d
      at writing decodes
    rcases fresh.writeEntryTo d with ⟨file, wrote, filled⟩ | ⟨fault, file, failed, strikes⟩
    · have wrote : NewtuaPy.writeEntryTo d spool.sink start = _ := wrote
      rw [wrote] at writing
      unfold Decoded.bytes at decodes
      rcases status : d.status with error | _
      · -- decoding fails, and the disk may fail once more
        rw [status] at writing decodes
        obtain ⟨last, file', ran, closed, which⟩ := SpooledTemporaryFile.fill_unwritten writing
        have spools : spooling = _ := ran
        rw [spools, decodes]
        refine ⟨rfl, ?_, fun _ _ => Or.inr closed⟩
        rcases which with rfl | ⟨met, -⟩
        · exact .failed
        · exact .struck (filled.faults.subset met) (Or.inl rfl) nofun
      · rw [status] at writing decodes
        rcases filled.fill writing with ⟨file', ran, held⟩ | ⟨last, file', ran, closed, met, spilt⟩
        · have spools : spooling = _ := ran
          rw [spools, decodes]
          exact ⟨rfl, .opened held, nofun⟩
        · have spools : spooling = _ := ran
          rw [spools, decodes]
          refine ⟨rfl, .struck met (Or.inl rfl) ?_, fun _ _ => Or.inr closed⟩
          rintro _ ⟨⟩
          exact spilt
    · have failed : NewtuaPy.writeEntryTo d spool.sink start = _ := failed
      rw [failed] at writing
      obtain ⟨last, file', ran, closed, which⟩ := SpooledTemporaryFile.fill_unwritten writing
      have spools : spooling = _ := ran
      rw [spools, decodes]
      refine ⟨rfl, ?_, fun _ _ => Or.inr closed⟩
      have spilt : ∀ data, d.bytes.mapError PyExc.raised = .ok data →
          Spills start.maxSize data.length = true := by
        intro data whole
        obtain ⟨-, same⟩ := (Decoded.bytes_raised data).mp whole
        exact same ▸ strikes.spills
      rcases which with rfl | ⟨met, -⟩
      · exact .struck strikes.met (Or.inr rfl) spilt
      · exact .struck (strikes.faults.subset met) (Or.inl rfl) spilt

/-- `open(ref)` goes through the archive as decoding the entry does.  It gives a stream of the
whole of it, at its start, or fails as decoding does, or a failure of the disk comes out; if
it fails, no file is left open. -/
theorem openSpooled_exact (eng : Engine) (ref : Ref) (s : Session) (maxSize : Nat)
    (limits : Limits) (faults : List (Option PyExc)) :
    let start : SpooledTemporaryFile := { maxSize, limits, faults }
    let spooling := openSpooled eng ref (s, start)
    let decoding := openBuffered eng ref s
    spooling.2.1 = decoding.2 ∧ SpoolsTo start decoding.1 spooling.1 ∧
      (∀ exc, spooling.1 = .error exc → Dropped start spooling.2.2) := by
  intro start spooling decoding
  have fresh : Fills start [] start :=
    { maxSize := rfl
      limits := rfl
      faults := List.suffix_refl _
      data := rfl
      pos := rfl
      onDisk := by simp [Spills, start]
      rolled := by simp [Spills, start]
      isOpen := rfl }
  have put : spooling = ((openInto eng spool ref (s, start)).1.map fun _ =>
      { backing := (openInto eng spool ref (s, start)).2.2 },
      (openInto eng spool ref (s, start)).2) := by
    unfold spooling openSpooled
    rw [Exn.bind_apply]
    rcases openInto eng spool ref (s, start) with ⟨exc | _, _⟩ <;> rfl
  rcases opening : _open eng s with ⟨exc | reader, s₁⟩
  · have right : decoding = _ := Exn.bind_of_error opening _
    rw [put, openInto_unopened opening, right]
    exact ⟨rfl, .failed, fun _ _ => Or.inl rfl⟩
  rcases resolving : _indexOf eng ref s₁ with ⟨exc | index, s₂⟩
  · have right : decoding = _ :=
      (Exn.bind_of_ok opening _).trans (Exn.bind_of_error resolving _)
    rw [put, openInto_unresolved opening resolving, right]
    exact ⟨rfl, .failed, fun _ _ => Or.inl rfl⟩
  · have right : decoding = _ := (Exn.bind_of_ok opening _).trans (Exn.bind_of_ok resolving _)
    rw [put, openInto_run opening resolving, right]
    obtain ⟨same, spools, dropped⟩ := fill_exact reader index s₂ fresh
    refine ⟨same, spools, fun exc failed => ?_⟩
    rcases filled : (spool.fill (writeInto reader spool.sink index) (s₂, start)).1 with exc' | _
    · exact dropped exc' filled
    · rw [filled] at failed
      cases failed

/-- Where the disk does not fail, an entry that decodes opens. -/
theorem openSpooled_ok {eng : Engine} {ref : Ref} {s : Session} (maxSize : Nat) (limits : Limits)
    {data : Bytes} (decoded : (openBuffered eng ref s).1 = .ok data) :
    (openSpooled eng ref (s, { maxSize, limits })).1 = .ok (.atStart maxSize limits data) := by
  have spools := (openSpooled_exact eng ref s maxSize limits []).2.1
  rw [decoded] at spools
  generalize (openSpooled eng ref (s, { maxSize, limits })).1 = result at spools
  cases spools with
  | opened held =>
      rw [held.same, List.suffix_nil.mp held.faults]
      rfl
  | struck met => cases met

theorem atStart_twins (maxSize maxSize' : Nat) (limits : Limits) (data : Bytes) :
    EntryStream.Twins (Spills maxSize data.length) (Spills maxSize' data.length)
      (.atStart maxSize limits data) (.atStart maxSize' limits data) where
  closed := rfl
  closes := rfl
  closes' := rfl
  calm := rfl
  calm' := rfl
  limits := rfl
  data := rfl
  pos := rfl
  onDisk := rfl
  onDisk' := rfl

/-- Two buffered streams of one entry that differ in `max_in_memory` only, over a disk that
does not fail: in every sequence of calls they answer alike exactly when both are in memory,
or both on disk, or every call is one that means the same to both kinds of file. -/
theorem rollover_unseen_iff (eng : Engine) (ref : Ref) (s : Session) (maxSize maxSize' : Nat)
    (limits : Limits) {data : Bytes} (decoded : (openBuffered eng ref s).1 = .ok data)
    (calls : List StreamCall) :
    ∃ stream stream' : EntryStream,
      (openSpooled eng ref (s, { maxSize, limits })).1 = .ok stream ∧
      (openSpooled eng ref (s, { maxSize := maxSize', limits })).1 = .ok stream' ∧
      ((EntryStream.use.run stream calls).1 = (EntryStream.use.run stream' calls).1 ↔
        Spills maxSize data.length = Spills maxSize' data.length ∨
          EntryStream.use.AllSteps EntryStream.Plain stream calls) := by
  refine ⟨_, _, openSpooled_ok maxSize limits decoded, openSpooled_ok maxSize' limits decoded, ?_⟩
  rw [(atStart_twins maxSize maxSize' limits data).run_iff calls]
  by_cases same : Spills maxSize data.length = Spills maxSize' data.length
  · refine iff_of_true ?_ (Or.inl same)
    exact Machine.allSteps_of_mem (I := fun _ => True) (P := fun _ => True)
      (fun _ _ _ _ => ⟨Or.inl same, True.intro⟩) True.intro calls fun _ _ => True.intro
  · rw [or_iff_right same]
    exact Machine.allSteps_iff (I := fun _ => True) (fun _ _ _ => True.intro)
      (fun _ _ _ => or_iff_right same) True.intro calls

/-- Eight bytes, kept in memory and, from the fifth on, on disk. -/
theorem rollover_unseen_iff_intact :
    let s := init (fun _ => none) (.bytes [80]) none none
    let calls : List StreamCall :=
      [.reading (.read (some 3)), .seek (-2) .fromEnd, .tell, .reading (.readinto 4), .close, .tell]
    ∃ stream stream' : EntryStream,
      (openSpooled oneIntact (.int 0) (s, { maxSize := 0 })).1 = .ok stream ∧
      (openSpooled oneIntact (.int 0) (s, { maxSize := 4 })).1 = .ok stream' ∧
      ((EntryStream.use.run stream calls).1 = (EntryStream.use.run stream' calls).1 ↔
        Spills 0 8 = Spills 4 8 ∨ EntryStream.use.AllSteps EntryStream.Plain stream calls) := by
  intro s calls
  have readable : (Source.bytes [80]).Readable := True.intro
  have sees := init_sees oneIntact (fun _ => none) readable none none
  have found : Finds (View.over oneIntact (fun _ => none) (.bytes [80]) none none) (.int 0) _ 0 _ :=
    { opens := rfl, index := rfl, entry := rfl }
  have decoded : (openBuffered oneIntact (.int 0) s).1 = .ok [1, 2, 3, 4, 5, 6, 7, 8] :=
    (sees.openBuffered_outcome found).trans rfl
  exact rollover_unseen_iff oneIntact (.int 0) s 0 4 {} decoded calls

end Archive

end NewtuaPy
