import NewtuaPy.Entry
import NewtuaPy.Lib.Exn

/-!
# Pipe streams

`_PipeStream` of `_stream.py`, read through the buffered reader that
`os.fdopen` puts over the pipe.  That reader returns exactly the number of
bytes asked for until the data ends, then fewer, then none, so the pipe enters
the model as the bytes the worker delivers before it closes its end.
-/

namespace NewtuaPy

/-- A computation of the Python layer over the state `σ`. -/
abbrev Py (σ α : Type) := Exn PyExc σ α

/-- `_PipeStream`.  `data` is everything the worker delivers and `pos` how much
of it the buffered reader has handed out; `onClose` names the temp file whose
`release` is the callback. -/
structure PipeStream where
  data : Bytes
  pos : Nat := 0
  expectedSize : Option Int
  readTotal : Nat := 0
  closed : Bool := false
  onClose : Option Nat := none
deriving DecidableEq

namespace PipeStream

def closedFile : PyExc := { cls := .valueError, text := "I/O operation on closed file" }

/-- The error of `_took`. -/
def truncated (readTotal : Nat) (expected : Int) : PyExc where
  cls := .corruptArchiveError
  text := "поток оборвался на " ++ toString readTotal ++ " из " ++ toString expected ++
    " ожидаемых байт: распаковка записи не завершилась"

def _checkOpen : Py PipeStream Unit := do
  let self ← Exn.get
  if self.closed then Exn.raise closedFile else pure ()

/-- `self._backing.read(size)`: `-1` asks for all that is left. -/
def backingRead (size : Int) : Py PipeStream Bytes := do
  let self ← Exn.get
  if size < -1 then
    Exn.raise { cls := .valueError, text := "read length must be non-negative or -1" }
  else
    let rest := self.data.drop self.pos
    let chunk := if size = -1 then rest else rest.take size.toNat
    Exn.modify fun s => { s with pos := s.pos + chunk.length }
    pure chunk

/-- `self._backing.readinto(buffer)` for a buffer of `length` bytes. -/
def backingReadinto (length : Nat) : Py PipeStream Bytes := backingRead length

def _took (n : Nat) (exhausted : Bool) : Py PipeStream Unit := do
  Exn.modify fun s => { s with readTotal := s.readTotal + n }
  let self ← Exn.get
  if !exhausted then pure ()
  else match self.expectedSize with
    | none => pure ()
    | some expected =>
        if 0 < expected ∧ self.readTotal < expected then
          Exn.raise (truncated self.readTotal expected)
        else pure ()

def _readChunk (size : Int) : Py PipeStream Bytes := do
  _checkOpen
  let data ← backingRead size
  -- A negative size reads until EOF in one call, whether or not it returned bytes.
  _took data.length (decide (size < 0) || data.isEmpty)
  pure data

def read (size : Option Int) : Py PipeStream Bytes := _readChunk (size.getD (-1))

def read1 (size : Int) : Py PipeStream Bytes := _readChunk size

/-- `readinto`; the bytes put into the buffer stand for their count. -/
def readinto (length : Nat) : Py PipeStream Bytes := do
  _checkOpen
  let data ← backingReadinto length
  _took data.length data.isEmpty
  pure data

/-- The expected size is known, and is more than `total`. -/
def Short : Option Int → Nat → Prop
  | none, _ => False
  | some expected, total => (total : Int) < expected

instance (expected : Option Int) (total : Nat) : Decidable (Short expected total) := by
  cases expected with
  | none => exact inferInstanceAs (Decidable False)
  | some expected => exact inferInstanceAs (Decidable ((total : Int) < expected))

/-- The tally after a read, and the check it makes. -/
theorem _took_run (s : PipeStream) (n : Nat) (exhausted : Bool) :
    _took n exhausted s =
      (if exhausted = true ∧ Short s.expectedSize (s.readTotal + n) then
          .error (truncated (s.readTotal + n) (s.expectedSize.getD 0))
        else .ok (),
       { s with readTotal := s.readTotal + n }) := by
  unfold _took Short
  rw [Exn.modify_bind_apply, Exn.get_bind_apply]
  dsimp only
  cases exhausted with
  | false => simp
  | true =>
      rcases s.expectedSize with _ | expected
      · simp
      · by_cases short : ((s.readTotal + n : Nat) : Int) < expected
        · have positive : 0 < expected := by omega
          simp only [Bool.not_true, Bool.false_eq_true, if_false, short, positive, and_self,
            if_true, Option.getD_some]
          rfl
        · simp only [Bool.not_true, Bool.false_eq_true, if_false, short, and_false]
          rfl

end PipeStream

end NewtuaPy
