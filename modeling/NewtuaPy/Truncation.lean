import NewtuaPy.Stream
import NewtuaPy.Lib.Lts

/-!
# The truncation check of a pipe stream

`_took` compares the bytes read so far with the expected size whenever a read is
taken for the end of the data.  Over calls of `read`, `read1` and `readinto` in
any order: with sizes other than zero the check is exact, and a consumer that
reads to the end is never left with too little.  A call for zero bytes, whose
result is empty wherever it is made, is the one that is mistaken.
-/

namespace NewtuaPy

namespace PipeStream

/-! ## Calls -/

/-- What the buffered reader makes of a size below `-1`: by its documentation
the same as of `-1`; CPython's refuses it. -/
inductive Below
  | all
  | refused
deriving DecidableEq, Repr

/-- `self._backing.read(size)`, over either reader. -/
def backingReadOver (below : Below) (size : Int) : Py PipeStream Bytes :=
  match below with
  | .all => backingRead (max size (-1))
  | .refused => backingRead size

def _readChunkOver (below : Below) (size : Int) : Py PipeStream Bytes := do
  _checkOpen
  let data ← backingReadOver below size
  _took data.length (decide (size < 0) || data.isEmpty)
  pure data

example : _readChunkOver .refused = _readChunk := rfl

/-- A call of one of the three reading methods. -/
inductive ReadCall
  | read (size : Option Int)
  | read1 (size : Int)
  | readinto (length : Nat)
deriving DecidableEq, Repr

namespace ReadCall

def run (below : Below) : ReadCall → Py PipeStream Bytes
  | .read size => _readChunkOver below (size.getD (-1))
  | .read1 size => _readChunkOver below size
  | .readinto length => PipeStream.readinto length

/-- The size handed to the backing reader. -/
def size : ReadCall → Int
  | .read size => size.getD (-1)
  | .read1 size => size
  | .readinto length => length

/-- The backing reader will not take the size. -/
def Refused (below : Below) (q : ReadCall) : Prop := below = .refused ∧ q.size < -1

instance (below : Below) (q : ReadCall) : Decidable (q.Refused below) :=
  inferInstanceAs (Decidable (_ ∧ _))

/-- The bytes a call takes out of `rest`. -/
def chunk (q : ReadCall) (rest : Bytes) : Bytes :=
  if q.size < 0 then rest else rest.take q.size.toNat

/-- The call asks for everything, or there is nothing left: it reaches the end of
the data, if it asks for anything. -/
def AtEnd (below : Below) (q : ReadCall) (left : Nat) : Prop :=
  ¬ q.Refused below ∧ (q.size < 0 ∨ left = 0)

end ReadCall

/-- An open stream of which `taken` bytes have been read. -/
def opened (data : Bytes) (expectedSize : Option Int) (onClose : Option Nat) (taken : Nat) :
    PipeStream :=
  { data, pos := taken, expectedSize, readTotal := taken, onClose }

/-! ## One call -/

variable {data : Bytes} {expectedSize : Option Int} {onClose : Option Nat} {taken : Nat}
  {below : Below}

theorem backingRead_opened {size : Int} (proper : -1 ≤ size) :
    backingRead size (opened data expectedSize onClose taken) =
      let chunk := if size < 0 then data.drop taken else (data.drop taken).take size.toNat
      (.ok chunk, { opened data expectedSize onClose taken with pos := taken + chunk.length }) := by
  unfold backingRead
  rw [Exn.get_bind_apply, if_neg (by omega)]
  by_cases all : size = -1
  · subst all
    rfl
  · rw [if_neg (show ¬ size < 0 by omega)]
    simp only [all, if_false]
    rfl

theorem backingReadOver_opened {q : ReadCall} (taken' : ¬ q.Refused below) :
    backingReadOver below q.size (opened data expectedSize onClose taken) =
      (.ok (q.chunk (data.drop taken)),
        { opened data expectedSize onClose taken with
          pos := taken + (q.chunk (data.drop taken)).length }) := by
  unfold ReadCall.chunk
  cases below with
  | all =>
      have size : max q.size (-1) < 0 ↔ q.size < 0 := by omega
      refine (backingRead_opened (by omega)).trans ?_
      by_cases negative : q.size < 0
      · simp only [size, negative, if_true]
      · rw [max_eq_left (by omega)]
  | refused =>
      have proper : -1 ≤ q.size := by
        unfold ReadCall.Refused at taken'
        simp only [true_and] at taken'
        omega
      exact backingRead_opened proper

/-- What `BufferedReader.read` raises for a size it will not take. -/
def badLength : PyExc :=
  { cls := .valueError, text := "read length must be non-negative or -1" }

/-- Whether a call that is not refused passes for the end of the data. -/
def ReadCall.Exhausts (q : ReadCall) (rest : Bytes) : Prop := q.size < 0 ∨ q.chunk rest = []

instance (q : ReadCall) (rest : Bytes) : Decidable (q.Exhausts rest) :=
  inferInstanceAs (Decidable (_ ∨ _))

/-- What a call that is not refused gives after `taken` bytes. -/
def ReadCall.result (q : ReadCall) (data : Bytes) (expectedSize : Option Int) (taken : Nat) :
    Except PyExc Bytes :=
  let chunk := q.chunk (data.drop taken)
  if q.Exhausts (data.drop taken) ∧ Short expectedSize (taken + chunk.length) then
    .error (truncated (taken + chunk.length) (expectedSize.getD 0))
  else .ok chunk

/-- What follows the backing read: the tally, then the chunk. -/
theorem taking_opened (q : ReadCall) {exhausted : Bool}
    (meets : exhausted = true ↔ q.Exhausts (data.drop taken)) :
    (do
      _took (q.chunk (data.drop taken)).length exhausted
      pure (q.chunk (data.drop taken)) : Py PipeStream Bytes)
        { opened data expectedSize onClose taken with
          pos := taken + (q.chunk (data.drop taken)).length } =
      (q.result data expectedSize taken,
        opened data expectedSize onClose (taken + (q.chunk (data.drop taken)).length)) := by
  have took := _took_run
    { opened data expectedSize onClose taken with
      pos := taken + (q.chunk (data.drop taken)).length }
    (q.chunk (data.drop taken)).length exhausted
  by_cases short : q.Exhausts (data.drop taken) ∧
      Short expectedSize (taken + (q.chunk (data.drop taken)).length)
  · have result : q.result data expectedSize taken = .error
        (truncated (taken + (q.chunk (data.drop taken)).length) (expectedSize.getD 0)) :=
      if_pos short
    rw [result]
    exact Exn.bind_of_error
      (took.trans (congrArg (·, _) (if_pos ⟨meets.mpr short.1, short.2⟩))) _
  · have result : q.result data expectedSize taken = .ok (q.chunk (data.drop taken)) :=
      if_neg short
    rw [result]
    refine Exn.bind_of_ok (took.trans (congrArg (·, _) (if_neg ?_))) _
    intro seen
    exact short ⟨meets.mp seen.1, seen.2⟩

variable (data expectedSize onClose below) in
/-- One call on an open stream. -/
theorem ReadCall.run_opened (q : ReadCall) (taken : Nat) :
    q.run below (opened data expectedSize onClose taken) =
      if q.Refused below then (.error badLength, opened data expectedSize onClose taken)
      else (q.result data expectedSize taken,
        opened data expectedSize onClose (taken + (q.chunk (data.drop taken)).length)) := by
  have unclosed : _checkOpen (opened data expectedSize onClose taken) =
      (.ok (), opened data expectedSize onClose taken) := rfl
  have chunked (q : ReadCall) :
      _readChunkOver below q.size (opened data expectedSize onClose taken) =
      if q.Refused below then (.error badLength, opened data expectedSize onClose taken)
      else (q.result data expectedSize taken,
        opened data expectedSize onClose (taken + (q.chunk (data.drop taken)).length)) := by
    unfold _readChunkOver
    rw [Exn.bind_of_ok unclosed]
    by_cases refused : q.Refused below
    · have raised : backingReadOver below q.size (opened data expectedSize onClose taken) =
          (.error badLength, opened data expectedSize onClose taken) := by
        rw [refused.1]
        unfold backingReadOver backingRead
        dsimp only
        rw [Exn.get_bind_apply, if_pos refused.2]
        rfl
      rw [if_pos refused, Exn.bind_of_error raised]
    · rw [if_neg refused, Exn.bind_of_ok (backingReadOver_opened refused)]
      refine taking_opened q ?_
      rw [Bool.or_eq_true, decide_eq_true_iff, List.isEmpty_iff]
      exact Iff.rfl
  cases q with
  | read size => exact chunked (.read size)
  | read1 size => exact chunked (.read1 size)
  | readinto length =>
      have whole : ¬ (ReadCall.readinto length).Refused below := by
        intro refused
        have low : (length : Int) < -1 := refused.2
        omega
      have full : backingReadinto length (opened data expectedSize onClose taken) =
          (.ok ((ReadCall.readinto length).chunk (data.drop taken)),
            { opened data expectedSize onClose taken with
              pos := taken + ((ReadCall.readinto length).chunk (data.drop taken)).length }) :=
        backingRead_opened (by omega)
      rw [if_neg whole]
      refine (Exn.bind_of_ok unclosed _).trans ((Exn.bind_of_ok full _).trans ?_)
      refine taking_opened (.readinto length) ?_
      rw [List.isEmpty_iff]
      have sized : ¬ (ReadCall.readinto length).size < 0 := by
        change ¬ (length : Int) < 0
        omega
      exact (or_iff_right sized).symm

/-! ## Sequences of calls -/

/-- A stream in use, with the bytes it has handed out so far. -/
structure Reading where
  stream : PipeStream
  taken : Bytes

/-- Calls in sequence.  The bytes of a call that raised are those the buffered
reader gave up during it. -/
def reads (below : Below) : Machine Reading ReadCall (Except PyExc Bytes) := fun r q =>
  let (result, after) := q.run below r.stream
  let bytes := match result with
    | .ok bytes => bytes
    | .error _ => (r.stream.data.drop r.stream.pos).take (after.pos - r.stream.pos)
  (result, { stream := after, taken := r.taken ++ bytes })

/-- `n` bytes into the data. -/
def Reading.at (data : Bytes) (expectedSize : Option Int) (onClose : Option Nat) (n : Nat) :
    Reading :=
  { stream := opened data expectedSize onClose n, taken := data.take n }

theorem ReadCall.chunk_eq (q : ReadCall) (rest : Bytes) :
    q.chunk rest = rest.take (q.chunk rest).length := by
  unfold ReadCall.chunk
  by_cases negative : q.size < 0
  · simp only [negative, if_true, List.take_length]
  · simp only [negative, if_false, List.length_take, List.take_eq_take_iff]
    omega

/-- The data read grows by the chunk. -/
theorem take_chunk (q : ReadCall) (data : Bytes) (n : Nat) :
    data.take n ++ q.chunk (data.drop n) = data.take (n + (q.chunk (data.drop n)).length) := by
  rw [List.take_add, ← q.chunk_eq]

variable (data expectedSize onClose below) in
/-- One call of a sequence. -/
theorem reads_at (q : ReadCall) (n : Nat) :
    reads below (.at data expectedSize onClose n) q =
      if q.Refused below then (.error badLength, .at data expectedSize onClose n)
      else (q.result data expectedSize n,
        .at data expectedSize onClose (n + (q.chunk (data.drop n)).length)) := by
  have ran := q.run_opened data expectedSize onClose below n
  by_cases refused : q.Refused below
  · rw [if_pos refused] at ran ⊢
    have step : reads below (.at data expectedSize onClose n) q = (.error badLength,
        { stream := opened data expectedSize onClose n
          taken := data.take n ++ (data.drop n).take (n - n) }) := by
      unfold reads
      dsimp only [Reading.at]
      rw [ran]
      rfl
    rw [step, Nat.sub_self, List.take_zero, List.append_nil]
    rfl
  · rw [if_neg refused] at ran ⊢
    have read : reads below (.at data expectedSize onClose n) q =
        (q.result data expectedSize n,
          { stream := opened data expectedSize onClose (n + (q.chunk (data.drop n)).length)
            taken := data.take n ++ q.chunk (data.drop n) }) := by
      unfold reads
      dsimp only [Reading.at]
      rw [ran]
      unfold ReadCall.result
      dsimp only
      split_ifs
      · have moved : n + (q.chunk (data.drop n)).length - n = (q.chunk (data.drop n)).length := by
          omega
        dsimp only [opened]
        rw [moved, ← q.chunk_eq]
      · rfl
    rw [read, take_chunk]
    rfl

theorem ReadCall.chunk_length (q : ReadCall) (rest : Bytes) :
    (q.chunk rest).length =
      if q.size < 0 then rest.length else min q.size.toNat rest.length := by
  unfold ReadCall.chunk
  split_ifs
  · rfl
  · exact List.length_take

/-- A call never takes more than there is. -/
theorem ReadCall.chunk_le (q : ReadCall) {n : Nat} (inside : n ≤ data.length) :
    n + (q.chunk (data.drop n)).length ≤ data.length := by
  have bound : (q.chunk (data.drop n)).length ≤ (data.drop n).length := by
    rw [q.chunk_length]
    split_ifs
    · exact le_refl _
    · exact Nat.min_le_right _ _
  rw [List.length_drop] at bound
  omega

/-- Somewhere in the data. -/
def Within (data : Bytes) (expectedSize : Option Int) (onClose : Option Nat) (r : Reading) :
    Prop :=
  ∃ n ≤ data.length, r = .at data expectedSize onClose n

theorem Within.next {r : Reading} (within : Within data expectedSize onClose r) (q : ReadCall) :
    Within data expectedSize onClose (reads below r q).2 := by
  obtain ⟨n, inside, rfl⟩ := within
  rw [reads_at]
  split_ifs
  · exact ⟨n, inside, rfl⟩
  · exact ⟨_, q.chunk_le inside, rfl⟩

/-- The outcome is the alarm of the truncation check. -/
def Alarm (outcome : Except PyExc Bytes) : Prop :=
  ∃ exc, outcome = .error exc ∧ exc.cls = .corruptArchiveError

namespace ReadCall

theorem alarm_result (q : ReadCall) (n : Nat) :
    Alarm (q.result data expectedSize n) ↔
      q.Exhausts (data.drop n) ∧ Short expectedSize (n + (q.chunk (data.drop n)).length) := by
  unfold result
  dsimp only
  split_ifs with short
  · exact iff_of_true ⟨_, rfl, rfl⟩ short
  · refine iff_of_false ?_ short
    intro alarm
    obtain ⟨_, impossible, _⟩ := alarm
    cases impossible

/-- A call for some bytes passes for the end exactly there. -/
theorem exhausts_sized {q : ReadCall} (sized : q.size ≠ 0) (rest : Bytes) :
    q.Exhausts rest ↔ q.size < 0 ∨ rest.length = 0 := by
  have empty : q.chunk rest = [] ↔ (q.chunk rest).length = 0 := List.length_eq_zero_iff.symm
  unfold Exhausts
  rw [empty, q.chunk_length]
  split_ifs <;> omega

/-- At the end of the data nothing is left behind. -/
theorem exhausts_length {q : ReadCall} {n : Nat} (sized : q.size ≠ 0)
    (ends : q.Exhausts (data.drop n)) (inside : n ≤ data.length) :
    n + (q.chunk (data.drop n)).length = data.length := by
  have reached := (exhausts_sized sized _).mp ends
  rw [q.chunk_length]
  rw [List.length_drop] at reached ⊢
  split_ifs <;> omega

end ReadCall

/-- What the check owes a call: the bytes handed out are the data so far, the
tally is their number, and the alarm is raised at the end of data that is short,
and nowhere else. -/
structure Exact (below : Below) (data : Bytes) (expected : Int) (r : Reading) (q : ReadCall) :
    Prop where
  isPrefix : (reads below r q).2.taken <+: data
  tally : (reads below r q).2.stream.readTotal = (reads below r q).2.taken.length
  alarm : Alarm (reads below r q).1 ↔
    q.AtEnd below (data.length - r.taken.length) ∧ (data.length : Int) < expected

theorem Within.isPrefix {r : Reading} (within : Within data expectedSize onClose r) :
    r.taken <+: data := by
  obtain ⟨n, _, rfl⟩ := within
  exact List.take_prefix n data

theorem Within.tally {r : Reading} (within : Within data expectedSize onClose r) :
    r.stream.readTotal = r.taken.length := by
  obtain ⟨n, inside, rfl⟩ := within
  exact (List.length_take_of_le inside).symm

theorem refused_not_alarm : ¬ Alarm (.error badLength : Except PyExc Bytes) := by
  intro alarm
  obtain ⟨_, raised, kind⟩ := alarm
  cases raised
  cases kind

/-- Step lemma. -/
theorem Within.exact {expected : Int} {r : Reading} (within : Within data (some expected) onClose r)
    {q : ReadCall} (sized : q.size ≠ 0) : Exact below data expected r q := by
  refine ⟨(within.next q).isPrefix, (within.next q).tally, ?_⟩
  obtain ⟨n, inside, rfl⟩ := within
  have count : (Reading.at data (some expected) onClose n).taken.length = n :=
    List.length_take_of_le inside
  rw [reads_at, count]
  split_ifs with refused
  · exact iff_of_false refused_not_alarm fun ends => ends.1.1 refused
  · refine (q.alarm_result n).trans ?_
    constructor
    · intro alarm
      obtain ⟨ends, short⟩ := alarm
      rw [ReadCall.exhausts_length sized ends inside] at short
      rw [ReadCall.exhausts_sized sized, List.length_drop] at ends
      exact ⟨⟨refused, ends⟩, short⟩
    · intro ends
      obtain ⟨⟨_, reached⟩, short⟩ := ends
      have exhausts : q.Exhausts (data.drop n) := by
        rw [ReadCall.exhausts_sized sized, List.length_drop]
        exact reached
      refine ⟨exhausts, ?_⟩
      rw [ReadCall.exhausts_length sized exhausts inside]
      exact short

/-! ## Consumers -/

/-- What a sized call that returned shows: its chunk follows the bytes before it,
and an empty one lies at the end of data that is long enough. -/
theorem ReadCall.returned {q : ReadCall} {expected : Int} {n : Nat} {chunk : Bytes}
    (sized : q.size ≠ 0) (inside : n ≤ data.length)
    (ran : q.result data (some expected) n = .ok chunk) :
    chunk = q.chunk (data.drop n) ∧
      (chunk = [] → n = data.length ∧ expected ≤ data.length) := by
  have quiet : ¬ Alarm (q.result data (some expected) n) := by
    intro alarm
    obtain ⟨_, raised, _⟩ := alarm
    rw [ran] at raised
    cases raised
  have same : chunk = q.chunk (data.drop n) := by
    unfold ReadCall.result at ran
    dsimp only at ran
    split_ifs at ran
    exact (Except.ok.inj ran).symm
  refine ⟨same, fun empty => ?_⟩
  have none : q.chunk (data.drop n) = [] := same.symm.trans empty
  have exhausts : q.Exhausts (data.drop n) := Or.inr none
  have whole := ReadCall.exhausts_length sized exhausts inside
  rw [q.alarm_result, whole] at quiet
  have enough : ¬ (data.length : Int) < expected := fun short => quiet ⟨exhausts, short⟩
  rw [none, List.length_nil] at whole
  exact ⟨whole, by omega⟩

/-- Calls that all returned have handed out a stretch of the data. -/
theorem reads_returned {qs : List ReadCall} (sized : ∀ q ∈ qs, q.size ≠ 0) {expected : Int}
    {n : Nat} (inside : n ≤ data.length) {outputs : List Bytes}
    (returned : ((reads below).run (.at data (some expected) onClose n) qs).1 =
      outputs.map .ok) :
    data.take n ++ outputs.flatten <+: data ∧
      ([] ∈ outputs → data.take n ++ outputs.flatten = data ∧ expected ≤ data.length) := by
  induction qs generalizing n outputs with
  | nil =>
      have none : outputs = [] := List.map_eq_nil_iff.mp returned.symm
      subst none
      rw [List.flatten_nil, List.append_nil]
      exact ⟨List.take_prefix n data, fun empty => by cases empty⟩
  | cons q qs ih =>
      obtain _ | ⟨chunk, outputs⟩ := outputs
      · cases returned
      have split := List.cons.inj returned
      have first : (reads below (.at data (some expected) onClose n) q).1 = .ok chunk := split.1
      have rest : ((reads below).run (reads below (.at data (some expected) onClose n) q).2 qs).1 =
          outputs.map .ok := split.2
      have step := reads_at data (some expected) onClose below q n
      by_cases refused : q.Refused below
      · rw [step, if_pos refused] at first
        cases first
      rw [if_neg refused] at step
      rw [step] at first rest
      have piece := ReadCall.returned (sized q List.mem_cons_self) inside first
      have later := ih (fun q' member => sized q' (List.mem_cons_of_mem q member))
        (q.chunk_le inside) rest
      rw [List.flatten_cons, ← List.append_assoc, piece.1, take_chunk]
      refine ⟨later.1, fun empty => ?_⟩
      rcases List.mem_cons.mp empty with here | there
      · obtain ⟨whole, enough⟩ := piece.2 (piece.1.trans here.symm)
        refine ⟨?_, enough⟩
        -- The data is spent, so the stretch that begins with all of it is all of it.
        apply later.1.eq_of_length_le
        rw [List.length_append, List.length_take, ← whole]
        omega
      · exact later.2 there

/-- How a fetch from somewhere in the data may end: with what lies between there
and a later place, nothing only at the end of data that is long enough; or with
the alarm on short data; or with a size that is not taken. -/
def Fetches (data : Bytes) (expected : Int) (onClose : Option Nat) (refusing : Prop)
    (fetch : Py PipeStream Bytes) : Prop :=
  ∀ n ≤ data.length,
    (∃ m, n ≤ m ∧ m ≤ data.length ∧ (m = n → n = data.length ∧ expected ≤ data.length) ∧
      fetch (opened data (some expected) onClose n) =
        (.ok ((data.drop n).take (m - n)), opened data (some expected) onClose m)) ∨
    ∃ exc after, fetch (opened data (some expected) onClose n) = (.error exc, after) ∧
      (exc.cls = .corruptArchiveError ∧ (data.length : Int) < expected ∨
        exc = badLength ∧ refusing)

variable (data onClose below) in
theorem ReadCall.fetches {q : ReadCall} (sized : q.size ≠ 0) (expected : Int) :
    Fetches data expected onClose (q.Refused below) (q.run below) := by
  intro n inside
  have ran := q.run_opened data (some expected) onClose below n
  by_cases refused : q.Refused below
  · rw [if_pos refused] at ran
    exact Or.inr ⟨badLength, _, ran, Or.inr ⟨rfl, refused⟩⟩
  rw [if_neg refused] at ran
  rcases result : q.result data (some expected) n with exc | chunk
  · rw [result] at ran
    refine Or.inr ⟨exc, _, ran, Or.inl ?_⟩
    have raised := result
    unfold ReadCall.result at raised
    dsimp only at raised
    split_ifs at raised with short
    rw [ReadCall.exhausts_length sized short.1 inside] at short
    refine ⟨?_, short.2⟩
    rw [← Except.error.inj raised]
    rfl
  · obtain ⟨same, empty⟩ := ReadCall.returned sized inside result
    have moved : n + (q.chunk (data.drop n)).length - n = (q.chunk (data.drop n)).length := by
      omega
    refine Or.inl ⟨n + (q.chunk (data.drop n)).length, Nat.le_add_right n _, q.chunk_le inside,
      fun still => empty ?_, ?_⟩
    · apply List.length_eq_zero_iff.mp
      rw [same]
      omega
    · rw [moved, ← q.chunk_eq, ran, result, same]

/-- A consumer that fetches until a fetch comes back empty; what it asks for
may depend on what it has got. -/
def drain (fetch : Bytes → Py PipeStream Bytes) : Nat → Bytes → Py PipeStream (Option Bytes)
  | 0, _ => pure none
  | fuel + 1, collected => do
      let chunk ← fetch collected
      if chunk.isEmpty then pure (some collected)
      else drain fetch fuel (collected ++ chunk)

/-- How a consumer may end. -/
def Settles (data : Bytes) (expected : Int) (refusing : Prop)
    (outcome : Except PyExc (Option Bytes)) : Prop :=
  match outcome with
  | .ok collected => collected = some data ∧ expected ≤ data.length
  | .error exc =>
      exc.cls = .corruptArchiveError ∧ (data.length : Int) < expected ∨ exc = badLength ∧ refusing

theorem drain_settles {fetch : Bytes → Py PipeStream Bytes} {expected : Int} {refusing : Prop}
    (fetches : ∀ collected, Fetches data expected onClose refusing (fetch collected))
    {fuel n : Nat} (inside : n ≤ data.length) (fuelled : data.length - n < fuel) :
    Settles data expected refusing
      (drain fetch fuel (data.take n) (opened data (some expected) onClose n)).1 := by
  induction fuel generalizing n with
  | zero => omega
  | succ fuel ih =>
      unfold drain
      rcases fetches (data.take n) n inside with
        ⟨m, later, within, still, ran⟩ | ⟨exc, after, ran, raised⟩
      · rw [Exn.bind_of_ok ran]
        have grown : (data.drop n).take (m - n) = [] ↔ m = n := by
          rw [← List.length_eq_zero_iff, List.length_take, List.length_drop]
          omega
        by_cases empty : m = n
        · rw [if_pos (List.isEmpty_iff.mpr (grown.mpr empty))]
          obtain ⟨whole, enough⟩ := still empty
          refine ⟨?_, enough⟩
          rw [whole, List.take_length]
        · rw [if_neg fun isEmpty => empty (grown.mp (List.isEmpty_iff.mp isEmpty))]
          have joined : data.take n ++ (data.drop n).take (m - n) = data.take m := by
            rw [← List.take_add]
            congr 1
            omega
          rw [joined]
          exact ih within (by omega)
      · rw [Exn.bind_of_error ran]
        exact raised

/-- `IOBase.readline` over a stream without `peek`: single bytes up to a line
feed or the end. -/
def readlineFrom (below : Below) : Nat → Py PipeStream Bytes
  | 0 => pure []
  | fuel + 1 => do
      let byte ← (ReadCall.read (some 1)).run below
      if byte.isEmpty || byte = [10] then pure byte
      else do
        let rest ← readlineFrom below fuel
        pure (byte ++ rest)

/-- No line has more bytes than are left. -/
def readline (below : Below) : Py PipeStream Bytes := fun s =>
  readlineFrom below (s.data.length + 1 - s.pos) s

theorem single_sized : (ReadCall.read (some 1)).size ≠ 0 := by decide

theorem single_taken (below : Below) : ¬ (ReadCall.read (some 1)).Refused below :=
  fun refused => absurd refused.2 (by decide)

theorem readlineFrom_fetches {expected : Int} {fuel n : Nat} (inside : n ≤ data.length)
    (fuelled : data.length - n < fuel) :
    (∃ m, n ≤ m ∧ m ≤ data.length ∧ (m = n → n = data.length ∧ expected ≤ data.length) ∧
      readlineFrom below fuel (opened data (some expected) onClose n) =
        (.ok ((data.drop n).take (m - n)), opened data (some expected) onClose m)) ∨
    ∃ exc after, readlineFrom below fuel (opened data (some expected) onClose n) =
        (.error exc, after) ∧
      (exc.cls = .corruptArchiveError ∧ (data.length : Int) < expected ∨
        exc = badLength ∧ False) := by
  induction fuel generalizing n with
  | zero => omega
  | succ fuel ih =>
      unfold readlineFrom
      rcases ReadCall.fetches data onClose below single_sized expected n inside with
        ⟨m, later, within, still, ran⟩ | ⟨exc, after, ran, raised⟩
      · by_cases ends : (((data.drop n).take (m - n)).isEmpty ||
            (data.drop n).take (m - n) = [10]) = true
        · refine Or.inl ⟨m, later, within, still, (Exn.bind_of_ok ran _).trans ?_⟩
          rw [if_pos ends]
          rfl
        have moved : m ≠ n := by
          intro same
          apply ends
          rw [same, Nat.sub_self]
          rfl
        rcases ih within (by omega) with
          ⟨m', later', within', _, ran'⟩ | ⟨exc, after, ran', raised⟩
        · refine Or.inl ⟨m', by omega, within', by omega, (Exn.bind_of_ok ran _).trans ?_⟩
          rw [if_neg ends, Exn.bind_of_ok ran']
          have joined : (data.drop n).take (m' - n) =
              (data.drop n).take (m - n) ++ (data.drop m).take (m' - m) := by
            have drop : data.drop m = (data.drop n).drop (m - n) := by
              rw [List.drop_drop]
              congr 1
              omega
            rw [drop, ← List.take_add]
            congr 1
            omega
          rw [joined]
          rfl
        · refine Or.inr ⟨exc, after, (Exn.bind_of_ok ran _).trans ?_, raised⟩
          rw [if_neg ends, Exn.bind_of_error ran']
      · refine Or.inr ⟨exc, after, Exn.bind_of_error ran _, raised.imp_right ?_⟩
        intro refusal
        exact ⟨refusal.1, single_taken below refusal.2⟩

theorem readline_fetches (expected : Int) :
    Fetches data expected onClose False (readline below) := by
  intro n inside
  exact readlineFrom_fetches inside (by
    change data.length - n < data.length + 1 - n
    omega)

/-! ## The check never misses -/

/-- Over calls for some bytes each, in any order, before and after the end and
after an earlier alarm, every call is exact.  Calls that all returned, some of
them with nothing, have handed out the data and the data is long enough; and the
loops that read until nothing comes, by any calls or by lines, end with the data
or raise. -/
theorem truncation_never_missed (below : Below) (data : Bytes) (expected : Int)
    (onClose : Option Nat) :
    (∀ qs : List ReadCall, (∀ q ∈ qs, q.size ≠ 0) →
      (reads below).AllSteps (Exact below data expected)
        (.at data (some expected) onClose 0) qs ∧
      ∀ outputs : List Bytes,
        ((reads below).run (.at data (some expected) onClose 0) qs).1 = outputs.map .ok →
        [] ∈ outputs → outputs.flatten = data ∧ expected ≤ data.length) ∧
    (∀ next : Bytes → ReadCall, (∀ collected, (next collected).size ≠ 0) →
      ∀ fuel : Nat, data.length < fuel →
      Settles data expected (∃ collected, (next collected).Refused below)
        (drain (fun collected => (next collected).run below) fuel []
          (opened data (some expected) onClose 0)).1) ∧
    ∀ fuel : Nat, data.length < fuel →
      Settles data expected False
        (drain (fun _ => readline below) fuel [] (opened data (some expected) onClose 0)).1 := by
  have start : 0 ≤ data.length := Nat.zero_le _
  refine ⟨?_, ?_, ?_⟩
  · intro qs sized
    refine ⟨?_, ?_⟩
    · refine Machine.allSteps_of_mem (I := Within data (some expected) onClose)
        (P := fun q => q.size ≠ 0) ?_ ⟨0, start, rfl⟩ qs sized
      intro r q nonzero within
      exact ⟨within.exact nonzero, within.next q⟩
    · intro outputs returned empty
      exact (reads_returned sized start returned).2 empty
  · intro next sized fuel fuelled
    refine drain_settles ?_ start fuelled
    intro collected n inside
    refine (ReadCall.fetches data onClose below (sized collected) expected n inside).imp_right ?_
    intro failed
    obtain ⟨exc, after, ran, raised⟩ := failed
    exact ⟨exc, after, ran, raised.imp_right fun refusal => ⟨refusal.1, collected, refusal.2⟩⟩
  · intro fuel fuelled
    exact drain_settles (fun _ => readline_fetches expected) start fuelled

theorem truncation_never_missed_mixed :
    (reads .all).AllSteps (Exact .all [1, 2, 3] 5) (.at [1, 2, 3] (some 5) none 0)
      [.read (some 2), .readinto 4, .read1 (-1), .read none] ∧
    Settles [1, 2, 3] 5 (∃ _ : Bytes, (ReadCall.read (some 2)).Refused .all)
      (drain (fun _ => (ReadCall.read (some 2)).run .all) 4 []
        (opened [1, 2, 3] (some 5) none 0)).1 := by
  have holds := truncation_never_missed .all [1, 2, 3] 5 none
  exact ⟨(holds.1 [.read (some 2), .readinto 4, .read1 (-1), .read none] (by decide)).1,
    holds.2.1 (fun _ => .read (some 2)) (fun _ => by decide) 4 (by decide)⟩

/-! ## False alarms -/

/-- The alarm is raised only once all the data has been handed out, and is short. -/
def NoFalseAlarm (below : Below) (data : Bytes) (expectedSize : Option Int) (r : Reading)
    (q : ReadCall) : Prop :=
  Alarm (reads below r q).1 →
    (reads below r q).2.taken = data ∧ Short expectedSize data.length

/-- A call for no bytes is made only at the end of the data, or once as much as
expected has been read. -/
def Settled (data : Bytes) (expectedSize : Option Int) (r : Reading) (q : ReadCall) : Prop :=
  q.size = 0 → r.taken = data ∨ ¬ Short expectedSize r.taken.length

/-- A sequence of calls raises no false alarm exactly when it makes no call for
zero bytes while bytes are left and fewer than expected have been read. -/
theorem no_false_alarm_iff (below : Below) (data : Bytes) (expectedSize : Option Int)
    (onClose : Option Nat) (qs : List ReadCall) :
    (reads below).AllSteps (NoFalseAlarm below data expectedSize)
        (.at data expectedSize onClose 0) qs ↔
      (reads below).AllSteps (Settled data expectedSize) (.at data expectedSize onClose 0) qs := by
  refine Machine.allSteps_iff (I := Within data expectedSize onClose)
    (fun r q within => within.next q) ?_ ⟨0, Nat.zero_le _, rfl⟩ qs
  intro r q within
  obtain ⟨n, inside, rfl⟩ := within
  have count : (Reading.at data expectedSize onClose n).taken.length = n :=
    List.length_take_of_le inside
  have all (m : Nat) (bound : m ≤ data.length) :
      (Reading.at data expectedSize onClose m).taken = data ↔ m = data.length := by
    refine ⟨fun same => ?_, fun same => ?_⟩
    · have lengths := congrArg List.length same
      rw [← lengths]
      exact (List.length_take_of_le bound).symm
    · change data.take m = data
      rw [same, List.take_length]
  unfold NoFalseAlarm Settled
  rw [count, all n inside, reads_at]
  by_cases refused : q.Refused below
  · rw [if_pos refused]
    refine iff_of_true (fun alarm => (refused_not_alarm alarm).elim) fun zero => ?_
    have low := refused.2
    omega
  rw [if_neg refused]
  dsimp only
  rw [all _ (q.chunk_le inside), q.alarm_result]
  by_cases zero : q.size = 0
  · have none : (q.chunk (data.drop n)).length = 0 := by
      rw [q.chunk_length, zero]
      simp
    have exhausts : q.Exhausts (data.drop n) := Or.inr (List.length_eq_zero_iff.mp none)
    rw [none, Nat.add_zero]
    constructor
    · intro held _
      by_cases short : Short expectedSize n
      · exact Or.inl (held ⟨exhausts, short⟩).1
      · exact Or.inr short
    · intro settled alarm
      rcases settled zero with whole | enough
      · refine ⟨whole, ?_⟩
        rw [← whole]
        exact alarm.2
      · exact (enough alarm.2).elim
  · refine iff_of_true (fun alarm => ?_) fun size => (zero size).elim
    have whole := ReadCall.exhausts_length zero alarm.1 inside
    refine ⟨whole, ?_⟩
    rw [← whole]
    exact alarm.2

/-- Eight bytes are expected and eight are in the pipe; a first call for none of
them reports a broken stream. -/
theorem empty_read_alarms :
    ¬ (reads .all).AllSteps (NoFalseAlarm .all [1, 2, 3, 4, 5, 6, 7, 8] (some 8))
      (.at [1, 2, 3, 4, 5, 6, 7, 8] (some 8) none 0) [.read (some 0)] := by
  intro held
  have late := (held.1 ⟨truncated 0 8, rfl, rfl⟩).1
  exact absurd late (by decide)

end PipeStream

end NewtuaPy
