import NewtuaPy.CloseOnce
import NewtuaPy.Lib.Tally
import NewtuaPy.PipedOrBuffered

/-!
# One stream on many threads

`AsyncEntryStream` hands every call on its `_PipeStream` to a worker thread, and nothing
keeps one call from being made before the last one has been answered.  The backing reader
has a lock of its own, so what a call takes from the pipe it takes in one step; the tally
of `_took`, the closed flag and the callback of `close` have none.  The module follows any
number of reads and closes through every interleaving, and says what an overlap can spoil.
-/

namespace NewtuaPy

open PipeStream (ReadCall closedFile badLength Short truncated)

namespace AsyncEntryStream

/-- `AsyncEntryStream.read`, as the call that `asyncio.to_thread` makes. -/
def read (size : Int) : ReadCall := .read (some size)

/-- Where a call is; a constructor says what the call does next. -/
inductive Job
  /-- submitted; then `_check_open` -/
  | queued (q : ReadCall)
  /-- `self._backing.read(size)` -/
  | reading (q : ReadCall)
  /-- the load in `self._read_total += n` -/
  | loading (q : ReadCall) (chunk : Bytes)
  /-- the store in `self._read_total += n` -/
  | storing (q : ReadCall) (chunk : Bytes) (total : Nat)
  /-- the comparison in `_took` -/
  | checking (q : ReadCall) (chunk : Bytes)
  /-- the `raise` in `_took`, whose message reads the tally again -/
  | alarming (q : ReadCall) (chunk : Bytes)
  | answered (q : ReadCall) (outcome : Except PyExc Bytes)
  /-- cancelled before a worker has taken it up -/
  | withdrawn
  /-- submitted; then `already_closed = self.closed` -/
  | closing
  /-- `if not self.closed` in `EntryStream.close` -/
  | deciding (alreadyClosed : Bool)
  /-- `self._backing.close()` -/
  | shutting (alreadyClosed : Bool)
  /-- `io.BufferedIOBase.close` -/
  | marking (alreadyClosed : Bool)
  /-- the `finally` block of `_PipeStream.close` -/
  | leaving (alreadyClosed : Bool)
  | closed (alreadyClosed : Bool)
deriving DecidableEq

namespace Job

/-- The job has taken a chunk and is not done with the tally. -/
def inFlight : Job → Bool
  | .loading _ _ | .storing _ _ _ | .checking _ _ | .alarming _ _ => true
  | _ => false

def isReading : Job → Bool
  | .reading _ => true
  | _ => false

/-- How much of what the job has taken it still has to count. -/
def uncounted : Job → Nat
  | .loading _ chunk | .storing _ chunk _ => chunk.length
  | _ => 0

/-- How often the job will still call back. -/
def callbacks : Job → Nat
  | .deciding false | .shutting false | .marking false | .leaving false => 1
  | _ => 0

end Job

/-- A call that has taken its bytes: the call, and where in the data it took them. -/
structure Take where
  job : Nat
  call : ReadCall
  pos : Nat
deriving DecidableEq

def Take.chunk (data : Bytes) (t : Take) : Bytes := t.call.chunk (data.drop t.pos)

/-- A stream, the calls on it, what was taken from the pipe in the order in which it was
taken, the closes that have found the stream open, and how often `_on_close` was called. -/
structure Shared where
  pipe : PipeStream
  backingClosed : Bool := false
  jobs : Nat → Option Job := fun _ => none
  log : List Take := []
  finders : List Nat := []
  called : Nat := 0
  /-- the calls whose caller has been cancelled while it was waiting -/
  unheard : Nat → Bool := fun _ => false

inductive Event
  | submit (k : Nat) (q : ReadCall)
  | submitClose (k : Nat)
  | advance (k : Nat)
  | cancel (k : Nat)

namespace Shared

def put (s : Shared) (k : Nat) (j : Job) : Shared :=
  { s with jobs := Function.update s.jobs k (some j) }

@[simp] theorem put_self (s : Shared) (k : Nat) (j : Job) : (s.put k j).jobs k = some j :=
  Function.update_self ..

theorem put_of_ne (s : Shared) {k i : Nat} (other : i ≠ k) (j : Job) :
    (s.put k j).jobs i = s.jobs i := Function.update_of_ne other _ _

theorem put_put (s : Shared) (k : Nat) (j j' : Job) : (s.put k j).put k j' = s.put k j' :=
  congrArg (fun jobs => { s with jobs }) (Function.update_idem ..)

/-- What `BufferedReader` raises once it is closed. -/
def closedBacking : ReadCall → PyExc
  | .readinto _ => { cls := .valueError, text := "readinto of closed file" }
  | _ => { cls := .valueError, text := "read of closed file" }

/-- `data = self._backing.read(size)`. -/
def take (s : Shared) (k : Nat) (q : ReadCall) : Shared :=
  if s.backingClosed then s.put k (.answered q (.error (closedBacking q)))
  else match PipeStream.backingRead q.size s.pipe with
    | (.ok chunk, pipe) => { s.put k (.loading q chunk) with
        pipe, log := s.log ++ [{ job := k, call := q, pos := s.pipe.pos }] }
    | (.error exc, pipe) => { s.put k (.answered q (.error exc)) with pipe }

/-- `already_closed = self.closed`. -/
def look (s : Shared) (k : Nat) : Shared :=
  if s.pipe.closed then s.put k (.deciding true)
  else { s.put k (.deciding false) with finders := s.finders ++ [k] }

/-- `self._on_close()` in the `finally` block. -/
def callback (s : Shared) (alreadyClosed : Bool) : Shared :=
  if alreadyClosed = false ∧ s.pipe.onClose.isSome then { s with called := s.called + 1 } else s

/-- The next step of a call. -/
def act (s : Shared) (k : Nat) : Job → Option Shared
  | .queued q => some <|
      if s.pipe.closed then s.put k (.answered q (.error closedFile)) else s.put k (.reading q)
  | .reading q => some (s.take k q)
  | .loading q chunk => some (s.put k (.storing q chunk s.pipe.readTotal))
  | .storing q chunk total => some { s.put k (.checking q chunk) with
      pipe := { s.pipe with readTotal := total + chunk.length } }
  | .checking q chunk => some <|
      if (q.size < 0 ∨ chunk = []) ∧ Short s.pipe.expectedSize s.pipe.readTotal then
        s.put k (.alarming q chunk)
      else s.put k (.answered q (.ok chunk))
  | .alarming q _ => some (s.put k
      (.answered q (.error (truncated s.pipe.readTotal (s.pipe.expectedSize.getD 0)))))
  | .closing => some (s.look k)
  | .deciding b => some (s.put k (if s.pipe.closed then .marking b else .shutting b))
  | .shutting b => some { s.put k (.marking b) with backingClosed := true }
  | .marking b => some { s.put k (.leaving b) with pipe := { s.pipe with closed := true } }
  | .leaving b => some ((s.callback b).put k (.closed b))
  | .answered _ _ => none
  | .withdrawn => none
  | .closed _ => none

def next (s : Shared) : Event → Option Shared
  | .submit k q => if s.jobs k = none then some (s.put k (.queued q)) else none
  | .submitClose k => if s.jobs k = none then some (s.put k .closing) else none
  | .advance k => (s.jobs k).bind (s.act k)
  -- A future that runs cannot be cancelled; only its caller stops waiting.
  | .cancel k =>
      match s.jobs k with
      | none => none
      | some (.queued _) | some .closing =>
          some { s.put k .withdrawn with unheard := Function.update s.unheard k true }
      | some _ => some { s with unheard := Function.update s.unheard k true }

/-- A stream that has just been opened. -/
def start (data : Bytes) (expected : Option Int) (onClose : Option Nat) : Shared where
  pipe := .opened data expected onClose 0

def system (data : Bytes) (expected : Option Int) (onClose : Option Nat) : Lts Shared Event where
  init s := s = start data expected onClose
  step s e t := s.next e = some t

/-! ## The steps -/

/-- A step that leaves the pipe as it is and takes nothing: the job at `k` goes from `j` to
`j'`. -/
inductive Quiet (s : Shared) : Job → Job → Prop
  | refused {q : ReadCall} (closed : s.pipe.closed = true) :
      Quiet s (.queued q) (.answered q (.error closedFile))
  | admitted {q : ReadCall} (isOpen : s.pipe.closed = false) : Quiet s (.queued q) (.reading q)
  | detached {q : ReadCall} (closed : s.backingClosed = true) :
      Quiet s (.reading q) (.answered q (.error (closedBacking q)))
  | badLength {q : ReadCall} (low : q.size < -1) :
      Quiet s (.reading q) (.answered q (.error badLength))
  | load {q : ReadCall} {chunk : Bytes} :
      Quiet s (.loading q chunk) (.storing q chunk s.pipe.readTotal)
  | pass {q : ReadCall} {chunk : Bytes}
      (passes : ¬ ((q.size < 0 ∨ chunk = []) ∧ Short s.pipe.expectedSize s.pipe.readTotal)) :
      Quiet s (.checking q chunk) (.answered q (.ok chunk))
  | fail {q : ReadCall} {chunk : Bytes} (ends : q.size < 0 ∨ chunk = [])
      (short : Short s.pipe.expectedSize s.pipe.readTotal) :
      Quiet s (.checking q chunk) (.alarming q chunk)
  | alarm {q : ReadCall} {chunk : Bytes} : Quiet s (.alarming q chunk)
      (.answered q (.error (truncated s.pipe.readTotal (s.pipe.expectedSize.getD 0))))
  | again {b : Bool} (closed : s.pipe.closed = true) : Quiet s (.deciding b) (.marking b)
  | shut {b : Bool} (isOpen : s.pipe.closed = false) : Quiet s (.deciding b) (.shutting b)

/-- The state once `t` has been taken. -/
def taken (s : Shared) (t : Take) : Shared :=
  { s.put t.job (.loading t.call (t.chunk s.pipe.data)) with
    pipe := { s.pipe with pos := s.pipe.pos + (t.chunk s.pipe.data).length }
    log := s.log ++ [t] }

/-- What one step does. -/
inductive Step (s : Shared) : Event → Shared → Prop
  | submit {k : Nat} {q : ReadCall} (fresh : s.jobs k = none) :
      Step s (.submit k q) (s.put k (.queued q))
  | submitClose {k : Nat} (fresh : s.jobs k = none) : Step s (.submitClose k) (s.put k .closing)
  | quiet {k : Nat} {j j' : Job} (at' : s.jobs k = some j) (goes : Quiet s j j') :
      Step s (.advance k) (s.put k j')
  | take {k : Nat} {q : ReadCall} (at' : s.jobs k = some (.reading q)) (proper : -1 ≤ q.size) :
      Step s (.advance k) (s.taken { job := k, call := q, pos := s.pipe.pos })
  | store {k : Nat} {q : ReadCall} {chunk : Bytes} {total : Nat}
      (at' : s.jobs k = some (.storing q chunk total)) :
      Step s (.advance k) { s.put k (.checking q chunk) with
        pipe := { s.pipe with readTotal := total + chunk.length } }
  | found {k : Nat} (at' : s.jobs k = some .closing) (isOpen : s.pipe.closed = false) :
      Step s (.advance k) { s.put k (.deciding false) with finders := s.finders ++ [k] }
  | foundClosed {k : Nat} (at' : s.jobs k = some .closing) (closed : s.pipe.closed = true) :
      Step s (.advance k) (s.put k (.deciding true))
  | shutting {k : Nat} {b : Bool} (at' : s.jobs k = some (.shutting b)) :
      Step s (.advance k) { s.put k (.marking b) with backingClosed := true }
  | marking {k : Nat} {b : Bool} (at' : s.jobs k = some (.marking b)) :
      Step s (.advance k) { s.put k (.leaving b) with pipe := { s.pipe with closed := true } }
  | leaving {k : Nat} {b : Bool} (at' : s.jobs k = some (.leaving b)) :
      Step s (.advance k) ((s.callback b).put k (.closed b))
  | withdraw {k : Nat} {j : Job} (at' : s.jobs k = some j)
      (waiting : (∃ q, j = .queued q) ∨ j = .closing) :
      Step s (.cancel k) { s.put k .withdrawn with unheard := Function.update s.unheard k true }
  | abandon {k : Nat} {j : Job} (at' : s.jobs k = some j) :
      Step s (.cancel k) { s with unheard := Function.update s.unheard k true }

variable {s t : Shared} {k : Nat}

theorem step_of_take {q : ReadCall} (at' : s.jobs k = some (.reading q)) :
    Step s (.advance k) (s.take k q) := by
  unfold take
  rw [PipeStream.backingRead_eq]
  by_cases closed : s.backingClosed = true
  · rw [if_pos closed]
    exact .quiet at' (.detached closed)
  · rw [if_neg closed]
    by_cases low : q.size < -1
    · rw [if_pos low]
      exact .quiet at' (.badLength low)
    · rw [if_neg low]
      exact .take at' (by omega)

theorem step_of_act {j : Job} (at' : s.jobs k = some j) (step : s.act k j = some t) :
    Step s (.advance k) t := by
  cases j with
  | queued q =>
      cases Option.some.inj step
      split_ifs with closed
      · exact .quiet at' (.refused closed)
      · exact .quiet at' (.admitted (by simpa using closed))
  | reading q => exact Option.some.inj step ▸ step_of_take at'
  | loading q chunk => exact Option.some.inj step ▸ .quiet at' .load
  | storing q chunk total => exact Option.some.inj step ▸ .store at'
  | checking q chunk =>
      cases Option.some.inj step
      split_ifs with fails
      · exact .quiet at' (.fail fails.1 fails.2)
      · exact .quiet at' (.pass fails)
  | alarming q chunk => exact Option.some.inj step ▸ .quiet at' .alarm
  | answered q outcome => cases step
  | withdrawn => cases step
  | closing =>
      cases Option.some.inj step
      unfold look
      split_ifs with closed
      · exact .foundClosed at' closed
      · exact .found at' (by simpa using closed)
  | deciding b =>
      cases Option.some.inj step
      split_ifs with closed
      · exact .quiet at' (.again closed)
      · exact .quiet at' (.shut (by simpa using closed))
  | shutting b => exact Option.some.inj step ▸ .shutting at'
  | marking b => exact Option.some.inj step ▸ .marking at'
  | leaving b => exact Option.some.inj step ▸ .leaving at'
  | closed b => cases step

theorem step_of_next {e : Event} (step : s.next e = some t) : Step s e t := by
  cases e with
  | submit k q =>
      obtain ⟨fresh, same⟩ := Option.ite_none_right_eq_some.mp step
      exact Option.some.inj same ▸ .submit fresh
  | submitClose k =>
      obtain ⟨fresh, same⟩ := Option.ite_none_right_eq_some.mp step
      exact Option.some.inj same ▸ .submitClose fresh
  | advance k =>
      obtain ⟨j, at', acts⟩ := Option.bind_eq_some_iff.mp step
      exact step_of_act at' acts
  | cancel k =>
      dsimp only [next] at step
      rcases at' : s.jobs k with _ | j <;> rw [at'] at step
      · cases step
      · cases j with
        | queued q => exact Option.some.inj step ▸ .withdraw at' (Or.inl ⟨q, rfl⟩)
        | closing => exact Option.some.inj step ▸ .withdraw at' (Or.inr rfl)
        | _ => exact Option.some.inj step ▸ .abandon at'

end Shared

/-! ## A call alone -/

section Alone

variable {s t : Shared} {k : Nat}

/-- Where a list of events leads, as far as they can happen. -/
def after (s : Shared) (events : List Event) : Shared :=
  Lts.last s (Lts.follow Shared.next s events)

theorem after_cons {e : Event} (step : s.next e = some t) (events : List Event) :
    after s (e :: events) = after t events := by
  unfold after
  rw [Lts.follow, step]
  rfl

theorem next_advance {j : Job} (at' : s.jobs k = some j) : s.next (.advance k) = s.act k j :=
  congrArg (Option.bind · (s.act k)) at'

theorem after_advance {j : Job} (at' : s.jobs k = some j) (acts : s.act k j = some t)
    (events : List Event) : after s (.advance k :: events) = after t events :=
  after_cons ((next_advance at').trans acts) events

/-- A call that is refused, or finds the stream closed. -/
theorem refused_alone (fresh : s.jobs k = none) (whole : s.backingClosed = s.pipe.closed)
    {q : ReadCall} (refused : s.pipe.closed = true ∨ q.size < -1) :
    ∃ n, after s (.submit k q :: List.replicate n (.advance k)) =
      s.put k (.answered q (PipeStream.readingOutcome q s.pipe).1) := by
  have submitted : s.next (.submit k q) = some (s.put k (.queued q)) := if_pos fresh
  unfold PipeStream.readingOutcome
  dsimp only
  by_cases closed : s.pipe.closed = true
  · have acts : (s.put k (.queued q)).act k (.queued q) =
        some ((s.put k (.queued q)).put k (.answered q (.error closedFile))) :=
      congrArg some (if_pos closed)
    refine ⟨1, ?_⟩
    rw [after_cons submitted, List.replicate_one, after_advance (s.put_self k _) acts, s.put_put,
      if_pos closed]
    rfl
  · have low : q.size < -1 := refused.resolve_left closed
    have enters : (s.put k (.queued q)).act k (.queued q) =
        some ((s.put k (.queued q)).put k (.reading q)) := congrArg some (if_neg closed)
    have acts : (s.put k (.reading q)).act k (.reading q) =
        some ((s.put k (.reading q)).put k (.answered q (.error badLength))) := by
      refine congrArg some ?_
      unfold Shared.take
      have isOpen : ¬ (s.put k (.reading q)).backingClosed = true := whole ▸ closed
      rw [if_neg isOpen, PipeStream.backingRead_eq, if_pos low]
      rfl
    refine ⟨2, ?_⟩
    rw [after_cons submitted, List.replicate_succ, after_advance (s.put_self k _) enters,
      s.put_put, List.replicate_one, after_advance (s.put_self k _) acts, s.put_put,
      if_neg closed, if_pos low]
    rfl

theorem taking_alone (fresh : s.jobs k = none) (whole : s.backingClosed = s.pipe.closed)
    {q : ReadCall} (isOpen : ¬ s.pipe.closed = true) (proper : ¬ q.size < -1) :
    ∃ n, after s (.submit k q :: List.replicate n (.advance k)) =
      Shared.put
        { s with
          pipe := (PipeStream.readingOutcome q s.pipe).2
          log := s.log ++ [{ job := k, call := q, pos := s.pipe.pos }] }
        k (.answered q (PipeStream.readingOutcome q s.pipe).1) := by
  unfold PipeStream.readingOutcome
  obtain ⟨chunk, isChunk⟩ : ∃ chunk, q.chunk (s.pipe.data.drop s.pipe.pos) = chunk := ⟨_, rfl⟩
  dsimp only
  rw [if_neg isOpen, if_neg proper, isChunk]
  dsimp only
  let log := s.log ++ [{ job := k, call := q, pos := s.pipe.pos }]
  let taken : Shared := { s with pipe := { s.pipe with pos := s.pipe.pos + chunk.length }, log }
  let counted : Shared := { taken with
    pipe := { taken.pipe with readTotal := s.pipe.readTotal + chunk.length } }
  have submits : s.next (.submit k q) = some (s.put k (.queued q)) := if_pos fresh
  have enters : (s.put k (.queued q)).act k (.queued q) =
      some ((s.put k (.queued q)).put k (.reading q)) := congrArg some (if_neg isOpen)
  have takes : (s.put k (.reading q)).act k (.reading q) =
      some (taken.put k (.loading q chunk)) := by
    refine congrArg some ?_
    unfold Shared.take
    have attached : ¬ (s.put k (.reading q)).backingClosed = true := whole ▸ isOpen
    rw [if_neg attached, PipeStream.backingRead_eq, if_neg proper]
    subst isChunk
    dsimp only
    rw [s.put_put]
    rfl
  have loads : (taken.put k (.loading q chunk)).act k (.loading q chunk) =
      some ((taken.put k (.loading q chunk)).put k (.storing q chunk s.pipe.readTotal)) := rfl
  have stores : (taken.put k (.storing q chunk s.pipe.readTotal)).act k
      (.storing q chunk s.pipe.readTotal) = some (counted.put k (.checking q chunk)) := by
    refine congrArg some ?_
    rw [taken.put_put]
    rfl
  have upToCheck (n : Nat) :
      after s (.submit k q :: List.replicate (n + 4) (.advance k)) =
        after (counted.put k (.checking q chunk)) (List.replicate n (.advance k)) := by
    rw [after_cons submits, List.replicate_succ, after_advance (s.put_self k _) enters,
      s.put_put, List.replicate_succ, after_advance (s.put_self k _) takes, List.replicate_succ,
      after_advance (taken.put_self k _) loads, taken.put_put, List.replicate_succ,
      after_advance (taken.put_self k _) stores]
  by_cases short : (q.size < 0 ∨ chunk = []) ∧
      Short s.pipe.expectedSize (s.pipe.readTotal + chunk.length)
  · have checks : (counted.put k (.checking q chunk)).act k (.checking q chunk) =
        some ((counted.put k (.checking q chunk)).put k (.alarming q chunk)) :=
      congrArg some (if_pos short)
    have alarms : (counted.put k (.alarming q chunk)).act k (.alarming q chunk) =
        some ((counted.put k (.alarming q chunk)).put k (.answered q (.error
          (truncated (s.pipe.readTotal + chunk.length) (s.pipe.expectedSize.getD 0))))) := rfl
    refine ⟨6, (upToCheck 2).trans ?_⟩
    rw [List.replicate_succ, after_advance (counted.put_self k _) checks, counted.put_put,
      List.replicate_one, after_advance (counted.put_self k _) alarms, counted.put_put,
      if_pos short]
    rfl
  · have checks : (counted.put k (.checking q chunk)).act k (.checking q chunk) =
        some ((counted.put k (.checking q chunk)).put k (.answered q (.ok chunk))) :=
      congrArg some (if_neg short)
    refine ⟨5, (upToCheck 1).trans ?_⟩
    rw [List.replicate_one, after_advance (counted.put_self k _) checks, counted.put_put,
      if_neg short]
    rfl

/-- A read whose steps nothing comes between is the read of `_PipeStream`. -/
theorem read_alone (fresh : s.jobs k = none) (whole : s.backingClosed = s.pipe.closed)
    (q : ReadCall) : ∃ n,
      let t := after s (.submit k q :: List.replicate n (.advance k))
      t.pipe = (PipeStream.reading q s.pipe).2 ∧
        t.jobs = Function.update s.jobs k
          (some (.answered q (PipeStream.reading q s.pipe).1)) := by
  rw [PipeStream.reading_apply]
  by_cases refused : s.pipe.closed = true ∨ q.size < -1
  · obtain ⟨n, ends⟩ := refused_alone fresh whole refused
    have same : (PipeStream.readingOutcome q s.pipe).2 = s.pipe := by
      unfold PipeStream.readingOutcome
      dsimp only
      rcases refused with closed | low
      · rw [if_pos closed]
      · split_ifs
        · rfl
        · rfl
    refine ⟨n, ?_⟩
    dsimp only
    rw [ends, same]
    exact ⟨rfl, rfl⟩
  · obtain ⟨isOpen, proper⟩ := not_or.mp refused
    obtain ⟨n, ends⟩ := taking_alone fresh whole isOpen proper
    refine ⟨n, ?_⟩
    dsimp only
    rw [ends]
    exact ⟨rfl, rfl⟩

/-- How often a close that found the flag so calls back. -/
def calls (p : PipeStream) (alreadyClosed : Bool) : Nat :=
  if alreadyClosed = false ∧ p.onClose.isSome then 1 else 0

/-- The stream once a close is through. -/
def shut (s : Shared) (alreadyClosed : Bool) : Shared :=
  { s with
    pipe := { s.pipe with closed := true }
    called := s.called + calls s.pipe alreadyClosed }

theorem callback_eq (s : Shared) (b : Bool) :
    s.callback b = { s with called := s.called + calls s.pipe b } := by
  unfold Shared.callback calls
  split_ifs <;> rfl

/-- The last two steps of a close. -/
theorem after_marking (b : Bool) : after (s.put k (.marking b)) [.advance k, .advance k] =
    (shut s b).put k (.closed b) := by
  let flagged : Shared := { s with pipe := { s.pipe with closed := true } }
  have marks : (s.put k (.marking b)).act k (.marking b) = some (flagged.put k (.leaving b)) := by
    refine congrArg some ?_
    exact congrArg (fun t : Shared => { t with pipe := flagged.pipe }) (s.put_put k _ _)
  have leaves : (flagged.put k (.leaving b)).act k (.leaving b) =
      some ((shut s b).put k (.closed b)) := by
    refine congrArg some ?_
    rw [callback_eq]
    exact (shut s b).put_put k _ _
  rw [after_advance (s.put_self k _) marks, after_advance (flagged.put_self k _) leaves]
  rfl

theorem close_closed_alone (fresh : s.jobs k = none) (closed : s.pipe.closed = true) :
    after s (.submitClose k :: List.replicate 4 (.advance k)) =
      (shut s true).put k (.closed true) := by
  have submits : s.next (.submitClose k) = some (s.put k .closing) := if_pos fresh
  have looks : (s.put k .closing).act k .closing =
      some ((s.put k .closing).put k (.deciding true)) := congrArg some (if_pos closed)
  have decides : (s.put k (.deciding true)).act k (.deciding true) =
      some ((s.put k (.deciding true)).put k (.marking true)) :=
    congrArg (fun j => some ((s.put k (.deciding true)).put k j)) (if_pos closed)
  rw [after_cons submits, List.replicate_succ, after_advance (s.put_self k _) looks, s.put_put,
    List.replicate_succ, after_advance (s.put_self k _) decides, s.put_put]
  exact after_marking true

theorem close_open_alone (fresh : s.jobs k = none) (isOpen : s.pipe.closed = false) :
    after s (.submitClose k :: List.replicate 5 (.advance k)) =
      (shut { s with finders := s.finders ++ [k], backingClosed := true } false).put k
        (.closed false) := by
  have unclosed : ¬ s.pipe.closed = true := by simp [isOpen]
  let found : Shared := { s with finders := s.finders ++ [k] }
  let detached : Shared := { found with backingClosed := true }
  have submits : s.next (.submitClose k) = some (s.put k .closing) := if_pos fresh
  have looks : (s.put k .closing).act k .closing = some (found.put k (.deciding false)) := by
    refine congrArg some ((if_neg unclosed).trans ?_)
    exact congrArg (fun t : Shared => { t with finders := found.finders }) (s.put_put k _ _)
  have decides : (found.put k (.deciding false)).act k (.deciding false) =
      some ((found.put k (.deciding false)).put k (.shutting false)) :=
    congrArg (fun j => some ((found.put k (.deciding false)).put k j)) (if_neg unclosed)
  have detaches : (found.put k (.shutting false)).act k (.shutting false) =
      some (detached.put k (.marking false)) := by
    refine congrArg some ?_
    exact congrArg (fun t : Shared => { t with backingClosed := true }) (found.put_put k _ _)
  rw [after_cons submits, List.replicate_succ, after_advance (s.put_self k _) looks,
    List.replicate_succ, after_advance (found.put_self k _) decides, found.put_put,
    List.replicate_succ, after_advance (found.put_self k _) detaches]
  exact after_marking false

/-- A close whose steps nothing comes between is the close of `_PipeStream`. -/
theorem close_alone (fresh : s.jobs k = none) (whole : s.backingClosed = s.pipe.closed) : ∃ n,
    let t := after s (.submitClose k :: List.replicate n (.advance k))
    let handle := (Handle.close (s.pipe.onClose.map fun _ => pure ()) none
      { closed := s.pipe.closed, invoked := s.called, world := () }).2
    t.pipe = (PipeStream.close s.pipe).2 ∧ t.pipe.closed = handle.closed ∧
      t.called = handle.invoked ∧ t.backingClosed = t.pipe.closed ∧
      t.jobs = Function.update s.jobs k (some (.closed s.pipe.closed)) := by
  rcases closed : s.pipe.closed with _ | _
  · refine ⟨5, ?_⟩
    rw [close_open_alone fresh closed]
    rcases onClose : s.pipe.onClose with _ | temp
    · have none : calls s.pipe false = 0 := if_neg (by simp [onClose])
      exact ⟨rfl, rfl, congrArg (s.called + ·) none, rfl, rfl⟩
    · have once : calls s.pipe false = 1 := if_pos (by simp [onClose])
      exact ⟨rfl, rfl, congrArg (s.called + ·) once, rfl, rfl⟩
  · refine ⟨4, ?_⟩
    rw [close_closed_alone fresh closed, Handle.close_closed _ _ rfl]
    exact ⟨rfl, rfl, rfl, whole.trans closed, rfl⟩

end Alone

/-! ## The order of the takes -/

/-- The call passes for one that has met the end of the data. -/
def Take.Exhausts (data : Bytes) (t : Take) : Prop := t.call.Exhausts (data.drop t.pos)

/-- What the call would give if every call waited for the one before it. -/
def Take.result (data : Bytes) (expected : Option Int) (t : Take) : Except PyExc Bytes :=
  t.call.result data expected t.pos

/-- From `n` on, each call took its bytes where the one before it had left off; the last one
left off at `m`. -/
def Chained (data : Bytes) : Nat → List Take → Nat → Prop
  | n, [], m => n = m
  | n, t :: log, m =>
      (t.pos = n ∧ -1 ≤ t.call.size) ∧ Chained data (n + (t.chunk data).length) log m

variable {data : Bytes} {expected : Option Int} {onClose : Option Nat} {log : List Take} {n m : Nat}

theorem Chained.snoc (chained : Chained data n log m) {t : Take} (at' : t.pos = m)
    (proper : -1 ≤ t.call.size) : Chained data n (log ++ [t]) (m + (t.chunk data).length) := by
  induction log generalizing n with
  | nil =>
      obtain rfl : n = m := chained
      exact ⟨⟨at', proper⟩, rfl⟩
  | cons first log ih => exact ⟨chained.1, ih chained.2⟩

/-- The chunks, one after the other, are the data. -/
theorem Chained.bytes (chained : Chained data n log m) :
    data.take n ++ (log.map (Take.chunk data)).flatten = data.take m := by
  induction log generalizing n with
  | nil =>
      obtain rfl : n = m := chained
      exact List.append_nil _
  | cons t log ih =>
      obtain ⟨⟨rfl, -⟩, rest⟩ := chained
      have more : data.take t.pos ++ t.chunk data = data.take (t.pos + (t.chunk data).length) :=
        PipeStream.take_chunk t.call data t.pos
      rw [List.map_cons, List.flatten_cons, ← List.append_assoc, more]
      exact ih rest

theorem Chained.le (chained : Chained data n log m) : n ≤ m := by
  induction log generalizing n with
  | nil => exact Nat.le_of_eq chained
  | cons t log ih => exact (Nat.le_add_right n _).trans (ih chained.2)

theorem Chained.within (chained : Chained data n log m) {t : Take} (logged : t ∈ log) :
    t.pos + (t.chunk data).length ≤ m := by
  induction log generalizing n with
  | nil => cases logged
  | cons first log ih =>
      rcases List.mem_cons.mp logged with rfl | later
      · exact chained.1.1.symm ▸ chained.2.le
      · exact ih chained.2 later

variable (data expected onClose) in
theorem use_opened (q : ReadCall) (proper : -1 ≤ q.size) (n : Nat) :
    PipeStream.use (.opened data expected onClose n) (.reading q) =
      ((q.result data expected n).map .bytes,
        .opened data expected onClose (n + (q.chunk (data.drop n)).length)) := by
  have taken : ¬ q.Refused .refused := fun refused => by
    have low : q.size < -1 := refused.2
    omega
  refine (Exn.bind_pure_apply _ _ _).trans ?_
  rw [PipeStream.reading_eq, q.run_opened data expected onClose .refused n, if_neg taken]

/-- The calls of the log, made one after the other. -/
theorem Chained.run (chained : Chained data n log m) :
    PipeStream.use.run (.opened data expected onClose n) (log.map (.reading ·.call)) =
      (log.map fun t => (t.result data expected).map .bytes, .opened data expected onClose m) := by
  induction log generalizing n with
  | nil =>
      obtain rfl : n = m := chained
      rfl
  | cons t log ih =>
      obtain ⟨⟨rfl, proper⟩, rest⟩ := chained
      have first := use_opened data expected onClose t.call proper t.pos
      rw [List.map_cons]
      unfold Machine.run
      rw [first]
      dsimp only
      rw [show t.pos + (t.call.chunk (data.drop t.pos)).length = t.pos + (t.chunk data).length
        from rfl, ih rest]
      rfl

/-! ## Any interleaving -/

/-- The job has got this far with the bytes of `t`.  An alarm may be one too many; an end
that passes without one shows that the data is not short. -/
def Job.Holds (data : Bytes) (expected : Option Int) (t : Take) : Job → Prop
  | .loading q chunk | .storing q chunk _ | .checking q chunk =>
      q = t.call ∧ chunk = t.chunk data
  | .alarming q chunk => (q = t.call ∧ chunk = t.chunk data) ∧ t.Exhausts data
  | .answered q outcome => q = t.call ∧
      (outcome = .ok (t.chunk data) ∧ ¬ (t.Exhausts data ∧ Short expected data.length) ∨
        (∃ total, outcome = .error (truncated total (expected.getD 0))) ∧ t.Exhausts data)
  | _ => False

/-- The job has taken nothing. -/
def Job.Empty : Job → Prop
  | .loading _ _ | .storing _ _ _ | .checking _ _ | .alarming _ _ => False
  | .answered _ outcome => ∃ exc, outcome = .error exc ∧ exc.cls = .valueError
  | _ => True

namespace Job

/-- The job has nothing to do with the bytes, now or before. -/
def aside : Job → Bool
  | .queued _ | .withdrawn | .closing | .deciding _ | .shutting _ | .marking _ | .leaving _
  | .closed _ => true
  | _ => false

variable {j : Job}

theorem not_holds_of_aside (aside : j.aside = true) {t : Take} : ¬ j.Holds data expected t := by
  cases j <;> first | exact id | cases aside

theorem empty_of_aside (aside : j.aside = true) : j.Empty := by
  cases j <;> first | exact True.intro | cases aside

theorem inFlight_of_aside (aside : j.aside = true) : j.inFlight = false := by
  cases j <;> first | rfl | cases aside

theorem uncounted_of_aside (aside : j.aside = true) : j.uncounted = 0 := by
  cases j <;> first | rfl | cases aside

end Job

/-- How much a party still has to count. -/
def uncounted (o : Option Job) : Nat := o.elim 0 Job.uncounted

namespace Shared

/-- The calls that have taken bytes. -/
def takers (s : Shared) : Finset Nat := (s.log.map Take.job).toFinset

/-- What has been taken and is not counted yet. -/
def outstanding (s : Shared) : Nat := tally uncounted s.takers s.jobs

theorem mem_takers {s : Shared} {k : Nat} : k ∈ s.takers ↔ ∃ t ∈ s.log, t.job = k := by
  unfold takers
  rw [List.mem_toFinset, List.mem_map]

theorem outstanding_put {s : Shared} {k : Nat} {j : Job}
    (same : uncounted (s.jobs k) = j.uncounted) : (s.put k j).outstanding = s.outstanding := by
  by_cases member : k ∈ s.takers
  · have moved := tally_update uncounted s.jobs member (some j)
    rw [same] at moved
    exact Nat.add_right_cancel moved
  · exact tally_update_of_notMem _ s.jobs member (some j)

end Shared

/-- A tally that a lower one follows is short as well. -/
theorem short_mono (short : Short expected n) (le : m ≤ n) : Short expected m := by
  cases expected with
  | none => exact short
  | some size => exact lt_of_le_of_lt (Int.ofNat_le.mpr le) short

/-- What holds of a stream in use, whoever uses it. -/
structure Inv (data : Bytes) (expected : Option Int) (s : Shared) : Prop where
  contents : s.pipe.data = data
  size : s.pipe.expectedSize = expected
  chained : Chained data 0 s.log s.pipe.pos
  bound : s.pipe.pos ≤ data.length
  once : (s.log.map Take.job).Nodup
  holds : ∀ t ∈ s.log, ∃ j, s.jobs t.job = some j ∧ j.Holds data expected t
  empty : ∀ k j, s.jobs k = some j → k ∉ s.takers → j.Empty
  tallied : s.pipe.readTotal + s.outstanding ≤ s.pipe.pos
  -- A total that has been loaded may be out of date, but it is never too high.
  loaded : ∀ k q chunk total, s.jobs k = some (.storing q chunk total) →
    total + s.outstanding ≤ s.pipe.pos

variable {s s' : Shared} {k : Nat} {j j' : Job} {q : ReadCall}

namespace Inv

theorem start (data : Bytes) (expected : Option Int) (onClose : Option Nat) :
    Inv data expected (.start data expected onClose) where
  contents := rfl
  size := rfl
  chained := rfl
  bound := Nat.zero_le _
  once := List.nodup_nil
  holds := nofun
  empty := nofun
  tallied := Nat.le_refl 0
  loaded := nofun

/-- A job that has taken bytes is in the log, once. -/
theorem holds_of_mem (inv : Inv data expected s) {t : Take} (logged : t ∈ s.log)
    (at' : s.jobs t.job = some j) : j.Holds data expected t := by
  obtain ⟨_, same, holds⟩ := inv.holds t logged
  cases at'.symm.trans same
  exact holds

theorem mem_takers_of_not_empty (inv : Inv data expected s) (at' : s.jobs k = some j)
    (full : ¬ j.Empty) : k ∈ s.takers := by
  by_contra outside
  exact full (inv.empty k j at' outside)

theorem notMem_takers (inv : Inv data expected s) (at' : s.jobs k = some j)
    (none : ∀ t, ¬ j.Holds data expected t) : k ∉ s.takers := by
  intro member
  obtain ⟨t, logged, rfl⟩ := Shared.mem_takers.mp member
  exact none t (inv.holds_of_mem logged at')

theorem readTotal_le (inv : Inv data expected s) : s.pipe.readTotal ≤ data.length :=
  (Nat.le_of_add_right_le inv.tallied).trans inv.bound

/-- A job moves on, and neither takes nor counts. -/
theorem put (inv : Inv data expected s) (holds : ∀ t ∈ s.log, t.job = k → j.Holds data expected t)
    (empty : k ∉ s.takers → j.Empty) (same : uncounted (s.jobs k) = j.uncounted)
    (loaded : ∀ q chunk total, j = .storing q chunk total → total ≤ s.pipe.readTotal) :
    Inv data expected (s.put k j) := by
  have outstanding := Shared.outstanding_put same
  exact
  { inv with
    holds := by
      intro t logged
      by_cases at' : t.job = k
      · exact ⟨j, at' ▸ s.put_self k j, holds t logged at'⟩
      · obtain ⟨j', found, holds⟩ := inv.holds t logged
        exact ⟨j', (s.put_of_ne at' j).trans found, holds⟩
    empty := by
      intro i j' found outside
      by_cases at' : i = k
      · subst at'
        cases (s.put_self i j).symm.trans found
        exact empty outside
      · exact inv.empty i j' ((s.put_of_ne at' j).symm.trans found) outside
    tallied := outstanding ▸ inv.tallied
    loaded := by
      intro i q chunk total found
      rw [outstanding]
      by_cases at' : i = k
      · subst at'
        have storing := Option.some.inj ((s.put_self i j).symm.trans found)
        have low := loaded q chunk total storing
        exact (Nat.add_le_add_right low _).trans inv.tallied
      · exact inv.loaded i q chunk total ((s.put_of_ne at' j).symm.trans found) }

/-- A job that has nothing to do with the bytes goes to another such place. -/
theorem aside (inv : Inv data expected s) (before : ∀ j', s.jobs k = some j' → j'.aside = true)
    (after : j.aside = true) : Inv data expected (s.put k j) := by
  have outside : k ∉ s.takers := by
    intro member
    obtain ⟨t, logged, rfl⟩ := Shared.mem_takers.mp member
    obtain ⟨j', at', holds⟩ := inv.holds t logged
    exact Job.not_holds_of_aside (before j' at') holds
  refine inv.put (fun t logged same => ?_) (fun _ => Job.empty_of_aside after) ?_ ?_
  · exact absurd (Shared.mem_takers.mpr ⟨t, logged, same⟩) outside
  · rw [Job.uncounted_of_aside after]
    rcases at' : s.jobs k with _ | j'
    · rfl
    · exact Job.uncounted_of_aside (before j' at')
  · rintro q chunk total rfl
    cases after

/-- What a step that leaves the pipe as it is does to a job. -/
theorem quiet (inv : Inv data expected s) (at' : s.jobs k = some j) (goes : s.Quiet j j') :
    Inv data expected (s.put k j') := by
  have outside (none : ∀ t, ¬ j.Holds data expected t) :
      ∀ t ∈ s.log, t.job = k → j'.Holds data expected t := fun t logged at'' =>
    absurd (Shared.mem_takers.mpr ⟨t, logged, at''⟩) (inv.notMem_takers at' none)
  have inside (full : ¬ j.Empty) : k ∉ s.takers → j'.Empty := fun outside =>
    absurd (inv.mem_takers_of_not_empty at' full) outside
  have held {t : Take} (logged : t ∈ s.log) (same : t.job = k) : j.Holds data expected t :=
    inv.holds_of_mem logged (same ▸ at')
  have same (equal : j.uncounted = j'.uncounted) : uncounted (s.jobs k) = j'.uncounted := by
    rw [at']
    exact equal
  cases goes with
  | refused closed => exact inv.put (outside fun _ => id) (fun _ => ⟨_, rfl, rfl⟩) (same rfl) nofun
  | admitted isOpen =>
      exact inv.put (outside fun _ => id) (fun _ => True.intro) (same rfl) nofun
  | @detached q closed =>
      have text : (Shared.closedBacking q).cls = .valueError := by cases q <;> rfl
      exact inv.put (outside fun _ => id) (fun _ => ⟨_, rfl, text⟩) (same rfl) nofun
  | badLength low =>
      exact inv.put (outside fun _ => id) (fun _ => ⟨_, rfl, rfl⟩) (same rfl) nofun
  | load =>
      refine inv.put (fun _ => held) (inside id) (same rfl) fun q chunk total is => ?_
      cases is
      exact Nat.le_refl _
  | @pass q chunk passes =>
      refine inv.put (fun t logged at'' => ?_) (inside id) (same rfl) nofun
      obtain ⟨rfl, rfl⟩ := held logged at''
      refine ⟨rfl, Or.inl ⟨rfl, fun short => passes ⟨short.1, ?_⟩⟩⟩
      exact inv.size ▸ short_mono short.2 inv.readTotal_le
  | fail ends short =>
      refine inv.put (fun t logged at'' => ?_) (inside id) (same rfl) nofun
      obtain ⟨rfl, rfl⟩ := held logged at''
      exact ⟨⟨rfl, rfl⟩, ends⟩
  | alarm =>
      refine inv.put (fun t logged at'' => ?_) (inside id) (same rfl) nofun
      obtain ⟨⟨rfl, -⟩, ends⟩ := held logged at''
      exact ⟨rfl, Or.inr ⟨⟨_, by rw [inv.size]⟩, ends⟩⟩
  | again closed => exact inv.put (outside fun _ => id) (fun _ => True.intro) (same rfl) nofun
  | shut isOpen => exact inv.put (outside fun _ => id) (fun _ => True.intro) (same rfl) nofun

theorem takers_taken (s : Shared) (t : Take) : (s.taken t).takers = insert t.job s.takers := by
  unfold Shared.takers Shared.taken
  ext k
  simp

theorem outstanding_taken (inv : Inv data expected s) (at' : s.jobs k = some (.reading q)) :
    (s.taken { job := k, call := q, pos := s.pipe.pos }).outstanding =
      s.outstanding + (q.chunk (s.pipe.data.drop s.pipe.pos)).length := by
  have outside : k ∉ s.takers := inv.notMem_takers at' fun _ => id
  unfold Shared.outstanding
  rw [takers_taken]
  exact tally_insert uncounted s.jobs outside (some _)

theorem take (inv : Inv data expected s) (at' : s.jobs k = some (.reading q))
    (proper : -1 ≤ q.size) :
    Inv data expected (s.taken { job := k, call := q, pos := s.pipe.pos }) := by
  obtain rfl := inv.contents
  have outside : k ∉ s.takers := inv.notMem_takers at' fun _ => id
  have more := inv.outstanding_taken at'
  refine
  { contents := rfl
    size := inv.size
    chained := inv.chained.snoc rfl proper
    bound := q.chunk_le inv.bound
    once := ?_
    holds := fun t logged => ?_
    empty := fun i j found absent => ?_
    tallied := ?_
    loaded := fun i q' chunk total found => ?_ }
  · unfold Shared.taken
    rw [List.map_append]
    refine List.nodup_append.mpr ⟨inv.once, List.nodup_singleton k, ?_⟩
    rintro i old _ new rfl
    obtain rfl := List.mem_singleton.mp new
    exact outside (List.mem_toFinset.mpr old)
  · rcases List.mem_append.mp logged with old | new
    · obtain ⟨j, found, holds⟩ := inv.holds t old
      have other : t.job ≠ k := fun same => outside (Shared.mem_takers.mpr ⟨t, old, same⟩)
      exact ⟨j, (s.put_of_ne other _).trans found, holds⟩
    · obtain rfl := List.mem_singleton.mp new
      exact ⟨_, s.put_self k _, rfl, rfl⟩
  · rw [takers_taken, Finset.mem_insert, not_or] at absent
    exact inv.empty i j ((s.put_of_ne absent.1 _).symm.trans found) absent.2
  · have tallied := inv.tallied
    rw [more]
    change s.pipe.readTotal + _ ≤ s.pipe.pos + _
    unfold Take.chunk
    dsimp only
    omega
  · have other : i ≠ k := by
      rintro rfl
      cases (s.put_self i _).symm.trans found
    have loaded := inv.loaded i q' chunk total ((s.put_of_ne other _).symm.trans found)
    rw [more]
    change total + _ ≤ s.pipe.pos + _
    unfold Take.chunk
    dsimp only
    omega

/-- What is counted is no longer outstanding. -/
theorem outstanding_store (inv : Inv data expected s) {chunk : Bytes} {total : Nat}
    (at' : s.jobs k = some (.storing q chunk total)) :
    (s.put k (.checking q chunk)).outstanding + chunk.length = s.outstanding := by
  have member : k ∈ s.takers := inv.mem_takers_of_not_empty at' id
  have moved := tally_update uncounted s.jobs member
    (some (.checking q chunk))
  rw [at'] at moved
  exact moved

theorem store (inv : Inv data expected s) {chunk : Bytes} {total : Nat}
    (at' : s.jobs k = some (.storing q chunk total)) :
    Inv data expected { s.put k (.checking q chunk) with
      pipe := { s.pipe with readTotal := total + chunk.length } } := by
  have less := inv.outstanding_store at'
  have own := inv.loaded k q chunk total at'
  exact
  { inv with
    holds := by
      intro t logged
      obtain ⟨j, found, holds⟩ := inv.holds t logged
      by_cases same : t.job = k
      · subst same
        cases at'.symm.trans found
        exact ⟨_, s.put_self t.job _, holds⟩
      · exact ⟨j, (s.put_of_ne same _).trans found, holds⟩
    empty := by
      intro i j found absent
      have other : i ≠ k := by
        rintro rfl
        exact inv.empty i _ at' absent
      exact inv.empty i j ((s.put_of_ne other _).symm.trans found) absent
    tallied := by
      change total + chunk.length + (s.put k (.checking q chunk)).outstanding ≤ s.pipe.pos
      omega
    loaded := by
      intro i q' chunk' total' found
      have other : i ≠ k := by
        rintro rfl
        cases (s.put_self i _).symm.trans found
      have loaded := inv.loaded i q' chunk' total' ((s.put_of_ne other _).symm.trans found)
      change total' + (s.put k (.checking q chunk)).outstanding ≤ s.pipe.pos
      omega }

theorem step {e : Event} (inv : Inv data expected s) (step : s.Step e s') :
    Inv data expected s' := by
  have fresh {k : Nat} {j : Job} (none : s.jobs k = none) (after : j.aside = true) :
      Inv data expected (s.put k j) :=
    inv.aside (fun j' at' => nomatch none.symm.trans at') after
  have moved {k : Nat} {j : Job} (j' : Job) (at' : s.jobs k = some j) (before : j.aside = true)
      (after : j'.aside = true) : Inv data expected (s.put k j') :=
    inv.aside (fun _ found => Option.some.inj (at'.symm.trans found) ▸ before) after
  cases step with
  | submit none => exact fresh none rfl
  | submitClose none => exact fresh none rfl
  | quiet at' goes => exact inv.quiet at' goes
  | take at' proper => exact inv.take at' proper
  | store at' => exact inv.store at'
  | found at' isOpen => exact { moved (.deciding false) at' rfl rfl with }
  | foundClosed at' closed => exact moved (.deciding true) at' rfl rfl
  | @shutting k b at' => exact { moved (.marking b) at' rfl rfl with }
  | @marking k b at' => exact { moved (.leaving b) at' rfl rfl with }
  | @leaving k b at' =>
      have left := moved (.closed b) at' rfl rfl
      unfold Shared.callback
      split_ifs
      · exact { left with }
      · exact left
  | withdraw at' waiting =>
      rcases waiting with ⟨q, rfl⟩ | rfl
      · exact { moved .withdrawn at' rfl rfl with }
      · exact { moved .withdrawn at' rfl rfl with }
  | abandon at' => exact { inv with }

theorem of_reachable (reachable : (Shared.system data expected onClose).Reachable s) :
    Inv data expected s :=
  reachable.invariant (fun _ first => first ▸ start data expected onClose)
    fun _ _ _ inv step => inv.step (Shared.step_of_next step)

end Inv

/-- The chunks, in the order of the log, are the data as far as the pipe has been read. -/
theorem Inv.bytes (inv : Inv data expected s) :
    (s.log.map (Take.chunk data)).flatten = data.take s.pipe.pos := by
  have bytes := inv.chained.bytes
  rwa [List.take_zero, List.nil_append] at bytes

/-- How the outcome of a call on a shared stream may differ from that of the same call made
in its turn: in the number that an alarm reports, and, unless the data is short, in a false
alarm of the one or the other. -/
inductive Tells (data : Bytes) (expected : Option Int) (chunk : Bytes) :
    Except PyExc Bytes → Except PyExc Bytes → Prop
  | read : Tells data expected chunk (.ok chunk) (.ok chunk)
  | alarm (n m : Nat) : Tells data expected chunk (.error (truncated n (expected.getD 0)))
      (.error (truncated m (expected.getD 0)))
  | falseAlarm (m : Nat) (whole : ¬ Short expected data.length) :
      Tells data expected chunk (.ok chunk) (.error (truncated m (expected.getD 0)))
  | noAlarm (n : Nat) (whole : ¬ Short expected data.length) :
      Tells data expected chunk (.error (truncated n (expected.getD 0))) (.ok chunk)

theorem Inv.tells (inv : Inv data expected s) {t : Take} (logged : t ∈ s.log)
    {outcome : Except PyExc Bytes} (answered : s.jobs t.job = some (.answered q outcome)) :
    t.call = q ∧ Tells data expected (t.chunk data) (t.result data expected) outcome := by
  obtain ⟨rfl, ends⟩ := inv.holds_of_mem logged answered
  have inside : t.pos + (t.chunk data).length ≤ data.length :=
    (inv.chained.within logged).trans inv.bound
  refine ⟨rfl, ?_⟩
  by_cases alarm : t.Exhausts data ∧ Short expected (t.pos + (t.chunk data).length)
  · have result : t.result data expected = .error _ := if_pos alarm
    rw [result]
    rcases ends with ⟨rfl, passes⟩ | ⟨⟨total, rfl⟩, -⟩
    · exact .noAlarm _ fun short => passes ⟨alarm.1, short⟩
    · exact .alarm _ total
  · have result : t.result data expected = .ok (t.chunk data) := if_neg alarm
    rw [result]
    rcases ends with ⟨rfl, -⟩ | ⟨⟨total, rfl⟩, ends⟩
    · exact .read
    · exact .falseAlarm total fun short => alarm ⟨ends, short_mono short inside⟩

theorem Shared.log_step {e : Event} (step : s.Step e s') : s.log <+: s'.log := by
  cases step with
  | take at' proper => exact List.prefix_append _ _
  | leaving at' =>
      unfold Shared.callback
      split_ifs <;> exact List.prefix_refl _
  | _ => exact List.prefix_refl _

/-- What has been taken stays taken, in its order. -/
theorem Shared.log_run {run : List (Event × Shared)}
    (isRun : (system data expected onClose).IsRun s run) : s.log <+: (Lts.last s run).log := by
  have kept : Lts.AllStates (fun u => s.log <+: u.log) s run :=
    isRun.invariant (Lts.AllSteps.trivial run) (List.prefix_refl _)
      fun u _ _ before _ step => before.trans (log_step (step_of_next step))
  exact kept.last

/-- The calls of the log, made in turn on a stream that nobody else uses. -/
def answers (data : Bytes) (expected : Option Int) (onClose : Option Nat) (log : List Take) :
    List (Except PyExc StreamAnswer) :=
  (PipeStream.use.run (.opened data expected onClose 0) (log.map (.reading ·.call))).1

/-- However the calls on a stream overlap, they take the bytes of the entry in order, each
byte once, and the tally never gets ahead.  Every answer is that of the call in its turn, but
for false alarms, and short data is reported all the same; a call that takes nothing ends in
`ValueError`. -/
theorem reads_linearize (reachable : (Shared.system data expected onClose).Reachable s) :
    (s.log.map Take.job).Nodup ∧
    (∀ run, (Shared.system data expected onClose).IsRun s run →
      s.log <+: (Lts.last s run).log) ∧
    (s.log.map (Take.chunk data)).flatten = data.take s.pipe.pos ∧
    s.pipe.readTotal ≤ s.pipe.pos ∧
    ∀ k q outcome, s.jobs k = some (.answered q outcome) →
      (∃ (i : Nat) (t : Take) (answer : Except PyExc Bytes), s.log[i]? = some t ∧ t.job = k ∧
        t.call = q ∧ (answers data expected onClose s.log)[i]? = some (answer.map .bytes) ∧
        Tells data expected (t.chunk data) answer outcome) ∨
      k ∉ s.log.map Take.job ∧ ∃ exc, outcome = .error exc ∧ exc.cls = .valueError := by
  have inv := Inv.of_reachable reachable
  refine ⟨inv.once, fun _ isRun => Shared.log_run isRun, inv.bytes,
    Nat.le_of_add_right_le inv.tallied, fun k q outcome answered => ?_⟩
  by_cases member : k ∈ s.takers
  · obtain ⟨t, logged, rfl⟩ := Shared.mem_takers.mp member
    obtain ⟨i, at'⟩ := List.mem_iff_getElem?.mp logged
    obtain ⟨call, tells⟩ := inv.tells logged answered
    refine Or.inl ⟨i, t, t.result data expected, at', rfl, call, ?_, tells⟩
    unfold answers
    rw [inv.chained.run, List.getElem?_map, at']
    rfl
  · exact Or.inr ⟨fun listed => member (List.mem_toFinset.mpr listed),
      inv.empty k _ answered member⟩

/-- Two reads of three bytes: one has taken its byte and not counted it, the other takes the
rest and counts. -/
def overlapping : List Event :=
  [.submit 0 (read 1), .submit 1 (read (-1)), .advance 0, .advance 0, .advance 1, .advance 1,
    .advance 1, .advance 1, .advance 1, .advance 1]

theorem reads_linearize_overlapping :
    let s := after (.start [1, 2, 3] (some 3) none) overlapping
    (s.log.map (Take.chunk [1, 2, 3])).flatten = [1, 2, 3] ∧ s.pipe.readTotal ≤ s.pipe.pos := by
  intro s
  have reachable : (Shared.system [1, 2, 3] (some 3) none).Reachable s :=
    ⟨_, _, rfl, Lts.follow_isRun (fun _ _ _ taken => taken) _ overlapping, rfl⟩
  obtain ⟨-, -, bytes, tally, -⟩ := reads_linearize reachable
  exact ⟨bytes, tally⟩

/-- The alarm sounds for an entry of which every byte has come through. -/
theorem overlapping_alarm :
    (after (.start [1, 2, 3] (some 3) none) overlapping).jobs 1 =
      some (.answered (read (-1)) (.error (truncated 2 3))) := rfl

namespace Shared

/-- The caller of the call gets its bytes. -/
def delivers (s : Shared) (t : Take) : Bool :=
  !s.unheard t.job && match s.jobs t.job with
    | some (.answered _ (.ok _)) => true
    | _ => false

end Shared

/-- Dropping parts of a whole leaves it as it is exactly if they are empty. -/
theorem flatten_filter_iff {α β : Type} (f : α → List β) (keep : α → Bool) (parts : List α) :
    ((parts.filter keep).map f).flatten = (parts.map f).flatten ↔
      ∀ a ∈ parts, keep a = true ∨ f a = [] := by
  induction parts with
  | nil => exact iff_of_true rfl nofun
  | cons a parts ih =>
      rw [List.forall_mem_cons, ← ih]
      by_cases kept : keep a = true
      · rw [List.filter_cons_of_pos kept, List.map_cons, List.flatten_cons, List.map_cons,
          List.flatten_cons, List.append_cancel_left_eq]
        exact (and_iff_right (Or.inl kept)).symm
      · rw [List.filter_cons_of_neg kept, List.map_cons, List.flatten_cons, or_iff_right kept]
        have fewer : ((parts.filter keep).map f).flatten.length ≤ (parts.map f).flatten.length :=
          ((List.filter_sublist.map f).flatten).length_le
        constructor
        · intro same
          have lengths := congrArg List.length same
          rw [List.length_append] at lengths
          have none : f a = [] := List.length_eq_zero_iff.mp (by omega)
          exact ⟨none, by rwa [none, List.nil_append] at same⟩
        · rintro ⟨none, same⟩
          rw [none, same, List.nil_append]

/-- What the callers get is all that was taken, unless a read that has taken bytes was
cancelled, raised the alarm or is still at work. -/
theorem delivered_iff (reachable : (Shared.system data expected onClose).Reachable s) :
    ((s.log.filter s.delivers).map (Take.chunk data)).flatten = data.take s.pipe.pos ↔
      ∀ t ∈ s.log, s.delivers t = true ∨ t.chunk data = [] := by
  rw [← (Inv.of_reachable reachable).bytes]
  exact flatten_filter_iff _ _ _

/-! ## Reads in turn -/

namespace Shared

/-- No call that has taken its bytes has still to check the tally. -/
def Calm (s : Shared) : Prop := ∀ t ∈ s.log, ∀ j ∈ s.jobs t.job, j.inFlight = false

instance (s : Shared) : Decidable s.Calm :=
  inferInstanceAs (Decidable (∀ t ∈ s.log, ∀ j ∈ s.jobs t.job, j.inFlight = false))

/-- No read takes its bytes while another has still to check the tally. -/
def Orderly (s : Shared) : Event → Prop
  | .advance k => (s.jobs k).any Job.isReading = true → s.Calm
  | _ => True

instance (s : Shared) : (e : Event) → Decidable (s.Orderly e)
  | .advance k => inferInstanceAs (Decidable ((s.jobs k).any Job.isReading = true → s.Calm))
  | .submit _ _ | .submitClose _ | .cancel _ => inferInstanceAs (Decidable True)

end Shared

/-- Only calls that have taken bytes are ever in flight. -/
theorem Inv.landed (inv : Inv data expected s) (calm : s.Calm) :
    ∀ i j, s.jobs i = some j → j.inFlight = false := by
  intro i j found
  by_contra flying
  have full : ¬ j.Empty := by
    intro empty
    cases j <;> first | exact empty | exact flying rfl
  obtain ⟨t, logged, rfl⟩ := Shared.mem_takers.mp (inv.mem_takers_of_not_empty found full)
  exact flying (calm t logged j found)

/-- What holds besides while the reads are in turn. -/
structure Serial (data : Bytes) (expected : Option Int) (s : Shared) : Prop where
  alone : ∀ i i' j j', s.jobs i = some j → j.inFlight = true → s.jobs i' = some j' →
    j'.inFlight = true → i = i'
  exact : s.pipe.readTotal + s.outstanding = s.pipe.pos
  loaded : ∀ k q chunk total, s.jobs k = some (.storing q chunk total) → total = s.pipe.readTotal
  -- A call in flight is the last one to have taken anything.
  last : ∀ t ∈ s.log, ∀ j, s.jobs t.job = some j → j.inFlight = true →
    t.pos + (t.chunk data).length = s.pipe.pos
  alarming : ∀ k q chunk, s.jobs k = some (.alarming q chunk) →
    Short expected s.pipe.readTotal ∧ s.pipe.readTotal = s.pipe.pos
  settled : ∀ t ∈ s.log, ∀ q outcome, s.jobs t.job = some (.answered q outcome) →
    outcome = t.result data expected

namespace Serial

theorem start (data : Bytes) (expected : Option Int) (onClose : Option Nat) :
    Serial data expected (.start data expected onClose) where
  alone := fun _ _ _ _ found => nomatch found
  exact := rfl
  loaded := fun _ _ _ _ found => nomatch found
  last := fun _ logged => absurd logged List.not_mem_nil
  alarming := fun _ _ _ found => nomatch found
  settled := fun _ logged => absurd logged List.not_mem_nil

/-- Once its own part is counted, a call in flight finds the tally complete. -/
theorem complete (serial : Serial data expected s) (at' : s.jobs k = some j)
    (flying : j.inFlight = true) (counted : j.uncounted = 0) : s.pipe.readTotal = s.pipe.pos := by
  have none : s.outstanding = 0 := by
    refine tally_eq_zero fun i _ => ?_
    rcases found : s.jobs i with _ | j'
    · rfl
    · by_contra more
      have flying' : j'.inFlight = true := by
        cases j' <;> first | rfl | exact absurd rfl more
      obtain rfl := serial.alone k i j j' at' flying found flying'
      cases at'.symm.trans found
      exact more counted
  have exact' := serial.exact
  omega

/-- A job moves on, and neither takes nor counts. -/
theorem put (serial : Serial data expected s)
    (flying : j.inFlight = true → ∃ j', s.jobs k = some j' ∧ j'.inFlight = true)
    (same : uncounted (s.jobs k) = j.uncounted)
    (loaded : ∀ q chunk total, j = .storing q chunk total → total = s.pipe.readTotal)
    (alarming : ∀ q chunk, j = .alarming q chunk →
      Short expected s.pipe.readTotal ∧ s.pipe.readTotal = s.pipe.pos)
    (settled : ∀ t ∈ s.log, t.job = k → ∀ q outcome, j = .answered q outcome →
      outcome = t.result data expected) : Serial data expected (s.put k j) := by
  have flew {i : Nat} {j' : Job} (found : (s.put k j).jobs i = some j')
      (inFlight : j'.inFlight = true) : ∃ j₀, s.jobs i = some j₀ ∧ j₀.inFlight = true := by
    by_cases at' : i = k
    · subst at'
      cases (s.put_self i j).symm.trans found
      exact flying inFlight
    · exact ⟨j', (s.put_of_ne at' j).symm.trans found, inFlight⟩
  exact
  { alone := by
      intro i i' j₁ j₂ found inFlight found' inFlight'
      obtain ⟨_, was, flew₁⟩ := flew found inFlight
      obtain ⟨_, was', flew₂⟩ := flew found' inFlight'
      exact serial.alone i i' _ _ was flew₁ was' flew₂
    exact := (Shared.outstanding_put same).symm ▸ serial.exact
    loaded := by
      intro i q chunk total found
      by_cases at' : i = k
      · subst at'
        exact loaded q chunk total (Option.some.inj ((s.put_self i j).symm.trans found))
      · exact serial.loaded i q chunk total ((s.put_of_ne at' j).symm.trans found)
    last := by
      intro t logged j' found inFlight
      obtain ⟨j₀, was, flew₀⟩ := flew found inFlight
      exact serial.last t logged j₀ was flew₀
    alarming := by
      intro i q chunk found
      by_cases at' : i = k
      · subst at'
        exact alarming q chunk (Option.some.inj ((s.put_self i j).symm.trans found))
      · exact serial.alarming i q chunk ((s.put_of_ne at' j).symm.trans found)
    settled := by
      intro t logged q outcome found
      by_cases at' : t.job = k
      · subst at'
        exact settled t logged rfl q outcome (Option.some.inj ((s.put_self _ j).symm.trans found))
      · exact serial.settled t logged q outcome ((s.put_of_ne at' j).symm.trans found) }

/-- A job that has nothing to do with the bytes goes to another such place. -/
theorem aside (serial : Serial data expected s)
    (before : ∀ j', s.jobs k = some j' → j'.aside = true) (after : j.aside = true) :
    Serial data expected (s.put k j) := by
  refine serial.put (fun flying => ?_) ?_ ?_ ?_ ?_
  · rw [Job.inFlight_of_aside after] at flying
    cases flying
  · rw [Job.uncounted_of_aside after]
    rcases at' : s.jobs k with _ | j'
    · rfl
    · exact Job.uncounted_of_aside (before j' at')
  · rintro q chunk total rfl
    cases after
  · rintro q chunk rfl
    cases after
  · rintro t logged same q outcome rfl
    cases after

/-- In turn, a check sees the tally that the read leaves when it is alone. -/
theorem readTotal_eq (serial : Serial data expected s) {t : Take} (logged : t ∈ s.log)
    (at' : s.jobs t.job = some j) (flying : j.inFlight = true) (counted : j.uncounted = 0) :
    s.pipe.readTotal = t.pos + (t.chunk data).length :=
  (serial.complete at' flying counted).trans (serial.last t logged j at' flying).symm

theorem quiet (serial : Serial data expected s) (inv : Inv data expected s)
    (at' : s.jobs k = some j) (goes : s.Quiet j j') : Serial data expected (s.put k j') := by
  have same (equal : j.uncounted = j'.uncounted) : uncounted (s.jobs k) = j'.uncounted := by
    rw [at']
    exact equal
  have outside (none : ∀ t, ¬ j.Holds data expected t) : ∀ t ∈ s.log, t.job ≠ k :=
    fun t logged at'' => inv.notMem_takers at' none (Shared.mem_takers.mpr ⟨t, logged, at''⟩)
  have held {t : Take} (logged : t ∈ s.log) (same : t.job = k) : j.Holds data expected t :=
    inv.holds_of_mem logged (same ▸ at')
  -- A job that is not in flight afterwards, and is not answered unless it took nothing.
  have landed (none : j'.inFlight = false) (equal : j.uncounted = j'.uncounted)
      (settled : ∀ t ∈ s.log, t.job = k → ∀ q outcome, j' = .answered q outcome →
        outcome = t.result data expected) : Serial data expected (s.put k j') := by
    refine serial.put (fun flying => ?_) (same equal) ?_ ?_ settled
    · rw [none] at flying
      cases flying
    · rintro q chunk total rfl
      cases none
    · rintro q chunk rfl
      cases none
  cases goes with
  | refused closed =>
      exact landed rfl rfl fun t logged at'' => absurd at'' (outside (fun _ => id) t logged)
  | admitted isOpen =>
      exact landed rfl rfl fun t logged at'' => absurd at'' (outside (fun _ => id) t logged)
  | detached closed =>
      exact landed rfl rfl fun t logged at'' => absurd at'' (outside (fun _ => id) t logged)
  | badLength low =>
      exact landed rfl rfl fun t logged at'' => absurd at'' (outside (fun _ => id) t logged)
  | load =>
      refine serial.put (fun _ => ⟨_, at', rfl⟩) (same rfl) ?_ (fun _ _ is => nomatch is)
        fun _ _ _ _ _ is => nomatch is
      intro q chunk total is
      cases is
      rfl
  | @pass q chunk passes =>
      refine landed rfl rfl ?_
      rintro t logged rfl _ _ ⟨⟩
      obtain ⟨rfl, rfl⟩ := held logged rfl
      refine (if_neg fun short => passes ⟨short.1, ?_⟩).symm
      rw [inv.size, serial.readTotal_eq logged at' rfl rfl]
      exact short.2
  | fail ends short =>
      refine serial.put (fun _ => ⟨_, at', rfl⟩) (same rfl) (fun _ _ _ is => nomatch is) ?_
        fun _ _ _ _ _ is => nomatch is
      exact fun _ _ _ => ⟨inv.size ▸ short, serial.complete at' rfl rfl⟩
  | @alarm q chunk =>
      refine landed rfl rfl ?_
      rintro t logged rfl _ _ ⟨⟩
      obtain ⟨-, ends⟩ := held logged rfl
      have total := serial.readTotal_eq logged at' rfl rfl
      have short := (serial.alarming t.job q chunk at').1
      rw [total] at short
      rw [inv.size, total]
      exact (if_pos ⟨ends, short⟩).symm
  | again closed =>
      exact landed rfl rfl fun t logged at'' => absurd at'' (outside (fun _ => id) t logged)
  | shut isOpen =>
      exact landed rfl rfl fun t logged at'' => absurd at'' (outside (fun _ => id) t logged)

theorem take (serial : Serial data expected s) (inv : Inv data expected s)
    (at' : s.jobs k = some (.reading q))
    (orderly : ∀ i j, s.jobs i = some j → j.inFlight = false) :
    Serial data expected (s.taken { job := k, call := q, pos := s.pipe.pos }) := by
  obtain rfl := inv.contents
  have outside : k ∉ s.takers := inv.notMem_takers at' fun _ => id
  have more := inv.outstanding_taken at'
  have only {i : Nat} {j : Job}
      (found : (s.taken { job := k, call := q, pos := s.pipe.pos }).jobs i = some j)
      (flying : j.inFlight = true) : i = k := by
    by_contra other
    rw [orderly i j ((s.put_of_ne other _).symm.trans found)] at flying
    cases flying
  have loading {j : Job}
      (found : (s.taken { job := k, call := q, pos := s.pipe.pos }).jobs k = some j) :
      j = .loading q (q.chunk (s.pipe.data.drop s.pipe.pos)) :=
    Option.some.inj (found.symm.trans (s.put_self k _))
  refine
  { alone := fun i i' j j' found flying found' flying' =>
      (only found flying).trans (only found' flying').symm
    exact := ?_
    loaded := fun i q' chunk total found => ?_
    last := fun t logged j found flying => ?_
    alarming := fun i q' chunk found => ?_
    settled := fun t logged q' outcome found => ?_ }
  · have exact' := serial.exact
    rw [more]
    change s.pipe.readTotal + _ = s.pipe.pos + _
    unfold Take.chunk
    dsimp only
    omega
  · obtain rfl := only found rfl
    cases loading found
  · have same := only found flying
    rcases List.mem_append.mp logged with old | new
    · exact absurd (Shared.mem_takers.mpr ⟨t, old, same⟩) outside
    · obtain rfl := List.mem_singleton.mp new
      rfl
  · obtain rfl := only found rfl
    cases loading found
  · rcases List.mem_append.mp logged with old | new
    · have other : t.job ≠ k := fun same => outside (Shared.mem_takers.mpr ⟨t, old, same⟩)
      exact serial.settled t old q' outcome ((s.put_of_ne other _).symm.trans found)
    · obtain rfl := List.mem_singleton.mp new
      cases loading found

theorem store (serial : Serial data expected s) (inv : Inv data expected s) {chunk : Bytes}
    {total : Nat} (at' : s.jobs k = some (.storing q chunk total)) :
    Serial data expected { s.put k (.checking q chunk) with
      pipe := { s.pipe with readTotal := total + chunk.length } } := by
  have less := inv.outstanding_store at'
  obtain rfl := serial.loaded k q chunk total at'
  have flew {i : Nat} {j : Job} (found : (s.put k (.checking q chunk)).jobs i = some j)
      (flying : j.inFlight = true) : i = k := by
    by_contra other
    exact other (serial.alone i k _ _ ((s.put_of_ne other _).symm.trans found) flying at' rfl)
  have checking {j : Job} (found : (s.put k (.checking q chunk)).jobs k = some j) :
      j = .checking q chunk := Option.some.inj (found.symm.trans (s.put_self k _))
  exact
  { alone := fun i i' j j' found flying found' flying' =>
      (flew found flying).trans (flew found' flying').symm
    exact := by
      have exact' := serial.exact
      change s.pipe.readTotal + chunk.length + (s.put k (.checking q chunk)).outstanding =
        s.pipe.pos
      omega
    loaded := by
      intro i q' chunk' total' found
      obtain rfl := flew found rfl
      cases checking found
    last := by
      intro t logged j found flying
      exact serial.last t logged _ (flew found flying ▸ at') rfl
    alarming := by
      intro i q' chunk' found
      obtain rfl := flew found rfl
      cases checking found
    settled := by
      intro t logged q' outcome found
      by_cases same : t.job = k
      · subst same
        cases checking found
      · exact serial.settled t logged q' outcome ((s.put_of_ne same _).symm.trans found) }

theorem step {e : Event} (serial : Serial data expected s) (inv : Inv data expected s)
    (orderly : s.Orderly e) (step : s.Step e s') : Serial data expected s' := by
  have fresh {k : Nat} {j : Job} (none : s.jobs k = none) (after : j.aside = true) :
      Serial data expected (s.put k j) :=
    serial.aside (fun j' at' => nomatch none.symm.trans at') after
  have moved {k : Nat} {j : Job} (j' : Job) (at' : s.jobs k = some j) (before : j.aside = true)
      (after : j'.aside = true) : Serial data expected (s.put k j') :=
    serial.aside (fun _ found => Option.some.inj (at'.symm.trans found) ▸ before) after
  cases step with
  | submit none => exact fresh none rfl
  | submitClose none => exact fresh none rfl
  | quiet at' goes => exact serial.quiet inv at' goes
  | take at' proper =>
      have calm : s.Calm := orderly (by rw [at']; rfl)
      exact serial.take inv at' (inv.landed calm)
  | store at' => exact serial.store inv at'
  | found at' isOpen => exact { moved (.deciding false) at' rfl rfl with }
  | foundClosed at' closed => exact moved (.deciding true) at' rfl rfl
  | @shutting k b at' => exact { moved (.marking b) at' rfl rfl with }
  | @marking k b at' => exact { moved (.leaving b) at' rfl rfl with }
  | @leaving k b at' =>
      have left := moved (.closed b) at' rfl rfl
      unfold Shared.callback
      split_ifs
      · exact { left with }
      · exact left
  | withdraw at' waiting =>
      rcases waiting with ⟨q, rfl⟩ | rfl
      · exact { moved .withdrawn at' rfl rfl with }
      · exact { moved .withdrawn at' rfl rfl with }
  | abandon at' => exact { serial with }

end Serial

theorem Serial.of_run {run : List (Event × Shared)}
    (isRun : (Shared.system data expected onClose).IsRun (.start data expected onClose) run)
    (orderly : Lts.AllSteps Shared.Orderly (.start data expected onClose) run) :
    Serial data expected (Lts.last (.start data expected onClose) run) := by
  have kept : Lts.AllStates (fun u => Inv data expected u ∧ Serial data expected u)
      (.start data expected onClose) run :=
    isRun.invariant orderly ⟨.start data expected onClose, .start data expected onClose⟩
      fun _ _ _ both orderly step =>
        have taken := Shared.step_of_next step
        ⟨both.1.step taken, both.2.step both.1 orderly taken⟩
  exact kept.last.2

/-- While no read takes its bytes before the one ahead of it has checked the tally, each
answer is exactly that of the call in its turn. -/
theorem orderly_reads_exact (data : Bytes) (expected : Option Int) (onClose : Option Nat)
    (run : List (Event × Shared))
    (isRun : (Shared.system data expected onClose).IsRun (.start data expected onClose) run)
    (orderly : Lts.AllSteps Shared.Orderly (.start data expected onClose) run) :
    let s := Lts.last (.start data expected onClose) run
    ∀ (i : Nat) (t : Take) (q : ReadCall) (outcome : Except PyExc Bytes), s.log[i]? = some t →
      s.jobs t.job = some (.answered q outcome) →
      (answers data expected onClose s.log)[i]? = some (outcome.map .bytes) := by
  intro s i t q outcome at' answered
  have inv : Inv data expected s := Inv.of_reachable ⟨_, run, rfl, isRun, rfl⟩
  have serial : Serial data expected s := .of_run isRun orderly
  obtain rfl := serial.settled t (List.mem_of_getElem? at') q outcome answered
  unfold answers
  rw [inv.chained.run, List.getElem?_map, at']
  rfl

/-- Two reads, the second made once the first has been answered. -/
def inTurn : List Event :=
  .submit 0 (read 2) :: List.replicate 5 (.advance 0) ++
    .submit 1 (read (-1)) :: List.replicate 5 (.advance 1)

theorem orderly_reads_exact_inTurn :
    (answers [1, 2, 3] (some 3) none (after (.start [1, 2, 3] (some 3) none) inTurn).log)[1]? =
      some (.ok (.bytes [3])) :=
  orderly_reads_exact [1, 2, 3] (some 3) none
    (Lts.follow Shared.next (.start [1, 2, 3] (some 3) none) inTurn)
    (Lts.follow_isRun (fun _ _ _ taken => taken) _ inTurn) (by decide) 1
    { job := 1, call := read (-1), pos := 2 } (read (-1)) (.ok [3]) rfl rfl

/-- The job is over. -/
def Job.ended : Job → Bool
  | .answered _ _ | .withdrawn | .closed _ => true
  | _ => false

/-- Whoever makes a call has waited for the end of every call before it. -/
def Shared.Awaited (s : Shared) : Event → Prop
  | .submit _ _ | .submitClose _ => ∀ i j, s.jobs i = some j → j.ended = true
  | _ => True

/-- At most one call is under way. -/
def Single (jobs : Nat → Option Job) : Prop :=
  ∀ i i' j j', jobs i = some j → j.ended = false → jobs i' = some j' → j'.ended = false → i = i'

namespace Single

variable {jobs : Nat → Option Job}

/-- The one call under way moves on. -/
theorem update (single : Single jobs) (at' : jobs k = some j) (active : j.ended = false)
    (j' : Job) : Single (Function.update jobs k (some j')) := by
  have was {i : Nat} {o : Job} (found : Function.update jobs k (some j') i = some o)
      (running : o.ended = false) : i = k := by
    by_contra other
    rw [Function.update_of_ne other] at found
    exact other (single i k o j found running at' active)
  intro i i' o o' found running found' running'
  exact (was found running).trans (was found' running').symm

/-- A call is made while none is under way. -/
theorem submit (idle : ∀ i j, jobs i = some j → j.ended = true) (j' : Job) :
    Single (Function.update jobs k (some j')) := by
  have was {i : Nat} {o : Job} (found : Function.update jobs k (some j') i = some o)
      (running : o.ended = false) : i = k := by
    by_contra other
    rw [Function.update_of_ne other] at found
    rw [idle i o found] at running
    cases running
  intro i i' o o' found running found' running'
  exact (was found running).trans (was found' running').symm

theorem step (single : Single s.jobs) {e : Event} (awaited : s.Awaited e) (step : s.Step e s') :
    Single s'.jobs := by
  cases step with
  | submit fresh => exact submit awaited _
  | submitClose fresh => exact submit awaited _
  | quiet at' goes =>
      refine single.update at' ?_ _
      cases goes <;> rfl
  | take at' proper => exact single.update at' rfl _
  | store at' => exact single.update at' rfl _
  | found at' isOpen => exact single.update at' rfl _
  | foundClosed at' closed => exact single.update at' rfl _
  | shutting at' => exact single.update at' rfl _
  | marking at' => exact single.update at' rfl _
  | @leaving k b at' =>
      have left := single.update at' rfl (.closed b)
      unfold Shared.callback
      split_ifs <;> exact left
  | withdraw at' waiting =>
      rcases waiting with ⟨q, rfl⟩ | rfl
      · exact single.update at' rfl _
      · exact single.update at' rfl _
  | abandon at' => exact single

/-- The call that takes its bytes is the one under way, so that none is in flight. -/
theorem orderly (single : Single s.jobs) (e : Event) : s.Orderly e := by
  cases e with
  | advance k =>
      intro reads t logged j found
      by_contra flying
      rcases at' : s.jobs k with _ | j' <;> rw [at'] at reads
      · cases reads
      · have running : j.ended = false := by
          cases j <;> first | rfl | exact absurd rfl flying
        have running' : j'.ended = false := by
          cases j' <;> first | rfl | cases reads
        obtain rfl : t.job = k := single t.job k j j' found running at' running'
        cases at'.symm.trans found
        cases j <;> first | exact flying rfl | cases reads
  | _ => exact True.intro

end Single

/-- Calls that are awaited one by one are in turn. -/
theorem awaited_orderly {run : List (Event × Shared)}
    (isRun : (Shared.system data expected onClose).IsRun (.start data expected onClose) run)
    (awaited : Lts.AllSteps Shared.Awaited (.start data expected onClose) run) :
    Lts.AllSteps Shared.Orderly (.start data expected onClose) run := by
  have kept : Lts.AllStates (fun u => Single u.jobs) (.start data expected onClose) run :=
    isRun.invariant awaited (fun _ _ _ _ found => nomatch found)
      fun _ _ _ single awaited step => single.step awaited (Shared.step_of_next step)
  exact kept.allSteps isRun fun _ e _ single _ _ => single.orderly e

/-! ## Closes -/

namespace Job

/-- The job is a close that has found the stream open. -/
def finds : Job → Bool
  | .deciding b | .shutting b | .marking b | .leaving b | .closed b => !b
  | _ => false

/-- The job is a close that has looked at the flag and not set it. -/
def underway : Job → Bool
  | .deciding _ | .shutting _ | .marking _ => true
  | _ => false

/-- The job is a close that has set the flag. -/
def marked : Job → Bool
  | .leaving _ | .closed _ => true
  | _ => false

/-- The job is a close that has found the stream closed. -/
def late : Job → Bool
  | .deciding b | .shutting b | .marking b | .leaving b | .closed b => b
  | _ => false

theorem finds_or_late {j : Job} (underway : j.underway = true) :
    j.finds = true ∨ j.late = true := by
  cases j with
  | deciding b => cases b <;> decide
  | shutting b => cases b <;> decide
  | marking b => cases b <;> decide
  | _ => cases underway

/-- The job is a close that has not returned. -/
def unfinished : Job → Bool
  | .closing | .deciding _ | .shutting _ | .marking _ | .leaving _ => true
  | _ => false

end Job

/-- How often a party will still call back. -/
def callbacks (o : Option Job) : Nat := o.elim 0 Job.callbacks

/-- What holds of the closes. -/
structure Closing (onClose : Option Nat) (s : Shared) : Prop where
  callback : s.pipe.onClose = onClose
  once : s.finders.Nodup
  finds : ∀ k j, s.jobs k = some j → (j.finds = true ↔ k ∈ s.finders)
  submitted : ∀ k ∈ s.finders, s.jobs k ≠ none
  found : s.pipe.closed = true → s.finders ≠ []
  closed : ∀ k j, s.jobs k = some j → j.late = true ∨ j.marked = true → s.pipe.closed = true
  counted : onClose.isSome = true →
    s.called + tally callbacks s.finders.toFinset s.jobs = s.finders.length

namespace Closing

theorem start (data : Bytes) (expected : Option Int) (onClose : Option Nat) :
    Closing onClose (.start data expected onClose) where
  callback := rfl
  once := List.nodup_nil
  finds := fun _ _ found => nomatch found
  submitted := fun _ finder => absurd finder List.not_mem_nil
  found := nofun
  closed := fun _ _ found => nomatch found
  counted := fun _ => rfl

/-- A job moves on, and does not find the stream open by that. -/
theorem place (closing : Closing onClose s) (finds : j.finds = true ↔ k ∈ s.finders)
    (closed : j.late = true ∨ j.marked = true → s.pipe.closed = true) {called : Nat}
    (counted : onClose.isSome = true →
      called + tally callbacks s.finders.toFinset (s.put k j).jobs = s.finders.length) :
    Closing onClose { s.put k j with called } where
  callback := closing.callback
  once := closing.once
  finds := by
    intro i j' found
    by_cases at' : i = k
    · subst at'
      cases (s.put_self i j).symm.trans found
      exact finds
    · exact closing.finds i j' ((s.put_of_ne at' j).symm.trans found)
  submitted := by
    intro i finder
    change (s.put k j).jobs i ≠ none
    by_cases at' : i = k
    · rw [at', s.put_self]
      exact nofun
    · rw [s.put_of_ne at' j]
      exact closing.submitted i finder
  found := closing.found
  closed := by
    intro i j' found either
    by_cases at' : i = k
    · subst at'
      cases (s.put_self i j).symm.trans found
      exact closed either
    · exact closing.closed i j' ((s.put_of_ne at' j).symm.trans found) either
  counted := counted

/-- A job moves on, and calls back neither less nor more by that. -/
theorem put (closing : Closing onClose s) (finds : j.finds = true ↔ k ∈ s.finders)
    (same : callbacks (s.jobs k) = j.callbacks)
    (closed : j.late = true ∨ j.marked = true → s.pipe.closed = true) :
    Closing onClose (s.put k j) := by
  have counted : tally callbacks s.finders.toFinset (s.put k j).jobs =
      tally callbacks s.finders.toFinset s.jobs := by
    by_cases member : k ∈ s.finders.toFinset
    · have moved := tally_update callbacks s.jobs member (some j)
      rw [same] at moved
      exact Nat.add_right_cancel moved
    · exact tally_update_of_notMem _ s.jobs member (some j)
  exact closing.place finds closed fun given => counted ▸ closing.counted given

theorem fresh (closing : Closing onClose s) (none : s.jobs k = none) (finds : j.finds = false)
    (idle : j.callbacks = 0) (neither : ¬ (j.late = true ∨ j.marked = true)) :
    Closing onClose (s.put k j) := by
  have outside : k ∉ s.finders := fun finder => closing.submitted k finder none
  refine closing.put (iff_of_false (by rw [finds]; exact nofun) outside) ?_
    fun either => absurd either neither
  rw [none, idle]
  rfl

/-- A job moves on as `put` allows, whatever it was. -/
theorem move (closing : Closing onClose s) (j' : Job) (at' : s.jobs k = some j)
    (finds : j'.finds = j.finds)
    (same : j.callbacks = j'.callbacks)
    (closed : j'.late = true ∨ j'.marked = true → s.pipe.closed = true) :
    Closing onClose (s.put k j') := by
  refine closing.put ?_ ?_ closed
  · rw [finds]
    exact closing.finds k j at'
  · rw [at']
    exact same

theorem quiet (closing : Closing onClose s) (at' : s.jobs k = some j) (goes : s.Quiet j j') :
    Closing onClose (s.put k j') := by
  have late := closing.closed k j at'
  cases goes with
  | @again b closed => cases b <;> exact closing.move _ at' rfl rfl fun _ => closed
  | @shut b isOpen =>
      cases b <;> exact closing.move _ at' rfl rfl fun either =>
        late (Or.inl (either.resolve_right nofun))
  | _ => exact closing.move _ at' rfl rfl fun either => by simp [Job.late, Job.marked] at either

theorem find (closing : Closing onClose s) (at' : s.jobs k = some .closing) :
    Closing onClose { s.put k (.deciding false) with finders := s.finders ++ [k] } := by
  have outside : k ∉ s.finders := fun finder => nomatch (closing.finds k _ at').mpr finder
  refine
  { callback := closing.callback
    once := ?_
    finds := fun i j found => ?_
    submitted := fun i finder => ?_
    found := fun _ => List.append_ne_nil_of_right_ne_nil _ nofun
    closed := fun i j found either => ?_
    counted := fun given => ?_ }
  · refine List.nodup_append.mpr ⟨closing.once, List.nodup_singleton k, ?_⟩
    rintro i old _ new rfl
    exact outside (List.mem_singleton.mp new ▸ old)
  · rw [List.mem_append, List.mem_singleton]
    by_cases same : i = k
    · subst same
      cases (s.put_self i _).symm.trans found
      exact iff_of_true rfl (Or.inr rfl)
    · rw [or_iff_left same]
      exact closing.finds i j ((s.put_of_ne same _).symm.trans found)
  · change (s.put k _).jobs i ≠ none
    by_cases same : i = k
    · rw [same, s.put_self]
      exact nofun
    · rw [s.put_of_ne same]
      exact closing.submitted i
        ((List.mem_append.mp finder).resolve_right fun new => same (List.mem_singleton.mp new))
  · by_cases same : i = k
    · subst same
      cases (s.put_self i _).symm.trans found
      rcases either with late | marked
      · cases late
      · cases marked
    · exact closing.closed i j ((s.put_of_ne same _).symm.trans found) either
  · have joined : (s.finders ++ [k]).toFinset = insert k s.finders.toFinset := by
      ext i
      simp
    have counted := closing.counted given
    have more : tally callbacks (insert k s.finders.toFinset) (s.put k (.deciding false)).jobs =
        tally callbacks s.finders.toFinset s.jobs + 1 :=
      tally_insert callbacks s.jobs (fun member => outside (List.mem_toFinset.mp member))
        (some (.deciding false))
    change s.called + tally callbacks (s.finders ++ [k]).toFinset (s.put k (.deciding false)).jobs =
      (s.finders ++ [k]).length
    rw [joined, more, List.length_append, List.length_singleton]
    omega

theorem mark (closing : Closing onClose s) {b : Bool} (at' : s.jobs k = some (.marking b)) :
    Closing onClose { s.put k (.leaving b) with pipe := { s.pipe with closed := true } } := by
  have found : s.finders ≠ [] := by
    cases b with
    | false => exact List.ne_nil_of_mem ((closing.finds k _ at').mp rfl)
    | true => exact closing.found (closing.closed k _ at' (Or.inl rfl))
  have marked : Closing onClose { s with pipe := { s.pipe with closed := true } } :=
    { closing with
      found := fun _ => found
      closed := fun _ _ _ _ => rfl }
  cases b <;> exact marked.move _ at' rfl rfl fun _ => rfl

theorem leave (closing : Closing onClose s) {b : Bool} (at' : s.jobs k = some (.leaving b)) :
    Closing onClose ((s.callback b).put k (.closed b)) := by
  have shut : s.pipe.closed = true := closing.closed k _ at' (Or.inr rfl)
  cases b with
  | true =>
      have silent : s.callback true = s := if_neg fun calls => nomatch calls.1
      rw [silent]
      exact closing.move _ at' rfl rfl fun _ => shut
  | false =>
      have finder : k ∈ s.finders := (closing.finds k _ at').mp rfl
      have moved := tally_update callbacks s.jobs
        (List.mem_toFinset.mpr finder) (some (Job.closed false))
      rw [at'] at moved
      have finds : (Job.closed false).finds = true ↔ k ∈ s.finders := iff_of_true rfl finder
      unfold Shared.callback
      split_ifs with calls
      · refine closing.place finds (fun _ => shut) fun given => ?_
        have counted := closing.counted given
        change tally callbacks s.finders.toFinset (s.put k (.closed false)).jobs + 1 =
          tally callbacks s.finders.toFinset s.jobs at moved
        change s.called + 1 + tally callbacks s.finders.toFinset (s.put k (.closed false)).jobs =
          s.finders.length
        omega
      · refine closing.place finds (fun _ => shut) fun given => ?_
        exact absurd ⟨rfl, closing.callback ▸ given⟩ calls

theorem step {e : Event} (closing : Closing onClose s) (step : s.Step e s') :
    Closing onClose s' := by
  cases step with
  | submit none => exact closing.fresh none rfl rfl nofun
  | submitClose none => exact closing.fresh none rfl rfl nofun
  | quiet at' goes => exact closing.quiet at' goes
  | take at' proper => exact { closing.move (.loading _ _) at' rfl rfl nofun with }
  | store at' => exact { closing.move (.checking _ _) at' rfl rfl nofun with }
  | found at' isOpen => exact closing.find at'
  | foundClosed at' closed => exact closing.move _ at' rfl rfl fun _ => closed
  | @shutting k b at' =>
      have late := closing.closed k _ at'
      cases b with
      | false => exact { closing.move (.marking false) at' rfl rfl nofun with }
      | true =>
          have moved := closing.move (.marking true) at' rfl rfl fun _ => late (Or.inl rfl)
          exact { moved with }
  | marking at' => exact closing.mark at'
  | leaving at' => exact closing.leave at'
  | withdraw at' waiting =>
      rcases waiting with ⟨q, rfl⟩ | rfl
      · exact { closing.move (.withdrawn) at' rfl rfl nofun with }
      · exact { closing.move (.withdrawn) at' rfl rfl nofun with }
  | abandon at' => exact { closing with }

end Closing

/-- No close looks at the flag of an open stream while another has yet to set it. -/
def Shared.Apart (s : Shared) : Event → Prop
  | .advance k => s.jobs k = some .closing → s.pipe.closed = false →
      ∀ i j, s.jobs i = some j → j.underway = false
  | _ => True

/-- While the stream is open, the closes that have found it so are those underway. -/
theorem Closing.underway_iff (closing : Closing onClose s) (isOpen : s.pipe.closed = false) :
    s.finders ≠ [] ↔ ∃ i j, s.jobs i = some j ∧ j.underway = true := by
  have unclosed {i : Nat} {j : Job} (found : s.jobs i = some j) :
      ¬ (j.late = true ∨ j.marked = true) := fun either => by
    have closed := closing.closed i j found either
    rw [isOpen] at closed
    cases closed
  constructor
  · intro some
    obtain ⟨i, finder⟩ := List.exists_mem_of_ne_nil _ some
    obtain ⟨j, found⟩ := Option.ne_none_iff_exists'.mp (closing.submitted i finder)
    have finds := (closing.finds i j found).mpr finder
    have neither := unclosed found
    refine ⟨i, j, found, ?_⟩
    cases j <;> first | rfl | cases finds | exact absurd (Or.inr rfl) neither
  · rintro ⟨i, j, found, underway⟩
    have finds : j.finds = true :=
      (Job.finds_or_late underway).resolve_right fun late => unclosed found (Or.inl late)
    exact List.ne_nil_of_mem ((closing.finds i j found).mp finds)

/-- A second close finds the stream open by exactly the steps that are not apart. -/
theorem Closing.second_iff (closing : Closing onClose s) {e : Event} (step : s.Step e s') :
    2 ≤ s'.finders.length ↔ 2 ≤ s.finders.length ∨ ¬ s.Apart e := by
  have kept (same : s'.finders = s.finders) (apart : s.Apart e) :
      2 ≤ s'.finders.length ↔ 2 ≤ s.finders.length ∨ ¬ s.Apart e := by
    rw [same]
    exact (or_iff_left (not_not_intro apart)).symm
  have busy {k : Nat} {j : Job} (at' : s.jobs k = some j) (other : j ≠ .closing) :
      s.Apart (.advance k) := fun closing =>
    absurd (Option.some.inj (at'.symm.trans closing)) other
  cases step with
  | submit none => exact kept rfl True.intro
  | submitClose none => exact kept rfl True.intro
  | quiet at' goes => exact kept rfl (busy at' (by cases goes <;> exact nofun))
  | take at' proper => exact kept rfl (busy at' nofun)
  | store at' => exact kept rfl (busy at' nofun)
  | @found k at' isOpen =>
      have meets : ¬ s.Apart (.advance k) ↔ s.finders ≠ [] := by
        rw [closing.underway_iff isOpen]
        constructor
        · intro late
          by_contra none
          refine late fun _ _ i j found => ?_
          by_contra underway
          exact none ⟨i, j, found, by simpa using underway⟩
        · rintro ⟨i, j, found, underway⟩ apart
          rw [apart at' isOpen i j found] at underway
          cases underway
      rw [meets, ← List.length_pos_iff]
      change 2 ≤ (s.finders ++ [k]).length ↔ _
      rw [List.length_append, List.length_singleton]
      omega
  | foundClosed at' closed =>
      refine kept rfl fun _ isOpen => ?_
      rw [closed] at isOpen
      cases isOpen
  | shutting at' => exact kept rfl (busy at' nofun)
  | marking at' => exact kept rfl (busy at' nofun)
  | leaving at' =>
      refine kept ?_ (busy at' nofun)
      unfold Shared.callback
      split_ifs <;> rfl
  | withdraw at' waiting => exact kept rfl True.intro
  | abandon at' => exact kept rfl True.intro

/-- However closes overlap with each other and with reads: once those submitted have
returned, and one of them was not cancelled, the stream has called back, once for each close
that found it open, and just once exactly if each close looked at the flag apart. -/
theorem called_once_iff (data : Bytes) (expected : Option Int) (temp : Nat)
    (run : List (Event × Shared))
    (isRun : (Shared.system data expected (some temp)).IsRun
      (.start data expected (some temp)) run) :
    let s := Lts.last (.start data expected (some temp)) run
    (∀ k j, s.jobs k = some j → j.unfinished = false) →
    (∃ k b, s.jobs k = some (.closed b)) →
    s.called = s.finders.length ∧ 1 ≤ s.called ∧
      (s.called = 1 ↔ Lts.AllSteps Shared.Apart (.start data expected (some temp)) run) := by
  intro s finished returned
  have kept : Closing (some temp) s :=
    (isRun.invariant (Lts.AllSteps.trivial run) (.start data expected (some temp))
      fun _ _ _ closing _ step => closing.step (Shared.step_of_next step)).last
  have idle : tally callbacks s.finders.toFinset s.jobs = 0 := by
    refine tally_eq_zero fun k _ => ?_
    rcases found : s.jobs k with _ | j
    · rfl
    · have ended := finished k j found
      cases j <;> first | rfl | cases ended
  have called : s.called = s.finders.length := by
    have counted := kept.counted rfl
    omega
  have some' : s.finders ≠ [] := by
    obtain ⟨k, b, closed⟩ := returned
    exact kept.found (kept.closed k _ closed (Or.inr rfl))
  have positive := List.length_pos_iff.mpr some'
  have twice : 2 ≤ s.finders.length ↔ 2 ≤ 0 ∨ ¬ Lts.AllSteps Shared.Apart _ run :=
    isRun.spoilt_iff (I := Closing (some temp)) (D := fun u => 2 ≤ u.finders.length)
      (.start data expected (some temp)) fun _ _ _ closing step =>
        have taken := Shared.step_of_next step
        ⟨closing.step taken, closing.second_iff taken⟩
  rw [or_iff_right (by decide)] at twice
  refine ⟨called, by omega, ?_⟩
  rw [called, ← not_iff_not, ← twice]
  omega

/-- Two closes that both look at the flag before either sets it. -/
def closingTwice : List Event :=
  [.submitClose 0, .submitClose 1, .advance 0, .advance 1] ++
    List.replicate 4 (.advance 0) ++ List.replicate 3 (.advance 1)

theorem called_once_iff_twice :
    let s := after (.start [1, 2, 3] (some 3) (some 0)) closingTwice
    s.called = 2 ∧ (s.called = 1 ↔
      Lts.AllSteps Shared.Apart (.start [1, 2, 3] (some 3) (some 0))
        (Lts.follow Shared.next (.start [1, 2, 3] (some 3) (some 0)) closingTwice)) := by
  intro s
  have finished : ∀ k j, s.jobs k = some j → j.unfinished = false := by
    intro k j found
    match k with
    | 0 =>
        cases (show s.jobs 0 = some (.closed false) from rfl).symm.trans found
        rfl
    | 1 =>
        cases (show s.jobs 1 = some (.closed false) from rfl).symm.trans found
        rfl
    | k + 2 => cases (show s.jobs (k + 2) = none from rfl).symm.trans found
  exact ⟨rfl, (called_once_iff [1, 2, 3] (some 3) 0 _
    (Lts.follow_isRun (fun _ _ _ taken => taken) _ closingTwice) finished ⟨0, false, rfl⟩).2.2⟩

end AsyncEntryStream

end NewtuaPy
