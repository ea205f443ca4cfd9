import NewtuaPy.Spooled

/-!
# Piped or buffered

The two streams of `open`, side by side: `_PipeStream` over what the worker
delivers and `EntryStream` over a spooled file.  They have one surface; the
module compares them call by call.
-/

namespace NewtuaPy

open PipeStream (ReadCall closedFile badLength Short truncated)

/-! ## The surface of a pipe stream -/

namespace PipeStream

def notSeekable : PyExc :=
  { cls := .otherException "UnsupportedOperation", text := "stream=True is not seekable" }

def seek (_pos : Int) (_whence : Whence) : Py PipeStream Nat := Exn.raise notSeekable

def tell : Py PipeStream Nat := Exn.raise notSeekable

/-- `close`, without the callback, which does not act on the stream. -/
def close : Py PipeStream Unit := Exn.modify fun self => { self with closed := true }

/-- The three reading methods. -/
def reading : ReadCall → Py PipeStream Bytes
  | .read size => read size
  | .read1 size => read1 size
  | .readinto length => readinto length

theorem reading_eq (q : ReadCall) : reading q = q.run .refused := by
  cases q <;> rfl

/-- The backing reader takes a chunk, unless it will not take the size. -/
theorem backingRead_eq (q : ReadCall) (p : PipeStream) :
    backingRead q.size p =
      if q.size < -1 then (.error badLength, p)
      else (.ok (q.chunk (p.data.drop p.pos)),
        { p with pos := p.pos + (q.chunk (p.data.drop p.pos)).length }) := by
  unfold backingRead ReadCall.chunk
  rw [Exn.get_bind_apply]
  by_cases low : q.size < -1
  · rw [if_pos low, if_pos low]
    rfl
  · rw [if_neg low, if_neg low]
    by_cases all : q.size = -1
    · have negative : q.size < 0 := by omega
      rw [if_pos negative]
      simp only [all, if_true]
      rfl
    · have sized : ¬ q.size < 0 := by omega
      rw [if_neg sized]
      simp only [all, if_false]
      rfl

/-- What a reading call does to any stream. -/
def readingOutcome (q : ReadCall) (p : PipeStream) : Except PyExc Bytes × PipeStream :=
  let chunk := q.chunk (p.data.drop p.pos)
  let total := p.readTotal + chunk.length
  if p.closed then (.error closedFile, p)
  else if q.size < -1 then (.error badLength, p)
  else (if (q.size < 0 ∨ chunk = []) ∧ Short p.expectedSize total then
      .error (truncated total (p.expectedSize.getD 0)) else .ok chunk,
    { p with pos := p.pos + chunk.length, readTotal := total })

/-- A read and the tally after it. -/
theorem chunked_apply (q : ReadCall) (p : PipeStream) (exhausted : Bytes → Bool)
    (ends : ∀ chunk, exhausted chunk = true ↔ q.size < 0 ∨ chunk = []) :
    (do
      _checkOpen
      let chunk ← backingRead q.size
      _took chunk.length (exhausted chunk)
      pure chunk : Py PipeStream Bytes) p = readingOutcome q p := by
  unfold readingOutcome
  by_cases closed : p.closed = true
  · have raised : _checkOpen p = (.error closedFile, p) := by
      unfold _checkOpen
      rw [Exn.get_bind_apply, if_pos closed]
      rfl
    rw [Exn.bind_of_error raised]
    exact (if_pos closed).symm
  · have passed : _checkOpen p = (.ok (), p) := by
      unfold _checkOpen
      rw [Exn.get_bind_apply, if_neg closed]
      rfl
    rw [Exn.bind_of_ok passed]
    dsimp only
    rw [if_neg closed]
    by_cases low : q.size < -1
    · rw [if_pos low, Exn.bind_of_error ((backingRead_eq q p).trans (if_pos low))]
    · rw [if_neg low, Exn.bind_of_ok ((backingRead_eq q p).trans (if_neg low))]
      have took := _took_run
        { p with pos := p.pos + (q.chunk (p.data.drop p.pos)).length }
        (q.chunk (p.data.drop p.pos)).length (exhausted (q.chunk (p.data.drop p.pos)))
      simp only [ends] at took
      split_ifs at took ⊢ with short
      · exact Exn.bind_of_error took _
      · exact Exn.bind_of_ok took _

theorem reading_apply (q : ReadCall) (p : PipeStream) :
    reading q p = readingOutcome q p := by
  have whole (q : ReadCall) (chunk : Bytes) :
      (decide (q.size < 0) || chunk.isEmpty) = true ↔ q.size < 0 ∨ chunk = [] := by simp
  cases q with
  | read size => exact chunked_apply (.read size) p _ (whole (.read size))
  | read1 size => exact chunked_apply (.read1 size) p _ (whole (.read1 size))
  | readinto length =>
      refine chunked_apply (.readinto length) p List.isEmpty fun chunk => ?_
      have sized : ¬ (ReadCall.readinto length).size < 0 := Int.not_lt.mpr (Int.natCast_nonneg _)
      rw [or_iff_right sized]
      exact List.isEmpty_iff

def call : StreamCall → Py PipeStream StreamAnswer
  | .reading q => do
      let chunk ← reading q
      pure (.bytes chunk)
  | .seek pos whence => do
      let n ← seek pos whence
      pure (.position n)
  | .tell => do
      let n ← tell
      pure (.position n)
  | .readable => pure (.flag true)
  | .seekable => pure (.flag false)
  | .close => do
      close
      pure .none

/-- A pipe stream in use. -/
def use : Machine PipeStream StreamCall (Except PyExc StreamAnswer) := fun self c => call c self

/-- The check of `_took` fails at the call. -/
def Alarms (self : PipeStream) (q : ReadCall) : Prop :=
  let rest := self.data.drop self.pos
  q.Exhausts rest ∧ Short self.expectedSize (self.readTotal + (q.chunk rest).length)

/-- A buffered stream would answer the call in the same way: it does not ask for a position,
its length is one that both files take, and it sets off no alarm.  `onDisk` says where the
buffered stream is. -/
def Alike (onDisk : Bool) (self : PipeStream) : StreamCall → Prop
  | .reading q => self.closed = true ∨ if q.size < -1 then onDisk = true else ¬ self.Alarms q
  | .seek _ _ => False
  | .tell => False
  | .seekable => False
  | .readable => True
  | .close => True

theorem use_closed {self : PipeStream} (closed : self.closed = true) (q : ReadCall) :
    use self (.reading q) = (.error closedFile, self) := by
  obtain ⟨data, pos, expectedSize, readTotal, _, onClose⟩ := self
  obtain rfl : _ = true := closed
  cases q <;> rfl

end PipeStream

/-! ## Side by side -/

/-- A reading call for no more than can be allocated. -/
def ReadCall.Fair (limits : Limits) : ReadCall → Prop
  | .readinto _ => True
  | q => -maxsize - 1 ≤ q.size ∧ q.size ≤ limits.allocatable

/-- Whatever reads, it asks for no more than can be allocated. -/
def StreamCall.Fair (limits : Limits) : StreamCall → Prop
  | .reading q => ReadCall.Fair limits q
  | _ => True

theorem SpooledTemporaryFile.refusal_fair {file : SpooledTemporaryFile} {q : ReadCall}
    (fair : ReadCall.Fair file.limits q) :
    file.refusal q = if file.onDisk = true ∧ q.size < -1 then some badLength else none := by
  have allocates := file.limits.allocates
  have sized (size : Int) (low : -maxsize - 1 ≤ size) (high : size ≤ file.limits.allocatable) :
      file.readRefusal size =
        if file.onDisk = true ∧ size < -1 then some badLength else none := by
    have index : Index size := ⟨low, by unfold longestBytes at allocates; omega⟩
    unfold readRefusal
    rw [if_neg (not_not_intro index)]
    by_cases onDisk : file.onDisk = true
    · rw [if_neg (not_not_intro onDisk), if_neg (by omega : ¬longestBytes < size),
        if_neg (by omega : ¬(file.limits.allocatable : Int) < size)]
      exact if_congr (and_iff_right onDisk).symm rfl rfl
    · rw [if_pos onDisk, if_neg fun both => onDisk both.1]
  cases q with
  | read size => exact sized (size.getD (-1)) fair.1 fair.2
  | read1 size => exact sized size fair.1 fair.2
  | readinto length =>
      refine (if_neg fun low => ?_).symm
      have negative : (length : Int) < -1 := low.2
      omega

/-- A file that can seek does not say that it cannot. -/
theorem SpooledTemporaryFile.seekRefusal_ne {file : SpooledTemporaryFile} {offset : Int}
    {whence : Whence} {exc : PyExc} (refused : file.seekRefusal offset whence = some exc) :
    exc ≠ PipeStream.notSeekable := by
  unfold seekRefusal at refused
  dsimp only at refused
  intro same
  subst same
  split_ifs at refused <;> cases congrArg (Option.map PyExc.cls) refused

/-- A pipe stream and a buffered one that have come equally far. -/
structure Abreast (limits : Limits) (onDisk : Bool) (p : PipeStream) (t : EntryStream) :
    Prop where
  data : p.data = t.backing.data
  pos : p.pos = t.backing.pos
  tally : p.readTotal = p.pos
  closed : p.closed = t.closed
  closes : t.closed = t.backing.closed
  calm : t.backing.faults = []
  limits : t.backing.limits = limits
  kind : t.backing.onDisk = onDisk

namespace Abreast

variable {limits : Limits} {onDisk : Bool} {p : PipeStream} {t : EntryStream}

theorem opened (abreast : Abreast limits onDisk p t) (unclosed : p.closed = false) :
    p = PipeStream.opened p.data p.expectedSize p.onClose p.pos := by
  obtain ⟨data, pos, expectedSize, readTotal, closed, onClose⟩ := p
  obtain rfl : readTotal = pos := abreast.tally
  obtain rfl : closed = false := unclosed
  rfl

theorem isOpen (abreast : Abreast limits onDisk p t) (unclosed : p.closed = false) : t.Open := by
  have isOpen : t.closed = false := abreast.closed ▸ unclosed
  exact ⟨isOpen, abreast.closes ▸ isOpen, abreast.calm⟩

/-- A reading call on an open pipe stream. -/
theorem use_reading (abreast : Abreast limits onDisk p t) (unclosed : p.closed = false)
    (q : ReadCall) :
    PipeStream.use p (.reading q) =
      if q.size < -1 then (.error badLength, p)
      else ((q.result p.data p.expectedSize p.pos).map .bytes,
        .opened p.data p.expectedSize p.onClose
          (p.pos + (q.chunk (p.data.drop p.pos)).length)) := by
  have ran := q.run_opened p.data p.expectedSize p.onClose .refused p.pos
  rw [← abreast.opened unclosed] at ran
  have refused : q.Refused .refused ↔ q.size < -1 := and_iff_right rfl
  refine (Exn.bind_pure_apply _ _ p).trans ?_
  rw [PipeStream.reading_eq, ran]
  by_cases low : q.size < -1
  · rw [if_pos (refused.mpr low), if_pos low]
    rfl
  · rw [if_neg (mt refused.mp low), if_neg low]

theorem step_reading (abreast : Abreast limits onDisk p t) (unclosed : p.closed = false)
    (q : ReadCall) (fair : ReadCall.Fair limits q) :
    ((PipeStream.use p (.reading q)).1 = (EntryStream.use t (.reading q)).1 ↔
      p.Alike onDisk (.reading q)) ∧
    (p.Alike onDisk (.reading q) → Abreast limits onDisk
      (PipeStream.use p (.reading q)).2 (EntryStream.use t (.reading q)).2) := by
  have notClosed : ¬ p.closed = true := by simp [unclosed]
  have alike : p.Alike onDisk (.reading q) ↔
      if q.size < -1 then onDisk = true else ¬ p.Alarms q := or_iff_right notClosed
  have refusal := SpooledTemporaryFile.refusal_fair (abreast.limits.symm ▸ fair)
  rw [abreast.kind] at refusal
  rw [abreast.use_reading unclosed, (abreast.isOpen unclosed).use_reading, alike]
  unfold EntryStream.readOutcome
  rw [refusal]
  by_cases low : q.size < -1
  · rw [if_pos low, if_pos low]
    cases onDisk with
    | false =>
        rw [if_neg fun both => Bool.false_ne_true both.1]
        exact ⟨iff_of_false nofun nofun, nofun⟩
    | true =>
        rw [if_pos ⟨rfl, low⟩]
        exact ⟨iff_of_true rfl rfl, fun _ => abreast⟩
  · rw [if_neg low, if_neg low, if_neg fun both => low both.2, ← abreast.data, ← abreast.pos]
    have moved : Abreast limits onDisk (PipeStream.opened p.data p.expectedSize p.onClose
        (p.pos + (q.chunk (p.data.drop p.pos)).length))
        (t.moveTo (p.pos + (q.chunk (p.data.drop p.pos)).length)) :=
      { abreast with pos := rfl, tally := rfl, closed := abreast.closed ▸ unclosed.symm }
    refine ⟨?_, fun _ => moved⟩
    unfold PipeStream.Alarms
    rw [abreast.tally]
    by_cases alarm : q.Exhausts (p.data.drop p.pos) ∧
        Short p.expectedSize (p.pos + (q.chunk (p.data.drop p.pos)).length)
    · have failed : q.result p.data p.expectedSize p.pos = .error _ := if_pos alarm
      rw [failed]
      exact iff_of_false nofun (not_not_intro alarm)
    · have read : q.result p.data p.expectedSize p.pos = .ok _ := if_neg alarm
      rw [read]
      exact iff_of_true rfl alarm

theorem step (abreast : Abreast limits onDisk p t) (c : StreamCall)
    (fair : StreamCall.Fair limits c) :
    ((PipeStream.use p c).1 = (EntryStream.use t c).1 ↔ p.Alike onDisk c) ∧
    (p.Alike onDisk c → Abreast limits onDisk (PipeStream.use p c).2 (EntryStream.use t c).2) := by
  by_cases closed : p.closed = true
  · have shut : t.closed = true := abreast.closed ▸ closed
    rw [EntryStream.use_closed shut]
    cases c with
    | reading q =>
        rw [PipeStream.use_closed closed]
        exact ⟨iff_of_true rfl (Or.inl closed), fun _ => abreast⟩
    | seek offset whence => exact ⟨iff_of_false nofun id, nofun⟩
    | tell => exact ⟨iff_of_false nofun id, nofun⟩
    | readable => exact ⟨iff_of_true rfl True.intro, fun _ => abreast⟩
    | seekable => exact ⟨iff_of_false nofun id, nofun⟩
    | close => exact ⟨iff_of_true rfl True.intro, fun _ => { abreast with closed := shut.symm }⟩
  · have unclosed : p.closed = false := by simpa using closed
    have isOpen := abreast.isOpen unclosed
    cases c with
    | reading q => exact abreast.step_reading unclosed q fair
    | seek offset whence =>
        refine ⟨iff_of_false ?_ id, nofun⟩
        rw [isOpen.use_seek]
        unfold EntryStream.seekOutcome EntryStream.orRefused
        rcases refused : t.backing.seekRefusal offset whence with _ | exc
        · exact nofun
        · intro same
          exact SpooledTemporaryFile.seekRefusal_ne refused (Except.error.inj same).symm
    | tell =>
        refine ⟨iff_of_false ?_ id, nofun⟩
        rw [isOpen.use_tell]
        exact nofun
    | readable => exact ⟨iff_of_true rfl True.intro, fun _ => abreast⟩
    | seekable => exact ⟨iff_of_false nofun id, nofun⟩
    | close =>
        rw [isOpen.use_close]
        exact ⟨iff_of_true rfl True.intro, fun _ => { abreast with closed := rfl, closes := rfl }⟩

end Abreast

namespace Archive

variable {V : View} {s : Session} {ref : Ref} {o : Opened} {i : Nat} {e : Entry}

/-- The stream that `open(ref, stream=True)` returns. -/
theorem Sees.openStream_outcome (h : Sees V s) (found : Finds V ref o i e) :
    ∃ (k : Nat) (onClose : Option Nat), (openStream V.eng ref s).1 = .ok (k,
      { data := (o.reader.readEntry V.content i).chunks.flatten
        expectedSize := some e.size
        onClose }) := by
  have viewed := found.stream []
  rcases (openStream_sim (L := s.world.handed) ref).cases
    ⟨h, (List.append_nil _).symm⟩ with
    ⟨p, delivered, s', t', left, right, stream, -, -⟩ | ⟨exc, s', t', -, right, -⟩
  · rw [right] at viewed
    cases viewed
    refine ⟨p.1, p.2.onClose, ?_⟩
    rw [left, ← stream]
  · rw [right] at viewed
    cases viewed

/-- In every state that accessor calls and password assignments lead to, and over a disk that
does not fail, the pipe stream of an entry that decodes answers as its buffered stream does,
in every sequence of calls for no more than can be allocated, exactly when no call asks for a
position, every length is one that both files take, and no read sets off the alarm. -/
theorem streams_alike_iff (eng : Engine) (files : FilePath → Option Bytes) (source : Source)
    (readable : source.Readable) (password encoding : Option String) (run : List Action)
    (spared : Spares (View.over eng files source password encoding) run)
    (found : Finds ((View.over eng files source password encoding).withPassword
      (currentPassword password run)) ref o i e)
    {d : Decoded} (decoded : o.reader.readEntry (source.content files) i = d)
    (intact : d.status = .ok ()) (maxSize : Nat) (limits : Limits) (calls : List StreamCall)
    (fair : ∀ c ∈ calls, c.Fair limits) :
    let s := (perform eng).runState (init files source password encoding) run
    ∃ (k : Nat) (pipe : PipeStream) (stream : EntryStream),
      (openStream eng ref s).1 = .ok (k, pipe) ∧
      (openSpooled eng ref (s, { maxSize, limits })).1 = .ok stream ∧
      ((PipeStream.use.run pipe calls).1 = (EntryStream.use.run stream calls).1 ↔
        PipeStream.use.AllSteps (PipeStream.Alike (Spills maxSize d.chunks.flatten.length))
          pipe calls) := by
  intro s
  have sees : Sees _ s := (init_sees eng files readable password encoding).run spared
  have whole : d.bytes.mapError PyExc.raised = .ok d.chunks.flatten :=
    (Decoded.bytes_raised _).mpr ⟨intact, rfl⟩
  have buffered : (openBuffered eng ref s).1 = .ok d.chunks.flatten :=
    (decoded ▸ sees.openBuffered_outcome found).trans whole
  obtain ⟨k, onClose, piped⟩ := sees.openStream_outcome found
  have delivered : (o.reader.readEntry (source.content files) i).chunks.flatten =
      d.chunks.flatten := by rw [decoded]
  refine ⟨k, _, _, piped, openSpooled_ok maxSize limits buffered, ?_⟩
  have abreast : Abreast limits (Spills maxSize d.chunks.flatten.length)
      { data := (o.reader.readEntry (source.content files) i).chunks.flatten
        expectedSize := some e.size
        onClose }
      (.atStart maxSize limits d.chunks.flatten) :=
    { data := delivered
      pos := rfl
      tally := rfl
      closed := rfl
      closes := rfl
      calm := rfl
      limits := rfl
      kind := rfl }
  exact Machine.run_outputs_iff_of_mem (fun _ _ c fair abreast => abreast.step c fair) abreast
    calls fair

/-- An intact entry of an archive that has been looked at and read, in pieces of five bytes
from the pipe and from disk. -/
theorem streams_alike_iff_intact :
    let s := (perform oneIntact).runState (init (fun _ => none) (.bytes [80]) none none)
      [.call .len, .setPassword (some "secret"), .call (.read (.int 0))]
    let calls : List StreamCall :=
      [.reading (.read (some 5)), .reading (.readinto 5), .readable, .reading (.read none), .close]
    ∃ (k : Nat) (pipe : PipeStream) (stream : EntryStream),
      (openStream oneIntact (.int 0) s).1 = .ok (k, pipe) ∧
      (openSpooled oneIntact (.int 0) (s, { maxSize := 4 })).1 = .ok stream ∧
      ((PipeStream.use.run pipe calls).1 = (EntryStream.use.run stream calls).1 ↔
        PipeStream.use.AllSteps (PipeStream.Alike (Spills 4 intact.chunks.flatten.length))
          pipe calls) := by
  intro s calls
  have found : Finds ((View.over oneIntact (fun _ => none) (.bytes [80]) none none).withPassword
      (some "secret")) (.int 0) _ 0 _ := { opens := rfl, index := rfl, entry := rfl }
  have fair : ∀ c ∈ calls, c.Fair {} := by
    intro c member
    simp only [calls, List.mem_cons, List.not_mem_nil, or_false] at member
    rcases member with rfl | rfl | rfl | rfl | rfl
    · exact ⟨by decide, by decide⟩
    · exact True.intro
    · exact True.intro
    · exact ⟨by decide, by decide⟩
    · exact True.intro
  exact streams_alike_iff oneIntact (fun _ => none) (.bytes [80]) True.intro none none
    [.call .len, .setPassword (some "secret"), .call (.read (.int 0))]
    ⟨fun _ => nofun, fun _ => nofun, True.intro⟩ found rfl rfl 4 {} calls fair

end Archive

end NewtuaPy
