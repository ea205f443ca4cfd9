import NewtuaPy.AsyncRefines
import NewtuaPy.Lib.Supply
import NewtuaPy.PipedOrBuffered

/-!
# Iterating over a stream

`async for` over an `AsyncEntryStream` reads `CHUNK` bytes at a time until it is given none.
`for line in stream` is the loop of the `io` base class, which has no `peek` to use and calls
`read(1)` up to a newline.  The truncation check of a pipe stream works below both of them:
the module says what a loop has been given when it ends, and how it ends.
-/

namespace NewtuaPy

open PipeStream (ReadCall Short truncated)
open Supply (drain gather splitLines terminated Parts)

/-! ## The loops -/

/-- `b"\n"`. -/
def newline : UInt8 := 10

/-- A method that reads, as a supply. -/
def asked {σ : Type} (read : Py σ Bytes) : Supply.Step PyExc σ UInt8 := fun s => some (read s)

/-- `io.IOBase.readline`. -/
def readline {σ : Type} (read : Option Int → Py σ Bytes) (fuel : Nat) : Supply.Step PyExc σ UInt8 :=
  gather (asked (read (some 1))) (· == newline) fuel []

namespace AsyncEntryStream

/-- `AsyncEntryStream.CHUNK`. -/
def CHUNK : Nat := 64 * 1024

/-- `__anext__`, with no bytes for `StopAsyncIteration`. -/
def anext : Py PipeStream Bytes := PipeStream.read (some (CHUNK : Int))

/-- `async for chunk in stream`. -/
def asyncFor (fuel : Nat) (s : PipeStream) : Option ((List Bytes × Option PyExc) × PipeStream) :=
  drain (asked anext) fuel s

end AsyncEntryStream

/-! ## The streams as supplies -/

/-- What a pipe stream gives once all of `data` has been read. -/
def PipeStream.ending (data : Bytes) (expected : Option Int) : Except PyExc Bytes :=
  if Short expected data.length then .error (truncated data.length (expected.getD 0)) else .ok []

/-- A pipe stream hands out what the worker delivers, and then checks the tally. -/
theorem PipeStream.hands (data : Bytes) (expected : Option Int) (onClose : Option Nat) {size : Nat}
    (positive : 0 < size) :
    Supply.Hands (asked (PipeStream.read (some (size : Int))))
      (PipeStream.opened data expected onClose) data size (PipeStream.ending data expected) := by
  have natural : ¬ (size : Int) < 0 := Int.not_lt.mpr (Int.natCast_nonneg size)
  have accepted : ¬ (ReadCall.read (some (size : Int))).Refused .refused := by
    rintro ⟨-, low⟩
    have low : (size : Int) < -1 := low
    omega
  have chunk (rest : Bytes) : (ReadCall.read (some (size : Int))).chunk rest = rest.take size :=
    if_neg natural
  have run (n : Nat) : asked (PipeStream.read (some (size : Int)))
      (PipeStream.opened data expected onClose n) =
      some ((ReadCall.read (some (size : Int))).result data expected n,
        PipeStream.opened data expected onClose (n + ((data.drop n).take size).length)) := by
    have ran := (ReadCall.read (some (size : Int))).run_opened data expected onClose .refused n
    rw [if_neg accepted, chunk] at ran
    exact congrArg some ran
  have exhausts (rest : Bytes) : (ReadCall.read (some (size : Int))).Exhausts rest ↔ rest = [] := by
    have empty : rest.take size = [] ↔ rest = [] := by
      rw [List.take_eq_nil_iff, or_iff_right (Nat.ne_of_gt positive)]
    refine (or_iff_right natural).trans ?_
    rw [chunk, empty]
  refine
  { positive
    part := fun n more => ?_
    ends := ?_
    nothing := fun part ends => ?_ }
  · have left : data.drop n ≠ [] := fun none =>
      absurd (List.drop_eq_nil_iff.mp none) (Nat.not_le.mpr more)
    have result : (ReadCall.read (some (size : Int))).result data expected n =
        .ok ((data.drop n).take size) := by
      refine (if_neg fun alarm => left ((exhausts _).mp alarm.1)).trans ?_
      rw [chunk]
    rw [run, result]
  · have result : (ReadCall.read (some (size : Int))).result data expected data.length =
        PipeStream.ending data expected := by
      unfold ReadCall.result PipeStream.ending
      dsimp only
      rw [chunk, List.drop_length, List.take_nil, List.length_nil, Nat.add_zero]
      exact if_congr (and_iff_right ((exhausts []).mpr rfl)) rfl rfl
    rw [run, result, List.drop_length, List.take_nil]
    rfl
  · unfold PipeStream.ending at ends
    split_ifs at ends
    exact (Except.ok.inj ends).symm

/-- A buffered stream hands out all it has been filled with. -/
theorem EntryStream.hands {stream : EntryStream} (isOpen : stream.Open) :
    Supply.Hands (asked (EntryStream.read (some 1))) stream.moveTo stream.backing.data 1
      (.ok []) := by
  have run (n : Nat) : asked (EntryStream.read (some 1)) (stream.moveTo n) =
      some (.ok ((stream.backing.data.drop n).take 1),
        stream.moveTo (n + ((stream.backing.data.drop n).take 1).length)) := by
    have open' : (stream.moveTo n).Open := ⟨isOpen.unclosed, isOpen.unclosed', isOpen.calm⟩
    have ran := open'.reading (.read (some 1))
    have fair' : ReadCall.Fair (stream.moveTo n).backing.limits (.read (some 1)) :=
      ⟨by decide, Int.ofNat_le.mpr stream.backing.limits.positive⟩
    have taken := SpooledTemporaryFile.refusal_fair fair'
    have outcome : EntryStream.readOutcome (stream.moveTo n).backing (.read (some 1)) =
        (.ok ((stream.backing.data.drop n).take 1),
          n + ((stream.backing.data.drop n).take 1).length) := by
      unfold EntryStream.readOutcome
      rw [taken]
      exact congrArg (EntryStream.orRefused n · _) (if_neg fun both => absurd both.2 (by decide))
    rw [outcome] at ran
    exact congrArg some ran
  exact
  { positive := Nat.one_pos
    part := fun n _ => run n
    ends := by
      rw [run, List.drop_length, List.take_nil]
      rfl
    nothing := fun part ends => (Except.ok.inj ends).symm }

/-! ## Line by line -/

namespace Archive

variable {eng : Engine} {ref : Ref} {s t : Session}

end Archive

/-! ## Chunk by chunk -/

namespace AsyncArchive

open Archive (Finds)

/-- `async with archive.open(ref) as stream`. -/
def openedStream (eng : Engine) (ref : Ref) : Py AsyncSession (Nat × PipeStream) := do
  let ctx ← AsyncArchive.open ref
  ctx.aenter eng

variable {W : View} {o : Opened} {p : FilePath} {a : AsyncSession} {L : List Handed} {ref : Ref}
  {i : Nat} {e : Entry}

/-- Opening and entering gives the stream that the view says. -/
theorem openedStream_sim (ref : Ref) :
    Exn.Sim (Tracks W o p L) (openedStream W.eng ref) (W.stream ref)
      (fun q d s t =>
        q.2 = { data := d.1, expectedSize := some (d.2 : Int)
                onClose := s.self.sync.tempfile } ∧ Tracks W o p L s t)
      (Tracks W o p L) := by
  unfold openedStream AsyncArchive.open View.stream
  simp only [Exn.bind_assoc]
  intro a t tracks
  rw [Exn.bind_of_ok tracks.1._ensureReady_run, Exn.bind_of_ok (tracks.1.reader_run t)]
  refine (Exn.Sim.bind (indexOf_answers ref) ?_) a t tracks
  intro index _ a t post
  obtain ⟨rfl, tracks⟩ := post
  rw [Exn.get_bind_apply, Exn.bind_of_ok (tracks.1.listing_run t), tracks.1.entries]
  refine (Exn.Sim.bind (lift_answers _) ?_) a t tracks
  intro entry _ a t post
  obtain ⟨rfl, tracks⟩ := post
  rw [Exn.pure_bind_apply]
  rcases (aenter_sim index entry.size).cases tracks with
    ⟨q, data, a', t', left, right, stream, -, tracks'⟩ | ⟨exc, a', t', left, right, tracks'⟩
  · rw [left, Exn.bind_of_ok right]
    exact ⟨stream, tracks'⟩
  · rw [left, Exn.bind_of_error right]
    exact ⟨rfl, tracks'⟩

theorem Holds.openedStream_outcome (holds : Holds W o p a)
    (found : Finds W ref o i e) :
    ∃ (k : Nat) (onClose : Option Nat), (openedStream W.eng ref a).1 = .ok (k,
      { data := (o.reader.readEntry W.content i).chunks.flatten
        expectedSize := some (e.size : Int)
        onClose }) := by
  have viewed := found.stream []
  rcases (openedStream_sim (L := a.world.handed) ref).cases
    ⟨holds, (List.append_nil _).symm⟩ with
    ⟨q, d, a', t', left, right, stream, -⟩ | ⟨exc, a', t', -, right, -⟩
  · rw [right] at viewed
    cases viewed
    exact ⟨q.1, a'.self.sync.tempfile, by rw [left, ← stream]⟩
  · rw [right] at viewed
    cases viewed

/-- The archive holds what it held, whatever is done with it. -/
theorem Holds.run (holds : Holds W o p a) (ops : List Op) :
    Holds W o p ((asyncStep W.eng).runState a ops) := by
  refine Machine.runState_invariant (I := Holds W o p) (fun a op holds => ?_) holds ops
  have tracks : Tracks W o p a.world.handed a [] := ⟨holds, (List.append_nil _).symm⟩
  exact ((op_answers op).same tracks).2.1

/-- On an archive that has been entered, after any operations on it, `async for` over an entry
is given all that the worker delivers, in chunks that are full up to the last one, and ends
quietly exactly if no less than the declared size has come. -/
theorem async_iteration_exact (eng : Engine) (files : FilePath → Option Bytes) (source : Source)
    (readable : source.Readable) (password encoding : Option String) (ops : List Op)
    (found : Finds (View.over eng files source password encoding).disown ref o i e) :
    ∃ a, aenter eng (init files source password encoding) = (.ok (), a) ∧
      ∃ (k : Nat) (stream : PipeStream),
        (openedStream eng ref ((asyncStep eng).runState a ops)).1 = .ok (k, stream) ∧
        let bytes := (o.reader.readEntry (source.content files) i).chunks.flatten
        ∀ fuel > bytes.length, ∃ parts left, Parts bytes AsyncEntryStream.CHUNK parts ∧
          AsyncEntryStream.asyncFor fuel stream = some ((parts,
            if Short (some (e.size : Int)) bytes.length then
              some (truncated bytes.length e.size) else none), left) := by
  obtain ⟨p, a, entered, holds, -⟩ := aenter_ok readable found.opens
  obtain ⟨k, onClose, opened⟩ := (holds.run ops).openedStream_outcome found
  refine ⟨a, entered, k, _, opened, ?_⟩
  intro bytes fuel enough
  have hands := PipeStream.hands bytes (some (e.size : Int)) onClose
    (by decide : 0 < AsyncEntryStream.CHUNK)
  obtain ⟨parts, cut, drained⟩ := hands.drain (Nat.zero_le _) enough
  have raised : Supply.raised (PipeStream.ending bytes (some (e.size : Int))) =
      if Short (some (e.size : Int)) bytes.length then
        some (truncated bytes.length e.size) else none := by
    unfold PipeStream.ending
    split_ifs <;> rfl
  rw [raised] at drained
  exact ⟨parts, _, cut, drained⟩

/-- Bytes that come in one chunk, after the entry has been read in part from another stream. -/
theorem async_iteration_exact_intact :
    ∃ a, aenter Archive.oneIntact (init (fun _ => none) (.bytes [80]) none none) = (.ok (), a) ∧
      ∃ (k : Nat) (stream : PipeStream),
        (openedStream Archive.oneIntact (.int 0)
          ((asyncStep Archive.oneIntact).runState a [.stream (.int 0) [4]])).1 = .ok (k, stream) ∧
        ∀ fuel > 8, ∃ parts left, Parts [1, 2, 3, 4, 5, 6, 7, 8] AsyncEntryStream.CHUNK parts ∧
          AsyncEntryStream.asyncFor fuel stream = some ((parts, none), left) := by
  have found : Finds (View.over Archive.oneIntact (fun _ => none) (.bytes [80]) none none).disown
      (.int 0) _ 0 _ := { opens := rfl, index := rfl, entry := rfl }
  exact async_iteration_exact Archive.oneIntact (fun _ => none) (.bytes [80]) True.intro none none
    [.stream (.int 0) [4]] found

end AsyncArchive

end NewtuaPy
