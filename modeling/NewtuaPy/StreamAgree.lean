import NewtuaPy.History
import NewtuaPy.Truncation

/-!
# Streamed and buffered reading

A consumer of a pipe stream is a list of reads.  What it receives is a prefix of
what the worker wrote, checked against the declared size whenever a read comes
back empty or asks for everything.  The result of the decoding itself never
reaches the reading end; this module says exactly when the two ways of reading
an entry agree all the same.
-/

namespace NewtuaPy

/-! ## Consumers -/

/-- One read of a consumer; `none` asks for all that is left. -/
inductive Request
  | read (size : Option Nat)
  | read1 (size : Option Nat)
  | readinto (length : Nat)
deriving DecidableEq, Repr

namespace Request

/-- The call behind a read, `-1` standing for all. -/
def run : Request → Py PipeStream Bytes
  | .read none => PipeStream.read none
  | .read (some n) => PipeStream.read (some n)
  | .read1 none => PipeStream.read1 (-1)
  | .read1 (some n) => PipeStream.read1 n
  | .readinto n => PipeStream.readinto n

def amount : Request → Option Nat
  | .read size => size
  | .read1 size => size
  | .readinto length => some length

/-- The bytes a read takes when `left` are left. -/
def takes (q : Request) (left : Nat) : Nat :=
  match q.amount with
  | none => left
  | some n => min n left

/-- Whether a read counts as having met the end of the data. -/
def Exhausts (q : Request) (left : Nat) : Prop := q.amount = none ∨ q.takes left = 0

instance (q : Request) (left : Nat) : Decidable (q.Exhausts left) :=
  inferInstanceAs (Decidable (_ ∨ _))

end Request

/-- A consumer puts the results of its reads together. -/
def consume : List Request → Py PipeStream Bytes
  | [] => pure []
  | q :: qs => do
      let chunk ← q.run
      let rest ← consume qs
      pure (chunk ++ rest)

/-- The reads go on until one asks for everything or, with nothing left, for
something: the consumer has seen the end of the data. -/
def SeesEnd : Nat → List Request → Prop
  | _, [] => False
  | left, q :: qs =>
      q.amount = none ∨ (left = 0 ∧ q.amount ≠ some 0) ∨ SeesEnd (left - q.takes left) qs

/-- No read of zero bytes comes before `size` bytes have been taken. -/
def Patient (size : Nat) : Nat → Nat → List Request → Prop
  | _, _, [] => True
  | taken, left, q :: qs =>
      (q.amount = some 0 → size ≤ taken) ∧
        Patient size (taken + q.takes left) (left - q.takes left) qs

/-- Every read that meets the end of the data finds the tally complete. -/
def Tallies (size : Nat) : Nat → Nat → List Request → Prop
  | _, _, [] => True
  | taken, left, q :: qs =>
      (q.Exhausts left → size ≤ taken + q.takes left) ∧
        Tallies size (taken + q.takes left) (left - q.takes left) qs

theorem Request.takes_le (q : Request) (left : Nat) : q.takes left ≤ left := by
  unfold Request.takes
  rcases q.amount with _ | n
  · exact Nat.le_refl left
  · exact Nat.min_le_right n left

theorem tallies_of_le {size taken left : Nat} {qs : List Request} (enough : size ≤ taken) :
    Tallies size taken left qs := by
  induction qs generalizing taken left with
  | nil => exact True.intro
  | cons q qs ih =>
      have more : size ≤ taken + q.takes left := Nat.le_add_right_of_le enough
      exact ⟨fun _ => more, ih more⟩

theorem patient_of_le {size taken left : Nat} {qs : List Request} (enough : size ≤ taken) :
    Patient size taken left qs := by
  induction qs generalizing taken left with
  | nil => exact True.intro
  | cons q qs ih => exact ⟨fun _ => enough, ih (Nat.le_add_right_of_le enough)⟩

/-- For a consumer that sees the end, the tally is complete exactly if the data
is long enough and no empty read was too early. -/
theorem tallies_iff (size taken : Nat) {left : Nat} {qs : List Request} (toEnd : SeesEnd left qs) :
    Tallies size taken left qs ↔ size ≤ taken + left ∧ Patient size taken left qs := by
  induction qs generalizing taken left with
  | nil => exact toEnd.elim
  | cons q qs ih =>
      have bound := q.takes_le left
      -- A read that takes all that is left and counts as the end settles both sides.
      have settled (final : q.Exhausts left) (all : q.takes left = left)
          (asks : q.amount ≠ some 0) :
          Tallies size taken left (q :: qs) ↔
            size ≤ taken + left ∧ Patient size taken left (q :: qs) := by
        unfold Tallies Patient
        rw [all]
        constructor
        · intro both
          obtain ⟨enough, -⟩ := both
          exact ⟨enough final, fun zero => absurd zero asks, patient_of_le (enough final)⟩
        · intro both
          obtain ⟨enough, -⟩ := both
          exact ⟨fun _ => enough, tallies_of_le enough⟩
      rcases toEnd with all | ⟨rfl, asks⟩ | later
      · exact settled (Or.inl all) (by rw [Request.takes, all]) (by rw [all]; exact nofun)
      · have nothing : q.takes 0 = 0 := Nat.le_zero.mp bound
        exact settled (Or.inr nothing) nothing asks
      · rcases amount : q.amount with _ | n
        · exact settled (Or.inl amount) (by rw [Request.takes, amount])
            (by rw [amount]; exact nofun)
        · have takes : q.takes left = min n left := by rw [Request.takes, amount]
          have rest := ih (taken + q.takes left) later
          have total : taken + q.takes left + (left - q.takes left) = taken + left := by omega
          rw [total] at rest
          unfold Tallies Patient
          rw [rest, amount]
          constructor
          · intro tallies
            obtain ⟨checked, enough, patient⟩ := tallies
            refine ⟨enough, fun zero => ?_, patient⟩
            have none : q.takes left = 0 := by
              rw [takes, Option.some.inj zero, Nat.zero_min]
            have checked := checked (Or.inr none)
            rwa [none] at checked
          · intro patient'
            obtain ⟨enough, early, patient⟩ := patient'
            refine ⟨fun final => ?_, enough, patient⟩
            rcases final with all | nothing
            · rw [amount] at all
              cases all
            · rw [takes] at nothing
              rcases Nat.eq_zero_or_pos n with rfl | positive
              · exact Nat.le_add_right_of_le (early rfl)
              · have : left = 0 := by omega
                omega

/-! ## What a consumer receives -/

/-- A stream of which `taken` bytes have been read. -/
def PipeStream.at (data : Bytes) (size taken : Nat) (onClose : Option Nat) : PipeStream :=
  { data, pos := taken, expectedSize := some size, readTotal := taken, onClose }

/-- The bytes a read returns. -/
def Request.chunk (q : Request) (rest : Bytes) : Bytes :=
  match q.amount with
  | none => rest
  | some n => rest.take n

/-- How a read ends on a stream of which `taken` bytes have been read. -/
def Request.result (q : Request) (data : Bytes) (size taken : Nat) (onClose : Option Nat) :
    Except PyExc Bytes × PipeStream :=
  (if q.Exhausts (data.drop taken).length ∧
        ¬ size ≤ taken + q.takes (data.drop taken).length then
      .error (PipeStream.truncated (taken + q.takes (data.drop taken).length) size)
    else .ok (q.chunk (data.drop taken)),
   .at data size (taken + q.takes (data.drop taken).length) onClose)

theorem Request.chunk_length (q : Request) (rest : Bytes) :
    (q.chunk rest).length = q.takes rest.length := by
  unfold Request.chunk Request.takes
  rcases q.amount with _ | n
  · rfl
  · exact List.length_take

theorem Request.chunk_append (q : Request) (rest : Bytes) :
    q.chunk rest ++ rest.drop (q.takes rest.length) = rest := by
  unfold Request.chunk Request.takes
  rcases q.amount with _ | n
  · simp
  · dsimp only
    rcases Nat.le_total n rest.length with le | le
    · rw [Nat.min_eq_left le, List.take_append_drop]
    · rw [Nat.min_eq_right le, List.take_of_length_le le, List.drop_length, List.append_nil]

/-! ## One read -/

open PipeStream (ReadCall)

/-- The call of a reading method behind a read. -/
def Request.toCall : Request → ReadCall
  | .read none => .read none
  | .read (some n) => .read (some n)
  | .read1 none => .read1 (-1)
  | .read1 (some n) => .read1 n
  | .readinto n => .readinto n

theorem Request.run_eq (q : Request) : q.run = q.toCall.run .refused := by
  cases q with
  | read size => cases size <;> rfl
  | read1 size => cases size <;> rfl
  | readinto n => rfl

theorem Request.toCall_size (q : Request) :
    q.toCall.size = match q.amount with
      | none => -1
      | some n => (n : Int) := by
  cases q with
  | read size => cases size <;> rfl
  | read1 size => cases size <;> rfl
  | readinto n => rfl

/-- No read asks for a size that the buffered reader refuses. -/
theorem Request.not_refused (q : Request) : ¬ q.toCall.Refused .refused := by
  intro refused
  have low : q.toCall.size < -1 := refused.2
  have sized := q.toCall_size
  rcases amount : q.amount with _ | n <;> rw [amount] at sized <;> dsimp only at sized <;> omega

theorem Request.size_neg (q : Request) : q.toCall.size < 0 ↔ q.amount = none := by
  rw [q.toCall_size]
  rcases q.amount with _ | n
  · exact iff_of_true (by decide) rfl
  · exact iff_of_false (by dsimp only; omega) nofun

theorem Request.toCall_chunk (q : Request) (rest : Bytes) : q.toCall.chunk rest = q.chunk rest := by
  unfold ReadCall.chunk Request.chunk
  rw [q.toCall_size]
  rcases q.amount with _ | n
  · rfl
  · have proper : ¬ (n : Int) < 0 := by omega
    simp only [proper, if_false, Int.toNat_natCast]

theorem Request.exhausts_iff (q : Request) (rest : Bytes) :
    q.toCall.Exhausts rest ↔ q.Exhausts rest.length := by
  unfold ReadCall.Exhausts Request.Exhausts
  rw [q.size_neg, q.toCall_chunk, ← List.length_eq_zero_iff, q.chunk_length]

theorem PipeStream.short_natCast (size total : Nat) :
    Short (some (size : Int)) total ↔ ¬ size ≤ total := by
  unfold Short
  omega

/-- One read of a consumer: it takes its chunk, and fails if it meets the end of
the data before the declared size. -/
theorem Request.run_at (q : Request) (data : Bytes) (size taken : Nat) (onClose : Option Nat) :
    q.run (.at data size taken onClose) = q.result data size taken onClose := by
  have ran := q.toCall.run_opened data (some size) onClose .refused taken
  rw [if_neg q.not_refused, q.toCall_chunk, q.chunk_length] at ran
  rw [q.run_eq]
  refine ran.trans (Prod.ext ?_ rfl)
  unfold ReadCall.result Request.result
  simp only [q.exhausts_iff, q.toCall_chunk, q.chunk_length, PipeStream.short_natCast,
    Option.getD_some]

/-- What is left after a read, when it takes everything. -/
theorem Request.chunk_of_seesEnd {q : Request} {qs : List Request} {rest tail : Bytes}
    (toEnd : SeesEnd rest.length (q :: qs)) (prefixed : tail <+: rest.drop (q.takes rest.length))
    (whole : SeesEnd (rest.length - q.takes rest.length) qs →
      tail = rest.drop (q.takes rest.length)) :
    q.chunk rest ++ tail = rest := by
  have same : tail = rest.drop (q.takes rest.length) := by
    have none (all : q.takes rest.length = rest.length) :
        tail = rest.drop (q.takes rest.length) := by
      rw [all, List.drop_length] at prefixed ⊢
      exact List.prefix_nil.mp prefixed
    rcases toEnd with all | ⟨empty, -⟩ | later
    · exact none (by rw [Request.takes, all])
    · exact none (Nat.le_antisymm (q.takes_le _) (empty ▸ Nat.zero_le _))
    · exact whole later
  rw [same, q.chunk_append]

/-- A consumer receives a prefix of what is left, all of it if it sees the end,
unless a read that meets the end finds the tally short. -/
theorem consume_at (data : Bytes) (size taken : Nat) (onClose : Option Nat)
    (qs : List Request) :
    (Tallies size taken (data.drop taken).length qs →
      ∃ got, (consume qs (.at data size taken onClose)).1 = .ok got ∧ got <+: data.drop taken ∧
        (SeesEnd (data.drop taken).length qs → got = data.drop taken)) ∧
    (¬ Tallies size taken (data.drop taken).length qs →
      ∃ exc, (consume qs (.at data size taken onClose)).1 = .error exc) := by
  induction qs generalizing taken with
  | nil =>
      exact ⟨fun _ => ⟨[], rfl, List.nil_prefix, fun toEnd => toEnd.elim⟩,
        fun short => absurd True.intro short⟩
  | cons q qs ih =>
      have step := q.run_at data size taken onClose
      unfold Request.result at step
      have rest : data.drop (taken + q.takes (data.drop taken).length) =
          (data.drop taken).drop (q.takes (data.drop taken).length) := by
        rw [List.drop_drop]
      have left : ((data.drop taken).drop (q.takes (data.drop taken).length)).length =
          (data.drop taken).length - q.takes (data.drop taken).length := List.length_drop
      have later := ih (taken + q.takes (data.drop taken).length)
      rw [rest, left] at later
      rcases tail : consume qs (.at data size (taken + q.takes (data.drop taken).length) onClose)
        with ⟨outcome, s'⟩
      rw [tail] at later
      unfold consume
      by_cases short : q.Exhausts (data.drop taken).length ∧
          ¬ size ≤ taken + q.takes (data.drop taken).length
      · rw [if_pos short] at step
        rw [Exn.bind_of_error step]
        exact ⟨fun tallies => absurd (tallies.1 short.1) short.2, fun _ => ⟨_, rfl⟩⟩
      · rw [if_neg short] at step
        rw [Exn.bind_of_ok step]
        have checked : q.Exhausts (data.drop taken).length →
            size ≤ taken + q.takes (data.drop taken).length :=
          fun final => not_not.mp fun less => short ⟨final, less⟩
        constructor
        · intro both
          obtain ⟨-, tallies⟩ := both
          obtain ⟨got, rfl, prefixed, whole⟩ := later.1 tallies
          rw [Exn.bind_of_ok tail]
          refine ⟨_, rfl, ?_, fun toEnd => Request.chunk_of_seesEnd toEnd prefixed whole⟩
          have longer := (List.prefix_append_right_inj (q.chunk (data.drop taken))).mpr prefixed
          rwa [q.chunk_append] at longer
        · intro failed
          obtain ⟨exc, rfl⟩ := later.2 fun tallies => failed ⟨checked, tallies⟩
          rw [Exn.bind_of_error tail]
          exact ⟨exc, rfl⟩

/-- A whole stream, read to its end. -/
theorem consume_fresh {data : Bytes} {size : Nat} {onClose : Option Nat} {qs : List Request}
    (toEnd : SeesEnd data.length qs) :
    (size ≤ data.length ∧ Patient size 0 data.length qs →
      (consume qs { data, expectedSize := some (size : Int), onClose }).1 = .ok data) ∧
    (¬ (size ≤ data.length ∧ Patient size 0 data.length qs) →
      ∃ exc, (consume qs { data, expectedSize := some (size : Int), onClose }).1 = .error exc) := by
  have tallies := tallies_iff size 0 toEnd
  rw [Nat.zero_add] at tallies
  rw [← tallies]
  obtain ⟨complete, short⟩ := consume_at data size 0 onClose qs
  constructor
  · intro enough
    obtain ⟨got, run, -, whole⟩ := complete enough
    obtain rfl : got = data := whole toEnd
    exact run
  · exact short

/-! ## Streamed against buffered -/

namespace Archive

variable {V : View} {s : Session}

/-- Open an entry with `stream=True` and consume it. -/
def streamed (eng : Engine) (ref : Ref) (qs : List Request) : Py Session Bytes := do
  let (k, _) ← Archive.openStream eng ref
  onWorld (onStream k (consume qs))

/-- The entry a reference resolves to, in an archive that opens. -/
structure Finds (V : View) (ref : Ref) (o : Opened) (i : Nat) (e : Entry) : Prop where
  opens : V.opened = .ok o
  index : resolveIndex (V.entries o) ref = .ok i
  entry : (V.entries o)[i]? = some e

variable {ref : Ref} {o : Opened} {i : Nat} {e : Entry}

theorem Finds.usizeArg (h : Finds V ref o i e) : usizeArg (i : Int) = .ok i :=
  usizeArg_natCast ((List.getElem?_eq_some_iff.mp h.entry).1.trans (View.entries_fit h.opens))

theorem Finds.fetch (h : Finds V ref o i e) (work : Nat → Work) (t : List Handed) :
    (V.fetch work ref t).1 =
      (o.reader.readEntry V.content i).bytes.mapError PyExc.raised := by
  unfold View.fetch View.indexOf View.listing View.reader
  rw [h.opens]
  simp only [Exn.bind_apply, Exn.lift_apply, Exn.pure_apply, h.index]
  unfold View.decode
  rw [h.usizeArg, View.ask_run]

theorem Finds.stream (h : Finds V ref o i e) (t : List Handed) :
    (V.stream ref t).1 = .ok ((o.reader.readEntry V.content i).chunks.flatten, e.size) := by
  have item : tupleItem (V.entries o) i = .ok e := tupleItem_of_getElem h.entry
  unfold View.stream View.indexOf View.listing View.reader
  rw [h.opens]
  simp only [Exn.bind_apply, Exn.lift_apply, Exn.pure_apply, h.index, item]
  unfold View.pipe
  rw [h.usizeArg, View.ask_run]
  rfl

/-- `read` succeeds exactly if the decoding does. -/
theorem Sees.read_outcome (h : Sees V s) (found : Finds V ref o i e) :
    (Archive.read V.eng ref s).1 =
      (o.reader.readEntry V.content i).bytes.mapError PyExc.raised := by
  rw [← found.fetch .read []]
  have tracks : Tracks s.world.handed (Sees V) s [] := ⟨h, (List.append_nil _).symm⟩
  exact (decode_sim ref RustArchive.read_asks fun _ => rfl).result tracks

theorem Sees.openBuffered_outcome (h : Sees V s) (found : Finds V ref o i e) :
    (Archive.openBuffered V.eng ref s).1 =
      (o.reader.readEntry V.content i).bytes.mapError PyExc.raised := by
  rw [← found.fetch .write []]
  have tracks : Tracks s.world.handed (Sees V) s [] := ⟨h, (List.append_nil _).symm⟩
  exact (decode_sim ref RustArchive.writeEntryTo_asks fun _ => rfl).result tracks

/-- Streaming succeeds exactly if the data is as long as declared and no empty
read was too early; how the decoding ended does not matter. -/
theorem Sees.streamed_outcome (h : Sees V s) (found : Finds V ref o i e) {qs : List Request}
    {data : Bytes} (written : (o.reader.readEntry V.content i).chunks.flatten = data)
    (toEnd : SeesEnd data.length qs) :
    (e.size ≤ data.length ∧ Patient e.size 0 data.length qs →
      (streamed V.eng ref qs s).1 = .ok data) ∧
    (¬ (e.size ≤ data.length ∧ Patient e.size 0 data.length qs) →
      ∃ exc, (streamed V.eng ref qs s).1 = .error exc) := by
  have viewed := found.stream []
  rw [written] at viewed
  rcases (openStream_sim (L := s.world.handed) ref).cases
    ⟨h, (List.append_nil _).symm⟩ with
    ⟨p, d, s', t', left, right, stream, placed, -⟩ | ⟨exc, s', t', left, right, -⟩
  · rw [right] at viewed
    cases viewed
    have run : (streamed V.eng ref qs s).1 = (consume qs p.2).1 := by
      unfold streamed
      rw [Exn.bind_of_ok left]
      dsimp only [onWorld, Exn.zoom_apply, onStream]
      rw [placed]
    rw [run, stream]
    exact consume_fresh toEnd
  · rw [right] at viewed
    cases viewed

theorem Decoded.bytes_raised {d : Decoded} :
    (∀ b, d.bytes.mapError PyExc.raised = .ok b ↔
      d.status = .ok () ∧ b = d.chunks.flatten) := by
  intro b
  unfold Decoded.bytes
  rcases d.status with fault | ⟨⟩
  · exact iff_of_false nofun fun impossible => nomatch impossible.1
  · constructor
    · intro same
      cases same
      exact ⟨rfl, rfl⟩
    · intro both
      obtain ⟨-, rfl⟩ := both
      rfl

/-- In every state that accessor calls and password assignments lead to, a
consumer that sees the end of an entry's stream gets what `read` returns, and
nothing when `read` fails, exactly if the decoding succeeds just when the bytes
written reach the declared size and no read of zero bytes comes before that. -/
theorem streamed_agrees_iff (eng : Engine) (files : FilePath → Option Bytes) (source : Source)
    (readable : source.Readable) (password encoding : Option String) (run : List Action)
    (spared : Spares (View.over eng files source password encoding) run)
    (found : Finds ((View.over eng files source password encoding).withPassword
      (currentPassword password run)) ref o i e)
    {d : Decoded} (decoded : o.reader.readEntry (source.content files) i = d)
    (qs : List Request) (toEnd : SeesEnd d.chunks.flatten.length qs) :
    let s := (perform eng).runState (init files source password encoding) run
    (∀ b, ((streamed eng ref qs s).1 = .ok b ↔ (Archive.read eng ref s).1 = .ok b) ∧
        ((Archive.openBuffered eng ref s).1 = .ok b ↔ (Archive.read eng ref s).1 = .ok b)) ↔
      (d.status = .ok () ↔
        e.size ≤ d.chunks.flatten.length ∧ Patient e.size 0 d.chunks.flatten.length qs) := by
  intro s
  have sees : Sees _ s := (init_sees eng files readable password encoding).run spared
  have read : (Archive.read eng ref s).1 = d.bytes.mapError PyExc.raised :=
    decoded ▸ sees.read_outcome found
  have buffered : (Archive.openBuffered eng ref s).1 = d.bytes.mapError PyExc.raised :=
    decoded ▸ sees.openBuffered_outcome found
  obtain ⟨complete, short⟩ := sees.streamed_outcome found
    (show (o.reader.readEntry (source.content files) i).chunks.flatten = _ by rw [decoded]) toEnd
  have complete : _ → (streamed eng ref qs s).1 = .ok d.chunks.flatten := complete
  have short : _ → ∃ exc, (streamed eng ref qs s).1 = .error exc := short
  rw [read, buffered]
  by_cases enough : e.size ≤ d.chunks.flatten.length ∧ Patient e.size 0 d.chunks.flatten.length qs
  · rw [complete enough]
    simp only [Decoded.bytes_raised, enough, iff_true, and_self]
    constructor
    · intro agree
      exact ((agree _).1.mp rfl).1
    · intro ok b
      exact ⟨⟨fun same => ⟨ok, (Except.ok.inj same).symm⟩, fun same => by rw [same.2]⟩, True.intro⟩
  · obtain ⟨exc, failed⟩ := short enough
    rw [failed]
    simp only [Decoded.bytes_raised, enough, iff_false]
    constructor
    · intro agree ok
      cases (agree d.chunks.flatten).1.mpr ⟨ok, rfl⟩
    · intro fails b
      exact ⟨iff_of_false nofun fun same => fails same.1, True.intro⟩

/-! ## A bad checksum -/

/-- An engine whose archives have one file entry of declared size `size`. -/
def oneEntry (size : Nat) (d : Decoded) : Engine where
  openContent _ _ _ :=
    .ok
      { entries := .ok ⟨[{ path := "a", pathRaw := [97], kind := .file, size := size
                           isEncrypted := false, mode := none, modified := none }],
          one_lt_usizeBound⟩
        format := .zip
        readEntry := fun _ _ => d
        extractAll := fun _ _ => .ok { extracted := 1, failed := [], aborted := false } }
  missing := "no such file"
  invalidIndex _ := "invalid index"
  detectEncoding _ _ := "utf-8"
  wrapperName _ _ := none

/-- An intact entry of eight bytes, written in two chunks. -/
def intact : Decoded where
  chunks := [[1, 2, 3], [4, 5, 6, 7, 8]]
  status := .ok ()

/-- An engine for which every content is an archive of one intact entry. -/
def oneIntact : Engine := oneEntry 8 intact

/-- An intact entry of the declared size, read in pieces of five bytes. -/
theorem streamed_agrees_iff_intact :
    (∀ b,
      ((streamed (oneEntry 8 intact) (.int 0) [.read (some 5), .read1 (some 5), .read none]
          (init (fun _ => none) (.bytes [80]) none none)).1 = .ok b ↔
        (Archive.read (oneEntry 8 intact) (.int 0)
          (init (fun _ => none) (.bytes [80]) none none)).1 = .ok b) ∧
      ((Archive.openBuffered (oneEntry 8 intact) (.int 0)
          (init (fun _ => none) (.bytes [80]) none none)).1 = .ok b ↔
        (Archive.read (oneEntry 8 intact) (.int 0)
          (init (fun _ => none) (.bytes [80]) none none)).1 = .ok b)) ↔
      (intact.status = .ok () ↔ 8 ≤ intact.chunks.flatten.length ∧
        Patient 8 0 intact.chunks.flatten.length
          [.read (some 5), .read1 (some 5), .read none]) := by
  have found : Finds (View.over (oneEntry 8 intact) (fun _ => none) (.bytes [80]) none none)
      (.int 0) _ 0 _ := { opens := rfl, index := rfl, entry := rfl }
  exact streamed_agrees_iff (oneEntry 8 intact) (fun _ => none) (.bytes [80]) True.intro
    none none [] True.intro found rfl [.read (some 5), .read1 (some 5), .read none]
    (by simp [SeesEnd, Request.amount])

/-- The same bytes, with the checksum found wrong after the last of them. -/
def badChecksum : Decoded where
  chunks := intact.chunks
  status := .error (.error { variant := .corrupt, message := "bad CRC" })

/-- An entry that `read` refuses for its checksum is delivered through the pipe
as if it were intact. -/
theorem streamed_delivers_badChecksum :
    (streamed (oneEntry 8 badChecksum) (.int 0) [.read none]
        (init (fun _ => none) (.bytes [80]) none none)).1 = .ok [1, 2, 3, 4, 5, 6, 7, 8] ∧
      (Archive.read (oneEntry 8 badChecksum) (.int 0)
        (init (fun _ => none) (.bytes [80]) none none)).1 =
        .error { cls := .corruptArchiveError, text := "bad CRC" } := by
  decide

end Archive

end NewtuaPy
