import NewtuaPy.Sink

/-!
# Every byte, once

A run of `write_entry_to` seen from the sink: the calls of `write` in order,
each with the chunk handed over, what the sink took of it and its reply.  The
module follows the two loops, `write_all`'s retries within the engine's chunks,
as derivations over these calls.  A sink that reports what it takes ends with
exactly the entry's bytes, or with a prefix of them and the reason why.
-/

namespace NewtuaPy

variable {τ : Type}

/-- One call of a sink's `write`. -/
structure SinkCall where
  chunk : Bytes
  taken : Bytes
  reply : Reply

/-- What `PySink::write` makes of the call, when the sink did not raise. -/
def SinkCall.count (c : SinkCall) : Option Nat :=
  match c.reply with
  | .raises _ => none
  | .returns ret =>
      match ret.extractUsize with
      | some n => some (min n c.chunk.length)
      | none => some c.chunk.length

/-- The sink takes a prefix and returns its length, or takes the whole chunk and
returns `None`, something that is no integer, a negative integer or one larger
than the chunk, or raises. -/
inductive SinkCall.Told (c : SinkCall) : Prop
  | counted : c.taken <+: c.chunk → c.reply = .returns (.int c.taken.length) → c.Told
  | none : c.taken = c.chunk → c.reply = .returns .none → c.Told
  | other : c.taken = c.chunk → c.reply = .returns .other → c.Told
  | negative (i : Int) : i < 0 → c.taken = c.chunk → c.reply = .returns (.int i) → c.Told
  | larger (i : Int) : c.chunk.length < i → c.taken = c.chunk → c.reply = .returns (.int i) →
      c.Told
  | raised (exc : PyExc) : c.reply = .raises exc → c.Told

/-- The bytes the calls took, in order. -/
def accepted (calls : List SinkCall) : Bytes := (calls.map SinkCall.taken).flatten

/-- The sink, with a record of its calls.  `taken obj chunk` is what the object
takes of the chunk in its state `obj`. -/
def Sink.recording (sink : Sink τ) (taken : τ → Bytes → Bytes) : Sink (τ × List SinkCall) where
  write := fun obj chunk =>
    let (reply, next) := sink.write obj.1 chunk
    (reply, next, obj.2 ++ [{ chunk, taken := taken obj.1 chunk, reply }])

/-- How a loop of writes ends: all written, the sink raised, or it took nothing. -/
inductive Ending
  | done
  | raised (exc : PyExc)
  | stuck

/-- The calls of one `write_all`. -/
inductive Writes : Bytes → List SinkCall → Ending → Prop
  | done : Writes [] [] .done
  | raised (c : SinkCall) (exc : PyExc) : c.chunk ≠ [] → c.reply = .raises exc →
      Writes c.chunk [c] (.raised exc)
  | stuck (c : SinkCall) : c.chunk ≠ [] → c.count = some 0 → Writes c.chunk [c] .stuck
  | more (c : SinkCall) (n : Nat) {calls : List SinkCall} {ending : Ending} : c.chunk ≠ [] →
      c.count = some n → 0 < n → Writes (c.chunk.drop n) calls ending →
      Writes c.chunk (c :: calls) ending

/-- The calls of the engine's writes, chunk after chunk. -/
inductive WritesChunks : List Bytes → List SinkCall → Ending → Prop
  | done : WritesChunks [] [] .done
  | failed {chunk : Bytes} (chunks : List Bytes) {calls : List SinkCall} {ending : Ending} :
      Writes chunk calls ending → ending ≠ .done → WritesChunks (chunk :: chunks) calls ending
  | next {chunk : Bytes} {chunks : List Bytes} {calls more : List SinkCall} {ending : Ending} :
      Writes chunk calls .done → WritesChunks chunks more ending →
      WritesChunks (chunk :: chunks) (calls ++ more) ending

/-- What the loop returns. -/
def Ending.result : Ending → Except String Unit
  | .done => .ok ()
  | .raised exc => .error exc.text
  | .stuck => .error "failed to write whole buffer"

/-- What the adapter has stashed afterwards. -/
def Ending.stashed (err : Option PyExc) : Ending → Option PyExc
  | .raised exc => some exc
  | _ => err

/-! ## The loops make these calls -/

section Recording

variable (sink : Sink τ) (taken : τ → Bytes → Bytes)

/-- One call, as the adapter sees it. -/
theorem PySink.write_recording (self : PySink (τ × List SinkCall)) (buf : Bytes) :
    ∃ c next, c.chunk = buf ∧ c.taken = taken self.obj.1 buf ∧
      (∀ exc, c.reply = .raises exc → self.write (sink.recording taken) buf =
        (.error exc.text, { obj := (next, self.obj.2 ++ [c]), err := some exc })) ∧
      (∀ n, c.count = some n → self.write (sink.recording taken) buf =
        (.ok n, { self with obj := (next, self.obj.2 ++ [c]) })) := by
  rcases said : sink.write self.obj.1 buf with ⟨reply, next⟩
  refine ⟨{ chunk := buf, taken := taken self.obj.1 buf, reply }, next, rfl, rfl, ?_, ?_⟩
  · intro exc raised
    dsimp only at raised
    unfold PySink.write Sink.recording
    simp only [said, raised]
  · intro n counted
    unfold SinkCall.count at counted
    unfold PySink.write Sink.recording
    cases reply with
    | raises exc => cases counted
    | returns ret =>
        dsimp only at counted
        simp only [said]
        rcases extracted : ret.extractUsize with _ | m <;> rw [extracted] at counted
        · cases counted
          rfl
        · cases counted
          rfl

theorem SinkCall.raises_or_counts (c : SinkCall) :
    (∃ exc, c.reply = .raises exc) ∨ (∃ ret n, c.reply = .returns ret ∧ c.count = some n) := by
  unfold SinkCall.count
  rcases c.reply with ret | exc
  · right
    rcases extracted : ret.extractUsize with _ | n
    · exact ⟨ret, c.chunk.length, rfl, by simp only [extracted]⟩
    · exact ⟨ret, min n c.chunk.length, rfl, by simp only [extracted]⟩
  · exact Or.inl ⟨exc, rfl⟩

/-- The loop of `write_all` makes calls by its rules, and ends as they do. -/
theorem writeAll_recording (self : PySink (τ × List SinkCall)) (buf : Bytes) :
    ∃ calls ending next, Writes buf calls ending ∧ writeAll (sink.recording taken) self buf =
      (ending.result, { obj := (next, self.obj.2 ++ calls), err := ending.stashed self.err }) := by
  by_cases empty : buf = []
  · subst empty
    refine ⟨[], .done, self.obj.1, .done, ?_⟩
    rw [writeAll, if_pos List.isEmpty_nil, List.append_nil]
    rfl
  · have more : ¬buf.isEmpty = true := by rwa [List.isEmpty_iff]
    obtain ⟨c, next, rfl, -, raising, counting⟩ := self.write_recording sink taken buf
    rcases c.raises_or_counts with ⟨exc, raised⟩ | ⟨ret, n, -, counted⟩
    · refine ⟨[c], .raised exc, next, .raised c exc empty raised, ?_⟩
      rw [writeAll, if_neg more, raising exc raised]
      rfl
    · by_cases progress : 0 < n
      · have shorter : (c.chunk.drop n).length < c.chunk.length := by
          have := List.length_pos_iff.mpr empty
          rw [List.length_drop]
          omega
        obtain ⟨calls, ending, last, writes, rest⟩ :=
          writeAll_recording { self with obj := (next, self.obj.2 ++ [c]) } (c.chunk.drop n)
        refine ⟨c :: calls, ending, last, .more c n empty counted progress writes, ?_⟩
        rw [writeAll, if_neg more, counting n counted]
        dsimp only
        rw [if_pos ⟨progress, List.length_pos_iff.mpr empty⟩, rest, List.append_assoc]
        rfl
      · obtain rfl : n = 0 := by omega
        refine ⟨[c], .stuck, next, .stuck c empty counted, ?_⟩
        rw [writeAll, if_neg more, counting 0 counted]
        dsimp only
        rw [if_neg (by omega)]
        rfl
termination_by buf.length

/-- So does the engine's loop over its chunks. -/
theorem writeChunks_recording (self : PySink (τ × List SinkCall)) (chunks : List Bytes) :
    ∃ calls ending next, WritesChunks chunks calls ending ∧
      writeChunks (sink.recording taken) self chunks = (ending.result,
        { obj := (next, self.obj.2 ++ calls), err := ending.stashed self.err }) := by
  induction chunks generalizing self with
  | nil =>
      refine ⟨[], .done, self.obj.1, .done, ?_⟩
      rw [writeChunks, List.append_nil]
      rfl
  | cons chunk chunks ih =>
      obtain ⟨calls, ending, next, writes, first⟩ := writeAll_recording sink taken self chunk
      rw [writeChunks, first]
      cases ending with
      | done =>
          obtain ⟨more, ending, last, writesChunks, rest⟩ :=
            ih { obj := (next, self.obj.2 ++ calls), err := self.err }
          refine ⟨calls ++ more, ending, last, .next writes writesChunks, ?_⟩
          refine rest.trans ?_
          rw [List.append_assoc]
      | raised exc =>
          exact ⟨calls, .raised exc, next, .failed chunks writes (by intro h; cases h), rfl⟩
      | stuck => exact ⟨calls, .stuck, next, .failed chunks writes (by intro h; cases h), rfl⟩

/-- Keeping the record does not disturb the run. -/
def PySink.unrecorded (self : PySink (τ × List SinkCall)) : PySink τ :=
  { obj := self.obj.1, err := self.err }

theorem PySink.write_unrecorded (self : PySink (τ × List SinkCall)) (buf : Bytes) :
    self.unrecorded.write sink buf =
      ((self.write (sink.recording taken) buf).1,
        (self.write (sink.recording taken) buf).2.unrecorded) := by
  unfold PySink.write Sink.recording PySink.unrecorded
  rcases said : sink.write self.obj.1 buf with ⟨ret | exc, next⟩
  · dsimp only
    rcases extracted : ret.extractUsize with _ | n
    · simp only [said, extracted]
    · simp only [said, extracted]
  · simp only [said]

theorem writeAll_unrecorded (self : PySink (τ × List SinkCall)) (buf : Bytes) :
    writeAll sink self.unrecorded buf =
      ((writeAll (sink.recording taken) self buf).1,
        (writeAll (sink.recording taken) self buf).2.unrecorded) := by
  induction self, buf using writeAll.induct (sink.recording taken) with
  | case1 self buf empty => rw [writeAll, writeAll, if_pos empty, if_pos empty]
  | case2 self buf more message after failed =>
      rw [writeAll, writeAll, if_neg more, if_neg more,
        PySink.write_unrecorded sink taken, failed]
  | case3 self buf more n after took progress ih =>
      rw [writeAll, writeAll.eq_def (sink.recording taken), if_neg more, if_neg more,
        PySink.write_unrecorded sink taken, took]
      dsimp only
      rw [if_pos progress, if_pos progress]
      exact ih
  | case4 self buf more n after took stuck =>
      rw [writeAll, writeAll.eq_def (sink.recording taken), if_neg more, if_neg more,
        PySink.write_unrecorded sink taken, took]
      dsimp only
      rw [if_neg stuck, if_neg stuck]

theorem writeChunks_unrecorded (self : PySink (τ × List SinkCall)) (chunks : List Bytes) :
    writeChunks sink self.unrecorded chunks =
      ((writeChunks (sink.recording taken) self chunks).1,
        (writeChunks (sink.recording taken) self chunks).2.unrecorded) := by
  induction chunks generalizing self with
  | nil => rfl
  | cons chunk chunks ih =>
      unfold writeChunks
      rw [writeAll_unrecorded sink taken]
      rcases writeAll (sink.recording taken) self chunk with ⟨message | _, after⟩
      · rfl
      · exact ih after

end Recording

/-! ## What the calls add up to -/

theorem accepted_append (calls more : List SinkCall) :
    accepted (calls ++ more) = accepted calls ++ accepted more := by
  unfold accepted
  rw [List.map_append, List.flatten_append]

/-- What a told call took of its chunk is what `PySink::write` counts. -/
theorem SinkCall.Told.taken_eq {c : SinkCall} {n : Nat} (told : c.Told)
    (fits : c.chunk.length < usizeBound) (counted : c.count = some n) :
    c.taken = c.chunk.take n := by
  unfold SinkCall.count at counted
  have whole (i : Int) (taken : c.taken = c.chunk) (replied : c.reply = .returns (.int i))
      (outside : i < 0 ∨ (c.chunk.length : Int) < i) : c.taken = c.chunk.take n := by
    rw [replied] at counted
    unfold PyObj.extractUsize at counted
    dsimp only at counted
    have counts : c.chunk.length ≤ n := by
      split at counted <;> rename_i extracted <;> cases counted
      · split at extracted
        · cases extracted
          omega
        · cases extracted
      · exact Nat.le_refl _
    rw [taken, List.take_of_length_le counts]
  cases told with
  | counted part replied =>
      have short : c.taken.length ≤ c.chunk.length := part.length_le
      have extracted : (PyObj.int c.taken.length).extractUsize = some c.taken.length := by
        unfold PyObj.extractUsize
        dsimp only
        rw [if_pos ⟨Int.natCast_nonneg _, by omega⟩, Int.toNat_natCast]
      rw [replied] at counted
      dsimp only at counted
      rw [extracted] at counted
      cases counted
      rw [Nat.min_eq_left short]
      exact List.prefix_iff_eq_take.mp part
  | none taken replied =>
      rw [replied] at counted
      cases counted
      rw [taken, List.take_length]
  | other taken replied =>
      rw [replied] at counted
      cases counted
      rw [taken, List.take_length]
  | negative i below taken replied => exact whole i taken replied (Or.inl below)
  | larger i above taken replied => exact whole i taken replied (Or.inr above)
  | raised exc replied =>
      rw [replied] at counted
      cases counted

/-- The sink took something of its chunk and said so. -/
def SinkCall.Progresses (c : SinkCall) : Prop := (∃ ret, c.reply = .returns ret) ∧ c.taken ≠ []

/-- The call a failed loop ends on: it raised, or took nothing. -/
inductive Closes : Ending → List SinkCall → Prop
  | done : Closes .done []
  | raised (c : SinkCall) (exc : PyExc) : c.reply = .raises exc → Closes (.raised exc) [c]
  | stuck (c : SinkCall) (ret : PyObj) : c.reply = .returns ret → c.taken = [] → Closes .stuck [c]

/-- Calls that took the bytes in order, up to one that ended the loop. -/
structure Kept (bytes : Bytes) (calls : List SinkCall) (ending : Ending) : Prop where
  split : ∃ before last, calls = before ++ last ∧ Closes ending last ∧
    (∀ c ∈ before, c.Progresses) ∧ accepted before <+: bytes ∧
    (ending = .done → accepted before = bytes)

theorem SinkCall.returns_of_count {c : SinkCall} {n : Nat} (counted : c.count = some n) :
    ∃ ret, c.reply = .returns ret := by
  unfold SinkCall.count at counted
  rcases said : c.reply with ret | exc
  · exact ⟨ret, rfl⟩
  · rw [said] at counted
    cases counted

/-- One call in front of what follows it. -/
theorem Kept.cons {c : SinkCall} {n : Nat} {calls : List SinkCall} {ending : Ending}
    (told : c.Told) (fits : c.chunk.length < usizeBound) (nonempty : c.chunk ≠ [])
    (counted : c.count = some n) (progress : 0 < n) (rest : Kept (c.chunk.drop n) calls ending) :
    Kept c.chunk (c :: calls) ending := by
  obtain ⟨before, last, rfl, closes, progresses, part, whole⟩ := rest.split
  have taken : c.taken = c.chunk.take n := told.taken_eq fits counted
  have some : c.taken ≠ [] := by
    have := List.length_pos_iff.mpr nonempty
    rw [taken, ← List.length_pos_iff, List.length_take]
    omega
  have adds : accepted (c :: before) = c.chunk.take n ++ accepted before := by
    rw [← taken]
    rfl
  refine ⟨c :: before, last, rfl, closes, ?_, ?_, ?_⟩
  · intro d member
    rcases List.mem_cons.mp member with rfl | member
    · exact ⟨d.returns_of_count counted, some⟩
    · exact progresses d member
  · rw [adds]
    calc c.chunk.take n ++ accepted before <+: c.chunk.take n ++ c.chunk.drop n :=
          (List.prefix_append_right_inj _).mpr part
      _ = c.chunk := List.take_append_drop n c.chunk
  · intro done
    rw [adds, whole done, List.take_append_drop]

/-- The calls of one `write_all`, for a sink that tells what it takes. -/
theorem Writes.kept {buf : Bytes} {calls : List SinkCall} {ending : Ending}
    (writes : Writes buf calls ending) (told : ∀ c ∈ calls, c.Told)
    (fits : buf.length < usizeBound) : Kept buf calls ending := by
  induction writes with
  | done =>
      exact ⟨[], [], rfl, .done, List.forall_mem_nil _, List.nil_prefix, fun _ => rfl⟩
  | raised c exc nonempty replied =>
      exact ⟨[], [c], rfl, .raised c exc replied, List.forall_mem_nil _, List.nil_prefix,
        fun h => by cases h⟩
  | stuck c nonempty counted =>
      have nothing : c.taken = [] :=
        (told c List.mem_cons_self).taken_eq fits counted
      obtain ⟨ret, replied⟩ := c.returns_of_count counted
      exact ⟨[], [c], rfl, .stuck c ret replied nothing, List.forall_mem_nil _,
        List.nil_prefix, fun h => by cases h⟩
  | more c n nonempty counted progress writes ih =>
      have shorter : (c.chunk.drop n).length < usizeBound := by
        rw [List.length_drop]
        omega
      exact Kept.cons (told c List.mem_cons_self) fits nonempty counted progress
        (ih (fun d member => told d (List.mem_cons_of_mem c member)) shorter)

/-- A finished chunk, and the calls for the chunks after it. -/
theorem Kept.append {bytes rest : Bytes} {calls more : List SinkCall} {ending : Ending}
    (first : Kept bytes calls .done) (next : Kept rest more ending) :
    Kept (bytes ++ rest) (calls ++ more) ending := by
  obtain ⟨before, last, rfl, closes, progresses, -, whole⟩ := first.split
  obtain ⟨before', last', rfl, closes', progresses', part', whole'⟩ := next.split
  cases closes
  refine ⟨before ++ before', last', ?_, closes', ?_, ?_, ?_⟩
  · rw [List.append_nil, List.append_assoc]
  · intro c member
    rcases List.mem_append.mp member with member | member
    · exact progresses c member
    · exact progresses' c member
  · rw [accepted_append, whole rfl]
    exact (List.prefix_append_right_inj bytes).mpr part'
  · intro done
    rw [accepted_append, whole rfl, whole' done]

/-- A chunk that failed ends the entry. -/
theorem Kept.stop {bytes : Bytes} {calls : List SinkCall} {ending : Ending}
    (first : Kept bytes calls ending) (failed : ending ≠ .done) (rest : Bytes) :
    Kept (bytes ++ rest) calls ending := by
  obtain ⟨before, last, split, closes, progresses, part, -⟩ := first.split
  exact ⟨before, last, split, closes, progresses, part.trans (List.prefix_append bytes rest),
    fun done => absurd done failed⟩

/-- The calls of the engine's writes, for a sink that tells what it takes. -/
theorem WritesChunks.kept {chunks : List Bytes} {calls : List SinkCall} {ending : Ending}
    (writes : WritesChunks chunks calls ending) (told : ∀ c ∈ calls, c.Told)
    (fits : ∀ chunk ∈ chunks, chunk.length < usizeBound) :
    Kept chunks.flatten calls ending := by
  induction writes with
  | done =>
      exact ⟨[], [], rfl, .done, List.forall_mem_nil _, List.nil_prefix, fun _ => rfl⟩
  | failed chunks first failed =>
      rw [List.flatten_cons]
      exact (first.kept told (fits _ List.mem_cons_self)).stop failed chunks.flatten
  | next first rest ih =>
      rw [List.flatten_cons]
      apply Kept.append
      · exact first.kept (fun c member => told c (List.mem_append_left _ member))
          (fits _ List.mem_cons_self)
      · exact ih (fun c member => told c (List.mem_append_right _ member))
          (fun chunk member => fits chunk (List.mem_cons_of_mem _ member))

/-! ## How many calls -/

/-- Every call but the last took at least one byte: the loop ends, for any sink. -/
theorem Writes.calls_le {buf : Bytes} {calls : List SinkCall} {ending : Ending}
    (writes : Writes buf calls ending) : calls.length ≤ buf.length := by
  induction writes with
  | done => exact Nat.le_refl _
  | raised c exc nonempty _ => exact List.length_pos_iff.mpr nonempty
  | stuck c nonempty _ => exact List.length_pos_iff.mpr nonempty
  | more c n nonempty counted progress writes ih =>
      have := List.length_pos_iff.mpr nonempty
      rw [List.length_drop] at ih
      rw [List.length_cons]
      omega

theorem WritesChunks.calls_le {chunks : List Bytes} {calls : List SinkCall} {ending : Ending}
    (writes : WritesChunks chunks calls ending) : calls.length ≤ chunks.flatten.length := by
  induction writes with
  | done => exact Nat.le_refl _
  | failed chunks first _ =>
      have := first.calls_le
      rw [List.flatten_cons, List.length_append]
      omega
  | next first rest ih =>
      have := first.calls_le
      rw [List.flatten_cons, List.length_append, List.length_append]
      omega

/-! ## Under `write_entry_to` -/

/-- `write_entry_to` over its recorded calls. -/
theorem writeEntryTo_recording (d : Decoded) (sink : Sink τ) (taken : τ → Bytes → Bytes)
    (obj : τ) :
    ∃ calls ending next, WritesChunks d.chunks calls ending ∧
      (writeEntryTo d (sink.recording taken) (obj, [])).2 = (next, calls) ∧
      (∀ exc, ending = .raised exc →
        (writeEntryTo d (sink.recording taken) (obj, [])).1 = .error exc) ∧
      (ending = .stuck →
        ∃ exc, (writeEntryTo d (sink.recording taken) (obj, [])).1 = .error exc) := by
  obtain ⟨calls, ending, next, writes, run⟩ :=
    writeChunks_recording sink taken { obj := (obj, []) } d.chunks
  refine ⟨calls, ending, next, writes, ?_, ?_, ?_⟩
  · unfold writeEntryTo Decoded.into
    rw [run]
    cases ending with
    | done => rcases d.status with (_ | _) | _ <;> rfl
    | raised exc => rfl
    | stuck => rfl
  · intro exc raised
    unfold writeEntryTo Decoded.into
    rw [run, raised]
    rfl
  · intro stuck
    unfold writeEntryTo Decoded.into
    rw [run, stuck]
    exact ⟨_, rfl⟩

theorem writeEntryTo_unrecorded (d : Decoded) (sink : Sink τ) (taken : τ → Bytes → Bytes)
    (obj : τ) :
    writeEntryTo d sink obj =
      ((writeEntryTo d (sink.recording taken) (obj, [])).1,
        (writeEntryTo d (sink.recording taken) (obj, [])).2.1) := by
  have same := writeChunks_unrecorded sink taken { obj := (obj, []) } d.chunks
  unfold writeEntryTo Decoded.into
  change writeChunks sink { obj } d.chunks = _ at same
  rw [same]
  rcases writeChunks (sink.recording taken) { obj := (obj, []) } d.chunks with ⟨message | _, after⟩
  · rfl
  · rcases d.status with (_ | _) | _ <;> rfl

theorem Closes.length_le {ending : Ending} {last : List SinkCall} (closes : Closes ending last) :
    last.length ≤ 1 := by
  cases closes <;> simp

/-- A call that raised or took nothing is the last one. -/
theorem Kept.last_of_not_progresses {bytes : Bytes} {calls before after : List SinkCall}
    {c : SinkCall} {ending : Ending} (kept : Kept bytes calls ending)
    (split : calls = before ++ c :: after) (halts : ¬c.Progresses) :
    after = [] ∧ accepted before <+: bytes ∧ Closes ending [c] := by
  obtain ⟨front, last, eq, closes, progresses, part, -⟩ := kept.split
  have short : last.length ≤ 1 := closes.length_le
  have outside : c ∉ front := fun member => halts (progresses c member)
  rcases List.append_eq_append_iff.mp (eq.symm.trans split) with
    ⟨between, eqBefore, eqLast⟩ | ⟨between, eqFront, eqLast⟩
  · -- the call is among those that end the loop, and these are at most one
    rw [eqLast, List.length_append, List.length_cons] at short
    obtain rfl : between = [] := List.eq_nil_of_length_eq_zero (by omega)
    obtain rfl : after = [] := List.eq_nil_of_length_eq_zero (by omega)
    rw [List.append_nil] at eqBefore
    subst eqBefore eqLast
    exact ⟨rfl, part, closes⟩
  · cases between with
    | nil =>
        rw [List.append_nil] at eqFront
        rw [List.nil_append] at eqLast
        rw [← eqLast, List.length_cons] at short
        obtain rfl : after = [] := List.eq_nil_of_length_eq_zero (by omega)
        subst eqFront eqLast
        exact ⟨rfl, part, closes⟩
    | cons d between =>
        injection eqLast with same _
        subst same
        apply absurd _ outside
        rw [eqFront]
        exact List.mem_append_right _ List.mem_cons_self

/-- For a sink that tells what it takes, `write_entry_to` hands over the entry's
bytes exactly, or fails: with the sink's own exception after a prefix of them,
or where the sink takes nothing.  No count passes the end of its buffer, and
there are no more calls than bytes. -/
theorem writeEntryTo_exact (sink : Sink τ) (taken : τ → Bytes → Bytes) (obj : τ)
    (chunks : List (Vec UInt8)) (status : Except Fault Unit)
    (result : Except PyExc Unit) (next : τ) (calls : List SinkCall)
    (run : writeEntryTo ⟨chunks.map Vec.toList, status⟩ (sink.recording taken) (obj, []) =
      (result, next, calls))
    (told : ∀ c ∈ calls, c.Told) :
    writeEntryTo ⟨chunks.map Vec.toList, status⟩ sink obj = (result, next) ∧
      (∀ (self self' : PySink τ) (buf : Bytes) (n : Nat),
        self.write sink buf = (.ok n, self') → n ≤ buf.length) ∧
      (result = .ok () → accepted calls = (chunks.map Vec.toList).flatten) ∧
      (∀ before c after exc, calls = before ++ c :: after → c.reply = .raises exc →
        after = [] ∧ accepted before <+: (chunks.map Vec.toList).flatten ∧
          result = .error exc) ∧
      (∀ before c after ret, calls = before ++ c :: after → c.reply = .returns ret →
        c.taken = [] → after = [] ∧ ∃ exc, result = .error exc) ∧
      calls.length ≤ (chunks.map Vec.toList).flatten.length := by
  obtain ⟨made, ending, last, writes, state, raises, sticks⟩ :=
    writeEntryTo_recording ⟨chunks.map Vec.toList, status⟩ sink taken obj
  have same := writeEntryTo_unrecorded ⟨chunks.map Vec.toList, status⟩ sink taken obj
  rw [run] at state raises sticks same
  cases state
  have fits : ∀ chunk ∈ chunks.map Vec.toList, chunk.length < usizeBound := by
    intro chunk member
    obtain ⟨v, -, rfl⟩ := List.mem_map.mp member
    exact v.fits
  have kept : Kept (chunks.map Vec.toList).flatten calls ending := writes.kept told fits
  refine ⟨same, fun self self' buf n wrote => PySink.write_le wrote, ?_, ?_, ?_, writes.calls_le⟩
  · intro returned
    obtain ⟨before, closing, rfl, closes, -, -, whole⟩ := kept.split
    cases closes with
    | done =>
        rw [List.append_nil]
        exact whole rfl
    | raised c exc _ =>
        cases returned.symm.trans (raises exc rfl)
    | stuck c ret _ _ =>
        obtain ⟨exc, failed⟩ := sticks rfl
        cases returned.symm.trans failed
  · intro before c after exc split raised
    have halts : ¬c.Progresses := by
      intro ⟨⟨ret, replied⟩, _⟩
      cases raised.symm.trans replied
    obtain ⟨ends, part, closes⟩ := kept.last_of_not_progresses split halts
    refine ⟨ends, part, ?_⟩
    cases closes with
    | raised _ exc' replied =>
        cases raised.symm.trans replied
        exact raises exc rfl
    | stuck _ ret replied _ => cases raised.symm.trans replied
  · intro before c after ret split returned nothing
    have halts : ¬c.Progresses := fun progresses => progresses.2 nothing
    obtain ⟨ends, -, closes⟩ := kept.last_of_not_progresses split halts
    refine ⟨ends, ?_⟩
    cases closes with
    | raised _ exc replied => cases returned.symm.trans replied
    | stuck _ _ _ _ => exact sticks rfl

/-- A sink that takes a byte at a time. -/
def sipping : Sink Bytes where
  write := fun obj chunk => (.returns (.int (chunk.take 1).length), obj ++ chunk.take 1)

theorem writeEntryTo_sipping :
    writeEntryTo ⟨[[104, 105]], .ok ()⟩ sipping [] = (.ok (), [104, 105]) ∧
      accepted [⟨[104, 105], [104], .returns (.int 1)⟩, ⟨[105], [105], .returns (.int 1)⟩] =
        [104, 105] := by
  have exact := writeEntryTo_exact sipping (fun _ chunk => chunk.take 1) []
    [⟨[104, 105], by decide⟩] (.ok ()) (.ok ()) [104, 105]
    [⟨[104, 105], [104], .returns (.int 1)⟩, ⟨[105], [105], .returns (.int 1)⟩]
    (by simp [writeEntryTo, Decoded.into, writeChunks, writeAll, PySink.write, Sink.recording,
      sipping, PyObj.extractUsize, usizeBound])
    (by
      intro c member
      simp only [List.mem_cons, List.not_mem_nil, or_false] at member
      rcases member with rfl | rfl
      · exact .counted ⟨[105], rfl⟩ rfl
      · exact .counted ⟨[], rfl⟩ rfl)
  exact ⟨exact.1, exact.2.2.1 rfl⟩

end NewtuaPy
