import NewtuaPy.AsyncInFlight

/-!
# Streams that share a spilled file

Any number of stream openings on worker threads, each followed by the close of
its stream, next to the `__aexit__` of an archive over bytes or a file object.
What holds the lock is one step: an opening reads `_tempfile`, takes its claim
and has the engine open the path in three steps, and whoever gives up a claim
counts down in one step and deletes the file in another.  A stream that is open
should have its file, with nobody about to delete it.  The module finds the
steps that break this.
-/

namespace NewtuaPy

/-! ## `release`, in two steps -/

/-- The part of `release` under the lock; it returns whether the count has reached zero. -/
def TempFile.decrement (t : Nat) : Py World Bool := do
  Exn.modify fun w => w.modifyTemp t fun f => { f with holders := f.holders - 1 }
  let w ← Exn.get
  match w.temps[t]? with
  | some f => pure (decide (f.holders ≤ 0))
  | none => pure false

theorem TempFile.decrement_run {t : Nat} {w : World} {f : TempFile} (entry : w.temps[t]? = some f) :
    TempFile.decrement t w = (.ok (decide (f.holders ≤ 1)),
      { w with temps := w.temps.set t { f with holders := f.holders - 1 } }) := by
  obtain ⟨inside, rfl⟩ := List.getElem?_eq_some_iff.mp entry
  unfold TempFile.decrement World.modifyTemp
  simp [inside, List.modify_eq_set_getElem?]

theorem TempFile.delete_run {t : Nat} {w : World} {f : TempFile} (entry : w.temps[t]? = some f) :
    TempFile.delete t w = (.ok (),
      { w with
        temps := w.temps.set t { f with deleteCalls := f.deleteCalls + 1 }
        files := if f.deleteCalls = 0 then Function.update w.files f.path none else w.files }) := by
  obtain ⟨inside, rfl⟩ := List.getElem?_eq_some_iff.mp entry
  unfold TempFile.delete World.modifyTemp
  by_cases fresh : w.temps[t].deleteCalls = 0 <;>
    simp [inside, fresh, deleteTempfile, World.writeFile, List.modify_eq_set_getElem?]

/-- With nothing in between, the two steps are `release`. -/
theorem TempFile.release_eq (t : Nat) :
    TempFile.release t = (do
      let last ← TempFile.decrement t
      if last then TempFile.delete t else pure ()) := by
  funext w
  rw [TempFile.release_run]
  unfold World.afterRelease
  rcases entry : w.temps[t]? with _ | f
  · have same : w.temps.modify t (fun f => { f with holders := f.holders - 1 }) = w.temps :=
      List.modify_eq_self (List.getElem?_eq_none_iff.mp entry)
    have counted : TempFile.decrement t w = (.ok false, w) := by
      unfold TempFile.decrement World.modifyTemp
      simp [same, entry]
    rw [Exn.bind_of_ok counted]
    rfl
  · have inside : t < w.temps.length := (List.getElem?_eq_some_iff.mp entry).1
    rw [Exn.bind_of_ok (TempFile.decrement_run entry)]
    by_cases more : 1 < f.holders
    · have kept : ¬f.holders ≤ 1 := by omega
      simp [more, kept]
    · have last : f.holders ≤ 1 := by omega
      have now : (w.temps.set t { f with holders := f.holders - 1 })[t]? =
          some { f with holders := f.holders - 1 } := List.getElem?_set_self inside
      have deleted := TempFile.delete_run
        (w := { w with temps := w.temps.set t { f with holders := f.holders - 1 } }) now
      simp [more, last, deleted, List.set_set]

namespace AsyncArchive

/-! ## The parties -/

/-- Where a stream opening is, and then its stream.  `tempfile` is what the
opening has found in `_tempfile`. -/
inductive Opening
  | starting
  /-- about to call `hold()` -/
  | found (tempfile : Option Nat)
  /-- about to have the engine open the path -/
  | held (tempfile : Option Nat)
  /-- returned, as the `n`-th stream, and not closed -/
  | live (n : Nat) (tempfile : Option Nat)
  /-- about to call `release()` -/
  | releasing (tempfile : Option Nat)
  /-- out of the lock, about to call `_delete()` -/
  | deleting (t : Nat)
  | done
deriving DecidableEq

/-- What the opening has found in `_tempfile`. -/
def Opening.field : Opening → Option (Option Nat)
  | .found tempfile | .held tempfile | .live _ tempfile | .releasing tempfile => some tempfile
  | .deleting t => some (some t)
  | .starting | .done => none

/-- The opening, or its stream, counts as a holder of the file. -/
def Opening.claims (t : Nat) : Opening → Bool
  | .held (some u) | .live _ (some u) | .releasing (some u) => u == t
  | _ => false

def Opening.isLive : Opening → Bool
  | .live _ _ => true
  | _ => false

/-- Where `__aexit__` is. -/
inductive Leaving
  | inside
  | deleting (t : Nat)
  /-- about to clear `_tempfile` -/
  | clearing
  | left
deriving DecidableEq

structure Sharing where
  session : AsyncSession
  openings : List Opening := []
  leaving : Leaving := .inside

namespace Sharing

inductive Event
  | start
  | find (k : Nat)
  | hold (k : Nat)
  | connect (k : Nat) (eng : Engine) (index : Int) (expectedSize : Nat)
  | shut (k : Nat)
  | release (k : Nat)
  | delete (k : Nat)
  | exit
  | exitDelete
  | exitClear

/-- The `k`-th opening goes on to `o`. -/
def put (c : Sharing) (k : Nat) (o : Opening) : Sharing :=
  { c with openings := c.openings.set k o }

/-- The answer of the engine to an opening. -/
def answer (eng : Engine) (index : Int) (path : FilePath) (a : AsyncSession) :
    Except PyExc Bytes × AsyncSession :=
  onWorld (openStreamPath eng path index a.self.password a.self.encoding) a

/-- `_tempfile = None`, and the asynchronous archive is closed. -/
def cleared (a : AsyncSession) : AsyncSession :=
  { a with self := { a.self with sync := { a.self.sync with tempfile := none }, closed := true } }

/-- One step of one party. -/
def next (c : Sharing) : Event → Option Sharing
  | .start => some { c with openings := c.openings ++ [.starting] }
  | .find k =>
      match c.openings[k]? with
      | some .starting => some (c.put k (.found c.session.self.sync.tempfile))
      | _ => none
  | .hold k =>
      match c.openings[k]? with
      | some (.found tempfile) =>
          some { c.put k (.held tempfile) with
            session := (onWorld (holdClaim tempfile) c.session).2 }
      | _ => none
  | .connect k eng index expectedSize =>
      match c.openings[k]?, c.session.self.path with
      | some (.held tempfile), some path =>
          match answer eng index path c.session with
          | (.ok data, a) =>
              let stream : PipeStream :=
                { data, expectedSize := some expectedSize, onClose := tempfile }
              some { c.put k (.live a.world.streams.length tempfile) with
                session := (onWorld (newStream stream) a).2 }
          | (.error _, a) => some { c.put k (.releasing tempfile) with session := a }
      | _, _ => none
  -- `super().close()`, after which the callback runs
  | .shut k =>
      match c.openings[k]? with
      | some (.live n tempfile) =>
          some { c.put k (.releasing tempfile) with
            session := { c.session with world := { c.session.world with
              streams := c.session.world.streams.modify n ({ · with closed := true }) } } }
      | _ => none
  | .release k =>
      match c.openings[k]? with
      | some (.releasing none) => some (c.put k .done)
      | some (.releasing (some t)) =>
          match onWorld (TempFile.decrement t) c.session with
          | (.ok true, a) => some { c.put k (.deleting t) with session := a }
          | (_, a) => some { c.put k .done with session := a }
      | _ => none
  | .delete k =>
      match c.openings[k]? with
      | some (.deleting t) =>
          some { c.put k .done with session := (onWorld (TempFile.delete t) c.session).2 }
      | _ => none
  | .exit =>
      if c.leaving = .inside then
        let shut : AsyncSession := { c.session with
          self := { c.session.self with sync := Archive.shut c.session.self.sync } }
        match c.session.self.sync.tempfile with
        | none => some { c with session := shut, leaving := .clearing }
        | some t =>
            match onWorld (TempFile.decrement t) shut with
            | (.ok true, a) => some { c with session := a, leaving := .deleting t }
            | (_, a) => some { c with session := a, leaving := .clearing }
      else none
  | .exitDelete =>
      match c.leaving with
      | .deleting t => some { c with
          session := (onWorld (TempFile.delete t) c.session).2
          leaving := .clearing }
      | _ => none
  | .exitClear =>
      if c.leaving = .clearing then some { c with session := cleared c.session, leaving := .left }
      else none

/-- An archive over bytes or a file object has just been entered. -/
def Entered (c : Sharing) : Prop :=
  ∃ eng files source password encoding,
    Source.ownPath source = none ∧
      aenter eng (init files source password encoding) = (.ok (), c.session) ∧
      c.openings = [] ∧ c.leaving = .inside

def sharing : Lts Sharing Event where
  init := Entered
  step c e c' := next c e = some c'

/-! ## Each party alone

With no other step in between, the steps of a party are the operation they come from. -/

variable {c : Sharing} {k : Nat} {o : Opening}

theorem put_at (at' : c.openings[k]? = some o) (next : Opening) :
    (c.put k next).openings[k]? = some next :=
  List.getElem?_set_self (List.getElem?_eq_some_iff.mp at').1

theorem put_put (next last : Opening) : (c.put k next).put k last = c.put k last := by
  unfold put
  rw [List.set_set]

/-- `release` is its two steps, or the first of them. -/
theorem release_alone (t : Nat) (a : AsyncSession) :
    (∃ a', onWorld (TempFile.decrement t) a = (.ok true, a') ∧
        (onWorld (TempFile.delete t) a').2 = { a with world := a.world.afterRelease t }) ∨
      onWorld (TempFile.decrement t) a =
        (.ok false, { a with world := a.world.afterRelease t }) := by
  have both := TempFile.release_run t a.world
  rw [TempFile.release_eq] at both
  obtain ⟨b, w, counted⟩ : ∃ b w, TempFile.decrement t a.world = (.ok b, w) := by
    unfold TempFile.decrement
    rw [Exn.modify_bind_apply, Exn.get_bind_apply]
    rcases (a.world.modifyTemp t fun f => { f with holders := f.holders - 1 }).temps[t]? with _ | f
    · exact ⟨false, _, rfl⟩
    · exact ⟨_, _, rfl⟩
  rw [Exn.bind_of_ok counted] at both
  cases b with
  | true =>
      left
      refine ⟨_, onWorld_run counted, ?_⟩
      have deleted : TempFile.delete t w = (.ok (), a.world.afterRelease t) := both
      exact congrArg Prod.snd (onWorld_run (a := { a with world := w }) deleted)
  | false =>
      right
      have left : w = a.world.afterRelease t := congrArg Prod.snd both
      rw [← left]
      exact onWorld_run counted

theorem steps_cons {c c' : Sharing} {e : Event} (step : next c e = some c') (es : List Event) :
    (e :: es).foldlM next c = es.foldlM next c' := by
  rw [List.foldlM_cons, step]
  rfl

/-- `__aexit__`. -/
theorem exit_alone (inside : c.leaving = .inside) :
    ∃ es ∈ [[Event.exit, .exitClear], [.exit, .exitDelete, .exitClear]],
      es.foldlM next c = some { c with session := (aexit c.session).2, leaving := .left } := by
  let shut : AsyncSession := { c.session with
    self := { c.session.self with sync := Archive.shut c.session.self.sync } }
  have clear (a : AsyncSession) :
      next { c with session := a, leaving := .clearing } .exitClear =
        some { c with session := cleared a, leaving := .left } := rfl
  rcases claimed : c.session.self.sync.tempfile with _ | t
  · have left : cleared shut = (aexit c.session).2 := by
      rw [aexit_unclaimed claimed]
      unfold cleared shut Archive.shut
      dsimp only
      rw [claimed]
    have first : next c .exit = some { c with session := shut, leaving := .clearing } := by
      simp only [next, if_pos inside, claimed]
      rfl
    refine ⟨[.exit, .exitClear], List.mem_cons_self, ?_⟩
    rw [steps_cons first, steps_cons (clear shut), left]
    rfl
  · have left : cleared { shut with world := c.session.world.afterRelease t } =
        (aexit c.session).2 := by
      rw [aexit_claimed claimed]
      rfl
    rcases release_alone t shut with ⟨a, counted, deleted⟩ | counted
    · have first : next c .exit = some { c with session := a, leaving := .deleting t } := by
        simp only [next, if_pos inside, claimed]
        rw [counted]
      have second : next { c with session := a, leaving := .deleting t } .exitDelete =
          some { c with
            session := { shut with world := c.session.world.afterRelease t }
            leaving := .clearing } := by
        rw [← deleted]
        rfl
      refine ⟨[.exit, .exitDelete, .exitClear], List.mem_cons_of_mem _ List.mem_cons_self, ?_⟩
      rw [steps_cons first, steps_cons second, steps_cons (clear _), left]
      rfl
    · have first : next c .exit = some { c with
          session := { shut with world := c.session.world.afterRelease t }
          leaving := .clearing } := by
        simp only [next, if_pos inside, claimed]
        rw [counted]
      refine ⟨[.exit, .exitClear], List.mem_cons_self, ?_⟩
      rw [steps_cons first, steps_cons (clear _), left]
      rfl

/-- `release()` of a party: its claim is given up, or it has none. -/
theorem release_steps (tempfile : Option Nat) (at' : c.openings[k]? = some (.releasing tempfile)) :
    ∃ es ∈ [[Event.release k], [.release k, .delete k]],
      es.foldlM next c = some { c.put k .done with
        session := (onWorld (releaseClaim tempfile) c.session).2 } := by
  cases tempfile with
  | none =>
      refine ⟨[.release k], List.mem_cons_self, ?_⟩
      have only : next c (.release k) = some (c.put k .done) := by
        simp only [next, at']
      rw [steps_cons only]
      rfl
  | some t =>
      have released : (onWorld (releaseClaim (some t)) c.session).2 =
          { c.session with world := c.session.world.afterRelease t } :=
        congrArg Prod.snd (onWorld_run (TempFile.release_run t c.session.world))
      rw [released]
      rcases release_alone t c.session with ⟨a, counted, deleted⟩ | counted
      · have first : next c (.release k) = some { c.put k (.deleting t) with session := a } := by
          simp only [next, at', counted]
        have there : { c.put k (.deleting t) with session := a : Sharing }.openings[k]? =
            some (.deleting t) := put_at at' _
        have second : next { c.put k (.deleting t) with session := a } (.delete k) =
            some { c.put k .done with
              session := { c.session with world := c.session.world.afterRelease t } } := by
          simp only [next, there, deleted]
          exact congrArg (fun d : Sharing => some { d with
            session := { c.session with world := c.session.world.afterRelease t } })
            (put_put (.deleting t) .done)
        refine ⟨[.release k, .delete k], List.mem_cons_of_mem _ List.mem_cons_self, ?_⟩
        rw [steps_cons first, steps_cons second]
        rfl
      · have only : next c (.release k) = some { c.put k .done with
            session := { c.session with world := c.session.world.afterRelease t } } := by
          simp only [next, at', counted]
        refine ⟨[.release k], List.mem_cons_self, ?_⟩
        rw [steps_cons only]
        rfl

/-- An opening up to the answer of the engine. -/
theorem opening_steps (at' : c.openings[k]? = some .starting) (es : List Event) :
    (Event.find k :: .hold k :: es).foldlM next c =
      es.foldlM next { c.put k (.held c.session.self.sync.tempfile) with
        session := (onWorld (holdClaim c.session.self.sync.tempfile) c.session).2 } := by
  have first : next c (.find k) = some (c.put k (.found c.session.self.sync.tempfile)) := by
    simp only [next, at']
  have second : next (c.put k (.found c.session.self.sync.tempfile)) (.hold k) =
      some { c.put k (.held c.session.self.sync.tempfile) with
        session := (onWorld (holdClaim c.session.self.sync.tempfile) c.session).2 } := by
    have found := put_at at' (.found c.session.self.sync.tempfile)
    simp only [next, found]
    rw [put_put]
    rfl
  rw [steps_cons first, steps_cons second]

/-- The `__aenter__` of a stream on an entered archive, whether it opens or fails. -/
theorem opening_alone (at' : c.openings[k]? = some .starting) {path : FilePath}
    (entered : c.session.self.path = some path) (eng : Engine) (index : Int) (expectedSize : Nat) :
    (∃ n stream b, StreamCtx.aenter eng ⟨index, expectedSize⟩ c.session = (.ok (n, stream), b) ∧
        [Event.find k, .hold k, .connect k eng index expectedSize].foldlM next c =
          some { c.put k (.live n c.session.self.sync.tempfile) with session := b }) ∨
      ∃ exc b, StreamCtx.aenter eng ⟨index, expectedSize⟩ c.session = (.error exc, b) ∧
        ∃ es, (Event.find k :: .hold k :: .connect k eng index expectedSize :: es).foldlM next c =
          some { c.put k .done with session := b } := by
  obtain ⟨w, held, -⟩ := holdClaim_ok c.session.self.sync.tempfile c.session.world
  have holding : (onWorld (holdClaim c.session.self.sync.tempfile) c.session).2 =
      { c.session with world := w } := congrArg Prod.snd (onWorld_run held)
  have at'' : { c.put k (.held c.session.self.sync.tempfile) with
      session := { c.session with world := w } : Sharing }.openings[k]? =
      some (.held c.session.self.sync.tempfile) := put_at at' _
  have piped : StreamCtx.aenter eng ⟨index, expectedSize⟩ c.session =
      onWorld (openPipe c.session.self.sync.tempfile
        (openStreamPath eng path index c.session.self.password c.session.self.encoding)
        (some expectedSize)) c.session := by
    unfold StreamCtx.aenter _openPipeSync
    rw [Exn.get_bind_apply, entered]
    rfl
  rcases answered : openStreamPath eng path index c.session.self.password c.session.self.encoding w
    with ⟨exc | data, w'⟩
  · right
    obtain ⟨w'', released, -⟩ := releaseClaim_ok c.session.self.sync.tempfile w'
    have connected : next { c.put k (.held c.session.self.sync.tempfile) with
        session := { c.session with world := w } } (.connect k eng index expectedSize) =
        some { c.put k (.releasing c.session.self.sync.tempfile) with
          session := { c.session with world := w' } } := by
      have said : answer eng index path { c.session with world := w } =
          (.error exc, { c.session with world := w' }) :=
        onWorld_run (a := { c.session with world := w }) answered
      simp only [next, at'', entered, said]
      exact congrArg (fun d : Sharing => some { d with
        session := { c.session with world := w' } }) (put_put _ _)
    obtain ⟨es, -, steps⟩ := release_steps
      (c := { c.put k (.releasing c.session.self.sync.tempfile) with
        session := { c.session with world := w' } })
      c.session.self.sync.tempfile (put_at at' _)
    have given : (onWorld (releaseClaim c.session.self.sync.tempfile)
        { c.session with world := w' }).2 = { c.session with world := w'' } :=
      congrArg Prod.snd (onWorld_run (a := { c.session with world := w' }) released)
    refine ⟨exc.raised, { c.session with world := w'' }, ?_, es, ?_⟩
    · rw [piped]
      exact onWorld_run (openPipe_error held answered released _)
    · rw [opening_steps at', holding, steps_cons connected, steps, given]
      exact congrArg (fun d : Sharing => some { d with
        session := { c.session with world := w'' } }) (put_put _ _)
  · left
    let stream : PipeStream :=
      { data, expectedSize := some expectedSize, onClose := c.session.self.sync.tempfile }
    let b : AsyncSession :=
      { c.session with world := { w' with streams := w'.streams ++ [stream] } }
    have connected : next { c.put k (.held c.session.self.sync.tempfile) with
        session := { c.session with world := w } } (.connect k eng index expectedSize) =
        some { c.put k (.live w'.streams.length c.session.self.sync.tempfile) with
          session := b } := by
      have said : answer eng index path { c.session with world := w } =
          (.ok data, { c.session with world := w' }) :=
        onWorld_run (a := { c.session with world := w }) answered
      simp only [next, at'', entered, said]
      exact congrArg (fun d : Sharing => some { d with session := b }) (put_put _ _)
    refine ⟨w'.streams.length, stream, b, ?_, ?_⟩
    · rw [piped]
      exact onWorld_run (openPipe_ok held answered _)
    · rw [opening_steps at', holding, steps_cons connected]
      rfl

/-- The `close` of an open stream. -/
theorem close_alone {n : Nat} {stream : PipeStream}
    (at' : c.openings[k]? = some (.live n stream.onClose))
    (entry : c.session.world.streams[n]? = some stream) (unclosed : stream.closed = false) :
    ∃ es ∈ [[Event.release k], [.release k, .delete k]],
      (Event.shut k :: es).foldlM next c = some { c.put k .done with
        session := (onWorld (closeStream n none) c.session).2 } := by
  let marked : AsyncSession := { c.session with world := { c.session.world with
    streams := c.session.world.streams.modify n ({ · with closed := true }) } }
  have first : next c (.shut k) =
      some { c.put k (.releasing stream.onClose) with session := marked } := by
    simp only [next, at']
    rfl
  obtain ⟨es, among, steps⟩ := release_steps
    (c := { c.put k (.releasing stream.onClose) with session := marked })
    stream.onClose (put_at at' _)
  have closed : (onWorld (closeStream n none) c.session).2 =
      (onWorld (releaseClaim stream.onClose) marked).2 := by
    have run : (closeStream n none c.session.world).2 =
        (releaseClaim stream.onClose marked.world).2 := by
      unfold closeStream
      rw [Exn.get_bind_apply, entry]
      simp only [unclosed, and_self, if_true, Exn.modify_bind_apply]
      rcases stream.onClose with _ | t
      · rfl
      · dsimp only
        rw [Exn.bind_of_ok (TempFile.release_run t _)]
        exact (congrArg Prod.snd (TempFile.release_run t marked.world)).symm
    exact congrArg (fun world => { c.session with world }) run
  refine ⟨es, among, ?_⟩
  rw [steps_cons first, steps, closed]
  exact congrArg (fun d : Sharing => some { d with
    session := (onWorld (releaseClaim stream.onClose) marked).2 }) (put_put _ _)

/-- Somebody has left the lock and is about to delete the file. -/
def Pending (c : Sharing) : Prop :=
  (∃ t, .deleting t ∈ c.openings) ∨ ∃ t, c.leaving = .deleting t

/-- An open stream has its file: the count is positive, the file is there, and
nobody is about to delete it. -/
def Safe (c : Sharing) : Prop :=
  ∀ o ∈ c.openings, o.isLive = true →
    (∃ p, c.session.self.path = some p ∧ (c.session.world.files p).isSome = true ∧
      ∃ f ∈ c.session.world.temps, f.path = p ∧ 0 < f.holders) ∧
    ¬c.Pending

/-- No stream is opened while the file is about to be deleted, and the last claim
is given up only when every open stream has had one. -/
def Orderly (c : Sharing) : Event → Prop
  | .connect _ eng index _ => ∀ path data, c.session.self.path = some path →
      (answer eng index path c.session).1 = .ok data → ¬c.Pending
  | .release k => ∀ t f, c.openings[k]? = some (.releasing (some t)) →
      c.session.world.temps[t]? = some f → f.holders = 1 → ∀ n, .live n none ∉ c.openings
  | _ => True

/-! ## The count and the file -/

/-- The file of the archive, with the `_TempFile` that counts `h` holders. -/
structure Spill (t : Nat) (p : FilePath) (h : Int) (a : AsyncSession) : Prop where
  path : a.self.path = some p
  entry : ∃ d, a.world.temps[t]? = some { path := p, holders := h, deleteCalls := d } ∧
    ((a.world.files p).isSome = true ↔ d = 0)

variable {t : Nat} {p : FilePath} {h : Int} {a : AsyncSession}

theorem Spill.ofQuiet (spill : Spill t p h a) {w : World} (quiet : a.world.Quiet w) :
    Spill t p h { a with world := w } := by
  obtain ⟨path, d, entry, there⟩ := spill
  refine ⟨path, d, ?_, ?_⟩
  · rw [quiet.temps]
    exact entry
  · rw [quiet.files]
    exact there

/-- One field of the `_TempFile` changes. -/
theorem Spill.set (spill : Spill t p h a) (f : TempFile) :
    (a.world.temps.set t f)[t]? = some f := by
  obtain ⟨-, d, entry, -⟩ := spill
  exact List.getElem?_set_self (List.getElem?_eq_some_iff.mp entry).1

theorem Spill.hold (spill : Spill t p h a) :
    Spill t p (h + 1) (onWorld (holdClaim (some t)) a).2 := by
  obtain ⟨d, entry, there⟩ := spill.entry
  have held : (onWorld (holdClaim (some t)) a).2.world.temps =
      a.world.temps.set t { path := p, holders := h + 1, deleteCalls := d } := by
    change a.world.temps.modify t _ = _
    rw [List.modify_eq_set_getElem?, entry]
    rfl
  refine ⟨spill.path, d, ?_, there⟩
  rw [held]
  exact spill.set _

theorem Spill.decrement (spill : Spill t p h a) :
    ∃ a', onWorld (TempFile.decrement t) a = (.ok (decide (h ≤ 1)), a') ∧
      Spill t p (h - 1) a' ∧ a'.self = a.self ∧ a'.world.files = a.world.files := by
  obtain ⟨d, entry, there⟩ := spill.entry
  refine ⟨_, onWorld_run (TempFile.decrement_run entry), ⟨spill.path, d, spill.set _, there⟩,
    rfl, rfl⟩

theorem Spill.delete (spill : Spill t p h a) :
    ∃ a', onWorld (TempFile.delete t) a = (.ok (), a') ∧ Spill t p h a' ∧ a'.self = a.self ∧
      a'.world.files p = none := by
  obtain ⟨d, entry, there⟩ := spill.entry
  have gone : (if d = 0 then Function.update a.world.files p none else a.world.files) p = none := by
    by_cases fresh : d = 0
    · rw [if_pos fresh]
      exact Function.update_self ..
    · rw [if_neg fresh]
      exact Option.not_isSome_iff_eq_none.mp (mt there.mp fresh)
  refine ⟨_, onWorld_run (TempFile.delete_run entry), ⟨spill.path, d + 1, spill.set _, ?_⟩,
    rfl, gone⟩
  dsimp only
  rw [gone]
  simp

/-! ## The invariant -/

/-- Who counts: the archive until it is left, and every claim that is not given up. -/
def holders (t : Nat) (c : Sharing) : Nat :=
  (if c.leaving = .inside then 1 else 0) + c.openings.countP (·.claims t)

structure Counted (t : Nat) (p : FilePath) (c : Sharing) : Prop where
  spill : Spill t p (c.holders t : Nat) c.session
  own : c.session.self.sync.tempfile = if c.leaving = .left then none else some t
  field : ∀ o ∈ c.openings, ∀ u, o.field = some (some u) → u = t
  unclaimed : ∀ o ∈ c.openings, o.field = some none → c.leaving = .left
  leaving : ∀ u, c.leaving = .deleting u → u = t
  spent : c.holders t = 0 → c.Pending ∨ c.session.world.files p = none

variable {c c' : Sharing} {e : Event} {k : Nat} {o o' : Opening}

theorem mem_put (member : o ∈ (c.put k o').openings) : o ∈ c.openings ∨ o = o' :=
  List.mem_or_eq_of_mem_set member

theorem mem_put_of_ne (at' : c.openings[k]? = some o) (member : o' ∈ c.openings)
    (other : o' ≠ o) (next : Opening) : o' ∈ (c.put k next).openings := by
  obtain ⟨j, entry⟩ := List.mem_iff_getElem?.mp member
  have apart : k ≠ j := by
    rintro rfl
    exact other (Option.some.inj (entry.symm.trans at'))
  refine List.mem_iff_getElem?.mpr ⟨j, ?_⟩
  exact (List.getElem?_set_ne apart).trans entry

theorem self_mem_put (at' : c.openings[k]? = some o) (next : Opening) :
    next ∈ (c.put k next).openings :=
  List.mem_of_getElem? (List.getElem?_set_self (List.getElem?_eq_some_iff.mp at').1)

theorem holders_put (at' : c.openings[k]? = some o) (next : Opening) :
    (c.put k next).holders t + (o.claims t).toNat = c.holders t + (next.claims t).toNat := by
  obtain ⟨inside, rfl⟩ := List.getElem?_eq_some_iff.mp at'
  have claimed : (c.openings[k].claims t).toNat ≤ c.openings.countP (·.claims t) := by
    cases counts : c.openings[k].claims t with
    | false => exact Nat.zero_le _
    | true => exact List.countP_pos_iff.mpr ⟨_, List.getElem_mem inside, counts⟩
  unfold holders put
  dsimp only
  rw [List.countP_set inside]
  revert claimed
  cases c.openings[k].claims t <;> cases next.claims t <;>
    simp only [Bool.toNat_true, Bool.toNat_false, if_true, Bool.false_eq_true, if_false] <;> omega

/-- A party that keeps its claim, or still has none, leaves the count alone. -/
theorem holders_put_same (at' : c.openings[k]? = some o) {next : Opening}
    (claims : next.claims t = o.claims t) : (c.put k next).holders t = c.holders t := by
  have count := holders_put (t := t) at' next
  rw [claims] at count
  omega

theorem holders_pos (member : o ∈ c.openings) (claims : o.claims t = true) : 0 < c.holders t :=
  Nat.add_pos_right _ (List.countP_pos_iff.mpr ⟨o, member, claims⟩)

theorem pending_put (pending : c.Pending) (at' : c.openings[k]? = some o)
    (still : ∀ u, o ≠ .deleting u) (next : Opening) : (c.put k next).Pending := by
  rcases pending with ⟨u, member⟩ | leaving
  · exact Or.inl ⟨u, mem_put_of_ne at' member (Ne.symm (still u)) next⟩
  · exact Or.inr leaving

theorem pending_of_put (pending : (c.put k o').Pending) (other : ∀ u, o' ≠ .deleting u) :
    c.Pending := by
  rcases pending with ⟨u, member⟩ | leaving
  · rcases mem_put member with old | new
    · exact Or.inl ⟨u, old⟩
    · exact absurd new.symm (other u)
  · exact Or.inr leaving

/-- One party moves, and the session may change with it. -/
theorem Counted.move (counted : Counted t p c) (at' : c.openings[k]? = some o)
    (self : a.self = c.session.self) (spill : Spill t p ((c.put k o').holders t : Nat) a)
    (field : ∀ f, o'.field = some f → o.field = some f ∨ f = c.session.self.sync.tempfile)
    (spent : (c.put k o').holders t = 0 → (c.put k o').Pending ∨ a.world.files p = none) :
    Counted t p { c.put k o' with session := a } where
  spill := spill
  own := by
    dsimp only
    rw [self]
    exact counted.own
  field := by
    intro x member u same
    rcases mem_put member with old | rfl
    · exact counted.field x old u same
    · rcases field (some u) same with before | own
      · exact counted.field o (List.mem_of_getElem? at') u before
      · rw [counted.own] at own
        split at own
        · cases own
        · exact Option.some.inj own
  unclaimed := by
    intro x member same
    rcases mem_put member with old | rfl
    · exact counted.unclaimed x old same
    · rcases field none same with before | own
      · exact counted.unclaimed o (List.mem_of_getElem? at') before
      · rw [counted.own] at own
        split at own
        · assumption
        · cases own
  leaving := counted.leaving
  spent := spent

/-- Where no claim is given up, a spent count was spent before. -/
theorem Counted.spent_move (counted : Counted t p c) (at' : c.openings[k]? = some o)
    (still : ∀ u, o ≠ .deleting u) (kept : c.holders t ≤ (c.put k o').holders t)
    (files : a.world.files = c.session.world.files) (zero : (c.put k o').holders t = 0) :
    (c.put k o').Pending ∨ a.world.files p = none := by
  rcases counted.spent (by omega) with pending | gone
  · exact Or.inl (pending_put pending at' still o')
  · right
    rw [files]
    exact gone

/-! ## What keeps an open stream safe -/

/-- The count is positive wherever the file is there and stays. -/
theorem Counted.safe_iff (counted : Counted t p c) :
    Safe c ↔ ∀ o ∈ c.openings, o.isLive = true →
      (c.session.world.files p).isSome = true ∧ ¬c.Pending := by
  constructor
  · intro safe o member live
    obtain ⟨⟨q, path, there, -⟩, quiet⟩ := safe o member live
    obtain rfl := Option.some.inj (path.symm.trans counted.spill.path)
    exact ⟨there, quiet⟩
  · intro safe o member live
    obtain ⟨there, quiet⟩ := safe o member live
    obtain ⟨d, entry, -⟩ := counted.spill.entry
    have positive : 0 < c.holders t := by
      apply Nat.pos_of_ne_zero
      intro zero
      rcases counted.spent zero with pending | gone
      · exact quiet pending
      · rw [gone] at there
        cases there
    refine ⟨⟨p, counted.spill.path, there, _, List.mem_of_getElem? entry, rfl, ?_⟩, quiet⟩
    exact Int.natCast_pos.mpr positive

/-- With the file about to go, a safe state has no open stream. -/
theorem Safe.none_live (safe : Safe c) (pending : c.Pending) :
    ∀ o ∈ c.openings, o.isLive = false := by
  intro o member
  rcases live : o.isLive with _ | _
  · rfl
  · exact absurd pending (safe o member live).2

/-- A party that moves on without a stream, and without deleting, harms nobody. -/
theorem Safe.move (safe : Safe c) (counted : Counted t p c)
    (counted' : Counted t p { c.put k o' with session := a })
    (files : a.world.files p = c.session.world.files p) (closed : o'.isLive = false)
    (other : ∀ u, o' ≠ .deleting u) : Safe { c.put k o' with session := a } := by
  rw [counted'.safe_iff]
  intro x member live
  rcases mem_put member with old | rfl
  · obtain ⟨there, quiet⟩ := counted.safe_iff.mp safe x old live
    refine ⟨?_, fun pending => quiet (pending_of_put pending other)⟩
    dsimp only
    rw [files]
    exact there
  · cases closed.symm.trans live

/-- Nor does a party that moves where no stream is open. -/
theorem Safe.idle (none : ∀ o ∈ c.openings, o.isLive = false) : Safe c := by
  intro o member live
  cases (none o member).symm.trans live

/-! ## The steps -/

theorem step_start (counted : Counted t p c) (safe : Safe c) :
    Counted t p { c with openings := c.openings ++ [.starting] } ∧
      Safe { c with openings := c.openings ++ [.starting] } := by
  have count : holders t { c with openings := c.openings ++ [.starting] } = c.holders t := by
    unfold holders
    rw [List.countP_append]
    rfl
  have among {o : Opening} (member : o ∈ c.openings ++ [.starting]) :
      o ∈ c.openings ∨ o = .starting := by
    rcases List.mem_append.mp member with old | new
    · exact Or.inl old
    · exact Or.inr (List.mem_singleton.mp new)
  have still : Pending { c with openings := c.openings ++ [.starting] } ↔ c.Pending := by
    constructor
    · rintro (⟨u, member⟩ | leaving)
      · rcases among member with old | new
        · exact Or.inl ⟨u, old⟩
        · cases new
      · exact Or.inr leaving
    · rintro (⟨u, member⟩ | leaving)
      · exact Or.inl ⟨u, List.mem_append_left _ member⟩
      · exact Or.inr leaving
  have counted' : Counted t p { c with openings := c.openings ++ [.starting] } := by
    refine ⟨?_, counted.own, ?_, ?_, counted.leaving, ?_⟩
    · rw [count]
      exact counted.spill
    · intro o member u same
      rcases among member with old | rfl
      · exact counted.field o old u same
      · cases same
    · intro o member same
      rcases among member with old | rfl
      · exact counted.unclaimed o old same
      · cases same
    · rw [count, still]
      exact counted.spent
  refine ⟨counted', ?_⟩
  rw [counted'.safe_iff]
  intro o member live
  rcases among member with old | rfl
  · rw [still]
    exact counted.safe_iff.mp safe o old live
  · cases live

theorem step_find (counted : Counted t p c) (safe : Safe c)
    (at' : c.openings[k]? = some .starting) :
    Counted t p (c.put k (.found c.session.self.sync.tempfile)) ∧
      Safe (c.put k (.found c.session.self.sync.tempfile)) := by
  have same : (c.put k (.found c.session.self.sync.tempfile)).holders t = c.holders t :=
    holders_put_same at' rfl
  have counted' : Counted t p (c.put k (.found c.session.self.sync.tempfile)) := by
    apply counted.move at' rfl
    · rw [same]
      exact counted.spill
    · intro f found
      exact Or.inr (Option.some.inj found).symm
    · exact counted.spent_move at' nofun (Nat.le_of_eq same.symm) rfl
  exact ⟨counted', safe.move counted counted' rfl rfl nofun⟩

theorem step_hold (counted : Counted t p c) (safe : Safe c) {tempfile : Option Nat}
    (at' : c.openings[k]? = some (.found tempfile)) :
    Counted t p { c.put k (.held tempfile) with
        session := (onWorld (holdClaim tempfile) c.session).2 } ∧
      Safe { c.put k (.held tempfile) with
        session := (onWorld (holdClaim tempfile) c.session).2 } := by
  have count := holders_put (t := t) at' (.held tempfile)
  have kept : c.holders t ≤ (c.put k (.held tempfile)).holders t := by
    have before : (Opening.found tempfile).claims t = false := rfl
    rw [before, Bool.toNat_false] at count
    omega
  have counted' : Counted t p { c.put k (.held tempfile) with
      session := (onWorld (holdClaim tempfile) c.session).2 } := by
    rcases tempfile with _ | u
    · have same : (c.put k (.held none)).holders t = c.holders t := holders_put_same at' rfl
      apply counted.move at' rfl
      · rw [same]
        exact counted.spill
      · exact fun f found => Or.inl found
      · exact counted.spent_move at' nofun kept rfl
    · obtain rfl : u = t := counted.field _ (List.mem_of_getElem? at') u rfl
      have more : (c.put k (.held (some u))).holders u = c.holders u + 1 := by
        have claims : (Opening.held (some u)).claims u = true := beq_self_eq_true u
        rw [claims] at count
        exact count
      have self : (onWorld (holdClaim (some u)) c.session).2.self = c.session.self := rfl
      apply counted.move at' self
      · rw [more]
        exact counted.spill.hold
      · exact fun f found => Or.inl found
      · exact counted.spent_move at' nofun kept rfl
  refine ⟨counted', safe.move counted counted' ?_ rfl nofun⟩
  cases tempfile <;> rfl

/-- What the engine answers to an opening: it succeeds only on a file that is there. -/
theorem answer_cases (eng : Engine) (index : Int) (path : FilePath) (a : AsyncSession) :
    ∃ w, a.world.Quiet w ∧
      answer eng index path a = ((answer eng index path a).1, { a with world := w }) ∧
      ∀ data, (answer eng index path a).1 = .ok data → (a.world.files path).isSome = true := by
  have asks := openStreamPath_asks eng path index a.self.password a.self.encoding
  refine ⟨_, asks.quiet a.world, rfl, ?_⟩
  intro data answered
  change (openStreamPath eng path index a.self.password a.self.encoding a.world).1 = .ok data
    at answered
  rw [asks a.world] at answered
  rcases converted : usizeArg index with exc | i <;> rw [converted] at answered
  · cases answered
  · rcases file : a.world.files path with _ | content
    · rw [file] at answered
      cases answered
    · rfl

theorem step_connect (counted : Counted t p c) (safe : Safe c) {tempfile : Option Nat}
    (at' : c.openings[k]? = some (.held tempfile)) (eng : Engine) (index : Int)
    (expectedSize : Nat) (step : next c (.connect k eng index expectedSize) = some c') :
    Counted t p c' ∧ (Safe c' ↔ Orderly c (.connect k eng index expectedSize)) := by
  obtain ⟨w, quiet, answered, there⟩ := answer_cases eng index p c.session
  have spill := counted.spill.ofQuiet quiet
  simp only [next, at', counted.spill.path] at step
  rcases said : (answer eng index p c.session).1 with exc | data
  · -- the engine refuses, and the claim is to be given up
    rw [said] at answered
    rw [answered] at step
    cases step
    have same : (c.put k (.releasing tempfile)).holders t = c.holders t := by
      apply holders_put_same at'
      cases tempfile <;> rfl
    have counted' : Counted t p { c.put k (.releasing tempfile) with
        session := { c.session with world := w } } := by
      have self : AsyncSession.self { c.session with world := w } = c.session.self := rfl
      apply counted.move at' self
      · rw [same]
        exact spill
      · exact fun f found => Or.inl found
      · exact counted.spent_move at' nofun (Nat.le_of_eq same.symm) quiet.files
    refine ⟨counted', iff_of_true ?_ ?_⟩
    · exact safe.move counted counted' (congrFun quiet.files p) rfl nofun
    · intro path data path' ok
      obtain rfl := Option.some.inj (path'.symm.trans counted.spill.path)
      cases said.symm.trans ok
  · rw [said] at answered
    rw [answered] at step
    cases step
    have present : (w.files p).isSome = true := by
      rw [quiet.files]
      exact there data said
    have same : (c.put k (.live w.streams.length tempfile)).holders t = c.holders t := by
      apply holders_put_same at'
      cases tempfile <;> rfl
    have counted' : Counted t p { c.put k (.live w.streams.length tempfile) with
        session := { c.session with world := { w with streams := w.streams ++
          [{ data, expectedSize := some (expectedSize : Int), onClose := tempfile }] } } } := by
      apply counted.move at' (a := { c.session with world := { w with streams := w.streams ++
          [{ data, expectedSize := some (expectedSize : Int), onClose := tempfile }] } }) rfl
      · rw [same]
        exact ⟨spill.path, spill.entry⟩
      · exact fun f found => Or.inl found
      · exact counted.spent_move at' nofun (Nat.le_of_eq same.symm) quiet.files
    refine ⟨counted', ?_⟩
    constructor
    · intro safe' path data' _ _ pending
      have quiet' := (safe' _ (self_mem_put at' (.live w.streams.length tempfile)) rfl).2
      exact quiet' (pending_put pending at' nofun _)
    · intro orderly
      have unhurried : ¬c.Pending := orderly p data counted.spill.path said
      apply counted'.safe_iff.mpr
      intro o member live
      exact ⟨present, fun pending => unhurried (pending_of_put pending nofun)⟩

theorem step_shut (counted : Counted t p c) (safe : Safe c) {n : Nat} {tempfile : Option Nat}
    (at' : c.openings[k]? = some (.live n tempfile)) (streams : List PipeStream) :
    Counted t p { c.put k (.releasing tempfile) with
        session := { c.session with world := { c.session.world with streams } } } ∧
      Safe { c.put k (.releasing tempfile) with
        session := { c.session with world := { c.session.world with streams } } } := by
  have same : (c.put k (.releasing tempfile)).holders t = c.holders t := by
    apply holders_put_same at'
    cases tempfile <;> rfl
  have counted' : Counted t p { c.put k (.releasing tempfile) with
      session := { c.session with world := { c.session.world with streams } } } := by
    apply counted.move at' (a := { c.session with world := { c.session.world with streams } }) rfl
    · rw [same]
      exact ⟨counted.spill.path, counted.spill.entry⟩
    · exact fun f found => Or.inl found
    · exact counted.spent_move at' nofun (Nat.le_of_eq same.symm) rfl
  exact ⟨counted', safe.move counted counted' rfl rfl nofun⟩

/-- An opening that found no claim to take has none to give up. -/
theorem step_release_unclaimed (counted : Counted t p c) (safe : Safe c)
    (at' : c.openings[k]? = some (.releasing none)) :
    Counted t p (c.put k .done) ∧ Safe (c.put k .done) := by
  have same : (c.put k .done).holders t = c.holders t := holders_put_same at' rfl
  have counted' : Counted t p (c.put k .done) := by
    apply counted.move at' rfl
    · rw [same]
      exact counted.spill
    · exact nofun
    · exact counted.spent_move at' nofun (Nat.le_of_eq same.symm) rfl
  exact ⟨counted', safe.move counted counted' rfl rfl nofun⟩

/-- A claim is given up; the last one leaves a deletion behind. -/
theorem step_release (counted : Counted t p c) (safe : Safe c) {u : Nat}
    (at' : c.openings[k]? = some (.releasing (some u)))
    (step : next c (.release k) = some c') :
    Counted t p c' ∧ (Safe c' ↔ Orderly c (.release k)) := by
  obtain rfl : u = t := counted.field _ (List.mem_of_getElem? at') u rfl
  obtain ⟨a, run, spill, self, files⟩ := counted.spill.decrement
  have claims : (Opening.releasing (some u)).claims u = true := beq_self_eq_true u
  have positive : 0 < c.holders u := holders_pos (List.mem_of_getElem? at') claims
  have fewer (next : Opening) (free : next.claims u = false) :
      (c.put k next).holders u = c.holders u - 1 := by
    have count := holders_put (t := u) at' next
    rw [claims, free, Bool.toNat_true, Bool.toNat_false] at count
    omega
  obtain ⟨d, entry, -⟩ := counted.spill.entry
  simp only [next, at', run] at step
  by_cases last : c.holders u = 1
  · rw [decide_eq_true (by omega)] at step
    cases step
    have zero : (c.put k (.deleting u)).holders u = 0 := by
      rw [fewer (.deleting u) rfl, last]
    have pending : (c.put k (.deleting u)).Pending := Or.inl ⟨u, self_mem_put at' _⟩
    have counted' : Counted u p { c.put k (.deleting u) with session := a } := by
      apply counted.move at' self
      · rw [zero]
        rw [last] at spill
        exact spill
      · exact fun f found => Or.inl found
      · exact fun _ => Or.inl pending
    refine ⟨counted', ?_⟩
    constructor
    · intro safe' t' f _ _ _ n member
      have kept : .live n none ∈ (c.put k (.deleting u)).openings :=
        mem_put_of_ne at' member nofun _
      exact (safe' _ kept rfl).2 pending
    · -- every open stream with a claim would count
      intro orderly
      apply Safe.idle
      intro o member
      rcases o with _ | _ | _ | ⟨n, _ | v⟩ | _ | _ | _
      case live.none =>
        rcases mem_put member with old | new
        · exact absurd old (orderly u _ at' entry (congrArg Nat.cast last) n)
        · cases new
      case live.some =>
        have same : v = u := counted'.field _ member v rfl
        have counts : (Opening.live n (some v)).claims u = true := beq_iff_eq.mpr same
        have more := holders_pos member counts
        change 0 < (c.put k (.deleting u)).holders u at more
        omega
      all_goals rfl
  · rw [decide_eq_false (by omega)] at step
    cases step
    have left : (c.put k .done).holders u = c.holders u - 1 := fewer .done rfl
    have counted' : Counted u p { c.put k .done with session := a } := by
      apply counted.move at' self
      · rw [left]
        rw [Int.ofNat_sub positive]
        exact spill
      · exact nofun
      · intro zero
        omega
    refine ⟨counted', iff_of_true ?_ ?_⟩
    · exact safe.move counted counted' (congrFun files p) rfl nofun
    · intro t' f at'' entry' one
      obtain rfl : u = t' := by
        have both := at'.symm.trans at''
        injection both with both
        injection both with both
        exact Option.some.inj both
      have same := Option.some.inj (entry.symm.trans entry')
      rw [← same] at one
      exact absurd (Int.ofNat.inj one) last

theorem step_delete (counted : Counted t p c) (safe : Safe c) {u : Nat}
    (at' : c.openings[k]? = some (.deleting u)) :
    Counted t p { c.put k .done with session := (onWorld (TempFile.delete u) c.session).2 } ∧
      Safe { c.put k .done with session := (onWorld (TempFile.delete u) c.session).2 } := by
  obtain rfl : u = t := counted.field _ (List.mem_of_getElem? at') u rfl
  obtain ⟨a, run, spill, self, gone⟩ := counted.spill.delete
  have none_live := safe.none_live (Or.inl ⟨u, List.mem_of_getElem? at'⟩)
  have same : (c.put k .done).holders u = c.holders u := holders_put_same at' rfl
  rw [run]
  constructor
  · apply counted.move at' self
    · rw [same]
      exact spill
    · exact nofun
    · exact fun _ => Or.inr gone
  · apply Safe.idle
    intro o member
    rcases mem_put member with old | rfl
    · exact none_live o old
    · rfl

/-- Inside the archive every stream has a claim. -/
theorem Counted.live_claims (counted : Counted t p c) (inside : c.leaving ≠ .left)
    (member : o ∈ c.openings) (live : o.isLive = true) : o.claims t = true := by
  rcases o with _ | _ | _ | ⟨n, _ | u⟩ | _ | _ | _
  case live.none => exact absurd (counted.unclaimed _ member rfl) inside
  case live.some =>
    have same : u = t := counted.field _ member u rfl
    exact beq_iff_eq.mpr same
  all_goals cases live

/-- `__aexit__` moves on, and the session changes with it. -/
theorem Counted.leave (counted : Counted t p c) (onwards : c.leaving ≠ .left) {next : Leaving}
    (own : a.self.sync.tempfile = if next = .left then none else some t)
    (spill : Spill t p (holders t { c with session := a, leaving := next } : Nat) a)
    (deleting : ∀ u, next = .deleting u → u = t)
    (spent : holders t { c with session := a, leaving := next } = 0 →
      Pending { c with session := a, leaving := next } ∨ a.world.files p = none) :
    Counted t p { c with session := a, leaving := next } where
  spill := spill
  own := own
  field := counted.field
  unclaimed := fun o member same => absurd (counted.unclaimed o member same) onwards
  leaving := deleting
  spent := spent

theorem Safe.leave (safe : Safe c) (counted : Counted t p c) {next : Leaving}
    (counted' : Counted t p { c with session := a, leaving := next })
    (files : a.world.files = c.session.world.files) (other : ∀ u, next ≠ .deleting u) :
    Safe { c with session := a, leaving := next } := by
  rw [counted'.safe_iff]
  intro o member live
  obtain ⟨there, quiet⟩ := counted.safe_iff.mp safe o member live
  refine ⟨?_, fun pending => quiet ?_⟩
  · dsimp only
    rw [files]
    exact there
  · rcases pending with among | ⟨u, leaving⟩
    · exact Or.inl among
    · exact absurd leaving (other u)

theorem step_exit (counted : Counted t p c) (safe : Safe c) (step : next c .exit = some c') :
    Counted t p c' ∧ Safe c' := by
  by_cases inside : c.leaving = .inside
  · have onwards : c.leaving ≠ .left := by
      rw [inside]
      exact nofun
    have own : c.session.self.sync.tempfile = some t := counted.own.trans (if_neg onwards)
    have count : c.holders t = 1 + c.openings.countP (·.claims t) := by
      unfold holders
      rw [if_pos inside]
    have after (b : AsyncSession) (next : Leaving) (entered : next ≠ .inside) :
        holders t { c with session := b, leaving := next } = c.openings.countP (·.claims t) := by
      unfold holders
      dsimp only
      rw [if_neg entered, Nat.zero_add]
    have shut : Spill t p (c.holders t : Nat) { c.session with
        self := { c.session.self with sync := Archive.shut c.session.self.sync } } :=
      ⟨counted.spill.path, counted.spill.entry⟩
    obtain ⟨a, run, spill, self, files⟩ := shut.decrement
    have kept : a.self.sync.tempfile = some t := by
      rw [self]
      exact own
    simp only [next, if_pos inside, own, run] at step
    by_cases last : c.holders t = 1
    · -- no stream is open: inside, each would count
      rw [decide_eq_true (by omega)] at step
      cases step
      have zero : c.openings.countP (·.claims t) = 0 := by omega
      constructor
      · apply counted.leave onwards
        · exact kept
        · rw [after a (.deleting t) nofun, zero]
          rw [last] at spill
          exact spill
        · intro u same
          exact (Leaving.deleting.inj same).symm
        · exact fun _ => Or.inl (Or.inr ⟨t, rfl⟩)
      · apply Safe.idle
        intro o member
        rcases live : o.isLive with _ | _
        · rfl
        · have claims := counted.live_claims onwards member live
          exact absurd claims (List.countP_eq_zero.mp zero o member)
    · rw [decide_eq_false (by omega)] at step
      cases step
      have counted' : Counted t p { c with session := a, leaving := .clearing } := by
        apply counted.leave onwards
        · exact kept
        · rw [after a .clearing nofun]
          have fewer : ((c.holders t : Nat) : Int) - 1 =
              (c.openings.countP (·.claims t) : Nat) := by omega
          rw [fewer] at spill
          exact spill
        · exact nofun
        · intro zero
          rw [after a .clearing nofun] at zero
          omega
      exact ⟨counted', safe.leave counted counted' files nofun⟩
  · simp only [next, if_neg inside] at step
    cases step

theorem step_exitDelete (counted : Counted t p c) (safe : Safe c) {u : Nat}
    (at' : c.leaving = .deleting u) :
    Counted t p { c with
        session := (onWorld (TempFile.delete u) c.session).2
        leaving := .clearing } ∧
      Safe { c with
        session := (onWorld (TempFile.delete u) c.session).2
        leaving := .clearing } := by
  obtain rfl : u = t := counted.leaving u at'
  obtain ⟨a, run, spill, self, gone⟩ := counted.spill.delete
  have onwards : c.leaving ≠ .left := by
    rw [at']
    exact nofun
  have same : holders u { c with session := a, leaving := .clearing } = c.holders u := by
    unfold holders
    rw [at']
    rfl
  rw [run]
  constructor
  · apply counted.leave onwards
    · rw [self]
      exact counted.own.trans (if_neg onwards)
    · rw [same]
      exact spill
    · exact nofun
    · exact fun _ => Or.inr gone
  · exact Safe.idle (safe.none_live (Or.inr ⟨u, at'⟩))

theorem step_exitClear (counted : Counted t p c) (safe : Safe c) (at' : c.leaving = .clearing) :
    Counted t p { c with session := cleared c.session, leaving := .left } ∧
      Safe { c with session := cleared c.session, leaving := .left } := by
  have onwards : c.leaving ≠ .left := by
    rw [at']
    exact nofun
  have same : holders t { c with session := cleared c.session, leaving := .left } =
      c.holders t := by
    unfold holders
    rw [at']
    rfl
  have counted' : Counted t p { c with session := cleared c.session, leaving := .left } := by
    apply counted.leave onwards
    · rfl
    · rw [same]
      exact ⟨counted.spill.path, counted.spill.entry⟩
    · exact nofun
    · rw [same]
      intro zero
      rcases counted.spent zero with (among | ⟨u, leaving⟩) | gone
      · exact Or.inl (Or.inl among)
      · cases at'.symm.trans leaving
      · exact Or.inr gone
  exact ⟨counted', safe.leave counted counted' rfl nofun⟩

/-- Step lemma: from a safe state, a step is safe exactly when it is orderly. -/
theorem step_safe_iff (counted : Counted t p c) (safe : Safe c) (step : next c e = some c') :
    Counted t p c' ∧ (Safe c' ↔ Orderly c e) := by
  have plain {c' : Sharing} (kept : Counted t p c' ∧ Safe c') (orderly : Orderly c e) :
      Counted t p c' ∧ (Safe c' ↔ Orderly c e) :=
    ⟨kept.1, iff_of_true kept.2 orderly⟩
  cases e with
  | start =>
      cases step
      exact plain (step_start counted safe) True.intro
  | find k =>
      simp only [next] at step
      split at step
      · next at' =>
        cases step
        exact plain (step_find counted safe at') True.intro
      · cases step
  | hold k =>
      simp only [next] at step
      split at step
      · next at' =>
        cases step
        exact plain (step_hold counted safe at') True.intro
      · cases step
  | connect k eng index expectedSize =>
      rcases at' : c.openings[k]? with _ | o
      · simp only [next, at'] at step
        cases step
      · cases o with
        | held tempfile => exact step_connect counted safe at' eng index expectedSize step
        | _ =>
            simp only [next, at'] at step
            cases step
  | shut k =>
      simp only [next] at step
      split at step
      · next at' =>
        cases step
        exact plain (step_shut counted safe at' _) True.intro
      · cases step
  | release k =>
      rcases at' : c.openings[k]? with _ | o
      · simp only [next, at'] at step
        cases step
      · cases o with
        | releasing tempfile =>
            cases tempfile with
            | some u => exact step_release counted safe at' step
            | none =>
                simp only [next, at'] at step
                cases step
                refine plain (step_release_unclaimed counted safe at') ?_
                intro t' f at''
                cases at'.symm.trans at''
        | _ =>
            simp only [next, at'] at step
            cases step
  | delete k =>
      simp only [next] at step
      split at step
      · next at' =>
        cases step
        exact plain (step_delete counted safe at') True.intro
      · cases step
  | exit => exact plain (step_exit counted safe step) True.intro
  | exitDelete =>
      simp only [next] at step
      split at step
      · next at' =>
        cases step
        exact plain (step_exitDelete counted safe at') True.intro
      · cases step
  | exitClear =>
      simp only [next] at step
      split at step
      · next at' =>
        cases step
        exact plain (step_exitClear counted safe at') True.intro
      · cases step

/-! ## Runs -/

theorem Entered.counted (entered : Entered c) : ∃ t, Counted t (.temp 0) c := by
  obtain ⟨eng, files, source, password, encoding, noPath, entering, none, inside⟩ := entered
  have opened : Open (.temp 0) { session := c.session } :=
    AsyncArchive.Entered.isOpen ⟨eng, files, source, password, encoding, noPath, entering, rfl, rfl⟩
  obtain ⟨t, tempfile, entry⟩ := opened.claim
  have count : c.holders t = 1 := by
    unfold holders
    rw [none, if_pos inside]
    rfl
  refine ⟨t, ⟨?_, ?_, ?_, ?_, ?_, ?_⟩⟩
  · rw [count]
    exact ⟨opened.path, 0, entry, iff_of_true opened.file rfl⟩
  · rw [inside]
    exact tempfile
  · rw [none]
    exact nofun
  · rw [none]
    exact nofun
  · rw [inside]
    exact nofun
  · rw [count]
    exact nofun

theorem Entered.safe (entered : Entered c) : Safe c := by
  obtain ⟨_, _, _, _, _, _, _, none, _⟩ := entered
  unfold Safe
  rw [none]
  exact nofun

/-- Every open stream has its file throughout a run in exactly the orderly runs. -/
theorem safe_iff_orderly {run : List (Event × Sharing)} (entered : sharing.init c)
    (isRun : sharing.IsRun c run) :
    Lts.AllStates Safe c run ↔ Lts.AllSteps Orderly c run := by
  obtain ⟨t, counted⟩ := Entered.counted entered
  exact isRun.allStates_iff (I := Counted t (.temp 0)) counted (Entered.safe entered)
    fun c e c' counted safe step => step_safe_iff counted safe step

/-- An archive over bytes, just entered. -/
def shared : Sharing where
  session := (aenter Archive.oneIntact (init (fun _ => none) (.bytes [80]) none none)).2

theorem shared_init : sharing.init shared :=
  ⟨Archive.oneIntact, fun _ => none, .bytes [80], none, none, rfl, rfl, rfl, rfl⟩

/-- The stream outlives the archive, and deletes the file. -/
def outliving : List (Event × Sharing) :=
  Lts.follow next shared [.start, .find 0, .hold 0, .connect 0 Archive.oneIntact 0 8, .exit,
    .exitClear, .shut 0, .release 0, .delete 0]

theorem safe_iff_orderly_outliving : Lts.AllStates Safe shared outliving := by
  have isRun : sharing.IsRun shared outliving := Lts.follow_isRun (fun _ _ _ => id) _ _
  refine (safe_iff_orderly shared_init isRun).mpr ⟨True.intro, True.intro, True.intro, ?_,
    True.intro, True.intro, True.intro, ?_, True.intro, True.intro⟩
  · intro _ _ _ _ pending
    rcases pending with ⟨u, member⟩ | ⟨u, leaving⟩
    · cases List.mem_singleton.mp member
    · cases leaving
  · intro _ _ _ _ _ n member
    cases List.mem_singleton.mp member

/-- The claim is taken after the archive has given up the last one, and the file
is deleted under the open stream. -/
def resurrected : List (Event × Sharing) :=
  Lts.follow next shared [.start, .find 0, .exit, .hold 0, .connect 0 Archive.oneIntact 0 8,
    .exitDelete]

/-- The second stream is opened after the archive has been left, without a claim,
and the first one deletes the file under it. -/
def unclaimed : List (Event × Sharing) :=
  Lts.follow next shared [.start, .find 0, .hold 0, .connect 0 Archive.oneIntact 0 8, .exit,
    .exitClear, .start, .find 1, .hold 1, .connect 1 Archive.oneIntact 0 8, .shut 0, .release 0,
    .delete 0]

/-- A stream that is open without its file. -/
theorem not_safe_of_gone {k n : Nat} {tempfile : Option Nat}
    (live : c.openings[k]? = some (.live n tempfile))
    (path : c.session.self.path = some p) (gone : c.session.world.files p = none) : ¬Safe c := by
  intro safe
  obtain ⟨⟨q, path', there, -⟩, -⟩ := safe _ (List.mem_of_getElem? live) rfl
  obtain rfl := Option.some.inj (path'.symm.trans path)
  rw [gone] at there
  cases there

theorem open_streams_lose_their_file :
    sharing.init shared ∧
      (sharing.IsRun shared resurrected ∧ ¬Lts.AllStates Safe shared resurrected) ∧
      (sharing.IsRun shared unclaimed ∧ ¬Lts.AllStates Safe shared unclaimed) := by
  refine ⟨shared_init, ⟨Lts.follow_isRun (fun _ _ _ => id) _ _, fun safe => ?_⟩,
    ⟨Lts.follow_isRun (fun _ _ _ => id) _ _, fun safe => ?_⟩⟩
  · have live : (Lts.last shared resurrected).openings[0]? = some (.live 0 (some 0)) := by decide
    have path : (Lts.last shared resurrected).session.self.path = some (.temp 0) := by decide
    exact not_safe_of_gone live path (by decide) safe.last
  · have live : (Lts.last shared unclaimed).openings[1]? = some (.live 1 none) := by decide
    have path : (Lts.last shared unclaimed).session.self.path = some (.temp 0) := by decide
    exact not_safe_of_gone live path (by decide) safe.last

end Sharing

end AsyncArchive

end NewtuaPy
