import NewtuaPy.AsyncLifetime
import NewtuaPy.BatchSelection
import NewtuaPy.Representation

/-!
# Spilling that fails

`_backing_path` creates the spill file before it copies the source into it, and
hands it to the `_TempFile` that will delete it only after that.  Everything that
can fail is given here by its place: the file cannot be created, the source has
no `read`, a `read` or a `write` raises at some chunk, or the `with` statement
cannot close the file.  A file that has been created is there to stay, so only
the first of these leaves things as they were.
-/

namespace NewtuaPy

/-- What fails while a source is spilled, apart from the reads of the source.  The
`k`-th `write` may raise with some of its chunk in the file already. -/
structure SpillFaults where
  create : Option String := none
  noRead : Option PyExc := none
  write : Nat → Option (PyExc × Nat) := fun _ => none
  close : Option PyExc := none

/-- `shutil.copyfileobj` with `k` chunks written. -/
def copyLoopOver (write : Nat → Option (PyExc × Nat)) (k : Nat) :
    List (Except PyExc Bytes) → Except PyExc Unit × Bytes × List (Except PyExc Bytes)
  | [] => (.ok (), [], [])
  | .error exc :: rest => (.error exc, [], rest)
  | .ok [] :: rest => (.ok (), [], rest)
  | .ok (b :: bs) :: rest =>
      match write k with
      | some (exc, n) => (.error exc, (b :: bs).take n, rest)
      | none =>
          let (outcome, written, unread) := copyLoopOver write (k + 1) rest
          (outcome, (b :: bs) ++ written, unread)

/-- A `with` statement over a file, whose `close` may raise in place of all else. -/
def closing {σ : Type} (close : Option PyExc) (body : Py σ Unit) : Py σ Unit :=
  match close with
  | none => body
  | some exc => do
      Exn.handle body fun _ => Exn.raise exc
      Exn.raise exc

namespace Archive

/-- The body of the `with` statement, up to the hand-over. -/
def fillSpillOver (faults : SpillFaults) (path : FilePath) : Py Session Unit := do
  let s ← Exn.get
  match s.self.source with
  | .path _ => pure ()
  | .bytes content => match faults.write 0 with
    | some (exc, n) => do
        onWorld (appendFile path (content.take n))
        Exn.raise exc
    | none => onWorld (appendFile path content)
  | .stream file => match faults.noRead with
    | some exc => Exn.raise exc
    | none =>
        let (outcome, written, unread) := copyLoopOver faults.write 0 file.replies
        onWorld (appendFile path written)
        modifySelf fun self => { self with source := .stream { file with replies := unread } }
        Exn.lift outcome

/-- The spilling half of `_backing_path`. -/
def spillOver (faults : SpillFaults) : Py Session FilePath :=
  match faults.create with
  | some text => Exn.raise { cls := .osError, text }
  | none => do
      let path ← onWorld namedTemporaryFile
      closing faults.close do
        fillSpillOver faults path
        let t ← onWorld (TempFile.new path)
        modifySelf fun self => { self with tempfile := some t }
      pure path

def _backingPathOver (faults : SpillFaults) : Py Session FilePath := do
  let s ← Exn.get
  match s.self.source.ownPath with
  | some path => pure path
  | none => match liveTempfile s with
    | some path => pure path
    | none => spillOver faults

def _openOver (faults : SpillFaults) (eng : Engine) : Py Session RustArchive := do
  let s ← Exn.get
  if s.self.closed then Exn.raise closedArchive
  else match s.self.reader with
    | some reader => pure reader
    | none =>
        let path ← _backingPathOver faults
        let s ← Exn.get
        match s.self.source.ownPath, s.world.files path with
        | some (.named own), none => Exn.raise (fileNotFound own)
        | _, _ => openAt eng path

end Archive

/-- `__aenter__`. -/
def AsyncArchive.aenterOver (faults : SpillFaults) (eng : Engine) : Py AsyncSession Unit := do
  let path ← onSync (Archive._backingPathOver faults)
  modifySelf fun self => { self with path := some path }
  let s ← Exn.get
  match s.self.sync.source.ownPath, s.world.files path with
  | some (.named own), none => do
      onSync Archive.close
      Exn.raise (fileNotFound own)
  | _, _ => enterAt eng path

/-! ## Without faults -/

theorem copyLoopOver_none (k : Nat) (replies : List (Except PyExc Bytes)) :
    copyLoopOver (fun _ => none) k replies = copyLoop replies := by
  induction replies generalizing k with
  | nil => rfl
  | cons reply replies ih =>
      rcases reply with exc | (_ | ⟨b, bs⟩)
      · rfl
      · rfl
      · unfold copyLoopOver copyLoop
        rw [ih]

namespace Archive

theorem fillSpillOver_none (path : FilePath) : fillSpillOver {} path = fillSpill path := by
  unfold fillSpillOver fillSpill
  refine congrArg (Exn.get >>= ·) (funext fun s => ?_)
  rcases s.self.source with arg | content | file
  · rfl
  · rfl
  · dsimp only
    rw [copyLoopOver_none]

theorem spillOver_none : spillOver {} = spill := by
  unfold spillOver spill closing
  dsimp only
  simp only [fillSpillOver_none, Exn.bind_assoc]

theorem _backingPathOver_none : _backingPathOver {} = _backingPath := by
  refine congrArg (Exn.get >>= ·) (funext fun s => ?_)
  rcases s.self.source.ownPath with _ | path
  · rcases liveTempfile s with _ | path
    · exact spillOver_none
    · rfl
  · rfl

theorem _openOver_none (eng : Engine) : _openOver {} eng = _open eng := by
  refine congrArg (Exn.get >>= ·) (funext fun s => ?_)
  rcases s.self.closed with _ | _
  · rcases s.self.reader with _ | reader
    · exact congrArg (· >>= _) _backingPathOver_none
    · rfl
  · rfl

end Archive

theorem AsyncArchive.aenterOver_none (eng : Engine) : aenterOver {} eng = aenter eng :=
  congrArg (onSync · >>= _) Archive._backingPathOver_none

/-! ## What a failed spill leaves -/

namespace Archive

variable {faults : SpillFaults} {eng : Engine} {s : Session}

/-- The `n`-th spill file is on disk. -/
def OnDisk (n : Nat) (s : Session) : Prop := (s.world.files (.temp n)).isSome = true

theorem appendFile_onDisk (n : Nat) (path : FilePath) (content : Bytes) :
    Exn.Keeps (OnDisk n) (onWorld (appendFile path content)) := by
  intro s there
  change (Function.update s.world.files path _ (.temp n)).isSome = true
  by_cases same : FilePath.temp n = path
  · rw [same, Function.update_self]
    rfl
  · rw [Function.update_of_ne same]
    exact there

theorem modifySelf_onDisk (n : Nat) (f : Archive → Archive) :
    Exn.Keeps (OnDisk n) (modifySelf f) := fun _ there => there

theorem closing_keeps {I : Session → Prop} {close : Option PyExc} {body : Py Session Unit}
    (keeps : Exn.Keeps I body) : Exn.Keeps I (closing close body) := by
  cases close with
  | none => exact keeps
  | some exc => exact (keeps.handle fun _ => Exn.Keeps.raise _).bind fun _ => Exn.Keeps.raise _

theorem fillSpillOver_onDisk (n : Nat) (path : FilePath) :
    Exn.Keeps (OnDisk n) (fillSpillOver faults path) := by
  unfold fillSpillOver
  refine Exn.Keeps.get.bind fun s => ?_
  rcases s.self.source with arg | content | file
  · exact Exn.Keeps.pure _
  · dsimp only
    rcases faults.write 0 with _ | ⟨exc, k⟩
    · exact appendFile_onDisk n path content
    · exact (appendFile_onDisk n path _).bind fun _ => Exn.Keeps.raise _
  · dsimp only
    rcases faults.noRead with _ | exc
    · refine (appendFile_onDisk n path _).bind fun _ => ?_
      exact (modifySelf_onDisk n _).bind fun _ => Exn.Keeps.lift _
    · exact Exn.Keeps.raise _

theorem namedTemporaryFile_onDisk (s : Session) :
    ∃ s₁, onWorld namedTemporaryFile s = (.ok (.temp s.world.nextTemp), s₁) ∧
      OnDisk s.world.nextTemp s₁ := by
  refine ⟨_, rfl, ?_⟩
  change (Function.update s.world.files (.temp s.world.nextTemp) (some [])
    (.temp s.world.nextTemp)).isSome = true
  rw [Function.update_self]
  rfl

/-- Once the file has been created, it is there however the spill ends. -/
theorem spillOver_onDisk (created : faults.create = none) (s : Session) :
    OnDisk s.world.nextTemp (spillOver faults s).2 := by
  unfold spillOver
  rw [created]
  obtain ⟨s₁, made, there⟩ := namedTemporaryFile_onDisk s
  have rest (path : FilePath) : Exn.Keeps (OnDisk s.world.nextTemp) (do
      closing faults.close do
        fillSpillOver faults path
        let t ← onWorld (TempFile.new path)
        modifySelf fun self => { self with tempfile := some t }
      pure path) := by
    refine (closing_keeps ?_).bind fun _ => Exn.Keeps.pure _
    refine (fillSpillOver_onDisk _ path).bind fun _ => ?_
    have new : Exn.Keeps (OnDisk s.world.nextTemp) (onWorld (TempFile.new path)) :=
      fun _ there => there
    exact new.bind fun _ => modifySelf_onDisk _ _
  dsimp only
  rw [Exn.bind_of_ok made]
  exact rest _ s₁ there

/-! ## Operations -/

/-- The next operation that opens the archive asks for its backing path. -/
structure Unopened (s : Session) : Prop where
  unclosed : s.self.closed = false
  unread : s.self.reader = none
  unlisted : s.self.entries = none

/-- Whoever asks for the backing path spills the source, into a file whose name is new. -/
structure Spills (s : Session) : Prop where
  noPath : s.self.source.ownPath = none
  dead : liveTempfile s = none
  fresh : s.world.files (.temp s.world.nextTemp) = none

/-- A failed operation that was never there: it raises, the same spill files are on
disk as before, the archive refers to the same one, and closing it leaves no other
behind. -/
structure Atomic {σ α : Type} (view : σ → Session) (x : Py σ α) (s : σ) : Prop where
  raises : ∃ exc, (x s).1 = .error exc
  files : ∀ n, OnDisk n (view (x s).2) ↔ OnDisk n (view s)
  field : (view (x s).2).self.tempfile = (view s).self.tempfile
  closed : ∀ n, OnDisk n (close (view (x s).2)).2 → OnDisk n (view s)

/-- How an accessor treats what it raises: `needs_password` answers `True` to a
password error, the others let everything through. -/
def guarded : Call → Py Session Value → Py Session Value
  | .needsPassword, x => Exn.handle x fun exc =>
      if exc.cls = .passwordRequiredError ∨ exc.cls = .wrongPasswordError then
        pure (.bool true)
      else Exn.raise exc
  | _, x => x

/-- In the state `s`, the computation opens the archive before anything else. -/
def OpensFirst {α : Type} (eng : Engine) (x : Py Session α) (s : Session) : Prop :=
  ∃ k : RustArchive → Py Session α, x s = (_open eng >>= k) s

theorem OpensFirst.open (eng : Engine) (s : Session) : OpensFirst eng (_open eng) s := by
  refine ⟨fun reader => pure reader, ?_⟩
  rcases run : _open eng s with ⟨exc | reader, s'⟩
  · rw [Exn.bind_of_error run]
  · rw [Exn.bind_of_ok run]
    rfl

theorem OpensFirst.bind {α β : Type} {x : Py Session α} (opens : OpensFirst eng x s)
    (f : α → Py Session β) : OpensFirst eng (x >>= f) s := by
  obtain ⟨k, same⟩ := opens
  refine ⟨fun reader => k reader >>= f, ?_⟩
  rw [← Exn.bind_assoc, Exn.bind_apply, same]
  exact (Exn.bind_apply (_open eng >>= k) f s).symm

theorem Unopened.listing (unopened : Unopened s) : OpensFirst eng (_listing eng) s := by
  refine ⟨listOpened, ?_⟩
  unfold _listing
  rw [Exn.get_bind_apply, unopened.unlisted]
  rfl

/-- Packing a result and handling an exception commute. -/
theorem handle_pack {α β : Type} (x : Py Session α) (h : PyExc → Py Session α) (f : α → β)
    (s : Session) :
    (Exn.handle x h >>= fun a => pure (f a) : Py Session β) s =
      Exn.handle (x >>= fun a => (pure (f a) : Py Session β))
        (fun exc => h exc >>= fun a => pure (f a)) s := by
  rcases run : x s with ⟨exc | a, s'⟩
  · have packed : (x >>= fun a => (pure (f a) : Py Session β)) s = (.error exc, s') :=
      Exn.bind_of_error run _
    rw [Exn.handle_of_error packed, Exn.bind_apply, Exn.handle_of_error run, ← Exn.bind_apply]
  · have packed : (x >>= fun a => (pure (f a) : Py Session β)) s = (.ok (f a), s') :=
      Exn.bind_of_ok run _
    rw [Exn.handle_of_ok packed, Exn.bind_of_ok (Exn.handle_of_ok run _)]
    rfl

/-- Every accessor but the membership test of a foreign key opens the archive first. -/
theorem Unopened.call (unopened : Unopened s) (eng : Engine) {c : Call}
    (opening : c ≠ .contains .other) :
    ∃ k : RustArchive → Py Session Value, call eng c s = guarded c (_open eng >>= k) s := by
  have opens : OpensFirst eng (_open eng) s := .open eng s
  have lists : OpensFirst eng (_listing eng) s := unopened.listing
  cases c with
  | len => exact lists.bind _
  | iter => exact lists.bind _
  | getitem key => exact lists.bind _
  | contains key =>
      cases key with
      | entry e => exact (lists.bind _).bind _
      | name text => exact (lists.bind _).bind _
      | path path => exact (lists.bind _).bind _
      | other => exact (opening rfl).elim
  | format => exact (opens.bind _).bind _
  | detectedEncoding => exact (opens.bind _).bind _
  | needsPassword =>
      obtain ⟨k, same⟩ := (lists.bind fun entries =>
        (pure (entries.any (·.isEncrypted)) : Py Session Bool)).bind
          fun b => (pure (Value.bool b) : Py Session Value)
      refine ⟨k, (handle_pack _ _ Value.bool s).trans ?_⟩
      unfold guarded Exn.handle
      dsimp only
      rw [same]
      rcases (_open eng >>= k) s with ⟨exc | value, s'⟩
      · dsimp only
        split_ifs <;> rfl
      · rfl
  | read ref => exact (opens.bind _).bind _
  | openBuffered ref => exact (opens.bind _).bind _
  | openStream ref => exact (opens.bind _).bind _
  | extract request => exact (opens.bind _).bind _

theorem Unopened.enter (unopened : Unopened s) (eng : Engine) : OpensFirst eng (enter eng) s :=
  unopened.listing.bind _

/-! ## Failed spills -/

/-- The accessor `c` over a spill with faults; `k` is what it does with the open archive. -/
def callOver (faults : SpillFaults) (eng : Engine) (c : Call)
    (k : RustArchive → Py Session Value) : Py Session Value :=
  guarded c (_openOver faults eng >>= k)

variable {exc : PyExc} {s' : Session}

theorem Spills.backingPathOver (spills : Spills s) :
    _backingPathOver faults s = spillOver faults s := by
  unfold _backingPathOver
  rw [Exn.get_bind_apply, spills.noPath, spills.dead]

theorem Spills.openOver_fails (spills : Spills s) (unopened : Unopened s)
    (failed : spillOver faults s = (.error exc, s')) :
    _openOver faults eng s = (.error exc, s') := by
  have spilled : _backingPathOver faults s = (.error exc, s') :=
    spills.backingPathOver.trans failed
  unfold _openOver
  rw [Exn.get_bind_apply, unopened.unclosed, unopened.unread]
  exact Exn.bind_of_error spilled _

theorem close_onDisk (n : Nat) (s : Session) (there : OnDisk n (close s).2) : OnDisk n s := by
  rw [close_run] at there
  unfold dropped at there
  rcases claimed : s.self.tempfile with _ | t
  · have same : (shut s.self).tempfile = none := claimed
    rw [same] at there
    exact there
  · have same : (shut s.self).tempfile = some t := claimed
    rw [same] at there
    change ((s.world.afterRelease t).files (.temp n)).isSome = true at there
    rcases (s.world.afterRelease_follows t).files (.temp n) with kept | ⟨gone, -⟩
    · rwa [kept] at there
    · rw [gone] at there
      cases there

/-- An operation that raises in the state it found is atomic. -/
theorem Atomic.of_unchanged {σ α : Type} {view : σ → Session} {x : Py σ α} {t t' : σ}
    (raised : x t = (.error exc, t')) (same : view t' = view t) : Atomic view x t := by
  have final : view (x t).2 = view t := (congrArg (fun r => view r.2) raised).trans same
  refine ⟨⟨exc, congrArg Prod.fst raised⟩, fun n => ?_, ?_, fun n there => ?_⟩
  · rw [final]
  · rw [final]
  · rw [final] at there
    exact close_onDisk n _ there

/-- An operation under which a spill fails, whatever else it does about it. -/
theorem Spills.atomic_iff (spills : Spills s) (failed : spillOver faults s = (.error exc, s'))
    {σ α : Type} {view : σ → Session} {x : Py σ α} {t t' : σ} (starts : view t = s)
    (ended : (x t).2 = t') (ends : view t' = s')
    (passes : exc.cls = .osError → ∃ exc, x t = (.error exc, t')) :
    Atomic view x t ↔ faults.create.isSome = true := by
  rcases created : faults.create with _ | text
  · refine iff_of_false (fun atomic => ?_) nofun
    have there := spillOver_onDisk created s
    rw [failed, ← ends, ← ended, ← starts, atomic.files, starts] at there
    unfold OnDisk at there
    rw [spills.fresh] at there
    cases there
  · refine iff_of_true ?_ rfl
    unfold spillOver at failed
    rw [created] at failed
    cases failed
    obtain ⟨exc, raised⟩ := passes rfl
    exact Atomic.of_unchanged raised (ends.trans starts.symm)

theorem guarded_error {c : Call} {x : Py Session Value} (raised : x s = (.error exc, s')) :
    (guarded c x s).2 = s' ∧ (exc.cls = .osError → ∃ exc, guarded c x s = (.error exc, s')) := by
  cases c with
  | needsPassword =>
      unfold guarded
      dsimp only
      rw [Exn.handle_of_error raised]
      by_cases swallowed : exc.cls = .passwordRequiredError ∨ exc.cls = .wrongPasswordError
      · rw [if_pos swallowed]
        refine ⟨rfl, fun other => ?_⟩
        rw [other] at swallowed
        rcases swallowed with impossible | impossible <;> cases impossible
      · rw [if_neg swallowed]
        exact ⟨rfl, fun _ => ⟨exc, rfl⟩⟩
  | _ =>
      unfold guarded
      dsimp only
      rw [raised]
      exact ⟨rfl, fun _ => ⟨exc, rfl⟩⟩

/-- An operation whose spill fails leaves things as they were exactly when the spill
file could not be created: every accessor and `__enter__` of an archive that is not
open, and the asynchronous `__aenter__`. -/
theorem spill_atomic_iff (faults : SpillFaults) (eng : Engine) {s : Session} (spills : Spills s)
    (failed : ∃ exc s', spillOver faults s = (.error exc, s')) :
    (Unopened s → ∀ c : Call, c ≠ .contains .other →
      ∃ k, callOver {} eng c k s = call eng c s ∧
        (Atomic id (callOver faults eng c k) s ↔ faults.create.isSome = true)) ∧
    (Unopened s → ∃ k : RustArchive → Py Session Unit, (_openOver {} eng >>= k) s = enter eng s ∧
      (Atomic id (_openOver faults eng >>= k) s ↔ faults.create.isSome = true)) ∧
    ∀ a : AsyncSession, AsyncArchive.inner a = s →
      (Atomic AsyncArchive.inner (AsyncArchive.aenterOver faults eng) a ↔
        faults.create.isSome = true) := by
  obtain ⟨exc, s', spill⟩ := failed
  refine ⟨?_, ?_, ?_⟩
  · intro unopened c opening
    have opened : _openOver faults eng s = (.error exc, s') := spills.openOver_fails unopened spill
    obtain ⟨k, same⟩ := unopened.call eng opening
    refine ⟨k, ?_, ?_⟩
    · unfold callOver
      rw [_openOver_none]
      exact same.symm
    · obtain ⟨ended, passes⟩ := guarded_error (c := c) (Exn.bind_of_error opened k)
      exact spills.atomic_iff spill rfl ended rfl passes
  · intro unopened
    have opened : _openOver faults eng s = (.error exc, s') := spills.openOver_fails unopened spill
    obtain ⟨k, same⟩ := unopened.enter eng
    refine ⟨k, ?_, ?_⟩
    · rw [_openOver_none]
      exact same.symm
    · have raised : (_openOver faults eng >>= k) s = (.error exc, s') := Exn.bind_of_error opened k
      exact spills.atomic_iff spill rfl (congrArg Prod.snd raised) rfl fun _ => ⟨exc, raised⟩
  · intro a inside
    have backed : AsyncArchive.onSync (_backingPathOver faults) a =
        (.error exc, { world := s'.world, self := { a.self with sync := s'.self } }) := by
      apply AsyncArchive.onSync_run
      rw [inside]
      exact spills.backingPathOver.trans spill
    have raised : AsyncArchive.aenterOver faults eng a =
        (.error exc, { world := s'.world, self := { a.self with sync := s'.self } }) :=
      Exn.bind_of_error backed _
    exact spills.atomic_iff spill inside (congrArg Prod.snd raised) rfl fun _ => ⟨exc, raised⟩

/-- One byte in memory, nothing on disk. -/
def inMemory : Session := init (fun _ => none) (.bytes [80]) none none

theorem inMemory_spills : Spills inMemory := ⟨rfl, rfl, rfl⟩

/-- No file can be created, and `__aenter__` leaves none. -/
theorem spill_atomic_iff_uncreated :
    Atomic AsyncArchive.inner
      (AsyncArchive.aenterOver { create := some "[Errno 24] Too many open files" } Batch.oneFile)
      (AsyncArchive.init (fun _ => none) (.bytes [80]) none none) :=
  ((spill_atomic_iff { create := some "[Errno 24] Too many open files" } Batch.oneFile
    inMemory_spills ⟨_, _, rfl⟩).2.2 _ rfl).mpr rfl

/-- A file object whose second `read` raises. -/
def torn : Session :=
  init (fun _ => none)
    (.stream
      { replies := [.ok [80], .error { cls := .osError, text := "[Errno 5] Input/output error" }]
        name := .missing })
    none none

/-- `len(archive)` raises, and leaves the first byte in a spill file. -/
theorem torn_read_leaves_file : ¬ Atomic id (call Batch.oneFile .len) torn := by
  intro atomic
  have there : OnDisk 0 torn := (atomic.files 0).mp rfl
  cases there

end Archive

end NewtuaPy
