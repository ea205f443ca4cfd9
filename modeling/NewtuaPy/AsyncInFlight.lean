import NewtuaPy.AsyncLifetime
import NewtuaPy.StreamAgree

/-!
# Leaving an asynchronous archive while it works

`read` and `extract` of an `AsyncArchive` are accepted on the event loop and
look for the backing file later, on a worker thread.  `__aexit__` gives up the
only claim on a spilled file, whatever is still in flight.
-/

namespace NewtuaPy.AsyncArchive

open Archive (Value ExtractRequest)

/-! ## The two halves of an operation -/

/-- A call of `read` or `extract`. -/
inductive Request
  | read (ref : Ref)
  | extract (r : ExtractRequest)

def Request.call : Request → Call
  | .read ref => .read ref
  | .extract r => .extract r

/-- What is handed to `asyncio.to_thread`. -/
inductive ThreadCall
  | readPath (path : FilePath) (index : Int) (password encoding : Option String)
  | extractPath (path : FilePath) (c : ExtractCall) (password encoding : Option String)

namespace ThreadCall

def path : ThreadCall → FilePath
  | .readPath path _ _ _ => path
  | .extractPath path _ _ _ => path

/-- The call on the worker thread. -/
def run (eng : Engine) : ThreadCall → Py World Value
  | .readPath path index password encoding => do
      let b ← NewtuaPy.readPath eng path index password encoding
      pure (.bytes b)
  | .extractPath path c password encoding => do
      let r ← NewtuaPy.extractPath eng path c password encoding
      pure (.report r)

end ThreadCall

/-- What `read` and `extract` do on the event loop. -/
def accept : Request → Py AsyncSession ThreadCall
  | .read ref => do
      let path ← _ensureReady
      let index ← indexOf ref
      let s ← Exn.get
      pure (.readPath path index s.self.password s.self.encoding)
  | .extract r => do
      let path ← _ensureReady
      let selection ← selected r.selection
      let s ← Exn.get
      let request := r.toCall selection s.self.sync.source.wrapperNameSource
      pure (.extractPath path request s.self.password s.self.encoding)

/-- A result may be packed on either side of the thread. -/
theorem typed_pack {α β : Type} (x : Py World α) (f : α → β) :
    (Archive.typed (onWorld x) >>= fun a => pure (f a)) =
      Archive.typed (onWorld (x >>= fun a => pure (f a))) := by
  funext s
  unfold Archive.typed onWorld
  rcases run : x s.world with ⟨exc | a, w⟩
  · simp [Exn.bind_apply, Exn.handle, run]
  · simp [Exn.bind_apply, Exn.handle, run]

/-- With nothing in between, the two halves are the operation. -/
theorem call_eq_accept (eng : Engine) (request : Request) :
    call eng request.call = (do
      let thread ← accept request
      Archive.typed (onWorld (thread.run eng))) := by
  cases request with
  | read ref =>
      unfold Request.call call accept read
      simp only [Exn.bind_assoc, typed_pack]
      rfl
  | extract r =>
      unfold Request.call call accept extract
      simp only [Exn.bind_assoc, typed_pack]
      rfl

/-! ## The system -/

/-- An archive with the calls it has accepted and not yet finished. -/
structure InFlight where
  session : AsyncSession
  threads : List ThreadCall := []
  /-- An accepted call has looked for the backing file and not found it. -/
  missed : Bool := false

inductive Event
  | accept (request : Request)
  /-- The `k`-th thread opens the backing path, for the first time or again. -/
  | look (k : Nat) (eng : Engine)
  | finish (k : Nat)
  | exit

def next (c : InFlight) : Event → Option InFlight
  | .accept request =>
      let (outcome, session) := AsyncArchive.accept request c.session
      match outcome with
      | .ok thread => some { c with session, threads := c.threads ++ [thread] }
      | .error _ => some { c with session }
  | .look k eng => do
      let thread ← c.threads[k]?
      let (_, session) := onWorld (thread.run eng) c.session
      some { c with
        session
        missed := c.missed || (c.session.world.files thread.path).isNone }
  | .finish k => do
      let _ ← c.threads[k]?
      some { c with threads := c.threads.eraseIdx k }
  | .exit => some { c with session := (aexit c.session).2 }

/-- An archive over bytes or a file object has just been entered. -/
def Entered (c : InFlight) : Prop :=
  ∃ eng files source password encoding,
    Source.ownPath source = none ∧
      aenter eng (init files source password encoding) = (.ok (), c.session) ∧
      c.threads = [] ∧ c.missed = false

def inFlight : Lts InFlight Event where
  init := Entered
  step c e c' := next c e = some c'

/-- The backing file is there for whoever was accepted, and for nobody else. -/
structure Covered (c : InFlight) : Prop where
  present : ∀ thread ∈ c.threads, (c.session.world.files thread.path).isSome = true
  found : c.missed = false
  gone : ∀ p, c.session.self.path = some p → c.session.self.closed = true → c.threads = [] →
    c.session.world.files p = none

/-! ## The steps on an entered and on a left archive -/

variable {a : AsyncSession} {p : FilePath} {c c' : InFlight} {e : Event}

/-- What is done on the event loop changes nothing. -/
theorem accept_cases (request : Request) (a : AsyncSession) :
    (∃ thread, accept request a = (.ok thread, a) ∧ a.self.closed = false ∧
        a.self.path = some thread.path) ∨
      ∃ exc, accept request a = (.error exc, a) := by
  rcases _ensureReady_cases a with ⟨p, ready, unclosed, path⟩ | ⟨refused, -⟩
  · cases request with
    | read ref =>
        have accepted : accept (.read ref) a = (do
            let index ← indexOf ref
            let s ← Exn.get
            pure (ThreadCall.readPath p index s.self.password s.self.encoding)) a :=
          Exn.bind_of_ok ready _
        have index : indexOf ref a = (resolveIndex a.self.entries ref, a) := rfl
        rw [accepted]
        rcases found : resolveIndex a.self.entries ref with exc | i <;> rw [found] at index
        · exact Or.inr ⟨exc, Exn.bind_of_error index _⟩
        · exact Or.inl ⟨_, Exn.bind_of_ok index _, unclosed, path⟩
    | extract r =>
        have accepted : accept (.extract r) a = (do
            let selection ← selected r.selection
            let s ← Exn.get
            let request := r.toCall selection s.self.sync.source.wrapperNameSource
            pure (ThreadCall.extractPath p request s.self.password s.self.encoding)) a :=
          Exn.bind_of_ok ready _
        have selection := selected_run r.selection a
        rw [accepted]
        rcases found : View.select a.self.entries r.selection with exc | is <;>
          rw [found] at selection
        · exact Or.inr ⟨exc, Exn.bind_of_error selection _⟩
        · exact Or.inl ⟨_, Exn.bind_of_ok selection _, unclosed, path⟩
  · cases request with
    | read ref => exact Or.inr ⟨_, Exn.bind_of_error refused _⟩
    | extract r => exact Or.inr ⟨_, Exn.bind_of_error refused _⟩

theorem ThreadCall.quiet (eng : Engine) (thread : ThreadCall) (w : World) :
    w.Quiet (thread.run eng w).2 := by
  cases thread with
  | readPath path index password encoding =>
      have asked := (readPath_asks eng path index password encoding).quiet w
      unfold run
      rw [Exn.bind_pure_snd]
      exact asked
  | extractPath path c password encoding =>
      have asked := (extractPath_asks eng path c password encoding).quiet w
      unfold run
      rw [Exn.bind_pure_snd]
      exact asked

structure Open (p : FilePath) (c : InFlight) : Prop where
  path : c.session.self.path = some p
  unclosed : c.session.self.closed = false
  file : (c.session.world.files p).isSome = true
  claim : ∃ t, c.session.self.sync.tempfile = some t ∧
    c.session.world.temps[t]? = some { path := p }
  threads : ∀ thread ∈ c.threads, thread.path = p
  found : c.missed = false

structure Shut (p : FilePath) (c : InFlight) : Prop where
  path : c.session.self.path = some p
  closed : c.session.self.closed = true
  file : c.session.world.files p = none
  unclaimed : c.session.self.sync.tempfile = none
  threads : ∀ thread ∈ c.threads, thread.path = p

theorem Open.ofQuiet (h : Open p c) {w : World} (quiet : c.session.world.Quiet w) :
    Open p { c with session := { c.session with world := w } } := by
  obtain ⟨t, tempfile, entry⟩ := h.claim
  refine { path := h.path, unclosed := h.unclosed, file := ?_, claim := ⟨t, tempfile, ?_⟩,
           threads := h.threads, found := h.found }
  · rw [quiet.files]
    exact h.file
  · rw [quiet.temps]
    exact entry

theorem Shut.ofQuiet (h : Shut p c) {w : World} (quiet : c.session.world.Quiet w) :
    Shut p { c with session := { c.session with world := w } } := by
  refine { path := h.path, closed := h.closed, file := ?_, unclaimed := h.unclaimed,
           threads := h.threads }
  rw [quiet.files]
  exact h.file

/-- Leaving gives up the only claim, and the file goes. -/
theorem Open.exit (h : Open p c) : Shut p { c with session := (aexit c.session).2 } := by
  obtain ⟨t, tempfile, entry⟩ := h.claim
  have gone : (c.session.world.afterRelease t).files =
      Function.update c.session.world.files p none := by
    unfold World.afterRelease
    rw [entry]
    rfl
  rw [aexit_claimed tempfile]
  refine { path := h.path, closed := rfl, file := ?_, unclaimed := rfl, threads := h.threads }
  dsimp only
  rw [gone]
  exact Function.update_self ..

theorem Shut.exit (h : Shut p c) : Shut p { c with session := (aexit c.session).2 } := by
  rw [aexit_unclaimed h.unclaimed]
  exact { path := h.path, closed := rfl, file := h.file, unclaimed := h.unclaimed,
          threads := h.threads }

/-- What a step can do. -/
theorem next_cases (step : next c e = some c') :
    (∃ request thread, e = .accept request ∧ c.session.self.closed = false ∧
        c.session.self.path = some thread.path ∧
        c' = { c with threads := c.threads ++ [thread] }) ∨
      (∃ request, e = .accept request ∧ c' = c) ∨
      (∃ k eng thread w, e = .look k eng ∧ thread ∈ c.threads ∧ c.session.world.Quiet w ∧
        c' = { c with
          session := { c.session with world := w }
          missed := c.missed || (c.session.world.files thread.path).isNone }) ∨
      (∃ k, e = .finish k ∧ c' = { c with threads := c.threads.eraseIdx k }) ∨
      (e = .exit ∧ c' = { c with session := (aexit c.session).2 }) := by
  cases e with
  | accept request =>
      rcases accept_cases request c.session with ⟨thread, run, unclosed, path⟩ | ⟨exc, run⟩
      · simp only [next, run] at step
        cases step
        exact Or.inl ⟨request, thread, rfl, unclosed, path, rfl⟩
      · simp only [next, run] at step
        cases step
        exact Or.inr (Or.inl ⟨request, rfl, rfl⟩)
  | look k eng =>
      rcases found : c.threads[k]? with _ | thread <;> simp only [next, found] at step
      · cases step
      · cases step
        exact Or.inr (Or.inr (Or.inl ⟨k, eng, thread, _, rfl, List.mem_of_getElem? found,
          thread.quiet eng c.session.world, rfl⟩))
  | finish k =>
      rcases found : c.threads[k]? with _ | thread <;> simp only [next, found] at step
      · cases step
      · cases step
        exact Or.inr (Or.inr (Or.inr (Or.inl ⟨k, rfl, rfl⟩)))
  | exit =>
      cases step
      exact Or.inr (Or.inr (Or.inr (Or.inr ⟨rfl, rfl⟩)))

/-- Step lemma of an entered archive: only leaving ends it. -/
theorem Open.step (h : Open p c) (step : next c e = some c') :
    (e ≠ .exit ∧ Open p c') ∨
      (e = .exit ∧ Shut p c' ∧ c'.threads = c.threads ∧ c'.missed = false) := by
  rcases next_cases step with ⟨request, thread, rfl, -, path, rfl⟩ | ⟨request, rfl, rfl⟩ |
    ⟨k, eng, thread, w, rfl, accepted, quiet, rfl⟩ | ⟨k, rfl, rfl⟩ | ⟨rfl, rfl⟩
  · refine Or.inl ⟨nofun, { h with threads := ?_ }⟩
    intro other among
    rcases List.mem_append.mp among with old | new
    · exact h.threads other old
    · rw [List.mem_singleton.mp new]
      exact Option.some.inj (path.symm.trans h.path)
  · exact Or.inl ⟨nofun, h⟩
  · refine Or.inl ⟨nofun, { h.ofQuiet quiet with found := ?_ }⟩
    have there := h.file
    rw [← h.threads thread accepted] at there
    simpa [h.found] using there
  · refine Or.inl ⟨nofun, { h with threads := ?_ }⟩
    exact fun thread left => h.threads thread (List.mem_of_mem_eraseIdx left)
  · exact Or.inr ⟨rfl, h.exit, rfl, h.found⟩

/-- Step lemma of a left archive: it accepts nothing. -/
theorem Shut.step (h : Shut p c) (step : next c e = some c') :
    Shut p c' ∧ (c.threads = [] → c'.threads = [] ∧ c'.missed = c.missed) := by
  rcases next_cases step with ⟨request, thread, rfl, unclosed, -⟩ | ⟨request, rfl, rfl⟩ |
    ⟨k, eng, thread, w, rfl, accepted, quiet, rfl⟩ | ⟨k, rfl, rfl⟩ | ⟨rfl, rfl⟩
  · cases h.closed.symm.trans unclosed
  · exact ⟨h, fun none => ⟨none, rfl⟩⟩
  · refine ⟨{ h.ofQuiet quiet with }, fun none => ?_⟩
    rw [none] at accepted
    cases accepted
  · refine ⟨{ h with threads := ?_ }, fun none => ⟨?_, rfl⟩⟩
    · exact fun thread left => h.threads thread (List.mem_of_mem_eraseIdx left)
    · dsimp only
      rw [none]
      rfl
  · exact ⟨h.exit, fun none => ⟨none, rfl⟩⟩

/-! ## Runs -/

theorem Open.covered (h : Open p c) : Covered c where
  present := by
    intro thread accepted
    rw [h.threads thread accepted]
    exact h.file
  found := h.found
  gone := by
    intro p _ closed
    cases h.unclosed.symm.trans closed

theorem Shut.covered_iff (h : Shut p c) : Covered c ↔ c.threads = [] ∧ c.missed = false := by
  constructor
  · intro covered
    refine ⟨?_, covered.found⟩
    rcases threads : c.threads with _ | ⟨thread, rest⟩
    · rfl
    · have accepted : thread ∈ c.threads := by simp [threads]
      have there := covered.present thread accepted
      rw [h.threads thread accepted, h.file] at there
      cases there
  · intro idle
    obtain ⟨none, found⟩ := idle
    refine { present := ?_, found := found, gone := ?_ }
    · intro thread accepted
      rw [none] at accepted
      cases accepted
    · intro q path _ _
      obtain rfl := Option.some.inj (path.symm.trans h.path)
      exact h.file

/-- Entering spills the source to a file with one claim. -/
theorem Entered.isOpen (h : Entered c) : Open (.temp 0) c := by
  obtain ⟨eng, files, source, password, encoding, noPath, entering, threads, found⟩ := h
  have readable : source.Readable := by
    by_contra unreadable
    obtain ⟨exc, s, failed⟩ := backingPath_unreadable files unreadable password encoding
    have raised := aenter_unbacked (a := init files source password encoding) eng failed
    cases raised.symm.trans entering
  obtain ⟨content, delivers⟩ := delivers_of_readable readable noPath
  obtain ⟨a, entered, world, path, unclosed, tempfile⟩ :=
    aenter_spills (a := init files source password encoding) eng noPath rfl delivers
  obtain ⟨quiet, sync, path', closed'⟩ := enterAt_kept (entered.symm.trans entering)
  refine { path := path'.trans path, unclosed := closed'.trans unclosed, file := ?_,
           claim := ⟨0, ?_, ?_⟩, threads := ?_, found := found }
  · have file : (a.world.files (.temp 0)) = some content := by
      rw [world]
      exact Function.update_self (FilePath.temp 0) (some content) files
    rw [quiet.files, file]
    rfl
  · rw [sync]
    exact tempfile
  · rw [quiet.temps, world]
    rfl
  · rw [threads]
    exact List.forall_mem_nil _

/-- No accepted call is broken, and the file goes in the end, in exactly the runs
that leave the archive only when nothing is in flight. -/
theorem covered_iff_idle_exits {run : List (Event × InFlight)} (start : inFlight.init c)
    (isRun : inFlight.IsRun c run) :
    Lts.AllStates Covered c run ↔
      Lts.AllSteps (fun c e => e = .exit → c.threads = []) c run := by
  have opened := Entered.isOpen start
  constructor
  · intro covered
    have kept : Lts.AllStates (fun c => Open (.temp 0) c ∨ Shut (.temp 0) c) c run := by
      refine isRun.invariant (Lts.AllSteps.trivial run) (Or.inl opened) ?_
      intro c e c' either _ step
      rcases either with h | h
      · rcases h.step step with ⟨-, h'⟩ | ⟨-, h', -⟩
        · exact Or.inl h'
        · exact Or.inr h'
      · exact Or.inr (h.step step).1
    refine (kept.and covered).allSteps isRun ?_
    intro c e c' before after step isExit
    obtain ⟨either, covered⟩ := before
    obtain ⟨-, covered'⟩ := after
    subst isExit
    rcases either with h | h
    · rcases h.step step with ⟨other, -⟩ | ⟨-, h', threads, -⟩
      · exact absurd rfl other
      · exact threads.symm.trans (h'.covered_iff.mp covered').1
    · exact (h.covered_iff.mp covered).1
  · intro idle
    have kept : Lts.AllStates (fun c => Open (.temp 0) c ∨
        (Shut (.temp 0) c ∧ c.threads = [] ∧ c.missed = false)) c run := by
      refine isRun.invariant idle (Or.inl opened) ?_
      intro c e c' either idle step
      rcases either with h | ⟨h, none, found⟩
      · rcases h.step step with ⟨-, h'⟩ | ⟨isExit, h', threads, found⟩
        · exact Or.inl h'
        · exact Or.inr ⟨h', threads.trans (idle isExit), found⟩
      · obtain ⟨h', stays⟩ := h.step step
        obtain ⟨none', found'⟩ := stays none
        exact Or.inr ⟨h', none', found'.trans found⟩
    refine kept.mono ?_
    intro c either
    rcases either with h | ⟨h, idle⟩
    · exact h.covered
    · exact h.covered_iff.mpr idle

/-! ## Two runs -/

/-- The run that takes the events, as far as they are possible. -/
def trace (c : InFlight) : List Event → List (Event × InFlight)
  | [] => []
  | e :: es => match next c e with
    | some c' => (e, c') :: trace c' es
    | none => []

theorem trace_isRun (c : InFlight) (es : List Event) : inFlight.IsRun c (trace c es) := by
  induction es generalizing c with
  | nil => exact True.intro
  | cons e es ih =>
      unfold trace
      rcases step : next c e with _ | c'
      · exact True.intro
      · exact ⟨step, ih c'⟩

/-- An archive over bytes, just entered. -/
def entered : InFlight where
  session := (aenter Archive.oneIntact (init (fun _ => none) (.bytes [80]) none none)).2

theorem entered_init : inFlight.init entered :=
  ⟨Archive.oneIntact, fun _ => none, .bytes [80], none, none, rfl, rfl, rfl, rfl⟩

/-- A read that is finished before the archive is left. -/
theorem covered_iff_idle_exits_finished :
    Lts.AllStates Covered entered
      (trace entered [.accept (.read (.int 0)), .look 0 Archive.oneIntact, .finish 0, .exit]) :=
  (covered_iff_idle_exits entered_init (trace_isRun _ _)).mpr
    ⟨nofun, nofun, nofun, fun _ => rfl, True.intro⟩

/-- A read that is accepted, and looks for the file after the archive is left. -/
def overtaken : List (Event × InFlight) :=
  trace entered [.accept (.read (.int 0)), .exit, .look 0 Archive.oneIntact]

theorem overtaken_read_misses :
    inFlight.init entered ∧ inFlight.IsRun entered overtaken ∧
      ¬ Lts.AllStates Covered entered overtaken := by
  refine ⟨entered_init, trace_isRun _ _, fun covered => ?_⟩
  have missed : (Lts.last entered overtaken).missed = true := by decide
  cases missed.symm.trans covered.last.found

end NewtuaPy.AsyncArchive
