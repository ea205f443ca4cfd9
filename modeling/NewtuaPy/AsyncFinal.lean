import NewtuaPy.AsyncLifetime
import NewtuaPy.StreamAgree

/-!
# After an asynchronous archive is left

`_ensure_ready` refuses `read`, `extract` and `open` once the archive is closed.
Nothing refuses a stream context that `open` had returned before, nor entering
the archive again.
-/

namespace NewtuaPy.AsyncArchive

/-! ## Runs -/

/-- An archive with the stream contexts that `open` has returned. -/
structure Desk where
  session : AsyncSession
  contexts : List StreamCtx := []

/-- One step of its user, awaited to its end. -/
inductive Act
  | enter (eng : Engine)
  | exit
  | call (eng : Engine) (c : Call)
  | open (ref : Ref)
  | enterStream (eng : Engine) (k : Nat)
  | readStream (k : Nat) (size : Int)
  | closeStream (k : Nat) (fault : Option PyExc)

/-- Do something with the archive and drop the value. -/
def within {α : Type} (x : Py AsyncSession α) (d : Desk) : Except PyExc Unit × Desk :=
  let (outcome, session) := x d.session
  (outcome.map fun _ => (), { d with session })

def act : Machine Desk Act (Except PyExc Unit)
  | d, .enter eng => within (aenter eng) d
  | d, .exit => within aexit d
  | d, .call eng c => within (call eng c) d
  | d, .open ref =>
      let (outcome, session) := AsyncArchive.open ref d.session
      match outcome with
      | .ok ctx => (.ok (), { session, contexts := d.contexts ++ [ctx] })
      | .error exc => (.error exc, { d with session })
  | d, .enterStream eng k => match d.contexts[k]? with
      | some ctx => within (ctx.aenter eng) d
      | none => (.ok (), d)
  | d, .readStream k size => within (onWorld (onStream k (PipeStream.read (some size)))) d
  | d, .closeStream k fault => within (onWorld (closeStream k fault)) d

/-- The steps that ask the archive for content. -/
def Act.Touches (d : Desk) : Act → Prop
  | .enter _ => True
  | .call _ (.read _) => True
  | .call _ (.extract _) => True
  | .open _ => True
  | .enterStream _ k => k < d.contexts.length
  | _ => False

/-- The steps that begin with `_ensure_ready`. -/
def Act.Checked : Act → Prop
  | .call _ (.read _) => True
  | .call _ (.extract _) => True
  | .open _ => True
  | _ => False

/-- The step raises `ValueError` and changes nothing. -/
def Refused (d : Desk) (step : Act) : Prop :=
  ∃ exc, act d step = (.error exc, d) ∧ exc.cls = .valueError

/-! ## The closed flag stays -/

/-- `__aexit__` has run. -/
def Left (a : AsyncSession) : Prop := a.self.closed = true

theorem onWorld_keeps {α : Type} (x : Py World α) : Exn.Keeps Left (onWorld x) :=
  fun _ left => left

theorem onSync_keeps {α : Type} (x : Py Session α) : Exn.Keeps Left (onSync x) :=
  fun _ left => left

theorem enterAt_keeps (eng : Engine) (p : FilePath) : Exn.Keeps Left (enterAt eng p) := by
  refine Exn.Keeps.get.bind fun s => ?_
  refine Exn.Keeps.bind ((onWorld_keeps _).handle fun exc => ?_) fun listed => ?_
  · split
    · exact (onSync_keeps _).bind fun _ => .raise _
    · exact .raise _
  · exact .modify fun _ left => left

theorem aenter_keeps (eng : Engine) : Exn.Keeps Left (aenter eng) := by
  refine (onSync_keeps _).bind fun path => ?_
  refine Exn.Keeps.bind (.modify fun _ left => left) fun _ => ?_
  refine Exn.Keeps.get.bind fun s => ?_
  split
  · exact (onSync_keeps _).bind fun _ => .raise _
  · exact enterAt_keeps eng path

theorem aexit_keeps : Exn.Keeps Left aexit :=
  (onSync_keeps _).bind fun _ => .modify fun _ _ => rfl

theorem _ensureReady_keeps : Exn.Keeps Left _ensureReady := by
  refine Exn.Keeps.get.bind fun s => ?_
  split
  · split
    · exact .raise _
    · exact .pure _
  · exact .raise _

theorem indexOf_keeps (ref : Ref) : Exn.Keeps Left (indexOf ref) :=
  Exn.Keeps.get.bind fun _ => .lift _

theorem typed_keeps {α : Type} (x : Py World α) :
    Exn.Keeps Left (Archive.typed (onWorld x)) :=
  (onWorld_keeps x).handle fun _ => .raise _

theorem asserted_keeps {α : Type} (value : Option α) : Exn.Keeps Left (asserted value) := by
  cases value with
  | none => exact .raise _
  | some value => exact .pure value

theorem read_keeps (eng : Engine) (ref : Ref) : Exn.Keeps Left (read eng ref) := by
  refine _ensureReady_keeps.bind fun path => ?_
  refine (indexOf_keeps ref).bind fun index => ?_
  exact Exn.Keeps.get.bind fun s => typed_keeps _

theorem selected_keeps (selection : Option (List Ref)) : Exn.Keeps Left (selected selection) := by
  intro a left
  rw [selected_run]
  exact left

theorem extract_keeps (eng : Engine) (r : Archive.ExtractRequest) :
    Exn.Keeps Left (extract eng r) := by
  refine _ensureReady_keeps.bind fun path => ?_
  refine (selected_keeps r.selection).bind fun selection => ?_
  exact Exn.Keeps.get.bind fun s => typed_keeps _

theorem open_keeps (ref : Ref) : Exn.Keeps Left (AsyncArchive.open ref) := by
  refine _ensureReady_keeps.bind fun _ => ?_
  refine (indexOf_keeps ref).bind fun index => ?_
  refine Exn.Keeps.get.bind fun s => ?_
  exact Exn.Keeps.bind (.lift _) fun entry => .pure _

theorem streamCtx_keeps (eng : Engine) (ctx : StreamCtx) : Exn.Keeps Left (ctx.aenter eng) := by
  refine Exn.Keeps.get.bind fun s => ?_
  exact (asserted_keeps _).bind fun path => onWorld_keeps _

theorem getitem_keeps (key : Archive.Key) : Exn.Keeps Left (getitem key) := by
  refine Exn.Keeps.get.bind fun s => ?_
  cases key with
  | slice slice => exact Exn.Keeps.bind (.lift _) fun _ => .pure _
  | int i => exact Exn.Keeps.bind (.lift _) fun _ => .pure _
  | name text => exact Exn.Keeps.bind (.lift _) fun _ => .pure _
  | path path => exact Exn.Keeps.bind (.lift _) fun _ => .pure _

theorem contains_keeps (key : Archive.Member) : Exn.Keeps Left (contains key) := by
  refine Exn.Keeps.get.bind fun s => ?_
  cases key with
  | entry e => exact .pure _
  | name text => exact .pure _
  | path path => exact .pure _
  | other => exact .pure _

theorem call_keeps (eng : Engine) (c : Call) : Exn.Keeps Left (call eng c) := by
  cases c with
  | len => exact Exn.Keeps.get.bind fun _ => .pure _
  | iter => exact Exn.Keeps.get.bind fun _ => .pure _
  | getitem key => exact getitem_keeps key
  | contains key => exact (contains_keeps key).bind fun _ => .pure _
  | format =>
      refine Exn.Keeps.bind (Exn.Keeps.get.bind fun s => ?_) fun _ => .pure _
      exact (asserted_keeps _).bind fun name => .lift _
  | detectedEncoding =>
      refine Exn.Keeps.bind (Exn.Keeps.get.bind fun s => ?_) fun _ => .pure _
      exact asserted_keeps _
  | needsPassword => exact Exn.Keeps.bind (Exn.Keeps.get.bind fun _ => .pure _) fun _ => .pure _
  | read ref => exact (read_keeps eng ref).bind fun _ => .pure _
  | extract request => exact (extract_keeps eng request).bind fun _ => .pure _

theorem within_left {α : Type} {x : Py AsyncSession α} (keeps : Exn.Keeps Left x) {d : Desk}
    (left : Left d.session) : Left (within x d).2.session :=
  keeps d.session left

/-- Step lemma: an archive that has been left stays so, entered again or not. -/
theorem act_left {d : Desk} (left : Left d.session) (step : Act) :
    Left (act d step).2.session := by
  cases step with
  | enter eng => exact within_left (aenter_keeps eng) left
  | exit => exact within_left aexit_keeps left
  | call eng c => exact within_left (call_keeps eng c) left
  | «open» ref =>
      have kept := open_keeps ref d.session left
      unfold act
      rcases run : AsyncArchive.open ref d.session with ⟨exc | ctx, a⟩ <;> rw [run] at kept
      · simp only [run]
        exact kept
      · simp only [run]
        exact kept
  | enterStream eng k =>
      rcases found : d.contexts[k]? with _ | ctx
      · simp only [act, found]
        exact left
      · simp only [act, found]
        exact within_left (streamCtx_keeps eng ctx) left
  | readStream k size => exact within_left (onWorld_keeps _) left
  | closeStream k fault => exact within_left (onWorld_keeps _) left

/-! ## What is refused -/

variable {a : AsyncSession} {d : Desk}

theorem _ensureReady_left (left : Left a) : _ensureReady a = (.error notReady, a) := by
  rcases _ensureReady_cases a with ⟨p, -, unclosed, -⟩ | ⟨refused, -⟩
  · cases left.symm.trans unclosed
  · exact refused

/-- Every step that begins with `_ensure_ready` is refused. -/
theorem checked_refused (left : Left d.session) {step : Act} (checked : step.Checked) :
    Refused d step := by
  refine ⟨notReady, ?_, rfl⟩
  have unready := _ensureReady_left left
  cases step with
  | call eng c =>
      cases c with
      | read ref =>
          have refused : call eng (.read ref) d.session = (.error notReady, d.session) :=
            Exn.bind_of_error (Exn.bind_of_error unready _) _
          simp only [act, within, refused]
          rfl
      | extract request =>
          have refused : call eng (.extract request) d.session = (.error notReady, d.session) :=
            Exn.bind_of_error (Exn.bind_of_error unready _) _
          simp only [act, within, refused]
          rfl
      | _ => exact checked.elim
  | «open» ref =>
      have refused : AsyncArchive.open ref d.session = (.error notReady, d.session) :=
        Exn.bind_of_error unready _
      simp only [act, refused]
  | _ => exact checked.elim

/-! ## What is not -/

theorem openPipe_cls {tempfile : Option Nat} {handshake : Py World Bytes} {size : Option Int}
    {w w' : World} {exc : PyExc}
    (failed : openPipe tempfile handshake size w = (.error exc, w')) : exc.cls ≠ .valueError := by
  obtain ⟨w₁, w₃, -, -, ⟨data, p, -, opened⟩ | ⟨exc', -, raised⟩⟩ :=
    openPipe_cases tempfile handshake size w
  · cases opened.symm.trans failed
  · cases raised.symm.trans failed
    exact exc'.raised_cls

/-- A stream context never raises `ValueError` when it is entered. -/
theorem streamCtx_cls {eng : Engine} {ctx : StreamCtx} {a' : AsyncSession} {exc : PyExc}
    (failed : ctx.aenter eng a = (.error exc, a')) : exc.cls ≠ .valueError := by
  unfold StreamCtx.aenter _openPipeSync at failed
  rw [Exn.get_bind_apply] at failed
  rcases path : a.self.path with _ | p
  · rw [path] at failed
    cases failed
    exact nofun
  · rw [path] at failed
    rcases opening : openPipe a.self.sync.tempfile
      (openStreamPath eng p ctx.index a.self.password a.self.encoding) (some ctx.size) a.world with
      ⟨exc' | k, w⟩
    · have raised := (onWorld_run (a := a) opening).symm.trans failed
      cases raised
      exact openPipe_cls opening
    · cases (onWorld_run (a := a) opening).symm.trans failed

theorem spill_nextTemp {s : Session} (noPath : s.self.source.ownPath = none) :
    (Archive.spill s).2.world.nextTemp = s.world.nextTemp + 1 := by
  rcases Source.delivers_or_fails noPath with ⟨content, delivers⟩ | ⟨file, exc, source, failed⟩
  · rw [Archive.spill_run delivers]
    rfl
  · rw [Archive.spill_failed source failed]

/-- When finding the backing path fails, a spill file has been made. -/
theorem backingPath_failed {s s' : Session} {exc : PyExc}
    (failed : Archive._backingPath s = (.error exc, s')) :
    s'.world.nextTemp = s.world.nextTemp + 1 := by
  rcases Archive._backingPath_cases s with ⟨p, -, run⟩ | ⟨p, -, -, run⟩ | ⟨noPath, -, run⟩
  · cases run.symm.trans failed
  · cases run.symm.trans failed
  · have spilled : (Archive.spill s).2 = s' := congrArg Prod.snd (run.symm.trans failed)
    rw [← spilled]
    exact spill_nextTemp noPath

theorem enterBacked_cls {eng : Engine} {own : Option FilePath} {file : Option Bytes} {p : FilePath}
    {a' : AsyncSession} {exc : PyExc} (failed : enterBacked eng own file p a = (.error exc, a')) :
    exc.cls ≠ .valueError := by
  unfold enterBacked at failed
  split at failed
  · have raised := (Exn.bind_of_ok (onSync_close a) _).symm.trans failed
    cases raised
    exact nofun
  · rcases snapshot : eng.snapshot (a.world.files p) a.self.password a.self.encoding with fault | o
    · obtain ⟨_, raised⟩ := enterAt_error snapshot
      cases raised.symm.trans failed
      exact fault.toPyExc.raised_cls
    · cases (enterAt_ok snapshot).symm.trans failed

/-- Entering never raises `ValueError` without a trace. -/
theorem aenter_not_refused {eng : Engine} {exc : PyExc}
    (failed : aenter eng a = (.error exc, a)) : exc.cls ≠ .valueError := by
  rcases back : Archive._backingPath (inner a) with ⟨exc' | p, s⟩
  · have spilled := backingPath_failed back
    have same : s.world = a.world :=
      congrArg (fun r => r.2.world) ((aenter_unbacked eng back).symm.trans failed)
    rw [same] at spilled
    exact absurd spilled (Nat.ne_of_lt (Nat.lt_succ_self _))
  · rw [aenter_run eng (onSync_run back)] at failed
    exact enterBacked_cls failed

theorem within_error {α : Type} {x : Py AsyncSession α} {exc : PyExc}
    (failed : within x d = (.error exc, d)) : x d.session = (.error exc, d.session) := by
  unfold within at failed
  rcases run : x d.session with ⟨exc' | v, s⟩ <;> rw [run] at failed
  · have outcome := congrArg Prod.fst failed
    have session : s = d.session := congrArg (fun r => r.2.session) failed
    cases outcome
    rw [session]
  · cases congrArg Prod.fst failed

/-- Step lemma: after `__aexit__` exactly the checked steps are refused. -/
theorem refused_iff (left : Left d.session) {step : Act} (touches : step.Touches d) :
    Refused d step ↔ step.Checked := by
  refine ⟨?_, checked_refused left⟩
  intro refused
  obtain ⟨exc, failed, cls⟩ := refused
  cases step with
  | enter eng => exact absurd cls (aenter_not_refused (within_error failed))
  | exit => exact touches.elim
  | call eng c =>
      cases c with
      | read ref => exact True.intro
      | extract request => exact True.intro
      | _ => exact touches.elim
  | «open» ref => exact True.intro
  | enterStream eng k =>
      have found : d.contexts[k]? = some d.contexts[k] := List.getElem?_eq_getElem touches
      simp only [act, found] at failed
      exact absurd cls (streamCtx_cls (within_error failed))
  | readStream k size => exact touches.elim
  | closeStream k fault => exact touches.elim

/-! ## Runs after leaving -/

/-- The state of a new archive after the steps `before` and then `__aexit__`. -/
def leftAfter (files : FilePath → Option Bytes) (source : Source)
    (password encoding : Option String) (before : List Act) : Desk :=
  act.runState { session := init files source password encoding } (before ++ [.exit])

theorem aexit_left (a : AsyncSession) : Left (aexit a).2 := by
  rcases claimed : a.self.sync.tempfile with _ | t
  · rw [aexit_unclaimed claimed]
    rfl
  · rw [aexit_claimed claimed]
    rfl

theorem leftAfter_left (files : FilePath → Option Bytes) (source : Source)
    (password encoding : Option String) (before : List Act) :
    Left (leftAfter files source password encoding before).session := by
  unfold leftAfter
  rw [Machine.runState_append]
  exact aexit_left _

/-- After `__aexit__` a run finds every step that asks for content refused just
when these steps are `read`, `extract` and `open` only. -/
theorem later_steps_refused_iff (files : FilePath → Option Bytes) (source : Source)
    (password encoding : Option String) (before later : List Act) :
    act.AllSteps (fun d step => step.Touches d → Refused d step)
        (leftAfter files source password encoding before) later ↔
      act.AllSteps (fun d step => step.Touches d → step.Checked)
        (leftAfter files source password encoding before) later := by
  refine Machine.allSteps_iff (I := fun d => Left d.session) (fun d step left => act_left left step)
    (fun d step left => ?_) (leftAfter_left files source password encoding before) later
  exact forall_congr' fun touches => refused_iff left touches

/-- An archive on disk has been entered, one of its entries has been opened, and
the archive has been left before the stream context was entered. -/
def openedThenLeft : Desk :=
  leftAfter (fun _ => some [80]) (.path { fspath := "a.zip", str := "a.zip" }) none none
    [.enter Archive.oneIntact, .open (.int 0)]

/-- A context that `open` has returned opens a stream after the archive is left. -/
theorem returned_context_not_refused :
    ¬ act.AllSteps (fun d step => step.Touches d → Refused d step) openedThenLeft
      [.enterStream Archive.oneIntact 0] := by
  intro final
  obtain ⟨refused, -⟩ := final
  have returned : 0 < openedThenLeft.contexts.length := by decide
  obtain ⟨exc, failed, -⟩ := refused returned
  have delivered : (act openedThenLeft (.enterStream Archive.oneIntact 0)).1 = .ok () := rfl
  rw [failed] at delivered
  cases delivered

end NewtuaPy.AsyncArchive
