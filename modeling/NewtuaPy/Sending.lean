import NewtuaPy.BatchCollates

/-!
# What is sent to a worker process

On `backend="process"` a task is pickled on its way to a worker process, and its outcome on
the way back.  An entry takes the archive that it came from with it, which refuses; a panic
cannot be sent back as what it is.  The record of an item is that of its own task exactly
if the item can be sent and the task does not panic.
-/

namespace NewtuaPy

namespace Batch

/-! ## Pickling -/

/-- The interpreter's `pickle`: what it raises over a path-like object that it cannot take,
such as an `os.DirEntry`, and whether it finds a class that is not of this package again.
Over anything but an `Exception` the thread that feeds the workers would end.  What it takes
arrives as it was. -/
structure Pickle where
  refusal : PathArg → Option PyExc
  refuses : ∀ path exc, refusal path = some exc → exc.isException = true
  imports : String → Bool
  notFound : ExcClass → String

/-- `Archive.__reduce__`. -/
def reduceRefused : PyExc where
  cls := .typeError
  text := "Archive objects cannot be sent to another process; " ++
    "pass the file path and open it inside the worker " ++
    "(e.g. newtua.extract_many(paths, backend='process'))"

def Pickle.sendPath (pickle : Pickle) (path : PathArg) : Except PyExc Unit :=
  match pickle.refusal path with
  | some exc => .error exc
  | none => .ok ()

/-- An entry is pickled with its `_archive`. -/
def sendRef : Ref → Except PyExc Unit
  | .entry e => if e.owned then .error reduceRefused else .ok ()
  | _ => .ok ()

def sendRefs : List Ref → Except PyExc Unit
  | [] => .ok ()
  | ref :: refs => do
      sendRef ref
      sendRefs refs

/-- `partial(_extract_one, job)`, field by field. -/
def Pickle.sendJob (pickle : Pickle) (job : ExtractJob) : Except PyExc Unit := do
  pickle.sendPath job.archive
  pickle.sendPath job.dest
  sendRefs (job.selection.getD [])

/-- Classes that are found again under the name of their module: `_newtua` and `pyo3_runtime`
are not modules that could be imported. -/
def Pickle.importable (pickle : Pickle) : ExcClass → Bool
  | .engineError | .panicException => false
  | .otherException name | .otherBaseException name => pickle.imports name
  | _ => true

variable {α J R σ : Type}

/-- What the worker process sends in place of an outcome. -/
def Pickle.sendBack (pickle : Pickle) : Except PyExc α → Except PyExc α
  | .ok value => .ok value
  | .error exc =>
      if pickle.importable exc.cls then .error exc
      else .error { cls := .picklingError, text := pickle.notFound exc.cls }

/-- How the future of a task ends.  What pickling raises in the caller's process is set on it. -/
def Pickle.sent (pickle : Pickle) (send : J → Except PyExc Unit) (run : Nat → J → Except PyExc α)
    (i : Nat) (item : J) : Except PyExc α := do
  send item
  pickle.sendBack (run i item)

theorem Pickle.sent_refused (pickle : Pickle) {send : J → Except PyExc Unit} {item : J}
    {exc : PyExc} (refused : send item = .error exc) (run : Nat → J → Except PyExc α) (i : Nat) :
    pickle.sent send run i item = .error exc := by
  unfold Pickle.sent
  rw [refused]
  rfl

theorem Pickle.sent_ok (pickle : Pickle) {send : J → Except PyExc Unit} {item : J}
    (sends : send item = .ok ()) (run : Nat → J → Except PyExc α) (i : Nat) :
    pickle.sent send run i item = pickle.sendBack (run i item) := by
  unfold Pickle.sent
  rw [sends]
  rfl

/-! ## What can be sent -/

/-- The job has nothing in it that cannot be sent. -/
structure Portable (pickle : Pickle) (job : ExtractJob) : Prop where
  archive : pickle.refusal job.archive = none
  dest : pickle.refusal job.dest = none
  entries : ∀ refs, job.selection = some refs → ∀ e, .entry e ∈ refs → e.owned = false

variable {pickle : Pickle}

theorem Pickle.sendPath_ok {path : PathArg} :
    pickle.sendPath path = .ok () ↔ pickle.refusal path = none := by
  unfold Pickle.sendPath
  rcases pickle.refusal path with _ | text
  · exact iff_of_true rfl rfl
  · exact iff_of_false nofun nofun

theorem sendRef_ok {ref : Ref} : sendRef ref = .ok () ↔ ∀ e, .entry e = ref → e.owned = false := by
  rcases ref with i | name | path | e
  case entry =>
    unfold sendRef
    rcases owned : e.owned with _ | _
    · refine iff_of_true (if_neg (by rw [owned]; exact nofun)) fun e' same => ?_
      cases same
      exact owned
    · refine iff_of_false ?_ fun free => by cases (free e rfl).symm.trans owned
      dsimp only
      rw [if_pos owned]
      exact nofun
  all_goals exact iff_of_true rfl nofun

theorem sendRefs_ok {refs : List Ref} :
    sendRefs refs = .ok () ↔ ∀ e, .entry e ∈ refs → e.owned = false := by
  induction refs with
  | nil => exact iff_of_true rfl nofun
  | cons ref refs ih =>
      have split : sendRefs (ref :: refs) = .ok () ↔
          sendRef ref = .ok () ∧ sendRefs refs = .ok () := by
        rw [sendRefs]
        rcases sendRef ref with exc | _
        · exact iff_of_false nofun fun both => nomatch both.1
        · exact (and_iff_right rfl).symm
      rw [split, sendRef_ok, ih]
      constructor
      · rintro ⟨first, rest⟩ e member
        exact (List.mem_cons.mp member).elim (first e) (rest e)
      · intro all
        exact ⟨fun e same => all e (same ▸ List.mem_cons_self),
          fun e member => all e (List.mem_cons_of_mem ref member)⟩

theorem Pickle.sendJob_ok {job : ExtractJob} :
    pickle.sendJob job = .ok () ↔ Portable pickle job := by
  have split : pickle.sendJob job = .ok () ↔ pickle.sendPath job.archive = .ok () ∧
      pickle.sendPath job.dest = .ok () ∧ sendRefs (job.selection.getD []) = .ok () := by
    unfold Pickle.sendJob
    rcases pickle.sendPath job.archive with exc | _
    · exact iff_of_false nofun fun all => nomatch all.1
    rcases pickle.sendPath job.dest with exc | _
    · exact iff_of_false nofun fun all => nomatch all.2.1
    exact ((and_iff_right rfl).trans (and_iff_right rfl)).symm
  rw [split, Pickle.sendPath_ok, Pickle.sendPath_ok, sendRefs_ok]
  constructor
  · rintro ⟨archive, dest, entries⟩
    refine ⟨archive, dest, fun refs given e member => entries e ?_⟩
    rw [given]
    exact member
  · rintro ⟨archive, dest, entries⟩
    refine ⟨archive, dest, fun e member => ?_⟩
    rcases given : job.selection with _ | refs
    · rw [given] at member
      cases member
    · rw [given] at member
      exact entries refs given e member

/-- `send` refuses with an `Exception`. -/
def Refuses (send : J → Except PyExc Unit) : Prop :=
  ∀ item exc, send item = .error exc → exc.isException = true

theorem Pickle.sendPath_refuses (pickle : Pickle) : Refuses pickle.sendPath := by
  intro path exc refused
  unfold Pickle.sendPath at refused
  split at refused
  · next found =>
    cases refused
    exact pickle.refuses path exc found
  · cases refused

theorem sendRefs_refuses : Refuses sendRefs := by
  intro refs exc refused
  induction refs with
  | nil => cases refused
  | cons ref refs ih =>
      unfold sendRefs at refused
      rcases sending : sendRef ref with exc' | _
      · rw [sending] at refused
        cases refused
        unfold sendRef at sending
        split at sending
        · split at sending
          · cases sending
            rfl
          · cases sending
        · cases sending
      · rw [sending] at refused
        exact ih refused

theorem Pickle.sendJob_refuses (pickle : Pickle) : Refuses pickle.sendJob := by
  intro job exc refused
  unfold Pickle.sendJob at refused
  rcases archive : pickle.sendPath job.archive with exc' | _
  · rw [archive] at refused
    cases refused
    exact pickle.sendPath_refuses _ _ archive
  rw [archive] at refused
  rcases dest : pickle.sendPath job.dest with exc' | _
  · rw [dest] at refused
    cases refused
    exact pickle.sendPath_refuses _ _ dest
  rw [dest] at refused
  exact sendRefs_refuses _ _ refused

/-! ## What a task raises of its own -/

/-- The classes of `raise_for`, of the lookups and of a panic. -/
def ownClasses : List ExcClass :=
  [.newtuaError, .indexError, .entryNotFoundError, .overflowError, .panicException] ++
    byKind.map Prod.snd

structure Own (exc : PyExc) : Prop where
  cls : exc.cls ∈ ownClasses
  kind : exc.kind = none

theorem Own.asTyped {exc : PyExc} (own : Own exc) : asTyped exc = exc := by
  unfold NewtuaPy.asTyped
  rw [own.kind]

/-- What a compiled function or a lookup raises, before it is translated. -/
structure Raw (exc : PyExc) : Prop where
  typed : Own (asTyped exc)
  untyped : exc.isException = false → Own exc

theorem Own.raw {exc : PyExc} {cls : ExcClass} (known : cls ∈ ownClasses) (same : exc.cls = cls)
    (plain : exc.kind = none) : Raw exc := by
  subst same
  have own : Own exc := ⟨known, plain⟩
  exact ⟨own.asTyped.symm ▸ own, fun _ => own⟩

theorem raiseFor_own (exc : PyExc) : Own (raiseFor exc) := by
  refine ⟨?_, raiseFor_kind exc⟩
  rcases raiseFor_cls_mem exc with other | listed
  · rw [other]
    exact List.mem_cons_self
  · exact List.mem_append_right _ listed

theorem fault_raw (fault : Fault) : Raw fault.toPyExc := by
  cases fault with
  | panic message => exact Own.raw (by decide : .panicException ∈ ownClasses) rfl rfl
  | error e => exact ⟨raiseFor_own (toPyerr e), nofun⟩

theorem liftFault_raw {β : Type} (r : Except Fault α) : Exn.Raises Raw (liftFault r : Py β α) := by
  refine Exn.Raises.lift fun exc raised => ?_
  cases r with
  | ok value => cases raised
  | error fault =>
      cases raised
      exact fault_raw fault

theorem mapM_raises {β γ : Type} {P : PyExc → Prop} {f : β → Except PyExc γ}
    (each : ∀ x exc, f x = .error exc → P exc) (xs : List β) (exc : PyExc)
    (raised : xs.mapM f = .error exc) : P exc := by
  induction xs with
  | nil => cases raised
  | cons x xs ih =>
      rw [List.mapM_cons] at raised
      rcases first : f x with exc' | y
      · rw [first] at raised
        cases raised
        exact each x exc first
      · rcases rest : xs.mapM f with exc' | ys
        · rw [first, rest] at raised
          cases raised
          exact ih rest
        · rw [first, rest] at raised
          cases raised

theorem resolveIndex_raw (entries : List Entry) (ref : Ref) (exc : PyExc)
    (raised : resolveIndex entries ref = .error exc) : Raw exc := by
  have scanned (target : PurePosixPath) (text : String)
      (missed : scanFor entries target text = .error exc) : Raw exc := by
    unfold scanFor at missed
    split at missed
    · cases missed
    · cases missed
      exact Own.raw (by decide : .entryNotFoundError ∈ ownClasses) rfl rfl
  cases ref with
  | entry e => cases raised
  | name s => exact scanned _ s raised
  | path p => exact scanned p p.str raised
  | int i =>
      unfold resolveIndex at raised
      dsimp only at raised
      split at raised
      · cases raised
      · cases raised
        exact Own.raw (by decide : .indexError ∈ ownClasses) rfl rfl

theorem usizeArg_raw (i : Int) (exc : PyExc) (raised : usizeArg i = .error exc) : Raw exc := by
  unfold usizeArg at raised
  split at raised
  · cases raised
  · cases raised
    exact Own.raw (by decide : .overflowError ∈ ownClasses) rfl rfl

theorem selectionArg_raw (selection : Option (List Int)) (exc : PyExc)
    (raised : selectionArg selection = .error exc) : Raw exc := by
  cases selection with
  | none => cases raised
  | some indices =>
      unfold selectionArg at raised
      dsimp only at raised
      rcases converted : indices.mapM usizeArg with exc' | is
      · rw [converted] at raised
        cases raised
        exact mapM_raises usizeArg_raw indices exc converted
      · rw [converted] at raised
        cases raised

theorem listPath_raw (eng : Engine) (path : FilePath) (password encoding : Option String) :
    Exn.Raises Raw (listPath eng path password encoding) := by
  refine Exn.Raises.bind (Exn.Raises.modify _) fun _ => ?_
  refine Exn.Raises.bind (Exn.Raises.bind Exn.Raises.get fun _ => Exn.Raises.pure _) fun file => ?_
  exact Exn.Raises.bind (liftFault_raw _) fun _ => Exn.Raises.pure _

theorem _selectionIndices_raw (eng : Engine) (job : ExtractJob) :
    Exn.Raises Raw (_selectionIndices eng job) := by
  unfold _selectionIndices
  rcases job.selection with _ | refs
  · exact Exn.Raises.pure _
  dsimp only
  by_cases ints : refs.all (fun ref => (asInt ref).isSome) = true
  · rw [if_pos ints]
    exact Exn.Raises.pure _
  · rw [if_neg ints]
    refine Exn.Raises.bind (listPath_raw _ _ _ _) fun listed => ?_
    refine Exn.Raises.bind (Exn.Raises.lift ?_) fun _ => Exn.Raises.pure _
    exact mapM_raises (resolveIndex_raw _) refs

theorem retyped_raises {x : Py World α} (raw : Exn.Raises Raw x) : Exn.Raises Own (retyped x) := by
  refine Exn.Raises.handle raw fun exc translated => Exn.Raises.raise ?_
  rcases caught : exc.isException with _ | _
  · exact translated.untyped caught
  · exact translated.typed

theorem _extractOne_raises (eng : Engine) (job : ExtractJob) :
    Exn.Raises Own (_extractOne eng job) := by
  apply retyped_raises
  refine Exn.Raises.bind (_selectionIndices_raw eng job) fun selection => ?_
  refine Exn.Raises.bind (Exn.Raises.lift (selectionArg_raw _)) fun _ => ?_
  refine Exn.Raises.bind (Exn.Raises.modify _) fun _ => ?_
  refine Exn.Raises.bind (Exn.Raises.bind Exn.Raises.get fun _ => Exn.Raises.pure _) fun file => ?_
  refine Exn.Raises.bind (liftFault_raw _) fun reader => ?_
  exact Exn.Raises.bind (liftFault_raw _) fun _ => Exn.Raises.pure _

theorem _listOne_raises (eng : Engine) (archive : PathArg) (password encoding : Option String) :
    Exn.Raises Own (_listOne eng archive password encoding) :=
  Exn.Raises.bind (retyped_raises (listPath_raw _ _ _ _)) fun _ => Exn.Raises.pure _

/-- How the jobs end, each in a process with its own engine and files. -/
def extracts (engines : Nat → Engine) (worlds : Nat → World) (i : Nat) (job : ExtractJob) :
    Except PyExc Report :=
  (_extractOne (engines i) job (worlds i)).1

def lists (engines : Nat → Engine) (worlds : Nat → World) (password encoding : Option String)
    (i : Nat) (archive : PathArg) : Except PyExc (List Entry) :=
  (_listOne (engines i) archive password encoding (worlds i)).1

theorem extracts_own (engines : Nat → Engine) (worlds : Nat → World) (i : Nat) (job : ExtractJob)
    (exc : PyExc) (ends : extracts engines worlds i job = .error exc) : Own exc :=
  _extractOne_raises (engines i) job (worlds i) exc ends

theorem lists_own (engines : Nat → Engine) (worlds : Nat → World)
    (password encoding : Option String) (i : Nat) (archive : PathArg) (exc : PyExc)
    (ends : lists engines worlds password encoding i archive = .error exc) : Own exc :=
  _listOne_raises (engines i) archive password encoding (worlds i) exc ends

/-! ## What comes back -/

/-- A task of its own exceptions that is sent ends in an `Exception`, if in any. -/
theorem Own.importable_iff {exc : PyExc} (own : Own exc) (pickle : Pickle) :
    pickle.importable exc.cls = true ↔ exc.isException = true := by
  have all : ∀ cls ∈ ownClasses, pickle.importable cls = cls.isException := by
    simp [ownClasses, byKind, Pickle.importable, ExcClass.isException]
  unfold PyExc.isException
  rw [all exc.cls own.cls]

/-- Pickling refuses the item with the very exception that its task ends in. -/
def Echoes (send : J → Except PyExc Unit) (run : Nat → J → Except PyExc α) (i : Nat)
    (item : J) : Prop :=
  ∃ exc exc', send item = .error exc ∧ run i item = .error exc' ∧ asTyped exc = asTyped exc'

/-- The item is sent and its task does not panic, or it makes no difference. -/
def Carried (send : J → Except PyExc Unit) (run : Nat → J → Except PyExc α) (i : Nat)
    (item : J) : Prop :=
  send item = .ok () ∧ Ordinary (run i item) ∨ Echoes send run i item

variable {send : J → Except PyExc Unit} {run : Nat → J → Except PyExc α} {i : Nat} {item : J}

/-- Whatever a task ends in, its future ends in a value or an `Exception`. -/
theorem Pickle.sent_ordinary (pickle : Pickle) (refuses : Refuses send)
    (own : ∀ exc, run i item = .error exc → Own exc) :
    Ordinary (pickle.sent send run i item) := by
  intro exc ends
  rcases sending : send item with refused | _
  · rw [pickle.sent_refused sending] at ends
    cases ends
    exact refuses item exc sending
  · rw [pickle.sent_ok sending] at ends
    rcases outcome : run i item with exc' | value
    · rw [outcome] at ends
      unfold Pickle.sendBack at ends
      dsimp only at ends
      split at ends
      case isTrue found =>
        cases ends
        exact ((own exc outcome).importable_iff pickle).mp found
      case isFalse =>
        cases ends
        rfl
    · rw [outcome] at ends
      cases ends

theorem asTyped_isException {exc : PyExc} (caught : exc.isException = true) :
    (asTyped exc).isException = true := by
  unfold asTyped
  rcases exc.kind with _ | kind
  · exact caught
  · exact raiseFor_isException exc

/-- Records with different outcomes are different. -/
def Faithful (result : J → Option α → Option PyExc → R) : Prop :=
  ∀ item v e v' e', result item v e = result item v' e' → v = v' ∧ e = e'

theorem batchResult_faithful : Faithful BatchResult.mk := by
  intro job v e v' e' same
  cases same
  exact ⟨rfl, rfl⟩

theorem listingResult_faithful : Faithful ListingResult.mk := by
  intro archive v e v' e' same
  cases same
  exact ⟨rfl, rfl⟩

theorem Faithful.settle_error {result : J → Option α → Option PyExc → R}
    (faithful : Faithful result) {exc : PyExc} {outcome : Except PyExc α}
    (same : settle result item (.error exc) = settle result item outcome) :
    ∃ exc', outcome = .error exc' ∧ asTyped exc = asTyped exc' := by
  rcases outcome with exc' | value
  · exact ⟨exc', rfl, Option.some.inj (faithful item _ _ _ _ same).2⟩
  · cases (faithful item _ _ _ _ same).1

/-- The record of an item on a process is that of its own task exactly if the outcome is
carried over. -/
theorem Pickle.settle_sent_iff (pickle : Pickle) {result : J → Option α → Option PyExc → R}
    (faithful : Faithful result) (own : ∀ exc, run i item = .error exc → Own exc) :
    settle result item (pickle.sent send run i item) = settle result item (run i item) ↔
      Carried send run i item := by
  rcases sending : send item with refused | _
  · rw [pickle.sent_refused sending]
    constructor
    · intro same
      obtain ⟨exc, ends, typed⟩ := faithful.settle_error same
      exact .inr ⟨refused, exc, sending, ends, typed⟩
    · rintro (⟨sends, -⟩ | ⟨exc, exc', refuses, ends, typed⟩)
      · cases sends.symm.trans sending
      · cases refuses.symm.trans sending
        rw [ends]
        exact congrArg (fun e => result item none (some e)) typed
  · rw [pickle.sent_ok sending]
    have carried : Carried send run i item ↔ Ordinary (run i item) := by
      refine ⟨?_, fun ordinary => .inl ⟨sending, ordinary⟩⟩
      rintro (⟨-, ordinary⟩ | ⟨exc, exc', refuses, -⟩)
      · exact ordinary
      · cases refuses.symm.trans sending
    rw [carried]
    rcases outcome : run i item with exc | value
    · have importable := (own exc outcome).importable_iff pickle
      constructor
      · intro same exc' ends
        cases ends
        apply importable.mp
        by_contra unknown
        have sent : pickle.sendBack (.error exc : Except PyExc α) =
            .error { cls := .picklingError, text := pickle.notFound exc.cls } := if_neg unknown
        rw [sent] at same
        obtain ⟨exc', ends, typed⟩ := faithful.settle_error same
        cases ends
        rw [(own exc outcome).asTyped] at typed
        have known : ExcClass.picklingError ∈ ownClasses := by
          have own := (own exc outcome).cls
          rwa [← typed] at own
        exact absurd known (by decide)
      · intro ordinary
        have sent : pickle.sendBack (.error exc : Except PyExc α) = .error exc :=
          if_pos (importable.mpr (ordinary exc rfl))
        rw [sent]
    · exact iff_of_true rfl nofun

/-- What is carried over is a value or an `Exception`. -/
theorem Carried.ordinary (refuses : Refuses send)
    (own : ∀ exc, run i item = .error exc → Own exc) (carried : Carried send run i item) :
    Ordinary (run i item) := by
  rcases carried with ⟨-, ordinary⟩ | ⟨exc, exc', refused, ends, typed⟩
  · exact ordinary
  · intro exc'' ends'
    cases ends.symm.trans ends'
    rw [← (own exc' ends).asTyped, ← typed]
    exact asTyped_isException (refuses item exc refused)

/-- Every path is a string. -/
def plainPickle : Pickle where
  refusal _ := none
  refuses := nofun
  imports _ := true
  notFound _ := "Can't pickle"

end Batch

end NewtuaPy
