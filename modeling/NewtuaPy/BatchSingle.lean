import NewtuaPy.BatchSelection
import NewtuaPy.Sending
import NewtuaPy.LazyOpen

/-!
# A batch of one

`list_many` over one archive and `extract_many` over one job without a
selection, beside an archive object of its own over the same path.  The two
chains prepare the same engine call separately: the batch takes the path from
`str()` and leaves a missing file to the engine, an archive object takes it from
`Path` and looks for the file first.  They come to the same exactly when `str()`,
`os.fspath()` and `pathlib` spell the archive alike, the file is there, and a
listing the engine refuses is an extraction it refuses.
-/

namespace NewtuaPy

/-! ## The engine's answers -/

/-- The call ends in a value or an error. -/
def Answered {α : Type} (r : Except Fault α) : Prop := ∀ message, r ≠ .error (.panic message)

theorem Answered.ok {α : Type} (a : α) : Answered (.ok a : Except Fault α) := nofun

theorem Answered.bind {α β : Type} {r : Except Fault α} {f : α → Except Fault β}
    (first : Answered r) (rest : ∀ a, r = .ok a → Answered (f a)) : Answered (r >>= f) := by
  rcases r with fault | a
  · intro message ends
    cases ends
    exact first message rfl
  · exact rest a rfl

/-- The engine does not panic. -/
structure Engine.Answers (eng : Engine) : Prop where
  opens : ∀ content password encoding, Answered (eng.openContent content password encoding)
  lists : ∀ content password encoding reader,
    eng.openContent content password encoding = .ok reader → Answered reader.entries
  extracts : ∀ content password encoding reader file options,
    eng.openContent content password encoding = .ok reader →
      Answered (reader.extractAll file options)

namespace Engine

variable {eng : Engine} {file : Option Bytes} {password encoding : Option String}

/-- `core_open` and the extraction: what `extract_path` asks of the engine. -/
def extracted (eng : Engine) (file : Option Bytes) (password encoding : Option String)
    (options : ExtractOptions) : Except Fault CoreReport := do
  let reader ← eng.coreOpen file password encoding
  reader.extractAll file options

/-- `open` and the extraction: what an archive object asks of the engine. -/
def listedExtracted (eng : Engine) (file : Option Bytes) (password encoding : Option String)
    (options : ExtractOptions) : Except Fault CoreReport := do
  let opened ← eng.snapshot file password encoding
  opened.reader.extractAll file options

theorem listedExtracted_refused {options : ExtractOptions} {fault : Fault}
    (refused : eng.snapshot file password encoding = .error fault) :
    eng.listedExtracted file password encoding options = .error fault := by
  unfold listedExtracted
  rw [refused]
  rfl

theorem listedExtracted_opened {options : ExtractOptions} {o : Opened}
    (opens : eng.snapshot file password encoding = .ok o) :
    eng.listedExtracted file password encoding options = o.reader.extractAll file options := by
  unfold listedExtracted
  rw [opens]
  rfl

/-- What opened was there. -/
theorem coreOpen_ok {reader : Reader} (opened : eng.coreOpen file password encoding = .ok reader) :
    ∃ content, eng.openContent content password encoding = .ok reader := by
  rcases file with _ | content
  · cases opened
  · exact ⟨content, opened⟩

namespace Answers

variable (answers : eng.Answers)
include answers

theorem coreOpen : Answered (eng.coreOpen file password encoding) := by
  rcases file with _ | content
  · exact nofun
  · exact answers.opens content password encoding

theorem snapshot : Answered (eng.snapshot file password encoding) := by
  apply Answered.bind answers.coreOpen
  intro reader opened
  obtain ⟨content, opens⟩ := coreOpen_ok opened
  apply Answered.bind (answers.lists content password encoding reader opens)
  intro found _
  exact Answered.ok _

theorem extracted (options : ExtractOptions) :
    Answered (eng.extracted file password encoding options) := by
  apply Answered.bind answers.coreOpen
  intro reader opened
  obtain ⟨content, opens⟩ := coreOpen_ok opened
  exact answers.extracts content password encoding reader file options opens

theorem listedExtracted (options : ExtractOptions) :
    Answered (eng.listedExtracted file password encoding options) := by
  apply Answered.bind answers.snapshot
  intro o opened
  obtain ⟨content, opens⟩ := coreOpen_ok (snapshot_ok opened).1
  exact answers.extracts content password encoding o.reader file options opens

end Answers

/-- The outcome of `extract_path`, as its caller sees it. -/
theorem extracted_report (eng : Engine) (file : Option Bytes)
    (password encoding : Option String) (options : ExtractOptions) :
    (match eng.coreOpen file password encoding with
      | .error fault => .error fault.toPyExc
      | .ok reader => reader.report file options) =
      ((eng.extracted file password encoding options).mapError Fault.toPyExc).map
        CoreReport.report := by
  unfold extracted
  rcases eng.coreOpen file password encoding with fault | reader <;> rfl

/-- A listing the engine refuses is an extraction it refuses, for the same reason. -/
def RefusesBoth (eng : Engine) (file : Option Bytes) (password encoding : Option String)
    (options : ExtractOptions) : Prop :=
  ∀ reader e, eng.coreOpen file password encoding = .ok reader →
    reader.entries = .error (.error e) →
      ∃ e', reader.extractAll file options = .error (.error e') ∧ e'.variant = e.variant

end Engine

/-- Two calls end in values that are alike, or in errors of one variant. -/
def SameVerdict {α β : Type} (alike : α → β → Prop) : Except Fault α → Except Fault β → Prop
  | .ok a, .ok b => alike a b
  | .error (.error e), .error (.error e') => e.variant = e'.variant
  | _, _ => False

theorem SameVerdict.same {α : Type} {alike : α → α → Prop} {r : Except Fault α}
    (answered : Answered r) (refl : ∀ a, alike a a) : SameVerdict alike r r := by
  rcases r with (e | message) | a
  · exact rfl
  · exact absurd rfl (answered message)
  · exact refl a

theorem SameVerdict.refused_iff {α β : Type} {alike : α → β → Prop} {r : Except Fault α}
    {e : EngineError} : SameVerdict alike r (.error (.error e)) ↔
      ∃ e', r = .error (.error e') ∧ e'.variant = e.variant := by
  constructor
  · intro same
    rcases r with (e' | message) | a
    · exact ⟨e', rfl, same⟩
    · exact False.elim same
    · exact False.elim same
  · rintro ⟨e', rfl, variant⟩
    exact variant

/-- Listing first makes no difference to an extraction exactly when a listing the
engine refuses is an extraction it refuses. -/
theorem Engine.extracted_agrees_iff {eng : Engine} (answers : eng.Answers) (file : Option Bytes)
    (password encoding : Option String) (options : ExtractOptions) :
    SameVerdict (fun a b => a.report = b.report) (eng.extracted file password encoding options)
        (eng.listedExtracted file password encoding options) ↔
      eng.RefusesBoth file password encoding options := by
  have answered : Answered (eng.extracted file password encoding options) :=
    answers.extracted options
  unfold Engine.RefusesBoth
  rcases opened : eng.coreOpen file password encoding with fault | reader
  · have same : eng.listedExtracted file password encoding options =
        eng.extracted file password encoding options := by
      unfold Engine.listedExtracted Engine.extracted Engine.snapshot
      rw [opened]
      rfl
    rw [same]
    refine iff_of_true (SameVerdict.same answered fun _ => rfl) ?_
    intro reader e opened'
    cases opened'
  · have extracts : eng.extracted file password encoding options =
        reader.extractAll file options := by
      unfold Engine.extracted
      rw [opened]
      rfl
    obtain ⟨content, opens⟩ := Engine.coreOpen_ok opened
    rcases listed : reader.entries with (e | message) | found
    · have refused : eng.listedExtracted file password encoding options = .error (.error e) := by
        unfold Engine.listedExtracted Engine.snapshot
        rw [opened]
        simp only [listed, bind, Except.bind]
      rw [refused, extracts]
      constructor
      · intro same reader' e' opened' listed'
        cases opened'
        cases listed.symm.trans listed'
        exact SameVerdict.refused_iff.mp same
      · intro both
        exact SameVerdict.refused_iff.mpr (both reader e rfl listed)
    · exact absurd listed (answers.lists content password encoding reader opens message)
    · have same : eng.listedExtracted file password encoding options =
          eng.extracted file password encoding options := by
        unfold Engine.listedExtracted Engine.extracted Engine.snapshot
        rw [opened]
        simp only [listed, bind, Except.bind, pure, Except.pure]
      rw [same]
      refine iff_of_true (SameVerdict.same answered fun _ => rfl) ?_
      intro reader' e opened' listed'
      cases opened'
      cases listed.symm.trans listed'

/-! ## Classes -/

/-- The outcome of an engine call, as it leaves the Python layer. -/
def typedResult {α : Type} (r : Except Fault α) : Except PyExc α :=
  r.mapError fun fault => fault.toPyExc.raised

/-- The variant of the errors that surface in a class. -/
def variantOf : ExcClass → Option ErrorVariant
  | .unknownFormatError => some .unknownFormat
  | .unsupportedError => some .unsupported
  | .passwordRequiredError => some .encrypted
  | .wrongPasswordError => some .wrongPassword
  | .corruptArchiveError => some .corrupt
  | .missingVolumeError => some .missingVolume
  | .unsafePathError => some .pathTraversal
  | .osError => some .io
  | .indexError => some .invalidIndex
  | _ => none

theorem variantOf_raised (e : EngineError) : variantOf (toPyerr e).raised.cls = some e.variant := by
  obtain ⟨variant, message⟩ := e
  cases variant <;> rfl

/-- The class an error of the engine surfaces in tells its variant. -/
theorem raised_cls_iff {e e' : EngineError} :
    (toPyerr e).raised.cls = (toPyerr e').raised.cls ↔ e.variant = e'.variant := by
  constructor
  · intro same
    have both := congrArg variantOf same
    rw [variantOf_raised, variantOf_raised] at both
    exact Option.some.inj both
  · intro same
    obtain ⟨variant, message⟩ := e
    obtain ⟨variant', message'⟩ := e'
    dsimp only at same
    subst same
    rfl

/-! ## An archive of its own -/

/-- The engine calls made on the way from `w` to `w'` satisfy `P`. -/
def World.Called (P : EngineCall → Prop) (w w' : World) : Prop :=
  ∃ calls, w'.log = w.log ++ calls ∧ ∀ call ∈ calls, P call

theorem World.called_iff {P : EngineCall → Prop} {w w' : World} {calls : List EngineCall}
    (log : w'.log = w.log ++ calls) : World.Called P w w' ↔ ∀ call ∈ calls, P call := by
  constructor
  · rintro ⟨calls', log', asked⟩
    obtain rfl := List.append_cancel_left (log.symm.trans log')
    exact asked
  · intro asked
    exact ⟨calls, log, asked⟩

theorem World.called_logged {P : EngineCall → Prop} {w : World} {call : EngineCall} :
    World.Called P w (w.logged call) ↔ P call :=
  (World.called_iff rfl).trans List.forall_mem_singleton

namespace Archive

variable {eng : Engine} {w : World} {archive : PathArg} {password encoding : Option String}

/-- `Archive(archive, password=password, encoding=encoding)`, in the world `w`. -/
def ofPath (w : World) (archive : PathArg) (password encoding : Option String) : Session where
  world := w
  self := { source := .path archive, password, encoding }

/-- The path `pathlib` makes of an archive argument. -/
def backing (archive : PathArg) : String := (PurePosixPath.ofString archive.fspath).str

/-- The first call of an archive over a path. -/
def openCall (archive : PathArg) (password encoding : Option String) : EngineCall where
  path := .named (backing archive)
  password := password
  encoding := encoding
  work := .open

theorem openAt_ok {p : FilePath} {s : Session} {o : Opened}
    (opens : eng.snapshot (s.world.files p) s.self.password s.self.encoding = .ok o) :
    ∃ s', openAt eng p s =
        (.ok { o with path := p, password := s.self.password, encoding := s.self.encoding }, s') ∧
      s'.world = s.world.logged
        { path := p, password := s.self.password, encoding := s.self.encoding, work := .open } ∧
      s'.self.source = s.self.source := by
  have opening := openAt_run eng p s
  rw [opens] at opening
  exact ⟨_, opening, rfl, rfl⟩

theorem openAt_error {p : FilePath} {s : Session} {fault : Fault}
    (unspilled : s.self.tempfile = none)
    (refused : eng.snapshot (s.world.files p) s.self.password s.self.encoding = .error fault) :
    ∃ s', openAt eng p s = (.error fault.toPyExc.raised, s') ∧
      s'.world = s.world.logged
        { path := p, password := s.self.password, encoding := s.self.encoding, work := .open } := by
  have opening := openAt_run eng p s
  rw [refused] at opening
  cases fault with
  | panic message => exact ⟨_, opening, rfl⟩
  | error e =>
      refine ⟨_, opening, ?_⟩
      unfold dropped
      rw [unspilled]

/-- `_open` of an archive over a path, for the first time. -/
theorem _open_ofPath (eng : Engine) (w : World) (archive : PathArg)
    (password encoding : Option String) :
    _open eng (ofPath w archive password encoding) =
      match w.files (.named (backing archive)) with
      | none => (.error (fileNotFound (backing archive)), ofPath w archive password encoding)
      | some _ => openAt eng (.named (backing archive)) (ofPath w archive password encoding) := by
  have back : _backingPath (ofPath w archive password encoding) =
      (.ok (.named (backing archive)), ofPath w archive password encoding) :=
    _backingPath_own rfl
  have unopened : _open eng (ofPath w archive password encoding) = (do
      let path ← _backingPath
      let s ← Exn.get
      match s.self.source.ownPath, s.world.files path with
      | some (.named own), none => Exn.raise (fileNotFound own)
      | _, _ => openAt eng path : Py Session RustArchive) (ofPath w archive password encoding) :=
    rfl
  rw [unopened, Exn.bind_of_ok back, Exn.get_bind_apply]
  rcases file : w.files (.named (backing archive)) with _ | content
  · have gone : (ofPath w archive password encoding).world.files (.named (backing archive)) =
        none := file
    rw [gone]
    rfl
  · have found : (ofPath w archive password encoding).world.files (.named (backing archive)) =
        some content := file
    rw [found]
    rfl

/-- Of an archive that is not there the engine is not asked. -/
theorem _open_missing (gone : w.files (.named (backing archive)) = none) :
    _open eng (ofPath w archive password encoding) =
      (.error (fileNotFound (backing archive)), ofPath w archive password encoding) := by
  rw [_open_ofPath, gone]

theorem _open_listed {content : Bytes} {o : Opened}
    (file : w.files (.named (backing archive)) = some content)
    (opens : eng.snapshot (some content) password encoding = .ok o) :
    ∃ s', _open eng (ofPath w archive password encoding) =
        (.ok { o with path := .named (backing archive), password, encoding }, s') ∧
      s'.world = w.logged (openCall archive password encoding) ∧
      s'.self.source = .path archive := by
  rw [_open_ofPath, file]
  apply openAt_ok
  rw [← opens, ← file]
  rfl

theorem _open_refused {content : Bytes} {fault : Fault}
    (file : w.files (.named (backing archive)) = some content)
    (refused : eng.snapshot (some content) password encoding = .error fault) :
    ∃ s', _open eng (ofPath w archive password encoding) =
        (.error fault.toPyExc.raised, s') ∧
      s'.world = w.logged (openCall archive password encoding) := by
  rw [_open_ofPath, file]
  apply openAt_error rfl
  rw [← refused, ← file]
  rfl

theorem _listing_ofPath (eng : Engine) (w : World) (archive : PathArg)
    (password encoding : Option String) :
    _listing eng (ofPath w archive password encoding) =
      (_open eng >>= listOpened) (ofPath w archive password encoding) := rfl

theorem _listing_missing (gone : w.files (.named (backing archive)) = none) :
    _listing eng (ofPath w archive password encoding) =
      (.error (fileNotFound (backing archive)), ofPath w archive password encoding) :=
  (_listing_ofPath eng w archive password encoding).trans
    (Exn.bind_of_error (_open_missing gone) _)

theorem extract_missing {r : ExtractRequest}
    (gone : w.files (.named (backing archive)) = none) :
    extract eng r (ofPath w archive password encoding) =
      (.error (fileNotFound (backing archive)), ofPath w archive password encoding) :=
  Exn.bind_of_error (_open_missing gone) _

variable (eng password encoding) in
/-- A first listing asks the engine once, for the path `pathlib` makes. -/
theorem _listing_present {content : Bytes}
    (file : w.files (.named (backing archive)) = some content) :
    ∃ s', _listing eng (ofPath w archive password encoding) =
        ((typedResult (eng.snapshot (some content) password encoding)).map
          fun o => (entriesFromRaw o.entries true).1, s') ∧
      s'.world = w.logged (openCall archive password encoding) := by
  have unlisted := _listing_ofPath eng w archive password encoding
  rcases found : eng.snapshot (some content) password encoding with fault | o
  · obtain ⟨s', opening, world⟩ := _open_refused file found
    exact ⟨s', unlisted.trans (Exn.bind_of_error opening _), world⟩
  · obtain ⟨s', opening, world, -⟩ := _open_listed file found
    exact ⟨_, unlisted.trans (Exn.bind_of_ok opening _), world⟩

/-- The call of an extraction without a selection. -/
def extractCall (archive : PathArg) (password encoding : Option String) (r : ExtractRequest) :
    EngineCall where
  path := .named (backing archive)
  password := password
  encoding := encoding
  work := .extract ((r.toCall none (some archive.fspath)).args none)

theorem typed_fault {σ α β : Type} {x : Py σ β} {r : Except Fault α} {f : α → β} {s s' : σ}
    (ends : x s = ((r.mapError Fault.toPyExc).map f, s')) :
    typed x s = ((typedResult r).map f, s') := by
  unfold typed
  rcases r with fault | a
  · rw [Exn.handle_of_error ends]
    rfl
  · exact Exn.handle_of_ok ends _

variable (eng password encoding) in
/-- A first extraction asks the engine for the listing, and then to extract. -/
theorem extract_present {content : Bytes} {r : ExtractRequest} (plain : r.selection = none)
    (file : w.files (.named (backing archive)) = some content) :
    ∃ s' calls, extract eng r (ofPath w archive password encoding) =
        ((typedResult (eng.listedExtracted (some content) password encoding
          ((r.toCall none (some archive.fspath)).options eng none))).map CoreReport.report, s') ∧
      s'.world.log = w.log ++ openCall archive password encoding :: calls ∧
      ∀ call ∈ calls, call = extractCall archive password encoding r := by
  have unselected : extract eng r = (do
      let reader ← _open eng
      let s ← Exn.get
      typed (onWorld (reader.extract eng (r.toCall none s.self.source.wrapperNameSource)))) := by
    unfold extract
    rw [plain]
    rfl
  rw [unselected]
  rcases found : eng.snapshot (some content) password encoding with fault | o
  · obtain ⟨s', opening, world⟩ := _open_refused file found
    rw [Engine.listedExtracted_refused found]
    refine ⟨s', [], Exn.bind_of_error opening _, ?_, List.forall_mem_nil _⟩
    rw [world]
    rfl
  · obtain ⟨s', opening, world, source⟩ := _open_listed file found
    have name : s'.self.source.wrapperNameSource = some archive.fspath := by
      rw [source]
      rfl
    rw [Engine.listedExtracted_opened found, Exn.bind_of_ok opening, Exn.get_bind_apply, name]
    have held : s'.world.files (.named (backing archive)) = some content := by
      rw [world]
      exact file
    have asked : ({ o with path := .named (backing archive), password, encoding } :
          RustArchive).extract eng (r.toCall none (some archive.fspath)) s'.world =
        (o.reader.report (some content) ((r.toCall none (some archive.fspath)).options eng none),
          s'.world.logged (extractCall archive password encoding r)) := by
      rw [← held]
      exact RustArchive.extract_asks eng _ _ s'.world
    have log : (s'.world.logged (extractCall archive password encoding r)).log =
        w.log ++ [openCall archive password encoding, extractCall archive password encoding r] := by
      rw [world]
      exact List.append_assoc w.log _ _
    refine ⟨{ s' with world := s'.world.logged (extractCall archive password encoding r) }, _, ?_,
      log, fun call member => List.mem_singleton.mp member⟩
    exact typed_fault (onWorld_run asked)

end Archive

/-! ## In a batch -/

namespace Batch

variable {eng : Engine} {w : World}

/-- What leaves the worker of a batch is what leaves a method of an archive. -/
theorem retyped_fault (fault : Fault) :
    (if fault.toPyExc.isException then asTyped fault.toPyExc else fault.toPyExc) =
      fault.toPyExc.raised := by
  cases fault <;> rfl

theorem retyped_typed {α β : Type} {x : Py World β} {r : Except Fault α} {f : α → β} {w' : World}
    (ends : x w = ((r.mapError Fault.toPyExc).map f, w')) :
    retyped x w = ((typedResult r).map f, w') := by
  unfold retyped
  rcases r with fault | a
  · rw [Exn.handle_of_error ends, retyped_fault]
    rfl
  · exact Exn.handle_of_ok ends _

/-- The call of a listing in a batch. -/
def listCall (archive : PathArg) (password encoding : Option String) : EngineCall where
  path := .named archive.str
  password := password
  encoding := encoding
  work := .list

theorem _listOne_run (eng : Engine) (archive : PathArg) (password encoding : Option String)
    (w : World) :
    _listOne eng archive password encoding w =
      ((typedResult (eng.snapshot (w.files (.named archive.str)) password encoding)).map
        fun o => (entriesFromRaw o.entries false).1,
       w.logged (listCall archive password encoding)) := by
  have listing : listPath eng (.named archive.str) password encoding w =
      (((eng.snapshot (w.files (.named archive.str)) password encoding).mapError
        Fault.toPyExc).map fun o => (o.entries, formatName o.reader.format, o.detectedEncoding),
       w.logged (listCall archive password encoding)) := by
    rw [listPath_run]
    rcases eng.snapshot (w.files (.named archive.str)) password encoding with fault | o <;> rfl
  have typed := retyped_typed listing
  unfold _listOne
  rcases found : eng.snapshot (w.files (.named archive.str)) password encoding with fault | o <;>
    rw [found] at typed
  · exact Exn.bind_of_error typed _
  · exact Exn.bind_of_ok typed _

/-- What a job without a selection hands over. -/
def ExtractJob.toCall (job : ExtractJob) : ExtractCall where
  dest := job.dest.str
  selection := none
  wrapper := job.wrapper
  strict := job.strict
  preserve := job.preserve
  progress := job.progress.map wrapProgress
  nameSource := some job.archive.fspath

def ExtractJob.call (job : ExtractJob) : EngineCall where
  path := .named job.archive.str
  password := job.password
  encoding := job.encoding
  work := .extract (job.toCall.args none)

theorem _extractOne_run (eng : Engine) {job : ExtractJob} (plain : job.selection = none)
    (w : World) :
    _extractOne eng job w =
      ((typedResult (eng.extracted (w.files (.named job.archive.str)) job.password job.encoding
        (job.toCall.options eng none))).map CoreReport.report,
       w.logged job.call) := by
  apply retyped_typed
  have unselected : _selectionIndices eng job w = (.ok none, w) := by
    unfold _selectionIndices
    rw [plain]
    rfl
  rw [Exn.bind_of_ok unselected]
  have asked : extractPath eng (.named job.archive.str) job.toCall job.password job.encoding w =
      (((eng.extracted (w.files (.named job.archive.str)) job.password job.encoding
        (job.toCall.options eng none)).mapError Fault.toPyExc).map CoreReport.report,
       w.logged job.call) := by
    rw [← Engine.extracted_report]
    exact extractPath_asks eng _ job.toCall _ _ w
  exact asked

/-! ## One item -/

variable {α σ J R : Type}

/-- How a batch on threads is called: with a count of workers that the executor takes, on
an executor that takes every task, and with callbacks that return. -/
structure Setting (σ J α : Type) where
  host : Host
  maxWorkers : Option Int
  pool : Pool α
  callbacks : Callbacks σ J α
  takes : Takes host "thread" (workers maxWorkers host.cpuCount)
  accepts : ∀ k, pool.refuses k = none
  quiet : callbacks.Quiet

/-! ## A batch item beside an archive -/

/-- A value or an error of a batch result beside the outcome of a single call:
values that are alike, or errors of one class. -/
def EndsAlike (alike : α → α → Prop) : Option α → Option PyExc → Except PyExc α → Prop
  | some value, none, .ok value' => alike value value'
  | none, some exc, .error exc' => exc.cls = exc'.cls
  | _, _, _ => False

/-- A task that ends as `batch` has a result that ends as the call `single`. -/
def SettlesAlike (alike : α → α → Prop) (batch single : Except PyExc α) : Prop :=
  settle (fun (_ : Unit) value error => EndsAlike alike value error single) () batch

theorem settlesAlike_iff {β γ : Type} {alike : α → α → Prop} {r : Except Fault β}
    {r' : Except Fault γ} {f : β → α} {g : γ → α} (answered : Answered r)
    (answered' : Answered r') :
    SettlesAlike alike ((typedResult r).map f) ((typedResult r').map g) ↔
      SameVerdict (fun b c => alike (f b) (g c)) r r' := by
  rcases r with (e | message) | b
  · rcases r' with (e' | message') | c
    · exact raised_cls_iff
    · exact absurd rfl (answered' message')
    · exact Iff.rfl
  · exact absurd rfl (answered message)
  · rcases r' with (e' | message') | c
    · exact Iff.rfl
    · exact absurd rfl (answered' message')
    · exact Iff.rfl

theorem answered_ordinary {β : Type} {r : Except Fault β} {f : β → α} (answered : Answered r) :
    Ordinary ((typedResult r).map f) := by
  rcases r with (e | message) | b
  · intro exc ends
    cases ends
    exact raiseFor_isException (toPyerr e)
  · exact absurd rfl (answered message)
  · intro exc ends
    cases ends

/-- A batch of one item whose task ends in a value or an `Exception` has one
result, which ends as the task does. -/
theorem Setting.runMany_one (setting : Setting σ J α) {result : J → Option α → Option PyExc → R}
    (value : R → Option α) (error : R → Option PyExc)
    (projects : ∀ item v e, value (result item v e) = v ∧ error (result item v e) = e)
    {alike : α → α → Prop} {run : Nat → J → Except PyExc α} {single : Except PyExc α} {item : J}
    (ordinary : Ordinary (run 0 item)) (s : σ) :
    (∃ r s', runMany result run setting.host "thread" setting.maxWorkers setting.pool
        setting.callbacks none [item] s = (.ok [r], s') ∧
      EndsAlike alike (value r) (error r) single) ↔ SettlesAlike alike (run 0 item) single := by
  obtain ⟨executor, made⟩ := _makeExecutor_takes (.inl rfl) setting.takes
  have placed : placed none [item] = [(item, 0)] := rfl
  have returns : ∃ s', runMany result run setting.host "thread" setting.maxWorkers
      setting.pool setting.callbacks none [item] s =
        (.ok [settle result item (run 0 item)], s') := by
    apply (runMany_returns_iff setting.accepts made setting.quiet s).mpr
    rw [placed, List.forall_mem_singleton]
    exact ordinary
  have projected : EndsAlike alike (value (settle result item (run 0 item)))
      (error (settle result item (run 0 item))) single ↔
        SettlesAlike alike (run 0 item) single := by
    unfold SettlesAlike settle
    rcases run 0 item with exc | v
    · rw [(projects item none (some (asTyped exc))).1, (projects item none (some (asTyped exc))).2]
    · rw [(projects item (some v) none).1, (projects item (some v) none).2]
  obtain ⟨s', returned⟩ := returns
  constructor
  · rintro ⟨r, s'', returned', ends⟩
    cases returned.symm.trans returned'
    exact projected.mp ends
  · intro ends
    exact ⟨_, s', returned, projected.mpr ends⟩

theorem typed_cls_ne_missing {β : Type} {alike : α → α → Prop} {r : Except Fault β} {f : β → α}
    (answered : Answered r) (path : String) :
    ¬ SettlesAlike alike ((typedResult r).map f) (.error (fileNotFound path)) := by
  intro ends
  rcases r with (e | message) | b
  · have typed : (toPyerr e).raised.cls ≠ .fileNotFoundError :=
      PyExc.raised_cls_ne rfl (by decide) (by decide) (toPyerr e)
    exact typed ends
  · exact absurd rfl (answered message)
  · exact False.elim ends

/-- The call is for the archive's `os.fspath()`, and an extraction into that of the
destination, wrapped under the name of the archive. -/
def Addresses (archive dest : PathArg) (call : EngineCall) : Prop :=
  call.path = .named archive.fspath ∧
    ∀ args, call.work = .extract args →
      args.dest = dest.fspath ∧ args.nameSource = some archive.fspath

/-- `Archive.extract` with the options of a job. -/
def ExtractJob.request (job : ExtractJob) : Archive.ExtractRequest where
  dest := job.dest
  selection := job.selection
  wrapper := job.wrapper
  strict := job.strict
  preserve := job.preserve
  progress := job.progress

variable (eng w)

/-- `list_many([archive])` ends as listing an archive over `archive` does, and both
ask the engine for the archive's `os.fspath()`. -/
def ListsAlike (setting : Setting σ PathArg (List Entry)) (archive : PathArg)
    (password encoding : Option String) (s : σ) : Prop :=
  (∃ r s', listMany (lists (fun _ => eng) (fun _ => w) password encoding) setting.host "thread"
        setting.maxWorkers setting.pool setting.callbacks none [archive] s = (.ok [r], s') ∧
      EndsAlike (fun es es' => es.map Entry.toEntryInfo = es'.map Entry.toEntryInfo)
        r.entries r.error
        (Archive._listing eng (Archive.ofPath w archive password encoding)).1) ∧
    World.Called (fun call => call.path = .named archive.fspath) w
      (_listOne eng archive password encoding w).2 ∧
    World.Called (fun call => call.path = .named archive.fspath) w
      (Archive._listing eng (Archive.ofPath w archive password encoding)).2.world

/-- `extract_many([arg])`, where `arg` stands for `job`, ends as `extract` of an archive
over `job.archive` does, and both ask the engine for the same paths, the `os.fspath()` of the
arguments. -/
def ExtractsAlike (setting : Setting σ ExtractJob Report) (arg : JobArg) (job : ExtractJob)
    (s : σ) : Prop :=
  let archive := Archive.ofPath w job.archive job.password job.encoding
  (∃ r s', extractMany (extracts (fun _ => eng) (fun _ => w)) setting.host "thread"
        setting.maxWorkers setting.pool setting.callbacks none [arg] s = (.ok [r], s') ∧
      EndsAlike (· = ·) r.report r.error (Archive.extract eng job.request archive).1) ∧
    World.Called (Addresses job.archive job.dest) w (_extractOne eng job w).2 ∧
    World.Called (Addresses job.archive job.dest) w
      (Archive.extract eng job.request archive).2.world

/-- `str()`, `os.fspath()` and `pathlib` spell the archive alike, and it is there. -/
structure Found (archive : PathArg) : Prop where
  str : archive.str = archive.fspath
  normal : Archive.backing archive = archive.fspath
  present : (w.files (.named archive.fspath)).isSome = true

variable {eng w}

/-- A listing in a batch of one comes to the same as a listing of an archive
exactly when the archive is found by every spelling. -/
theorem listsAlike_iff (answers : eng.Answers) (setting : Setting σ PathArg (List Entry))
    (archive : PathArg) (password encoding : Option String) (s : σ) :
    ListsAlike eng w setting archive password encoding s ↔ Found w archive := by
  have listed := _listOne_run eng archive password encoding w
  have answered : Answered (eng.snapshot (w.files (.named archive.str)) password encoding) :=
    answers.snapshot
  have ordinary : Ordinary (lists (fun _ => eng) (fun _ => w) password encoding 0 archive) := by
    unfold lists
    rw [listed]
    exact answered_ordinary answered
  unfold ListsAlike listMany
  rw [setting.runMany_one ListingResult.entries ListingResult.error (fun _ _ _ => ⟨rfl, rfl⟩)
    ordinary s]
  unfold lists
  rw [listed, World.called_logged]
  constructor
  · rintro ⟨ends, batch, single⟩
    have str : archive.str = archive.fspath := FilePath.named.inj batch
    rcases file : w.files (.named (Archive.backing archive)) with _ | content
    · rw [Archive._listing_missing file] at ends
      exact absurd ends (typed_cls_ne_missing answered _)
    · obtain ⟨s', listing, world⟩ := Archive._listing_present eng password encoding file
      rw [listing] at single
      dsimp only at single
      rw [world, World.called_logged] at single
      have normal : Archive.backing archive = archive.fspath := FilePath.named.inj single
      rw [normal] at file
      exact ⟨str, normal, Option.isSome_iff_exists.mpr ⟨content, file⟩⟩
  · rintro ⟨str, normal, present⟩
    obtain ⟨content, file⟩ := Option.isSome_iff_exists.mp present
    have backed : w.files (.named (Archive.backing archive)) = some content := by
      rw [normal]
      exact file
    obtain ⟨s', listing, world⟩ := Archive._listing_present eng password encoding backed
    rw [listing, str, file]
    rw [str, file] at answered
    refine ⟨(settlesAlike_iff answered answered).mpr ?_, ?_, ?_⟩
    · exact SameVerdict.same answered fun o => entriesFromRaw_infos o.entries false true
    · unfold listCall
      exact congrArg FilePath.named str
    · rw [world, World.called_logged]
      exact congrArg FilePath.named normal

/-- What makes an extraction in a batch of one come to the same as an extraction
from an archive: the archive is found by every spelling, `str()` spells the
destination as `os.fspath()` does, and the engine refuses to extract what it
refuses to list. -/
structure Interchangeable (eng : Engine) (w : World) (job : ExtractJob) : Prop where
  found : Found w job.archive
  dest : job.dest.str = job.dest.fspath
  refuses : eng.RefusesBoth (w.files (.named job.archive.fspath)) job.password job.encoding
    (job.toCall.options eng none)

theorem extractsAlike_iff (answers : eng.Answers) (setting : Setting σ ExtractJob Report)
    {arg : JobArg} {job : ExtractJob} (stands : Stands arg job) (plain : job.selection = none)
    (s : σ) : ExtractsAlike eng w setting arg job s ↔ Interchangeable eng w job := by
  have normalised : [arg].map _normaliseJob = [job] := congrArg ([·]) stands.normalised
  unfold ExtractsAlike
  rw [extractMany_eq_runMany (.inl rfl), normalised]
  have called : job.request.toCall none (some job.archive.fspath) = job.toCall := rfl
  have extracted := _extractOne_run eng plain w
  have answered : Answered (eng.extracted (w.files (.named job.archive.str)) job.password
      job.encoding (job.toCall.options eng none)) := answers.extracted _
  have ordinary : Ordinary (extracts (fun _ => eng) (fun _ => w) 0 job) := by
    unfold extracts
    rw [extracted]
    exact answered_ordinary answered
  dsimp only
  rw [setting.runMany_one BatchResult.report BatchResult.error (fun _ _ _ => ⟨rfl, rfl⟩)
    ordinary s]
  unfold extracts
  rw [extracted, World.called_logged]
  constructor
  · rintro ⟨ends, batch, single⟩
    have str : job.archive.str = job.archive.fspath := FilePath.named.inj batch.1
    have dest : job.dest.str = job.dest.fspath := (batch.2 _ rfl).1
    rcases file : w.files (.named (Archive.backing job.archive)) with _ | content
    · rw [Archive.extract_missing file] at ends
      exact absurd ends (typed_cls_ne_missing answered _)
    · obtain ⟨s', calls, extract, log, -⟩ :=
        Archive.extract_present eng job.password job.encoding (r := job.request) plain file
      rw [extract] at ends single
      have opened := (World.called_iff log).mp single _ List.mem_cons_self
      have normal : Archive.backing job.archive = job.archive.fspath :=
        FilePath.named.inj opened.1
      rw [normal] at file
      rw [str, file] at ends answered
      have same := (settlesAlike_iff answered (answers.listedExtracted _)).mp ends
      refine ⟨⟨str, normal, Option.isSome_iff_exists.mpr ⟨content, file⟩⟩, dest, ?_⟩
      rw [file]
      exact (Engine.extracted_agrees_iff answers _ _ _ _).mp same
  · rintro ⟨⟨str, normal, present⟩, dest, refuses⟩
    obtain ⟨content, file⟩ := Option.isSome_iff_exists.mp present
    have backed : w.files (.named (Archive.backing job.archive)) = some content := by
      rw [normal]
      exact file
    obtain ⟨s', calls, extract, log, only⟩ :=
      Archive.extract_present eng job.password job.encoding (r := job.request) plain backed
    rw [extract, str, file, called]
    rw [str, file] at answered
    rw [file] at refuses
    refine ⟨(settlesAlike_iff answered (answers.listedExtracted _)).mpr ?_, ?_, ?_⟩
    · exact (Engine.extracted_agrees_iff answers _ _ _ _).mpr refuses
    · refine ⟨congrArg FilePath.named str, ?_⟩
      intro args work
      cases work
      exact ⟨dest, rfl⟩
    · apply (World.called_iff log).mpr
      intro call member
      rcases List.mem_cons.mp member with rfl | later
      · exact ⟨congrArg FilePath.named normal, nofun⟩
      · obtain rfl := only call later
        refine ⟨congrArg FilePath.named normal, ?_⟩
        intro args work
        cases work
        exact ⟨dest, rfl⟩

/-- `list_many` and `extract_many` come to the same as an archive of its own, in
what they return and in what they ask of the engine, exactly when the archive is
found by every spelling, `str()` spells the destination as `os.fspath()` does, and
the engine refuses to extract what it refuses to list. -/
theorem batch_agrees_with_archive_iff (answers : eng.Answers)
    (onList : Setting σ PathArg (List Entry)) (onExtract : Setting σ ExtractJob Report)
    {arg : JobArg} {job : ExtractJob} (stands : Stands arg job) (plain : job.selection = none)
    (s : σ) :
    (ListsAlike eng w onList job.archive job.password job.encoding s ∧
      ExtractsAlike eng w onExtract arg job s) ↔ Interchangeable eng w job := by
  rw [listsAlike_iff answers, extractsAlike_iff answers onExtract stands plain]
  exact and_iff_right_of_imp Interchangeable.found

theorem oneFile_answers : oneFile.Answers where
  opens _ _ _ := nofun
  lists _ _ _ _ opened := by
    cases opened
    exact nofun
  extracts _ _ _ _ _ _ opened := by
    cases opened
    exact nofun

/-- A batch without callbacks. -/
def threads : Setting σ J α where
  host := {}
  maxWorkers := none
  pool := backwards
  callbacks := silent
  takes := takes_thread (by decide)
  accepts _ := rfl
  quiet := silent_quiet

/-- The extraction of one path into `out`. -/
def into (archive : PathArg) : ExtractJob := { archive, dest := ⟨"out", "out"⟩ }

/-- An archive that is there, named by a string. -/
theorem batch_agrees_with_archive_iff_string :
    ListsAlike oneFile anyFile (threads : Setting Unit _ _) ⟨"a.zip", "a.zip"⟩ none none () ∧
      ExtractsAlike oneFile anyFile (threads : Setting Unit _ _)
        (.pair ⟨"a.zip", "a.zip"⟩ ⟨"out", "out"⟩) (into ⟨"a.zip", "a.zip"⟩) () := by
  refine (batch_agrees_with_archive_iff oneFile_answers threads threads (.pair _ _) rfl
    ()).mpr ⟨?_, rfl, ?_⟩
  · exact ⟨rfl, by decide, rfl⟩
  · intro reader e opened refused
    cases opened
    cases refused

/-- No file is there. -/
def noFile : World where
  files _ := none

/-- An `os.DirEntry`: its `str()` is not its path. -/
def dirEntry : PathArg := ⟨"/d/a.zip", "<DirEntry 'a.zip'>"⟩

/-- Of an archive that is not there the batch reports an `OSError`, and an archive
object a `FileNotFoundError`; and for a `DirEntry` the batch asks the engine for
another path than the archive object does. -/
theorem missing_archive_and_dirEntry_disagree :
    ¬ (ListsAlike oneFile noFile (threads : Setting Unit _ _) ⟨"a.zip", "a.zip"⟩ none none () ∧
        ExtractsAlike oneFile noFile (threads : Setting Unit _ _)
          (.pair ⟨"a.zip", "a.zip"⟩ ⟨"out", "out"⟩) (into ⟨"a.zip", "a.zip"⟩) ()) ∧
      ¬ (ListsAlike oneFile anyFile (threads : Setting Unit _ _) dirEntry none none () ∧
        ExtractsAlike oneFile anyFile (threads : Setting Unit _ _)
          (.pair dirEntry ⟨"out", "out"⟩) (into dirEntry) ()) := by
  constructor
  · intro alike
    have found := (listsAlike_iff oneFile_answers threads _ none none ()).mp alike.1
    cases found.present
  · intro alike
    have found := (listsAlike_iff oneFile_answers threads _ none none ()).mp alike.1
    exact absurd found.str (by decide)

end Batch

end NewtuaPy
