import NewtuaPy.AsyncLifetime
import NewtuaPy.BatchSelection
import NewtuaPy.Sending
import NewtuaPy.Spooled

/-!
# The class an exception surfaces with

Every call of the compiled module stands in a `try` statement that translates
what leaves it: `raise_for` in the two archive classes, `_as_typed` in the batch
functions.  An exception means the class of its kind or, without a kind, its own
class.  `_as_typed` keeps that meaning; `raise_for` takes an exception without a
kind for a failure of the engine.  On the way to the caller two more things can take
its place: a failure to close the spooled file, and the way back from a worker process.
-/

namespace NewtuaPy

/-- The class that is meant: that of the kind, `NewtuaError` for a kind that is not
known, and the exception's own class when it carries none. -/
def PyExc.meaning (exc : PyExc) : ExcClass :=
  match exc.kind with
  | none => exc.cls
  | some (.text kind) => (byKind.lookup kind).getD .newtuaError
  | some .other => .newtuaError

/-! ## The translators -/

theorem raiseFor_meaning {exc : PyExc} (carries : exc.kind ≠ none) :
    (raiseFor exc).cls = exc.meaning := by
  unfold raiseFor PyExc.meaning
  rcases kind : exc.kind with _ | ⟨text⟩ | _
  · exact (carries kind).elim
  · rfl
  · rfl

theorem raiseFor_plain {exc : PyExc} (plain : exc.kind = none) :
    (raiseFor exc).cls = .newtuaError := by
  unfold raiseFor
  rw [plain]

theorem PyExc.meaning_plain {exc : PyExc} (plain : exc.kind = none) : exc.meaning = exc.cls := by
  unfold PyExc.meaning
  rw [plain]

/-- What the handlers of a batch make of an exception: `except Exception` and `_as_typed`. -/
def PyExc.retyped (exc : PyExc) : PyExc := if exc.isException then asTyped exc else exc

theorem asTyped_meaning (exc : PyExc) : (asTyped exc).cls = exc.meaning := by
  unfold asTyped
  rcases kind : exc.kind with _ | found
  · exact (PyExc.meaning_plain kind).symm
  · exact raiseFor_meaning (by rw [kind]; exact nofun)

/-- A kind always means an `Exception`. -/
theorem PyExc.meaning_isException {exc : PyExc} (carries : exc.kind ≠ none) :
    exc.meaning.isException = true := by
  have raised := raiseFor_isException exc
  unfold PyExc.isException at raised
  rwa [raiseFor_meaning carries] at raised

/-- What passes by the handler keeps its meaning unless it carries a kind. -/
theorem PyExc.passed_meaning {exc : PyExc} (passes : exc.isException = false) :
    exc.cls = exc.meaning ↔ exc.kind = none := by
  refine ⟨fun same => ?_, fun plain => (PyExc.meaning_plain plain).symm⟩
  by_contra carries
  have caught := PyExc.meaning_isException carries
  rw [← same] at caught
  exact absurd (caught.symm.trans passes) nofun

/-- `raise_for` keeps the meaning of an exception that carries a kind, and of its own
class. -/
theorem PyExc.raised_meaning (exc : PyExc) :
    exc.raised.cls = exc.meaning ↔
      if exc.isException then exc.kind ≠ none ∨ exc.cls = .newtuaError else exc.kind = none := by
  rcases passes : exc.isException with _ | _
  · rw [PyExc.raised_of_not_isException passes]
    exact PyExc.passed_meaning passes
  · rw [PyExc.raised_of_isException passes, if_pos rfl]
    by_cases plain : exc.kind = none
    · rw [raiseFor_plain plain, PyExc.meaning_plain plain, or_iff_right (not_not.mpr plain)]
      exact eq_comm
    · exact iff_of_true (raiseFor_meaning plain) (Or.inl plain)

/-! ## What a Python sink raises -/

section Sinks

variable {τ : Type} {sink : Sink τ}

theorem PySink.write_err {self self' : PySink τ} {buf : Bytes} {n : Nat}
    (wrote : self.write sink buf = (.ok n, self')) : self'.err = self.err := by
  unfold PySink.write at wrote
  rcases reply : sink.write self.obj buf with ⟨ret | exc, obj⟩
  · rw [reply] at wrote
    dsimp only at wrote
    split at wrote <;>
    · cases wrote
      rfl
  · rw [reply] at wrote
    cases wrote

/-- A chunk written whole stashes nothing. -/
theorem writeAll_err {self self' : PySink τ} {buf : Bytes}
    (wrote : writeAll sink self buf = (.ok (), self')) : self'.err = self.err := by
  induction self, buf using writeAll.induct sink with
  | case1 self buf empty =>
      rw [writeAll, if_pos empty] at wrote
      cases wrote
      rfl
  | case2 self buf more message after failed =>
      rw [writeAll, if_neg more, failed] at wrote
      cases wrote
  | case3 self buf more n after took progress ih =>
      rw [writeAll, if_neg more, took] at wrote
      dsimp only at wrote
      rw [if_pos progress] at wrote
      exact (ih wrote).trans (PySink.write_err took)
  | case4 self buf more n after took stuck =>
      rw [writeAll, if_neg more, took] at wrote
      dsimp only at wrote
      rw [if_neg stuck] at wrote
      cases wrote

theorem writeChunks_err {self self' : PySink τ} {chunks : List Bytes}
    (wrote : writeChunks sink self chunks = (.ok (), self')) : self'.err = self.err := by
  induction chunks generalizing self with
  | nil =>
      cases wrote
      rfl
  | cons chunk chunks ih =>
      unfold writeChunks at wrote
      rcases first : writeAll sink self chunk with ⟨message | _, after⟩
      · rw [first] at wrote
        cases wrote
      · rw [first] at wrote
        exact (ih wrote).trans (writeAll_err first)

/-- An exception the sink raises at any chunk leaves `write_entry_to` as it went in. -/
theorem writeEntryTo_restores {d : Decoded} {obj : τ} {exc : PyExc}
    (stashed : (d.into sink { obj }).2.err = some exc) :
    (writeEntryTo d sink obj).1 = .error exc := by
  unfold writeEntryTo
  unfold Decoded.into at stashed ⊢
  rcases wrote : writeChunks sink { obj } d.chunks with ⟨message | _, after⟩
  · rw [wrote] at stashed
    dsimp only at stashed ⊢
    rw [stashed]
    rfl
  · rw [wrote] at stashed
    cases (writeChunks_err wrote).symm.trans stashed

end Sinks

/-! ## Call sites -/

/-- How a call fails, if it does. -/
def failure {α : Type} : Except PyExc α → Option PyExc
  | .ok _ => none
  | .error exc => some exc

/-- What the collecting loop of a batch makes of a task: its failure stands in
the row, or leaves the loop. -/
def Batch.collected {α : Type} (outcome : Except PyExc α) : Option PyExc :=
  match Batch.collectAll [(⟨0, outcome⟩, 0)] [⟨0, outcome⟩] with
  | .ok [(_, _, error)] => error
  | .ok _ => none
  | .error exc => some exc

/-- The outcome of a task as the collecting loop meets it. -/
def Batch.Pickle.returned {α : Type} (pickle : Batch.Pickle) (process : Bool)
    (outcome : Except PyExc α) : Except PyExc α :=
  if process then pickle.sendBack outcome else outcome

/-- A call of the compiled module, by the function that makes it: over a file whose `close`
then raises `closing`, or in a batch on threads or on processes. -/
inductive Site
  | opening
  | read
  | openBuffered (closing : Option PyExc)
  | extract
  | asyncEnter
  | asyncRead
  | asyncExtract
  | asyncStream
  | batchSelection (process : Bool)
  | batchExtract (process : Bool)
  | batchList (process : Bool)
deriving DecidableEq

/-- What closing the spooled file raises, if it raises. -/
def Site.closing : Site → Option PyExc
  | .openBuffered closing => closing
  | _ => none

/-- Whether the site is in a batch, and whether the batch is on processes. -/
def Site.backend : Site → Option Bool
  | .batchSelection process => some process
  | .batchExtract process => some process
  | .batchList process => some process
  | _ => none

/-- `exc` leaves a call of the compiled module made at a site, and its caller's
caller gets the last argument. -/
inductive Surfaces (pickle : Batch.Pickle) : Site → PyExc → Option PyExc → Prop
  | opening {eng : Engine} {s s₁ : Session} {path : FilePath} {w : World} {exc : PyExc}
      (entered : Archive._open eng s = Archive.openAt eng path s₁)
      (raised : Compiled.open eng path s₁.self.password s₁.self.encoding s₁.world =
        (.error exc, w)) :
      Surfaces pickle .opening exc (failure (Archive._open eng s).1)
  | read {eng : Engine} {ref : Ref} {s s₁ s₂ : Session} {reader : RustArchive} {index : Int}
      {w : World} {exc : PyExc} (opened : Archive._open eng s = (.ok reader, s₁))
      (resolved : Archive._indexOf eng ref s₁ = (.ok index, s₂))
      (raised : reader.read index s₂.world = (.error exc, w)) :
      Surfaces pickle .read exc (failure (Archive.read eng ref s).1)
  | openBuffered {τ : Type} {spool : SpoolFile τ} {file file' : τ} {eng : Engine} {ref : Ref}
      {s s₁ s₂ s₃ : Session} {reader : RustArchive} {index : Int} {exc : PyExc}
      (opened : Archive._open eng s = (.ok reader, s₁))
      (resolved : Archive._indexOf eng ref s₁ = (.ok index, s₂))
      (raised : reader.writeTo index spool.sink (s₂, file) = (.error exc, s₃, file')) :
      Surfaces pickle (.openBuffered (failure (spool.close file').1)) exc
        (failure (Archive.openInto eng spool ref (s, file)).1)
  | extract {eng : Engine} {request : Archive.ExtractRequest} {s s₁ s₂ : Session}
      {reader : RustArchive} {selection : Option (List Int)} {w : World} {exc : PyExc}
      (opened : Archive._open eng s = (.ok reader, s₁))
      (resolved : Archive.selected eng request.selection s₁ = (.ok selection, s₂))
      (raised : reader.extract eng
        (request.toCall selection s₂.self.source.wrapperNameSource) s₂.world = (.error exc, w)) :
      Surfaces pickle .extract exc (failure (Archive.extract eng request s).1)
  | asyncEnter {eng : Engine} {a a₁ : AsyncSession} {path : FilePath} {w : World} {exc : PyExc}
      (entered : AsyncArchive.aenter eng a = AsyncArchive.enterAt eng path a₁)
      (raised : listPath eng path a₁.self.password a₁.self.encoding a₁.world = (.error exc, w)) :
      Surfaces pickle .asyncEnter exc (failure (AsyncArchive.aenter eng a).1)
  | asyncRead {eng : Engine} {ref : Ref} {a : AsyncSession} {path : FilePath} {index : Int}
      {w : World} {exc : PyExc} (ready : AsyncArchive._ensureReady a = (.ok path, a))
      (resolved : AsyncArchive.indexOf ref a = (.ok index, a))
      (raised : readPath eng path index a.self.password a.self.encoding a.world =
        (.error exc, w)) :
      Surfaces pickle .asyncRead exc (failure (AsyncArchive.read eng ref a).1)
  | asyncExtract {eng : Engine} {request : Archive.ExtractRequest} {a : AsyncSession}
      {path : FilePath} {selection : Option (List Int)} {w : World} {exc : PyExc}
      (ready : AsyncArchive._ensureReady a = (.ok path, a))
      (resolved : AsyncArchive.selected request.selection a = (.ok selection, a))
      (raised : extractPath eng path
        (request.toCall selection a.self.sync.source.wrapperNameSource) a.self.password
        a.self.encoding a.world = (.error exc, w)) :
      Surfaces pickle .asyncExtract exc (failure (AsyncArchive.extract eng request a).1)
  | asyncStream {eng : Engine} {ctx : AsyncArchive.StreamCtx} {a : AsyncSession}
      {path : FilePath} {w w' : World} {exc : PyExc} (entered : a.self.path = some path)
      (held : holdClaim a.self.sync.tempfile a.world = (.ok (), w))
      (raised : openStreamPath eng path ctx.index a.self.password a.self.encoding w =
        (.error exc, w')) :
      Surfaces pickle .asyncStream exc (failure (ctx.aenter eng a).1)
  | batchSelection {eng : Engine} {job : Batch.ExtractJob} {refs : List Ref} {w w' : World}
      {exc : PyExc} {process : Bool} (given : job.selection = some refs)
      (named : refs.all (fun ref => (Batch.asInt ref).isSome) = false)
      (raised : listPath eng (.named job.archive.str) job.password job.encoding w =
        (.error exc, w')) :
      Surfaces pickle (.batchSelection process) exc
        (Batch.collected (pickle.returned process (Batch._extractOne eng job w).1))
  | batchExtract {eng : Engine} {job : Batch.ExtractJob} {selection : Option (List Int)}
      {w w₁ w₂ : World} {exc : PyExc} {process : Bool}
      (resolved : Batch._selectionIndices eng job w = (.ok selection, w₁))
      (raised : extractPath eng (.named job.archive.str)
        { dest := job.dest.str
          selection
          wrapper := job.wrapper
          strict := job.strict
          preserve := job.preserve
          progress := job.progress.map wrapProgress
          nameSource := some job.archive.fspath }
        job.password job.encoding w₁ = (.error exc, w₂)) :
      Surfaces pickle (.batchExtract process) exc
        (Batch.collected (pickle.returned process (Batch._extractOne eng job w).1))
  | batchList {eng : Engine} {archive : PathArg} {password encoding : Option String}
      {w w' : World} {exc : PyExc} {process : Bool}
      (raised : listPath eng (.named archive.str) password encoding w = (.error exc, w')) :
      Surfaces pickle (.batchList process) exc (Batch.collected
        (pickle.returned process (Batch._listOne eng archive password encoding w).1))

/-- What the caller gets for `exc`. -/
def Site.translate (pickle : Batch.Pickle) (site : Site) (exc : PyExc) : PyExc :=
  match site.backend with
  | none => site.closing.getD exc.raised
  | some false => exc.retyped
  | some true =>
      if pickle.importable exc.retyped.cls then exc.retyped
      else { cls := .picklingError, text := pickle.notFound exc.retyped.cls }

/-! ## Every site translates -/

theorem typed_raised {σ α : Type} {x : Py σ α} {s t : σ} {exc : PyExc}
    (raised : x s = (.error exc, t)) : Archive.typed x s = (.error exc.raised, t) :=
  Exn.handle_of_error raised _

theorem PyExc.retyped_retyped (exc : PyExc) : exc.retyped.retyped = exc.retyped := by
  unfold PyExc.retyped
  rcases passes : exc.isException with _ | _
  · rw [if_neg Bool.false_ne_true, passes, if_neg Bool.false_ne_true]
  · rw [if_pos rfl]
    split_ifs
    · exact asTyped_asTyped exc
    · rfl

theorem Batch.collected_error {α : Type} (exc : PyExc) :
    Batch.collected (.error exc : Except PyExc α) = some exc.retyped := by
  unfold Batch.collected Batch.collectAll PyExc.retyped
  rcases passes : exc.isException with _ | _
  · simp [Batch.futureIndex, passes, bind, Except.bind]
  · simp [Batch.futureIndex, passes, Batch.collectAll, bind, Except.bind, pure, Except.pure]

theorem Batch.retyped_raised {α : Type} {x : Py World α} {w w' : World} {exc : PyExc}
    (raised : x w = (.error exc, w')) : Batch.retyped x w = (.error exc.retyped, w') :=
  Exn.handle_of_error raised _

/-- The worker's translation and the collector's are one, but for a class that does not come
back from a process. -/
theorem Batch.collected_returned {α : Type} (pickle : Batch.Pickle) {site : Site} {process : Bool}
    (backend : site.backend = some process) {exc : PyExc} {outcome : Except PyExc α}
    (ends : outcome = .error exc.retyped) :
    Batch.collected (pickle.returned process outcome) = some (site.translate pickle exc) := by
  subst ends
  unfold Site.translate
  rw [backend]
  cases process with
  | false =>
      refine (Batch.collected_error exc.retyped).trans ?_
      rw [exc.retyped_retyped]
  | true =>
      unfold Batch.Pickle.returned Batch.Pickle.sendBack
      dsimp only
      rw [if_pos rfl]
      split_ifs
      · rw [Batch.collected_error, exc.retyped_retyped]
      · rw [Batch.collected_error]
        rfl

theorem failure_of_error {α σ : Type} {x : Py σ α} {s t : σ} {exc : PyExc}
    (raised : x s = (.error exc, t)) : failure (x s).1 = some exc := by
  rw [raised]
  rfl

/-- What leaves a site is the translation of what entered it. -/
theorem Surfaces.translated {pickle : Batch.Pickle} {site : Site} {exc : PyExc}
    {outcome : Option PyExc} (surfaces : Surfaces pickle site exc outcome) :
    outcome = some (site.translate pickle exc) := by
  cases surfaces with
  | @opening eng s s₁ path w exc entered raised =>
      rw [Compiled.open_run] at raised
      have ran := Archive.openAt_run eng path s₁
      rcases found : eng.snapshot (s₁.world.files path) s₁.self.password s₁.self.encoding with
        fault | o
      · rw [found] at raised ran
        have same : fault.toPyExc = exc := Except.error.inj (congrArg Prod.fst raised)
        rw [entered, ← same]
        cases fault with
        | error e => exact failure_of_error ran
        | panic message => exact failure_of_error ran
      · rw [found] at raised
        cases raised
  | @read eng ref s s₁ s₂ reader index w exc opened resolved raised =>
      have run : Archive.read eng ref s = Archive.typed (onWorld (reader.read index)) s₂ :=
        (Exn.bind_of_ok opened _).trans (Exn.bind_of_ok resolved _)
      rw [run]
      exact failure_of_error (typed_raised (onWorld_run raised))
  | @openBuffered τ spool file file' eng ref s s₁ s₂ s₃ reader index exc opened resolved raised =>
      have wrote : Archive.writeInto reader spool.sink index (s₂, file) =
          (.error exc.raised, s₃, file') := typed_raised raised
      rw [Archive.openInto_run opened resolved, SpoolFile.fill_unwritten wrote]
      rcases closing : spool.close file' with ⟨last | _, file''⟩
      · exact failure_of_error (SpoolFile.closing_fails closing s₃)
      · exact failure_of_error (SpoolFile.closing_run closing s₃)
  | @extract eng request s s₁ s₂ reader selection w exc opened resolved raised =>
      have run : Archive.extract eng request s = Archive.typed (onWorld (reader.extract eng
          (request.toCall selection s₂.self.source.wrapperNameSource))) s₂ :=
        (Exn.bind_of_ok opened _).trans (Exn.bind_of_ok resolved _)
      rw [run]
      exact failure_of_error (typed_raised (onWorld_run raised))
  | @asyncEnter eng a a₁ path w exc entered raised =>
      rw [listPath_run] at raised
      rcases found : eng.snapshot (a₁.world.files path) a₁.self.password a₁.self.encoding with
        fault | o
      · rw [found] at raised
        have same : fault.toPyExc = exc := Except.error.inj (congrArg Prod.fst raised)
        obtain ⟨a', ran⟩ := AsyncArchive.enterAt_error found
        rw [entered, ← same]
        exact failure_of_error ran
      · rw [found] at raised
        cases raised
  | @asyncRead eng ref a path index w exc ready resolved raised =>
      have run : AsyncArchive.read eng ref a = Archive.typed (AsyncArchive.onWorld
          (readPath eng path index a.self.password a.self.encoding)) a :=
        (Exn.bind_of_ok ready _).trans (Exn.bind_of_ok resolved _)
      rw [run]
      exact failure_of_error (typed_raised (AsyncArchive.onWorld_run raised))
  | @asyncExtract eng request a path selection w exc ready resolved raised =>
      have run : AsyncArchive.extract eng request a = Archive.typed (AsyncArchive.onWorld
          (extractPath eng path (request.toCall selection a.self.sync.source.wrapperNameSource)
            a.self.password a.self.encoding)) a :=
        (Exn.bind_of_ok ready _).trans (Exn.bind_of_ok resolved _)
      rw [run]
      exact failure_of_error (typed_raised (AsyncArchive.onWorld_run raised))
  | @asyncStream eng ctx a path w w' exc entered held raised =>
      obtain ⟨w'', released, -⟩ := releaseClaim_ok a.self.sync.tempfile w'
      have piped := openPipe_error held raised released (some (ctx.size : Int))
      have run : ctx.aenter eng a = AsyncArchive.onWorld (openPipe a.self.sync.tempfile
          (openStreamPath eng path ctx.index a.self.password a.self.encoding)
          (some (ctx.size : Int))) a := by
        unfold AsyncArchive.StreamCtx.aenter AsyncArchive._openPipeSync
        rw [Exn.get_bind_apply, entered]
        rfl
      rw [run]
      exact failure_of_error (AsyncArchive.onWorld_run piped)
  | @batchSelection eng job refs w w' exc process given named raised =>
      have looked : Batch._selectionIndices eng job w = (.error exc, w') := by
        unfold Batch._selectionIndices
        rw [given]
        dsimp only
        rw [named]
        exact Exn.bind_of_error raised _
      have ran : Batch._extractOne eng job w = _ :=
        Batch.retyped_raised (Exn.bind_of_error looked _)
      exact Batch.collected_returned pickle rfl (congrArg Prod.fst ran)
  | @batchExtract eng job selection w w₁ w₂ exc process resolved raised =>
      have ran : Batch._extractOne eng job w = _ :=
        Batch.retyped_raised ((Exn.bind_of_ok resolved _).trans raised)
      exact Batch.collected_returned pickle rfl (congrArg Prod.fst ran)
  | @batchList eng archive password encoding w w' exc process raised =>
      have ran : Batch._listOne eng archive password encoding w = _ :=
        Exn.bind_of_error (Batch.retyped_raised raised) _
      exact Batch.collected_returned pickle rfl (congrArg Prod.fst ran)

/-! ## Which meanings are kept -/

/-- The class of the exception, or of its kind, is the one that `raise_for` gives. -/
def PyExc.Known (exc : PyExc) : Prop :=
  exc.isException = true → exc.kind ≠ none ∨ exc.cls = .newtuaError

/-- What closing the file raises, if it raises, is of the class that is meant.  Otherwise, in a
batch, the exception is an `Exception` or carries no kind, and on a process, if it carries
none, its class is found again; elsewhere it is known, and one that is no `Exception` carries
no kind. -/
def Site.Faithful (pickle : Batch.Pickle) (site : Site) (exc : PyExc) : Prop :=
  match site.closing, site.backend with
  | some closing, _ => closing.cls = exc.meaning
  | none, none => exc.Known ∧ (exc.isException = true ∨ exc.kind = none)
  | none, some process => (exc.isException = true ∨ exc.kind = none) ∧
      (process = true → exc.kind = none → pickle.importable exc.cls = true)

theorem PyExc.raised_faithful (exc : PyExc) :
    exc.raised.cls = exc.meaning ↔ exc.Known ∧ (exc.isException = true ∨ exc.kind = none) := by
  rw [exc.raised_meaning]
  unfold PyExc.Known
  rcases exc.isException with _ | _ <;> simp

theorem PyExc.retyped_faithful (exc : PyExc) :
    exc.retyped.cls = exc.meaning ↔ exc.isException = true ∨ exc.kind = none := by
  unfold PyExc.retyped
  rcases passes : exc.isException with _ | _
  · rw [if_neg Bool.false_ne_true, or_iff_right Bool.false_ne_true]
    exact PyExc.passed_meaning passes
  · exact iff_of_true (asTyped_meaning exc) (Or.inl rfl)

theorem PyExc.retyped_plain {exc : PyExc} (plain : exc.kind = none) : exc.retyped = exc := by
  unfold PyExc.retyped asTyped
  rw [plain]
  exact ite_self exc

/-- What a kind means is found again in the caller's process. -/
theorem PyExc.meaning_importable (pickle : Batch.Pickle) {exc : PyExc}
    (carries : exc.kind ≠ none) : pickle.importable exc.meaning = true := by
  have listed : ∀ cls ∈ byKind.map Prod.snd, pickle.importable cls = true := by
    simp [byKind, Batch.Pickle.importable]
  rw [← raiseFor_meaning carries]
  rcases raiseFor_cls_mem exc with other | table
  · rw [other]
    rfl
  · exact listed _ table

/-- A class that comes back from a process, or is lost on the way. -/
theorem Batch.Pickle.importable_retyped (pickle : Batch.Pickle) {exc : PyExc}
    (kept : exc.isException = true ∨ exc.kind = none) :
    pickle.importable exc.retyped.cls = true ↔
      (exc.kind = none → pickle.importable exc.cls = true) := by
  by_cases plain : exc.kind = none
  · rw [PyExc.retyped_plain plain]
    exact ⟨fun found _ => found, fun found => found plain⟩
  · refine iff_of_true ?_ fun none => absurd none plain
    rw [exc.retyped_faithful.mpr kept]
    exact PyExc.meaning_importable pickle plain

/-- A failure of pickling is not what was meant. -/
theorem Batch.Pickle.meaning_lost (pickle : Batch.Pickle) {exc : PyExc}
    (lost : ¬pickle.importable exc.retyped.cls = true) :
    ExcClass.picklingError ≠ exc.meaning := by
  intro same
  by_cases plain : exc.kind = none
  · rw [PyExc.retyped_plain plain, ← PyExc.meaning_plain plain, ← same] at lost
    exact lost rfl
  · have listed := raiseFor_cls_mem exc
    rw [raiseFor_meaning plain, ← same] at listed
    exact absurd listed (by decide)

/-- Only at the buffered `open` is there a file to close. -/
theorem Site.backend_of_closing {site : Site} {last : PyExc} (closing : site.closing = some last) :
    site.backend = none := by
  cases site with
  | openBuffered => rfl
  | _ => cases closing

theorem Site.translate_meaning (pickle : Batch.Pickle) (site : Site) (exc : PyExc) :
    (site.translate pickle exc).cls = exc.meaning ↔ site.Faithful pickle exc := by
  unfold Site.translate Site.Faithful
  rcases closing : site.closing with _ | last
  · rcases site.backend with _ | _ | _
    · exact exc.raised_faithful
    · exact exc.retyped_faithful.trans (and_iff_left nofun).symm
    · dsimp only
      rw [forall_prop_of_true rfl]
      split_ifs with back
      · rw [exc.retyped_faithful]
        exact (and_iff_left_of_imp fun kept => (pickle.importable_retyped kept).mp back).symm
      · refine iff_of_false (pickle.meaning_lost back) ?_
        rintro ⟨kept, found⟩
        exact back ((pickle.importable_retyped kept).mpr found)
  · rw [Site.backend_of_closing closing]
    exact Iff.rfl

/-- The two translators agree on every exception but a plain `Exception`. -/
theorem PyExc.raised_retyped (exc : PyExc) : exc.raised.cls = exc.retyped.cls ↔ exc.Known := by
  unfold PyExc.Known PyExc.retyped
  rcases passes : exc.isException with _ | _
  · rw [PyExc.raised_of_not_isException passes]
    exact iff_of_true rfl nofun
  · have kept := exc.raised_meaning
    rw [passes, if_pos rfl] at kept
    rw [if_pos rfl, asTyped_meaning, forall_prop_of_true rfl, ← kept]

/-- Two sites surface the exception with one class: they share their translators and the way
back, or the translators agree on it and it comes back from the processes there are. -/
def Site.Alike (pickle : Batch.Pickle) (site site' : Site) (exc : PyExc) : Prop :=
  site.backend = site'.backend ∨
    (site.backend.isSome = site'.backend.isSome ∨ exc.Known) ∧
      (site.backend = some true ∨ site'.backend = some true →
        pickle.importable exc.retyped.cls = true)

theorem translate_cls_eq_iff (pickle : Batch.Pickle) {site site' : Site} (exc : PyExc)
    (closes : site.closing = none) (closes' : site'.closing = none) :
    (site.translate pickle exc).cls = (site'.translate pickle exc).cls ↔
      site.Alike pickle site' exc := by
  have lost (back : ¬pickle.importable exc.retyped.cls = true) :
      exc.retyped.cls ≠ .picklingError := fun same => back (by rw [same]; rfl)
  have unlisted : exc.raised.cls ≠ .picklingError :=
    PyExc.raised_cls_ne rfl (by decide) (by decide) exc
  have known := exc.raised_retyped
  unfold Site.translate Site.Alike
  rw [closes, closes']
  by_cases back : pickle.importable exc.retyped.cls = true
  · rcases site.backend with _ | _ | _ <;> rcases site'.backend with _ | _ | _ <;>
      simp [back, known, eq_comm.trans known]
  · rcases site.backend with _ | _ | _ <;> rcases site'.backend with _ | _ | _ <;>
      simp [back, known, eq_comm.trans known, unlisted, unlisted.symm, lost back, (lost back).symm]

/-- At every site, an exception surfaces with the class it means exactly when the
site is faithful to it; two sites surface it with one class exactly when they are alike for
it, if no close fails.  Translating twice changes nothing, and the sink's own exceptions
reach the translator as they were raised. -/
theorem meaning_kept_iff (pickle : Batch.Pickle) (site : Site) (exc : PyExc)
    {outcome : Option PyExc} (surfaces : Surfaces pickle site exc outcome) :
    (outcome.map PyExc.cls = some exc.meaning ↔ site.Faithful pickle exc) ∧
    (∀ (site' : Site) (outcome' : Option PyExc), Surfaces pickle site' exc outcome' →
      site.closing = none → site'.closing = none →
      (outcome.map PyExc.cls = outcome'.map PyExc.cls ↔ site.Alike pickle site' exc)) ∧
    (asTyped (asTyped exc) = asTyped exc ∧ asTyped (raiseFor exc) = raiseFor exc) ∧
    ∀ (τ : Type) (d : Decoded) (sink : Sink τ) (file : τ),
      (d.into sink { obj := file }).2.err = some exc →
      (writeEntryTo d sink file).1 = .error exc := by
  refine ⟨?_, ?_, ⟨asTyped_asTyped exc, asTyped_raiseFor exc⟩, ?_⟩
  · rw [surfaces.translated, Option.map_some, Option.some_inj]
    exact site.translate_meaning pickle exc
  · intro site' outcome' surfaces' closes closes'
    rw [surfaces.translated, surfaces'.translated, Option.map_some, Option.map_some,
      Option.some_inj]
    exact translate_cls_eq_iff pickle exc closes closes'
  · intro τ d sink file stashed
    exact writeEntryTo_restores stashed

/-- The first chunk is handed over, and comes back as the exception. -/
theorem writeEntryTo_refused {τ : Type} {sink : Sink τ} {obj obj' : τ} {exc : PyExc} {b : UInt8}
    {bs : Bytes} (refused : sink.write obj (b :: bs) = (.raises exc, obj')) (chunks : List Bytes)
    (status : Except Fault Unit) :
    writeEntryTo ⟨(b :: bs) :: chunks, status⟩ sink obj = (.error exc, obj') := by
  unfold writeEntryTo Decoded.into writeChunks
  rw [writeAll, PySink.write, refused]
  rfl

theorem RustArchive.writeTo_refused {τ : Type} {self : RustArchive} {index : Int} {i : Nat}
    {sink : Sink τ} {s : Session} {file file' : τ} {exc : PyExc} {b : UInt8} {bs : Bytes}
    {chunks : List Bytes} {status : Except Fault Unit} (argument : usizeArg index = .ok i)
    (decoded : self.reader.readEntry (s.world.files self.path) i = ⟨(b :: bs) :: chunks, status⟩)
    (refused : sink.write file (b :: bs) = (.raises exc, file')) :
    self.writeTo index sink (s, file) =
      (.error exc, { s with world := s.world.logged (self.call (.write i)) }, file') := by
  rw [self.writeTo_run, argument]
  dsimp only
  rw [decoded, writeEntryTo_refused refused]

/-- An entry of five bytes, in one chunk. -/
def fiveBytes : Engine := Archive.oneEntry 5 { chunks := [[1, 2, 3, 4, 5]], status := .ok () }

/-- Four bytes are kept in memory, and with the fifth the file is made on disk, which raises. -/
def spilling (exc : PyExc) : SpooledTemporaryFile := { maxSize := 4, faults := [some exc] }

/-- An archive at a path, not opened yet. -/
def unopened : Session := Archive.init Batch.anyFile.files (.path ⟨"a.zip", "a.zip"⟩) none none

/-- Whatever making the file on disk raises leaves the compiled module; the file is still in
memory, and closing it does not fail. -/
theorem spilling_surfaces (exc : PyExc) :
    Surfaces Batch.plainPickle (.openBuffered none) exc
      (failure (Archive.openInto fiveBytes SpooledTemporaryFile.spool (.int 0)
        (unopened, spilling exc)).1) := by
  have opened : Archive._open fiveBytes unopened = (.ok _, _) := rfl
  have resolved : Archive._indexOf fiveBytes (.int 0)
      (Archive._open fiveBytes unopened).2 = (.ok 0, _) := rfl
  have refused : SpooledTemporaryFile.spool.sink.write (spilling exc) [1, 2, 3, 4, 5] =
      (.raises exc, _) := rfl
  exact Surfaces.openBuffered opened resolved (RustArchive.writeTo_refused (i := 0) rfl rfl refused)

def interrupt : PyExc := { cls := .keyboardInterrupt, text := "" }

theorem meaning_kept_iff_interrupt :
    (failure (Archive.openInto fiveBytes SpooledTemporaryFile.spool (.int 0)
      (unopened, spilling interrupt)).1).map PyExc.cls = some .keyboardInterrupt :=
  (meaning_kept_iff Batch.plainPickle (.openBuffered none) interrupt
    (spilling_surfaces interrupt)).1.mpr ⟨nofun, Or.inr rfl⟩

def tooManyFiles : PyExc := { cls := .osError, text := "[Errno 24] Too many open files" }

/-- Where no file can be made on disk, that surfaces as a failure of the engine. -/
theorem full_table_masked :
    ∃ outcome, Surfaces Batch.plainPickle (.openBuffered none) tooManyFiles outcome ∧
      outcome.map PyExc.cls ≠ some tooManyFiles.meaning := by
  refine ⟨_, spilling_surfaces tooManyFiles, ?_⟩
  rw [(spilling_surfaces tooManyFiles).translated]
  exact nofun

end NewtuaPy
