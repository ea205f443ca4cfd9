import NewtuaPy.Python

/-!
# Exceptions and their kinds

The engine's error variants with the kind string the compiled module attaches
to each, and the two translators of the Python layer, `raise_for` and
`_as_typed`.
-/

namespace NewtuaPy

/-! ## The engine's errors -/

/-- `newtua_core::Error`, without its payload. -/
inductive ErrorVariant
  | unknownFormat
  | unsupported
  | encrypted
  | wrongPassword
  | corrupt
  | missingVolume
  | pathTraversal
  | io
  | invalidIndex
deriving DecidableEq, Repr

/-- `newtua_core::Error` with its `to_string()`. -/
structure EngineError where
  variant : ErrorVariant
  message : String
deriving DecidableEq, Repr

/-- How an engine call fails: with an error value, or by unwinding. -/
inductive Fault
  | error (e : EngineError)
  | panic (message : String)
deriving DecidableEq, Repr

def errorKind : ErrorVariant → String
  | .unknownFormat => "unknown_format"
  | .unsupported => "unsupported"
  | .encrypted => "encrypted"
  | .wrongPassword => "wrong_password"
  | .corrupt => "corrupt"
  | .missingVolume => "missing_volume"
  | .pathTraversal => "path_traversal"
  | .io => "io"
  | .invalidIndex => "invalid_index"

def pyerrFromParts (message kind : String) : PyExc :=
  { cls := .engineError, text := message, kind := some (.text kind) }

def toPyerr (e : EngineError) : PyExc := pyerrFromParts e.message (errorKind e.variant)

/-- What the caller of a compiled function sees: an error value becomes the
module's own exception, a panic is raised by PyO3 as `PanicException`. -/
def Fault.toPyExc : Fault → PyExc
  | .error e => toPyerr e
  | .panic message => { cls := .panicException, text := message }

/-! ## The two translators -/

/-- `_BY_KIND`. -/
def byKind : List (String × ExcClass) :=
  [("unknown_format", .unknownFormatError),
   ("unsupported", .unsupportedError),
   ("encrypted", .passwordRequiredError),
   ("wrong_password", .wrongPasswordError),
   ("corrupt", .corruptArchiveError),
   ("missing_volume", .missingVolumeError),
   ("path_traversal", .unsafePathError),
   ("io", .osError),
   ("invalid_index", .indexError)]

/-- The exception `raise_for(exc)` ends with. -/
def raiseFor (exc : PyExc) : PyExc :=
  let cls := match exc.kind with
    | some (.text kind) => (byKind.lookup kind).getD .newtuaError
    | _ => .newtuaError
  { cls, text := exc.text }

/-- What leaves `except Exception as exc: raise_for(exc)`. -/
def PyExc.raised (exc : PyExc) : PyExc := if exc.isException then raiseFor exc else exc

@[simp] theorem Fault.error_isException (e : EngineError) :
    (Fault.error e).toPyExc.isException = true := rfl

@[simp] theorem Fault.panic_isException (message : String) :
    (Fault.panic message).toPyExc.isException = false := rfl

theorem PyExc.raised_of_isException {exc : PyExc} (h : exc.isException = true) :
    exc.raised = raiseFor exc := if_pos h

theorem PyExc.raised_of_not_isException {exc : PyExc} (h : exc.isException = false) :
    exc.raised = exc := by
  unfold PyExc.raised
  rw [h]
  rfl

theorem byKind_mem {kind : String} {cls : ExcClass} (h : byKind.lookup kind = some cls) :
    cls ∈ byKind.map Prod.snd := by
  obtain ⟨left, right, split, -⟩ := List.lookup_eq_some_iff.mp h
  rw [split]
  simp

/-- `raise_for` ends in a class of its table, or in `NewtuaError`. -/
theorem raiseFor_cls_mem (exc : PyExc) :
    (raiseFor exc).cls = .newtuaError ∨ (raiseFor exc).cls ∈ byKind.map Prod.snd := by
  unfold raiseFor
  rcases exc.kind with _ | ⟨kind⟩ | _
  · exact Or.inl rfl
  · dsimp only
    rcases found : byKind.lookup kind with _ | cls
    · exact Or.inl rfl
    · exact Or.inr (byKind_mem found)
  · exact Or.inl rfl

/-- What `raise_for` lets through is of no other class of `Exception`. -/
theorem PyExc.raised_cls_ne {c : ExcClass} (caught : c.isException = true)
    (typed : c ≠ .newtuaError) (unlisted : c ∉ byKind.map Prod.snd) (exc : PyExc) :
    exc.raised.cls ≠ c := by
  intro same
  rcases passes : exc.isException with _ | _
  · rw [PyExc.raised_of_not_isException passes] at same
    unfold PyExc.isException at passes
    rw [same, caught] at passes
    cases passes
  · rw [PyExc.raised_of_isException passes] at same
    rcases raiseFor_cls_mem exc with other | listed
    · exact typed (same.symm.trans other)
    · exact unlisted (same ▸ listed)

/-- What `raise_for` lets through is never a `ValueError`. -/
theorem PyExc.raised_cls (exc : PyExc) : exc.raised.cls ≠ .valueError :=
  PyExc.raised_cls_ne rfl (by decide) (by decide) exc

/-- `_as_typed`: only an exception that carries a kind is translated. -/
def asTyped (exc : PyExc) : PyExc :=
  match exc.kind with
  | none => exc
  | some _ => raiseFor exc

@[simp] theorem raiseFor_kind (exc : PyExc) : (raiseFor exc).kind = none := rfl

theorem byKind_isException {kind : String} {cls : ExcClass}
    (h : byKind.lookup kind = some cls) : cls.isException = true := by
  have all : ∀ c ∈ byKind.map Prod.snd, c.isException = true := by decide
  exact all cls (byKind_mem h)

@[simp] theorem raiseFor_isException (exc : PyExc) : (raiseFor exc).isException = true := by
  unfold raiseFor PyExc.isException
  rcases exc.kind with _ | ⟨kind⟩ | _
  · rfl
  · dsimp only
    rcases found : byKind.lookup kind with _ | cls
    · rfl
    · exact byKind_isException found
  · rfl

@[simp] theorem asTyped_raiseFor (exc : PyExc) : asTyped (raiseFor exc) = raiseFor exc := rfl

/-- Translating twice, in the worker and in the collector, changes nothing. -/
@[simp] theorem asTyped_asTyped (exc : PyExc) : asTyped (asTyped exc) = asTyped exc := by
  unfold asTyped
  rcases h : exc.kind with _ | kind
  · simp only [h]
  · rfl

end NewtuaPy
