import Mathlib.Algebra.Group.Nat.Defs
import Mathlib.Data.List.Basic

/-!
# Python objects at the boundary

The exception classes the package raises, lets through or receives, and what a
Python callable can hand back to compiled code.
-/

namespace NewtuaPy

/-- Exception classes.  `engineError` is `_newtua.NewtuaError`, raised by the
compiled module; the eight after it are the classes of `_errors.py`. -/
inductive ExcClass
  | engineError
  | newtuaError
  | unknownFormatError
  | unsupportedError
  | passwordRequiredError
  | wrongPasswordError
  | corruptArchiveError
  | missingVolumeError
  | unsafePathError
  | entryNotFoundError
  | keyError
  | indexError
  | osError
  | fileNotFoundError
  | valueError
  | typeError
  | attributeError
  | overflowError
  | assertionError
  | notImplementedError
  | brokenProcessPool
  | picklingError
  | otherException (name : String)
  | panicException
  | keyboardInterrupt
  | systemExit
  | cancelledError
  | otherBaseException (name : String)
deriving DecidableEq, Repr

/-- `issubclass(cls, Exception)`.  A Rust panic surfaces as `PanicException`,
which derives from `BaseException`, as does `asyncio.CancelledError`. -/
def ExcClass.isException : ExcClass → Bool
  | .panicException | .keyboardInterrupt | .systemExit | .cancelledError
  | .otherBaseException _ => false
  | _ => true

/-- The value of an exception's `kind` attribute when it is not `None`. -/
inductive KindAttr
  | text (kind : String)
  | other
deriving DecidableEq, Repr

/-- An exception object: its class, the text it was raised with and
`getattr(exc, "kind", None)`.  `str()` gives the text, or its `repr` where the class is a
`KeyError` as `EntryNotFoundError` is. -/
structure PyExc where
  cls : ExcClass
  text : String
  kind : Option KindAttr := none
deriving DecidableEq, Repr

def PyExc.isException (exc : PyExc) : Bool := exc.cls.isException

/-- What a Python callable may return, as far as the compiled code looks.  An object with
`__index__` counts as the integer that gives, and `numpy.bool_` as the `bool` of its value. -/
inductive PyObj
  | none
  | bool (b : Bool)
  | int (i : Int)
  | other
deriving DecidableEq, Repr

/-- How a call of a Python callable ends, as the compiled code meets it.  A `PanicException`
is not among the exceptions: PyO3 goes on unwinding when it fetches one. -/
inductive Reply
  | returns (value : PyObj)
  | raises (exc : PyExc)
deriving DecidableEq, Repr

/-- One more than the largest `usize` of a 64-bit target. -/
def usizeBound : Nat := 2 ^ 64

theorem one_lt_usizeBound : 1 < usizeBound := by decide

/-- `extract::<usize>()`: an integer in range; `True` and `False` are integers too. -/
def PyObj.extractUsize : PyObj → Option Nat
  | .int i => if 0 ≤ i ∧ i.toNat < usizeBound then some i.toNat else Option.none
  | .bool b => some b.toNat
  | _ => Option.none

theorem PyObj.extractUsize_natCast (n : Nat) :
    (PyObj.int n).extractUsize = some n ∨ (PyObj.int n).extractUsize = Option.none := by
  unfold PyObj.extractUsize
  dsimp only
  by_cases h : 0 ≤ (n : Int) ∧ (n : Int).toNat < usizeBound
  · rw [if_pos h]
    exact Or.inl rfl
  · rw [if_neg h]
    exact Or.inr rfl

/-- `extract::<bool>()`. -/
def PyObj.extractBool : PyObj → Option Bool
  | .bool b => some b
  | _ => Option.none

/-- PyO3's conversion of an argument to `usize`; a negative or too large
integer raises `OverflowError` before the function is entered. -/
def usizeArg (i : Int) : Except PyExc Nat :=
  if 0 ≤ i ∧ i.toNat < usizeBound then .ok i.toNat
  else .error
    { cls := .overflowError,
      text := if i < 0 then "can't convert negative int to unsigned" else "int too big to convert" }

theorem usizeArg_eq_ok {i : Int} {n : Nat} (h : usizeArg i = .ok n) : i = n := by
  unfold usizeArg at h
  split at h
  · rename_i inRange
    cases h
    exact (Int.toNat_of_nonneg inRange.1).symm
  · cases h

theorem usizeArg_natCast {n : Nat} (h : n < usizeBound) : usizeArg (n : Int) = .ok n := by
  simp only [usizeArg, Int.toNat_natCast, h, Int.natCast_nonneg, and_self, if_true]

end NewtuaPy
