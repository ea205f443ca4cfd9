import NewtuaPy.Errors
import NewtuaPy.Paths

/-!
# Progress events

An engine event is encoded by `build_progress_fn` as five values, decoded by
`event_from_raw` into an event object, and handed to the user's callback; the
callback's answer travels back as a `Flow`.
-/

namespace NewtuaPy

/-- `newtua_core::ProgressEvent`. -/
inductive CoreEvent
  | entryStart (index : Nat) (path : String) (size : Nat)
  | bytes (index written : Nat)
  | entryDone (index : Nat)
deriving DecidableEq, Repr

/-- `newtua_core::Flow`. -/
inductive Flow
  | continue
  | abort
deriving DecidableEq, Repr

/-- The five values the compiled module passes to the progress callable. -/
structure RawEvent where
  event : String
  index : Nat
  path : Option String
  written : Nat
  size : Nat
deriving DecidableEq, Repr

/-- The encoding half of `build_progress_fn`. -/
def CoreEvent.raw : CoreEvent → RawEvent
  | .entryStart index path size => ⟨"start", index, some path, 0, size⟩
  | .bytes index written => ⟨"bytes", index, none, written, 0⟩
  | .entryDone index => ⟨"done", index, none, 0, 0⟩

/-- `EventKind`. -/
inductive EventKind
  | started
  | bytes
  | finished
deriving DecidableEq, Repr

def EventKind.value : EventKind → String
  | .started => "start"
  | .bytes => "bytes"
  | .finished => "done"

/-- `EventKind(event)`. -/
def EventKind.ofValue (event : String) : Option EventKind :=
  [EventKind.started, .bytes, .finished].find? (fun k => k.value = event)

/-- The event classes: `EntryStarted`, `BytesWritten`, `EntryFinished`. -/
inductive ProgressEvent
  | entryStarted (index : Nat) (path : PurePosixPath) (size : Nat)
  | bytesWritten (index written : Nat)
  | entryFinished (index : Nat)
deriving DecidableEq

/-- `_BUILDERS[kind](index, path, written, size)`. -/
def EventKind.build (kind : EventKind) (r : RawEvent) : ProgressEvent :=
  match kind with
  | .started => .entryStarted r.index (PurePosixPath.ofString (r.path.getD "")) r.size
  | .bytes => .bytesWritten r.index r.written
  | .finished => .entryFinished r.index

/-- `event_from_raw`. -/
def eventFromRaw (r : RawEvent) : Except PyExc ProgressEvent :=
  match EventKind.ofValue r.event with
  | some kind => .ok (kind.build r)
  | none => .error
      { cls := .valueError, text := "Unknown event type: '" ++ r.event ++ "'" }

/-- A user callback answers the last of the events it has been handed so far,
and may look at all of them. -/
abbrev ProgressCallback := List ProgressEvent → Reply

/-- `_wrap_progress`: the raw form of a callback, over the raw events so far. -/
def wrapProgress (progress : ProgressCallback) (before : List RawEvent) (r : RawEvent) :
    Reply :=
  match eventFromRaw r with
  | .error exc => .raises exc
  | .ok event =>
      progress (before.filterMap (fun b => (eventFromRaw b).toOption) ++ [event])

/-- `build_progress_fn`: only the answer `False` and a raise stop the engine. -/
def buildProgressFn (raw : List RawEvent → RawEvent → Reply)
    (before : List CoreEvent) (event : CoreEvent) : Flow :=
  match raw (before.map CoreEvent.raw) event.raw with
  | .returns value => if value.extractBool = some false then .abort else .continue
  | .raises _ => .abort

/-- The event object of an engine event. -/
def CoreEvent.decoded : CoreEvent → ProgressEvent
  | .entryStart index path size => .entryStarted index (PurePosixPath.ofString path) size
  | .bytes index written => .bytesWritten index written
  | .entryDone index => .entryFinished index

/-- Every event the engine sends is decoded to the class of its tag. -/
theorem eventFromRaw_decoded (event : CoreEvent) :
    eventFromRaw event.raw = .ok event.decoded := by
  cases event <;> rfl

end NewtuaPy
