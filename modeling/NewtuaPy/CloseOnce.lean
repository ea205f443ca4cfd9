import NewtuaPy.TempFileClaims

/-!
# Giving up a claim once

`_PipeStream.close`, class by class: the backing's `close`, the closed flag that
the `io` base class sets after it, and the callback in the `finally` block,
guarded by the flag as it was before.  The module follows a stream through any
sequence of `close()` calls whose backing may fail, first over an arbitrary
callback, then in the world of an archive, where the callback releases a
`_TempFile`.
-/

namespace NewtuaPy

variable {σ : Type}

/-- A stream object as `close` sees it: the closed flag of the base class, how
often the callback has been called, and the world it acts on. -/
structure Handle (σ : Type) where
  closed : Bool := false
  invoked : Nat := 0
  world : σ

namespace Handle

/-- `io.BufferedIOBase.close` of a stream with nothing to flush. -/
def ioClose : Py (Handle σ) Unit := Exn.modify fun self => { self with closed := true }

/-- `self._backing.close()`, which may raise. -/
def backingClose : Option PyExc → Py (Handle σ) Unit
  | some exc => Exn.raise exc
  | none => pure ()

/-- `EntryStream.close`. -/
def entryStreamClose (fault : Option PyExc) : Py (Handle σ) Unit := do
  let self ← Exn.get
  if self.closed then ioClose
  else do
    backingClose fault
    ioClose

/-- `self._on_close()`. -/
def callback (onClose : Py σ Unit) : Py (Handle σ) Unit := do
  Exn.modify fun self => { self with invoked := self.invoked + 1 }
  Exn.zoom Handle.world (fun self world => { self with world }) onClose

/-- `_PipeStream.close`. -/
def close (onClose : Option (Py σ Unit)) (fault : Option PyExc) : Py (Handle σ) Unit := do
  let self ← Exn.get
  let alreadyClosed := self.closed
  Exn.ensuring (entryStreamClose fault)
    (match alreadyClosed, onClose with
      | false, some onClose => callback onClose
      | _, _ => pure ())

/-- The stream after a sequence of `close()` calls. -/
def closes (onClose : Option (Py σ Unit)) (self : Handle σ) (faults : List (Option PyExc)) :
    Handle σ :=
  faults.foldl (fun self fault => (close onClose fault self).2) self

/-! ## One call -/

theorem close_closed (onClose : Option (Py σ Unit)) (fault : Option PyExc) {self : Handle σ}
    (closed : self.closed = true) : close onClose fault self = (.ok (), self) := by
  obtain ⟨_, invoked, world⟩ := self
  cases closed
  rfl

/-- The callback runs whatever the backing did; the flag is set only if it closed. -/
theorem close_open (onClose : Py σ Unit) (fault : Option PyExc) {self : Handle σ}
    (unclosed : self.closed = false) :
    (close (some onClose) fault self).2 =
      { closed := fault.isNone, invoked := self.invoked + 1, world := (onClose self.world).2 } := by
  unfold close
  rw [Exn.get_bind_apply, Exn.ensuring_snd]
  obtain ⟨_, invoked, world⟩ := self
  cases unclosed
  cases fault <;> rfl

/-! ## Any number of calls -/

theorem closes_closed (onClose : Option (Py σ Unit)) {self : Handle σ}
    (closed : self.closed = true) (faults : List (Option PyExc)) :
    closes onClose self faults = self := by
  induction faults with
  | nil => rfl
  | cons fault faults ih =>
      unfold closes at ih ⊢
      rw [List.foldl_cons, close_closed onClose fault closed]
      exact ih

/-- A claim is given up once: with the first `close()`, and never again. -/
def GivesUpOnce (onClose : Py σ Unit) (w : σ) (faults : List (Option PyExc)) : Prop :=
  ∀ calls, calls <+: faults → calls ≠ [] →
    (closes (some onClose) { world := w } calls).invoked = 1

/-- The backing closes with the first call, or there is no second one. -/
def ClosesFirst (faults : List (Option PyExc)) : Prop :=
  faults.tail = [] ∨ faults.head? = some none

/-- Under that condition, the calls leave what one run of the callback leaves. -/
theorem closes_of_closesFirst (onClose : Py σ Unit) (w : σ) {fault : Option PyExc}
    {faults : List (Option PyExc)} (first : ClosesFirst (fault :: faults)) :
    closes (some onClose) { world := w } (fault :: faults) =
      { closed := fault.isNone, invoked := 1, world := (onClose w).2 } := by
  have once : (close (some onClose) fault { world := w }).2 =
      { closed := fault.isNone, invoked := 1, world := (onClose w).2 } :=
    close_open onClose fault rfl
  unfold closes
  rw [List.foldl_cons, once]
  rcases first with alone | succeeds
  · obtain rfl : faults = [] := alone
    rfl
  · obtain rfl : fault = none := Option.some.inj succeeds
    exact closes_closed (some onClose) rfl faults

theorem givesUpOnce_iff (onClose : Py σ Unit) (w : σ) (faults : List (Option PyExc)) :
    GivesUpOnce onClose w faults ↔ ClosesFirst faults := by
  constructor
  · intro once
    rcases faults with _ | ⟨_ | exc, _ | ⟨fault, faults⟩⟩
    · exact Or.inl rfl
    · exact Or.inl rfl
    · exact Or.inr rfl
    · exact Or.inl rfl
    · -- the first call left the flag down, so the second runs the callback again
      have twice := once [some exc, fault] ⟨faults, rfl⟩ (List.cons_ne_nil _ _)
      unfold closes at twice
      rw [List.foldl_cons, close_open onClose (some exc) rfl, List.foldl_cons,
        close_open onClose fault rfl] at twice
      cases twice
  · intro first calls part some
    obtain ⟨rest, rfl⟩ := part
    rcases calls with _ | ⟨fault, calls⟩
    · exact absurd rfl some
    · have shorter : ClosesFirst (fault :: calls) := by
        rcases first with alone | succeeds
        · left
          exact (List.append_eq_nil_iff.mp alone).1
        · exact Or.inr succeeds
      rw [closes_of_closesFirst onClose w shorter]

end Handle

/-! ## In the world of an archive -/

/-- What leaves the claims alone commutes with giving one up. -/
theorem World.afterRelease_withStreams (w : World) (streams : List PipeStream) (t : Nat) :
    { w with streams }.afterRelease t = { w.afterRelease t with streams } := by
  unfold World.afterRelease
  dsimp only
  rcases w.temps[t]? with _ | f
  · rfl
  · dsimp only
    split <;> rfl

/-- The world with the `k`-th stream at its handle's state. -/
def Handle.placed (k : Nat) (p : PipeStream) (self : Handle World) : World :=
  { self.world with streams := self.world.streams.set k { p with closed := self.closed } }

theorem Handle.placed_self {k : Nat} {p : PipeStream} {w : World}
    (entry : w.streams[k]? = some p) :
    Handle.placed k p { closed := p.closed, world := w } = w := by
  obtain ⟨inside, rfl⟩ := List.getElem?_eq_some_iff.mp entry
  have same : w.streams.set k w.streams[k] = w.streams := List.set_getElem_self inside
  exact congrArg (fun streams => { w with streams }) same

/-- The callback of a stream of an archive. -/
def PipeStream.release (p : PipeStream) : Option (Py World Unit) := p.onClose.map TempFile.release

theorem Handle.placed_afterRelease (k : Nat) (p : PipeStream) (self : Handle World) (t : Nat) :
    (self.placed k p).afterRelease t =
      { self with world := self.world.afterRelease t }.placed k p := by
  unfold Handle.placed
  rw [World.afterRelease_withStreams, World.afterRelease_streams]

/-- Marking the stream closed. -/
theorem Handle.placed_marked {k : Nat} (p : PipeStream) {self : Handle World}
    (inside : k < self.world.streams.length) :
    { self.placed k p with
        streams := (self.placed k p).streams.modify k ({ · with closed := true }) } =
      { self with closed := true }.placed k p := by
  unfold Handle.placed
  dsimp only
  rw [List.modify_eq_set_getElem?, List.getElem?_set_self inside]
  simp [List.set_set]

/-- The stream's handle after one call. -/
theorem Handle.close_release (p : PipeStream) (fault : Option PyExc) {self : Handle World}
    (unclosed : self.closed = false) :
    (Handle.close p.release fault self).2.closed = fault.isNone ∧
      (Handle.close p.release fault self).2.world =
        match p.onClose with
        | some t => self.world.afterRelease t
        | none => self.world := by
  unfold PipeStream.release
  rcases p.onClose with _ | t
  · unfold Handle.close
    rw [Option.map_none, Exn.get_bind_apply, Exn.ensuring_snd]
    obtain ⟨_, invoked, world⟩ := self
    cases unclosed
    cases fault <;> exact ⟨rfl, rfl⟩
  · rw [Option.map_some, Handle.close_open _ fault unclosed, TempFile.release_run]
    exact ⟨rfl, rfl⟩

/-- `closeStream` is `_PipeStream.close` at that stream. -/
theorem closeStream_placed {k : Nat} (p : PipeStream) (fault : Option PyExc)
    {self : Handle World} (inside : k < self.world.streams.length) :
    (closeStream k fault (self.placed k p)).2 =
      (Handle.close p.release fault self).2.placed k p := by
  have here : (self.placed k p).streams[k]? = some { p with closed := self.closed } := by
    unfold Handle.placed
    exact List.getElem?_set_self inside
  unfold closeStream
  rw [Exn.get_bind_apply, here]
  rcases unclosed : self.closed with _ | _
  · obtain ⟨closed, world⟩ := Handle.close_release p fault unclosed
    have marked := Handle.placed_marked p inside
    have target : (Handle.close p.release fault self).2.placed k p =
        { self with closed := fault.isNone, world := match p.onClose with
            | some t => self.world.afterRelease t
            | none => self.world }.placed k p := by
      unfold Handle.placed
      rw [closed, world]
    rw [target]
    have released (w : World) (t : Nat) (r : Except PyExc Unit) :
        ((do TempFile.release t; Exn.lift r : Py World Unit) w).2 = w.afterRelease t :=
      congrArg Prod.snd (Exn.bind_of_ok (TempFile.release_run t w) _)
    cases fault with
    | none =>
        rcases claim : p.onClose with _ | t
        · exact marked
        · refine (released _ t _).trans ?_
          exact (congrArg (World.afterRelease · t) marked).trans
            (Handle.placed_afterRelease k p _ t)
    | some exc =>
        obtain ⟨_, invoked, w⟩ := self
        cases unclosed
        rcases claim : p.onClose with _ | t
        · rfl
        · refine (released _ t _).trans ?_
          exact Handle.placed_afterRelease k p _ t
  · rw [Handle.close_closed _ fault unclosed]
    rfl

/-- The stream is closed over and over. -/
def closeStreams (k : Nat) (w : World) (faults : List (Option PyExc)) : World :=
  faults.foldl (fun w fault => (closeStream k fault w).2) w

theorem Handle.close_streams (p : PipeStream) (fault : Option PyExc) (self : Handle World) :
    (Handle.close p.release fault self).2.world.streams = self.world.streams := by
  rcases unclosed : self.closed with _ | _
  · obtain ⟨-, world⟩ := Handle.close_release p fault unclosed
    rw [world]
    rcases p.onClose with _ | t
    · rfl
    · exact self.world.afterRelease_streams t
  · rw [Handle.close_closed _ fault unclosed]

theorem closeStreams_placed {k : Nat} (p : PipeStream) {self : Handle World}
    (inside : k < self.world.streams.length) (faults : List (Option PyExc)) :
    closeStreams k (self.placed k p) faults = (self.closes p.release faults).placed k p := by
  induction faults generalizing self with
  | nil => rfl
  | cons fault faults ih =>
      unfold closeStreams Handle.closes at ih ⊢
      rw [List.foldl_cons, closeStream_placed p fault inside]
      apply ih
      rw [Handle.close_streams]
      exact inside

/-- Closing a stream over and over leaves the file another stream of the archive reads. -/
def SparesOthers (faults : List (Option PyExc)) : Prop :=
  ∀ (s : Session) (k j t : Nat) (p q : PipeStream), Archive.Settled s → k ≠ j →
    s.world.streams[k]? = some p → p.closed = false → p.onClose = some t →
    s.world.streams[j]? = some q → q.closed = false → q.onClose = some t →
    ((closeStreams k s.world faults).files (.temp t)).isSome = true

/-- With a second open stream on the file, the archive's streams claim it twice. -/
theorem one_lt_claimsOf (tempfile : Option Nat) {streams : List PipeStream} {k j t : Nat}
    {p q : PipeStream} (other : k ≠ j)
    (first : streams[k]? = some p) (open₁ : p.closed = false) (claim₁ : p.onClose = some t)
    (second : streams[j]? = some q) (open₂ : q.closed = false) (claim₂ : q.onClose = some t) :
    1 < claimsOf tempfile streams t := by
  -- with the first stream closed there is one claim less, and still that of the second
  have fewer := claimsOf_closed tempfile first open₁ t
  rw [if_pos claim₁] at fewer
  have still : (streams.modify k ({ · with closed := true }))[j]? = some q := by
    rw [List.getElem?_modify_ne _ _ other]
    exact second
  have positive := claimsOf_stream_pos tempfile still open₂ claim₂
  omega

theorem sparesOthers_of_closesFirst {faults : List (Option PyExc)}
    (first : Handle.ClosesFirst faults) : SparesOthers faults := by
  intro s k j t p q settled other entry unclosed claim entry' unclosed' claim'
  have claimed : 1 < claimsOf s.self.tempfile s.world.streams t :=
    one_lt_claimsOf s.self.tempfile other entry unclosed claim entry' unclosed' claim'
  have before := settled.accounted
  rcases faults with _ | ⟨fault, faults⟩
  · obtain ⟨f, -, counts⟩ := before.claimed (t := t) (by omega)
    have present := counts.present.mpr (by omega)
    rw [counts.path] at present
    exact present
  · have inside : k < s.world.streams.length := (List.getElem?_eq_some_iff.mp entry).1
    have start : Handle.placed k p { world := s.world } = s.world := by
      have same := Handle.placed_self entry
      rw [unclosed] at same
      exact same
    have run : closeStreams k (Handle.placed k p { world := s.world }) (fault :: faults) =
        (Handle.closes p.release { world := s.world } (fault :: faults)).placed k p :=
      closeStreams_placed p inside (fault :: faults)
    unfold PipeStream.release at run
    rw [claim, Option.map_some, Handle.closes_of_closesFirst _ _ first, TempFile.release_run,
      start] at run
    rw [run]
    obtain ⟨f, entry, counts⟩ := (before.release (t := t) (by omega)).claimed (t := t)
      (by rw [Function.update_self]; omega)
    have present := counts.present.mpr (by rw [Function.update_self]; omega)
    rw [counts.path] at present
    exact present

/-- A pipe stream gives up its claim exactly once, and spares the file that
another stream reads, in every sequence of `close()` calls in which the backing
closes with the first one, and in the sequences of one call; in no other. -/
theorem gives_up_once_iff (onClose : Py σ Unit) (w : σ) (faults : List (Option PyExc)) :
    (Handle.GivesUpOnce onClose w faults ∧ SparesOthers faults) ↔ Handle.ClosesFirst faults := by
  rw [Handle.givesUpOnce_iff]
  exact ⟨And.left, fun first => ⟨first, sparesOthers_of_closesFirst first⟩⟩

/-- The archive and one stream are closed, and the other stream reads the file:
with a backing that fails once, its two `close()` calls delete that file. -/
theorem closed_twice_deletes :
    let exc : PyExc := { cls := .osError, text := "[Errno 5] Input/output error" }
    let s := Archive.live.runState (Archive.init (fun _ => none) Archive.bytesIO none none)
      [.call (Archive.oneEntry 8 Archive.intact) (.openStream (.int 0)),
        .call (Archive.oneEntry 8 Archive.intact) (.openStream (.int 0)), .close]
    (Handle.closes (some (TempFile.release 0)) { world := s.world } [some exc, none]).invoked = 2 ∧
      (s.world.files (.temp 0)).isSome = true ∧
      (closeStreams 0 s.world [some exc, none]).files (.temp 0) = none ∧
      (closeStreams 0 s.world [some exc, none]).streams[1]?.map (·.closed) = some false := by
  decide

end NewtuaPy
