import NewtuaPy.History

/-!
# Invariants of a session

Every accessor call opens the archive lazily, takes the listing, and hands work
to the engine or opens a pipe.  An invariant that these steps preserve is
preserved by every call, whether it returns or raises.
-/

namespace NewtuaPy

namespace Archive

variable {I : Session → Prop} {eng : Engine} {α : Type}

/-- The steps every call is made of preserve `I`. -/
structure Upheld (I : Session → Prop) (eng : Engine) : Prop where
  opens : Exn.Keeps I (_open eng)
  lists : Exn.Keeps I (_listing eng)
  asks : ∀ s w, I s → s.world.Quiet w → I { s with world := w }
  pipes : ∀ (s : Session) (x : Py World Bytes) (size : Option Int), I s →
    (∀ w : World, w.Quiet (x w).2) →
      I { s with world := (openPipe s.self.tempfile x size s.world).2 }

/-- Looking the name index up changes nothing. -/
theorem nameIndex_keeps : Exn.Keeps I Archive.nameIndex := by
  intro s h
  unfold Archive.nameIndex
  rw [Exn.get_bind_apply]
  rcases s.self.byName with _ | byName <;> exact h

theorem typed_keeps {x : Py Session α} (h : Exn.Keeps I x) : Exn.Keeps I (typed x) :=
  h.handle fun _ => Exn.Keeps.raise _

theorem openStream_quiet (eng : Engine) (r : RustArchive) (index : Int) (w : World) :
    w.Quiet (r.openStream eng index w).2 := by
  unfold RustArchive.openStream
  rcases argument : usizeArg index with exc | i
  · exact .refl w
  · rw [Exn.lift_ok_bind_apply]
    by_cases outside : r.entries.length ≤ i
    · rw [if_pos outside]
      exact .refl w
    · rw [if_neg outside, spawnStreamWorkerUnix_run]
      exact (World.Quiet.refl w).logged _

namespace Upheld

/-- A call of the compiled module that only asks the engine. -/
theorem onWorld (h : Upheld I eng) {x : Py World α} (quiet : ∀ w : World, w.Quiet (x w).2) :
    Exn.Keeps I (onWorld x) :=
  fun s holds => h.asks s _ holds (quiet s.world)

theorem _indexOf (h : Upheld I eng) (ref : Ref) : Exn.Keeps I (_indexOf eng ref) :=
  h.lists.bind fun _ => Exn.Keeps.lift _

theorem getitem (h : Upheld I eng) (key : Key) : Exn.Keeps I (getitem eng key) := by
  refine h.lists.bind fun entries => ?_
  cases key with
  | slice slice => exact (Exn.Keeps.lift _).bind fun _ => Exn.Keeps.pure _
  | int i => exact (Exn.Keeps.lift _).bind fun _ => Exn.Keeps.pure _
  | name text =>
      exact nameIndex_keeps.bind fun _ => (Exn.Keeps.lift _).bind fun _ => Exn.Keeps.pure _
  | path path =>
      exact nameIndex_keeps.bind fun _ => (Exn.Keeps.lift _).bind fun _ => Exn.Keeps.pure _

theorem contains (h : Upheld I eng) (key : Member) : Exn.Keeps I (contains eng key) := by
  cases key with
  | other => exact Exn.Keeps.pure _
  | entry e => exact h.lists.bind fun _ => Exn.Keeps.pure _
  | name text => exact h.lists.bind fun _ => nameIndex_keeps.bind fun _ => Exn.Keeps.pure _
  | path path => exact h.lists.bind fun _ => nameIndex_keeps.bind fun _ => Exn.Keeps.pure _

theorem needsPassword (h : Upheld I eng) : Exn.Keeps I (needsPassword eng) := by
  refine Exn.Keeps.handle (h.lists.bind fun _ => Exn.Keeps.pure _) fun exc => ?_
  split
  · exact Exn.Keeps.pure _
  · exact Exn.Keeps.raise _

theorem openStream (h : Upheld I eng) (ref : Ref) : Exn.Keeps I (openStream eng ref) := by
  refine h.opens.bind fun r => (h._indexOf ref).bind fun index =>
    h.lists.bind fun entries => (Exn.Keeps.lift _).bind fun entry => ?_
  intro s holds
  unfold _openPipePosix
  rw [Exn.get_bind_apply]
  exact h.pipes s _ (some entry.size) holds (openStream_quiet eng r index)

theorem indices (h : Upheld I eng) (refs : List Ref) : Exn.Keeps I (indices eng refs) := by
  induction refs with
  | nil => exact Exn.Keeps.pure _
  | cons ref refs ih =>
      exact (h._indexOf ref).bind fun i => ih.bind fun is => Exn.Keeps.pure _

theorem selected (h : Upheld I eng) (selection : Option (List Ref)) :
    Exn.Keeps I (selected eng selection) := by
  cases selection with
  | none => exact Exn.Keeps.pure _
  | some refs => exact (h.indices refs).bind fun is => Exn.Keeps.pure _

theorem extract (h : Upheld I eng) (request : ExtractRequest) :
    Exn.Keeps I (extract eng request) := by
  refine h.opens.bind fun r => (h.selected _).bind fun selection => ?_
  refine Exn.Keeps.get.bind fun s => typed_keeps (h.onWorld ?_)
  exact (r.extract_asks eng _).quiet

/-- Every accessor call preserves the invariant, however it ends. -/
theorem call (h : Upheld I eng) (c : Call) : Exn.Keeps I (call eng c) := by
  have packed {α : Type} {x : Py Session α} (f : α → Value) (keeps : Exn.Keeps I x) :
      Exn.Keeps I (x >>= fun a => pure (f a)) :=
    keeps.bind fun a => Exn.Keeps.pure (f a)
  cases c with
  | len => exact packed _ h.lists
  | iter => exact packed _ h.lists
  | getitem key => exact h.getitem key
  | contains key => exact packed _ (h.contains key)
  | format => exact packed _ (h.opens.bind fun r => Exn.Keeps.lift _)
  | detectedEncoding => exact packed _ (h.opens.bind fun r => Exn.Keeps.pure _)
  | needsPassword => exact packed _ h.needsPassword
  | read ref =>
      exact packed _ (h.opens.bind fun r => (h._indexOf ref).bind fun i =>
        typed_keeps (h.onWorld (r.read_asks i).quiet))
  | openBuffered ref =>
      exact packed _ (h.opens.bind fun r => (h._indexOf ref).bind fun i =>
        typed_keeps (h.onWorld (r.writeEntryTo_asks i).quiet))
  | openStream ref => exact packed _ (h.openStream ref)
  | extract request => exact packed _ (h.extract request)

end Upheld

/-! ## Opening -/

/-- The steps that opening and listing are made of preserve `I`. -/
structure Opening (I : Session → Prop) : Prop where
  spills : ∀ s, I s → s.self.closed = false → s.self.source.ownPath = none →
    liveTempfile s = none → I (spill s).2
  asks : ∀ s w, I s → s.world.Quiet w → I { s with world := w }
  drops : ∀ s, I s → I (dropped s)
  reads : ∀ s r, I s → I { s with self := { s.self with reader := r } }
  lists : ∀ s entries byName, I s → I { s with self := { s.self with entries, byName } }

namespace Opening

theorem backingPath (h : Opening I) {s : Session} (holds : I s)
    (unclosed : s.self.closed = false) : I (_backingPath s).2 := by
  rcases _backingPath_cases s with ⟨p, -, run⟩ | ⟨p, -, -, run⟩ | ⟨noPath, dead, run⟩
  · rw [run]
    exact holds
  · rw [run]
    exact holds
  · rw [run]
    exact h.spills s holds unclosed noPath dead

theorem openAt (h : Opening I) (eng : Engine) (path : FilePath) :
    Exn.Keeps I (openAt eng path) := by
  intro s holds
  rw [openAt_run]
  have logged := h.asks s _ holds ((World.Quiet.refl s.world).logged
    { path, password := s.self.password, encoding := s.self.encoding, work := .open })
  dsimp only
  rcases eng.snapshot (s.world.files path) s.self.password s.self.encoding with
    (e | message) | o
  · exact h.drops _ logged
  · exact logged
  · exact h.reads _ _ logged

theorem _open (h : Opening I) (eng : Engine) : Exn.Keeps I (_open eng) := by
  intro s holds
  unfold Archive._open
  rw [Exn.get_bind_apply]
  cases unclosed : s.self.closed with
  | true => exact holds
  | false =>
      rw [if_neg Bool.false_ne_true]
      rcases s.self.reader with _ | r
      · have backed := h.backingPath holds unclosed
        dsimp only
        rcases back : _backingPath s with ⟨exc | path, s'⟩ <;> rw [back] at backed
        · rw [Exn.bind_of_error back]
          exact backed
        · rw [Exn.bind_of_ok back, Exn.get_bind_apply]
          have opened := h.openAt eng path s' backed
          rcases s'.self.source.ownPath with _ | (own | n)
          · exact opened
          · rcases s'.world.files path with _ | content
            · exact backed
            · exact opened
          · exact opened
      · exact holds

theorem _listing (h : Opening I) (eng : Engine) : Exn.Keeps I (_listing eng) := by
  intro s holds
  unfold Archive._listing
  rw [Exn.get_bind_apply]
  rcases s.self.entries with _ | entries
  · refine Exn.Keeps.bind (h._open eng) (fun r => ?_) s holds
    exact fun s holds => h.lists s _ _ holds
  · exact holds

/-- What copying a source leaves true of it, opening leaves true. -/
theorem ofSource {P : Source → Prop} (copied : ∀ source, P source → P source.afterCopy) :
    Opening fun s => P s.self.source where
  spills := by
    intro s holds _ noPath _
    rcases Source.delivers_or_fails noPath with ⟨content, delivers⟩ | ⟨file, exc, stream, failed⟩
    · rw [spill_run delivers]
      exact copied _ holds
    · rw [spill_failed stream failed]
      exact copied _ holds
  asks := fun _ _ holds _ => holds
  drops := by
    intro s holds
    unfold dropped
    cases s.self.tempfile <;> exact holds
  reads := fun _ _ holds => holds
  lists := fun _ _ _ holds => holds

end Opening

/-- What copying a source leaves true of it, every call leaves true. -/
theorem Upheld.ofSource {P : Source → Prop} (copied : ∀ source, P source → P source.afterCopy)
    (eng : Engine) : Upheld (fun s => P s.self.source) eng where
  opens := (Opening.ofSource copied)._open eng
  lists := (Opening.ofSource copied)._listing eng
  asks := fun _ _ holds _ => holds
  pipes := fun _ _ _ holds _ => holds

theorem close_source {P : Source → Prop} {s : Session} (holds : P s.self.source) :
    P (close s).2.self.source := by
  rw [close_run]
  unfold dropped
  cases (shut s.self).tempfile <;> exact holds

end Archive

end NewtuaPy
