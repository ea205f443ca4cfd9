import NewtuaPy.AsyncArchive
import NewtuaPy.History

/-!
# Entering and leaving an asynchronous archive

What `__aenter__` and `__aexit__` do, branch by branch: the backing path is
found or spilled, a path that is not there is refused, the listing is taken, and
the only claim on a spilled file is given up.
-/

namespace NewtuaPy.AsyncArchive

variable {a : AsyncSession} {p : FilePath}

/-! ## Parts of a session -/

theorem onWorld_run {α : Type} {x : Py World α} {r : Except PyExc α} {w : World}
    (h : x a.world = (r, w)) : onWorld x a = (r, { a with world := w }) := by
  unfold onWorld
  rw [Exn.zoom_apply, h]

theorem onSync_run {α : Type} {x : Py Session α} {r : Except PyExc α} {s : Session}
    (h : x (inner a) = (r, s)) :
    onSync x a = (r, { world := s.world, self := { a.self with sync := s.self } }) := by
  unfold onSync
  rw [Exn.zoom_apply, h]

theorem onSync_close (a : AsyncSession) :
    onSync Archive.close a = (.ok (), (onSync Archive.close a).2) :=
  congrArg (·, _) (congrArg Prod.fst (onSync_run (Archive.close_run (inner a))))

theorem _ensureReady_cases (a : AsyncSession) :
    (∃ p, _ensureReady a = (.ok p, a) ∧ a.self.closed = false ∧ a.self.path = some p) ∨
      (_ensureReady a = (.error notReady, a) ∧ (a.self.closed = true ∨ a.self.path = none)) := by
  unfold _ensureReady
  rw [Exn.get_bind_apply]
  rcases path : a.self.path with _ | p
  · exact Or.inr ⟨rfl, Or.inr rfl⟩
  · rcases closed : a.self.closed with _ | _
    · exact Or.inl ⟨p, rfl, rfl, rfl⟩
    · exact Or.inr ⟨rfl, Or.inl rfl⟩

theorem selected_run (selection : Option (List Ref)) (a : AsyncSession) :
    selected selection a = (View.select a.self.entries selection, a) := by
  unfold selected View.select
  rw [Exn.get_bind_apply]
  cases selection with
  | none => rfl
  | some refs => exact Exn.lift_map_apply (refs.mapM (resolveIndex a.self.entries)) some a

/-! ## Entering -/

theorem enterAt_ok {eng : Engine} {p : FilePath} {o : Opened}
    (found : eng.snapshot (a.world.files p) a.self.password a.self.encoding = .ok o) :
    enterAt eng p a =
      (.ok (), {
        world := a.world.logged ⟨p, a.self.password, a.self.encoding, .list⟩
        self := { a.self with
          entries := (entriesFromRaw o.entries false).1
          byName := (entriesFromRaw o.entries false).2
          _format := some (formatName o.reader.format)
          _detectedEncoding := some o.detectedEncoding } }) := by
  have listing := onWorld_run (a := a) (listPath_run eng p a.self.password a.self.encoding a.world)
  rw [found] at listing
  unfold enterAt
  rw [Exn.get_bind_apply, Exn.bind_of_ok (Exn.handle_of_ok listing _)]
  rfl

theorem enterAt_error {eng : Engine} {p : FilePath} {fault : Fault}
    (found : eng.snapshot (a.world.files p) a.self.password a.self.encoding = .error fault) :
    ∃ a', enterAt eng p a = (.error fault.toPyExc.raised, a') := by
  have listing := onWorld_run (a := a) (listPath_run eng p a.self.password a.self.encoding a.world)
  rw [found] at listing
  let asked : AsyncSession :=
    { a with world := a.world.logged ⟨p, a.self.password, a.self.encoding, .list⟩ }
  unfold enterAt
  rw [Exn.get_bind_apply]
  rcases caught : fault.toPyExc.isException with _ | _
  · refine ⟨asked, Exn.bind_of_error ?_ _⟩
    rw [Exn.handle_of_error listing, caught, PyExc.raised_of_not_isException caught]
    rfl
  · refine ⟨(onSync Archive.close asked).2, Exn.bind_of_error ?_ _⟩
    rw [Exn.handle_of_error listing, caught, if_pos rfl, Exn.bind_of_ok (onSync_close _),
      PyExc.raised_of_isException caught]
    rfl

/-- The tail of `aenter`, once the backing path is known. -/
def enterBacked (eng : Engine) (own : Option FilePath) (file : Option Bytes) (p : FilePath) :
    Py AsyncSession Unit :=
  match own, file with
  | some (.named own), none => do
      onSync Archive.close
      Exn.raise (fileNotFound own)
  | _, _ => enterAt eng p

theorem aenter_run (eng : Engine) {a' : AsyncSession}
    (spilled : onSync Archive._backingPath a = (.ok p, a')) :
    aenter eng a = enterBacked eng a'.self.sync.source.ownPath (a'.world.files p) p
      { a' with self := { a'.self with path := some p } } := by
  unfold aenter
  rw [Exn.bind_of_ok spilled]
  rfl

theorem aenter_unbacked (eng : Engine) {exc : PyExc} {s : Session}
    (failed : Archive._backingPath (inner a) = (.error exc, s)) :
    aenter eng a = (.error exc, { world := s.world, self := { a.self with sync := s.self } }) :=
  Exn.bind_of_error (onSync_run failed) _

theorem enterBacked_present (eng : Engine) {own : Option FilePath} {file : Option Bytes}
    (present : own = none ∨ file.isSome = true) (p : FilePath) :
    enterBacked eng own file p = enterAt eng p := by
  unfold enterBacked
  split
  · simp at present
  · rfl

theorem missing_or_present (source : Source) (file : Option Bytes) :
    (∃ own, source.ownPath = some (.named own) ∧ file = none) ∨
      (source.ownPath = none ∨ file.isSome = true) := by
  rcases own : source.ownPath with _ | p
  · exact Or.inr (Or.inl rfl)
  · obtain ⟨name, rfl⟩ := Source.ownPath_named own
    cases file with
    | none => exact Or.inl ⟨name, rfl, rfl⟩
    | some content => exact Or.inr (Or.inr rfl)

/-! ## The backing path -/

/-- A source that cannot be read to its end is not spilled. -/
theorem backingPath_unreadable (files : FilePath → Option Bytes) {source : Source}
    (unreadable : ¬ source.Readable) (password encoding : Option String) :
    ∃ exc s, Archive._backingPath (Archive.init files source password encoding) =
      (.error exc, s) := by
  cases source with
  | path arg => exact absurd True.intro unreadable
  | bytes content => exact absurd True.intro unreadable
  | stream file =>
      have spills := Archive._backingPath_dead
        (s := Archive.init files (.stream file) password encoding) rfl rfl
      rcases outcome : (copyLoop file.replies).1 with exc | done
      · exact ⟨exc, _, spills.trans (Archive.spill_failed rfl outcome)⟩
      · exact absurd outcome unreadable

theorem delivers_of_readable {source : Source} (readable : source.Readable)
    (noPath : source.ownPath = none) : ∃ content, source.Delivers content := by
  cases source with
  | path arg => cases noPath
  | bytes content => exact ⟨content, rfl⟩
  | stream file => exact ⟨_, readable, rfl⟩

theorem backingPath_spills {s : Session} {content : Bytes} (noPath : s.self.source.ownPath = none)
    (dead : Archive.liveTempfile s = none) (delivers : s.self.source.Delivers content) :
    Archive._backingPath s = (.ok (.temp s.world.nextTemp),
      { world := s.world.spilled content
        self := { s.self with
          source := s.self.source.afterCopy
          tempfile := some s.world.temps.length } }) :=
  (Archive._backingPath_dead noPath dead).trans (Archive.spill_run delivers)

/-- Entering an archive that has nothing spilled spills its source. -/
theorem aenter_spills (eng : Engine) {content : Bytes} (noPath : a.self.sync.source.ownPath = none)
    (unspilled : a.self.sync.tempfile = none) (delivers : a.self.sync.source.Delivers content) :
    ∃ a', aenter eng a = enterAt eng (.temp a.world.nextTemp) a' ∧
      a'.world = a.world.spilled content ∧ a'.self.path = some (.temp a.world.nextTemp) ∧
      a'.self.closed = a.self.closed ∧ a'.self.sync.tempfile = some a.world.temps.length := by
  have dead : Archive.liveTempfile (inner a) = none := Archive.liveTempfile_unspilled unspilled
  have back := backingPath_spills (s := inner a) noPath dead delivers
  have noPath' : a.self.sync.source.afterCopy.ownPath = none :=
    (Source.afterCopy_ownPath _).trans noPath
  let sync : Archive :=
    { a.self.sync with
      source := a.self.sync.source.afterCopy
      tempfile := some a.world.temps.length }
  refine ⟨{ world := a.world.spilled content
            self := { a.self with sync := sync, path := some (.temp a.world.nextTemp) } },
    ?_, rfl, rfl, rfl, rfl⟩
  have entered := aenter_run (a := a) eng (onSync_run back)
  exact entered.trans (congrFun (enterBacked_present eng (.inl noPath') _) _)

/-- The listing half of entering leaves the files and the claims alone. -/
theorem enterAt_kept {eng : Engine} {a' : AsyncSession}
    (entering : enterAt eng p a = (.ok (), a')) :
    a.world.Quiet a'.world ∧ a'.self.sync = a.self.sync ∧ a'.self.path = a.self.path ∧
      a'.self.closed = a.self.closed := by
  rcases snapshot : eng.snapshot (a.world.files p) a.self.password a.self.encoding with fault | o
  · obtain ⟨_, raised⟩ := enterAt_error snapshot
    cases raised.symm.trans entering
  · cases (enterAt_ok snapshot).symm.trans entering
    exact ⟨(World.Quiet.refl _).logged _, rfl, rfl, rfl⟩

/-! ## Leaving -/

theorem aexit_claimed {t : Nat} (claimed : a.self.sync.tempfile = some t) :
    aexit a = (.ok (), {
      world := a.world.afterRelease t
      self := { a.self with
        sync := { Archive.shut a.self.sync with tempfile := none }
        closed := true } }) := by
  have dropped : Archive.dropped { inner a with self := Archive.shut (inner a).self } =
      { world := a.world.afterRelease t
        self := { Archive.shut a.self.sync with tempfile := none } } := by
    unfold Archive.dropped Archive.shut inner
    dsimp only
    rw [claimed]
  have closing := Archive.close_run (inner a)
  rw [dropped] at closing
  exact Exn.bind_of_ok (onSync_run closing) _

theorem aexit_unclaimed (unclaimed : a.self.sync.tempfile = none) :
    aexit a = (.ok (), { a with self := { a.self with
      sync := Archive.shut a.self.sync
      closed := true } }) := by
  have dropped : Archive.dropped { inner a with self := Archive.shut (inner a).self } =
      { world := a.world, self := Archive.shut a.self.sync } := by
    unfold Archive.dropped Archive.shut inner
    dsimp only
    rw [unclaimed]
  have closing := Archive.close_run (inner a)
  rw [dropped] at closing
  exact Exn.bind_of_ok (onSync_run closing) _

end NewtuaPy.AsyncArchive
