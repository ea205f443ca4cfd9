import NewtuaPy.View

/-!
# The lazy open

`Archive.Sees V s` says that the session `s` is over the source of the view `V`
and that whatever it opens next, or has opened, holds the content of `V`.  Under
it `_open` ends as opening the view does.  The relation survives, with one
exception: a failed engine open gives up the spilled file, and a file object
cannot be read a second time.
-/

namespace NewtuaPy

/-! ## Sources and spilling -/

/-- The source once it has been copied into a spill file. -/
def Source.afterCopy : Source → Source
  | .stream file => .stream { file with replies := (copyLoop file.replies).2.2 }
  | source => source

/-- Copying the source from where it stands succeeds and gives `content`. -/
def Source.Delivers (content : Bytes) : Source → Prop
  | .path _ => False
  | .bytes b => b = content
  | .stream file => (copyLoop file.replies).1 = .ok () ∧ (copyLoop file.replies).2.1 = content

/-- The same source, but for how far a file object has been read. -/
def Source.Alike : Source → Source → Prop
  | .path a, .path b => a = b
  | .bytes a, .bytes b => a = b
  | .stream a, .stream b => a.name = b.name
  | _, _ => False

theorem Source.Alike.refl (source : Source) : source.Alike source := by
  cases source <;> rfl

theorem Source.Alike.ownPath {a b : Source} (h : a.Alike b) : a.ownPath = b.ownPath := by
  cases a <;> cases b <;> simp_all [Source.Alike, Source.ownPath]

theorem Source.Alike.wrapperNameSource {a b : Source} (h : a.Alike b) :
    a.wrapperNameSource = b.wrapperNameSource := by
  cases a <;> cases b <;> simp_all [Source.Alike, Source.wrapperNameSource]

theorem Source.Alike.afterCopy {a b : Source} (h : a.Alike b) : a.afterCopy.Alike b := by
  cases a <;> cases b <;> simp_all [Source.Alike, Source.afterCopy]

theorem Source.afterCopy_ownPath (source : Source) : source.afterCopy.ownPath = source.ownPath := by
  cases source <;> rfl

/-- A source without a path of its own is copied whole, or is a file object whose
reading fails. -/
theorem Source.delivers_or_fails {source : Source} (noPath : source.ownPath = none) :
    (∃ content, source.Delivers content) ∨
      ∃ file exc, source = .stream file ∧ (copyLoop file.replies).1 = .error exc := by
  cases source with
  | path arg => cases noPath
  | bytes content => exact Or.inl ⟨content, rfl⟩
  | stream file =>
      rcases outcome : (copyLoop file.replies).1 with exc | ⟨⟩
      · exact Or.inr ⟨file, exc, rfl, outcome⟩
      · exact Or.inl ⟨_, outcome, rfl⟩

theorem Source.ownPath_named {source : Source} {p : FilePath} (h : source.ownPath = some p) :
    ∃ own, p = .named own := by
  cases source with
  | path arg =>
      cases h
      exact ⟨_, rfl⟩
  | bytes content => cases h
  | stream file => cases h

namespace Archive

/-- A spill of a readable source makes one new temp file that holds it. -/
theorem spill_run {s : Session} {content : Bytes} (h : s.self.source.Delivers content) :
    spill s = (.ok (.temp s.world.nextTemp),
      { world := s.world.spilled content
        self := { s.self with
          source := s.self.source.afterCopy
          tempfile := some s.world.temps.length } }) := by
  rcases s with ⟨world, self⟩
  unfold spill fillSpill
  cases source : self.source with
  | path arg =>
      rw [source] at h
      exact h.elim
  | bytes b =>
      rw [source] at h
      cases h
      simp [onWorld, namedTemporaryFile, appendFile, TempFile.new, modifySelf, source,
        World.writeFile, World.spilled, Source.afterCopy, Exn.bind_apply]
  | stream file =>
      rw [source] at h
      obtain ⟨complete, written⟩ := h
      simp [onWorld, namedTemporaryFile, appendFile, TempFile.new, modifySelf, source, complete,
        written, World.writeFile, World.spilled, Source.afterCopy, Exn.bind_apply]

/-- A spill that cannot read the file object to its end leaves what it has written
behind, in a file the archive does not refer to. -/
theorem spill_failed {s : Session} {file : FileObj} {exc : PyExc}
    (source : s.self.source = .stream file) (outcome : (copyLoop file.replies).1 = .error exc) :
    spill s = (.error exc,
      { world :=
          { s.world with
            files := Function.update s.world.files (.temp s.world.nextTemp)
              (some (copyLoop file.replies).2.1)
            nextTemp := s.world.nextTemp + 1 }
        self := { s.self with source := s.self.source.afterCopy } }) := by
  rcases s with ⟨world, self⟩
  dsimp only at source
  unfold spill fillSpill
  simp [onWorld, namedTemporaryFile, appendFile, modifySelf, source, outcome, World.writeFile,
    Source.afterCopy, Exn.bind_apply]

theorem _backingPath_own {s : Session} {p : FilePath} (own : s.self.source.ownPath = some p) :
    _backingPath s = (.ok p, s) := by
  unfold _backingPath
  rw [Exn.get_bind_apply, own]
  rfl

theorem _backingPath_live {s : Session} {p : FilePath} (noPath : s.self.source.ownPath = none)
    (live : liveTempfile s = some p) : _backingPath s = (.ok p, s) := by
  unfold _backingPath
  rw [Exn.get_bind_apply, noPath, live]
  rfl

theorem _backingPath_dead {s : Session} (noPath : s.self.source.ownPath = none)
    (dead : liveTempfile s = none) : _backingPath s = spill s := by
  unfold _backingPath
  rw [Exn.get_bind_apply, noPath, dead]

/-- Everything `_backing_path` does. -/
theorem _backingPath_cases (s : Session) :
    (∃ p, s.self.source.ownPath = some p ∧ _backingPath s = (.ok p, s)) ∨
      (∃ p, s.self.source.ownPath = none ∧ liveTempfile s = some p ∧
        _backingPath s = (.ok p, s)) ∨
      (s.self.source.ownPath = none ∧ liveTempfile s = none ∧ _backingPath s = spill s) := by
  rcases own : s.self.source.ownPath with _ | p
  · rcases live : liveTempfile s with _ | p
    · exact Or.inr (Or.inr ⟨rfl, rfl, _backingPath_dead own live⟩)
    · exact Or.inr (Or.inl ⟨p, rfl, rfl, _backingPath_live own live⟩)
  · exact Or.inl ⟨p, rfl, _backingPath_own own⟩

theorem liveTempfile_unspilled {s : Session} (unspilled : s.self.tempfile = none) :
    liveTempfile s = none := by
  simp [liveTempfile, unspilled]

/-! ## The relation -/

/-- Where the content of the view is to be found. -/
inductive Backing (V : View) (s : Session) : Prop
  | own (p : FilePath) (source : V.source.ownPath = some p)
      (file : s.world.files p = V.content) (unspilled : s.self.tempfile = none)
  | spilled (t : Nat) (f : TempFile) (content : Bytes) (noPath : V.source.ownPath = none)
      (known : V.content = some content) (claimed : s.self.tempfile = some t)
      (entry : s.world.temps[t]? = some f) (held : 0 < f.holders)
      (file : s.world.files f.path = some content)
  | unread (content : Bytes) (noPath : V.source.ownPath = none)
      (known : V.content = some content) (unspilled : s.self.tempfile = none)
      (delivers : s.self.source.Delivers content)

/-- The content is still to be found where the files, the archive's claim and its
source are as they were. -/
theorem Backing.transfer {V V' : View} {s s' : Session} (h : Backing V s)
    (viewed : V'.source = V.source ∧ V'.content = V.content)
    (files : s'.world.files = s.world.files) (source : s'.self.source = s.self.source)
    (tempfile : s'.self.tempfile = s.self.tempfile)
    (claims : ∀ t f, s.self.tempfile = some t → s.world.temps[t]? = some f → 0 < f.holders →
      ∃ f', s'.world.temps[t]? = some f' ∧ f'.path = f.path ∧ 0 < f'.holders) :
    Backing V' s' := by
  obtain ⟨sameSource, sameContent⟩ := viewed
  cases h with
  | own p own file unspilled =>
      refine .own p ?_ ?_ (tempfile.trans unspilled)
      · rw [sameSource, own]
      · rw [files, file, sameContent]
  | spilled t f content noPath known claimed entry held file =>
      obtain ⟨f', entry', path, held'⟩ := claims t f claimed entry held
      refine .spilled t f' content ?_ (sameContent.trans known) (tempfile.trans claimed) entry'
        held' ?_
      · rw [sameSource, noPath]
      · rw [path, files, file]
  | unread content noPath known unspilled delivers =>
      refine .unread content ?_ (sameContent.trans known) (tempfile.trans unspilled) ?_
      · rw [sameSource, noPath]
      · rw [source]
        exact delivers

/-- The reader `r` is what opening the view's content gives, and its path still
holds that content. -/
structure Reads (V : View) (w : World) (r : RustArchive) : Prop where
  opened : V.opened = .ok r.toOpened
  password : r.password = V.password
  encoding : r.encoding = V.encoding
  file : w.files r.path = V.content

structure Sees (V : View) (s : Session) : Prop where
  owned : V.owned = true
  bytes : ∀ b, V.source = .bytes b → V.content = some b
  notClosed : s.self.closed = false
  password : s.self.password = V.password
  encoding : s.self.encoding = V.encoding
  alike : s.self.source.Alike V.source
  backing : Backing V s
  cached : ∀ r, s.self.reader = some r → Reads V s.world r
  listed : ∀ es, s.self.entries = some es →
    (∃ r, s.self.reader = some r ∧ es = V.entries r.toOpened) ∧
      s.self.byName = some (NewtuaPy.nameIndex es)

/-- `Sees`, with the reader `r` already open. -/
def Ready (V : View) (r : RustArchive) (s : Session) : Prop :=
  Sees V s ∧ s.self.reader = some r

variable {V : View} {s : Session} {r : RustArchive}

theorem Sees.ownPath (h : Sees V s) : s.self.source.ownPath = V.source.ownPath :=
  h.alike.ownPath

/-- Before the reader is there, `_backing_path` finds the content of the view. -/
theorem Sees.backingPath (h : Sees V s) (unread : s.self.reader = none) :
    ∃ p s', _backingPath s = (.ok p, s') ∧ Sees V s' ∧ s'.self.reader = none ∧
      s'.world.files p = V.content ∧ s'.world.log = s.world.log := by
  have own := h.ownPath
  cases h.backing with
  | own p source file unspilled =>
      exact ⟨p, s, _backingPath_own (own.trans source), h, unread, file, rfl⟩
  | spilled t f content noPath known claimed entry held file =>
      have live : liveTempfile s = some f.path := by
        simp [liveTempfile, claimed, entry, file]
      have found := _backingPath_live (own.trans noPath) live
      exact ⟨f.path, s, found, h, unread, file.trans known.symm, rfl⟩
  | unread content noPath known unspilled delivers =>
      have spills := _backingPath_dead (own.trans noPath) (liveTempfile_unspilled unspilled)
      refine ⟨_, _, spills.trans (spill_run delivers), ?_, unread, ?_, rfl⟩
      · refine
          { owned := h.owned, bytes := h.bytes, notClosed := h.notClosed, password := h.password
            encoding := h.encoding, alike := h.alike.afterCopy
            backing := .spilled s.world.temps.length { path := .temp s.world.nextTemp } content
              noPath known rfl ?_ Int.one_pos ?_
            cached := ?_, listed := ?_ }
        · simp [World.spilled]
        · simp [World.spilled]
        · intro r cached
          rw [unread] at cached
          cases cached
        · intro es listed
          obtain ⟨⟨r, cached, -⟩, -⟩ := h.listed es listed
          rw [unread] at cached
          cases cached
      · simp [World.spilled, known]

/-- The session without the archive's claim on its spilled file. -/
def dropped (s : Session) : Session :=
  match s.self.tempfile with
  | none => s
  | some t => { world := s.world.afterRelease t, self := { s.self with tempfile := none } }

theorem dropTempfile_run (s : Session) : dropTempfile s = (.ok (), dropped s) := by
  unfold dropTempfile dropped
  rw [Exn.get_bind_apply]
  rcases s.self.tempfile with _ | t
  · rfl
  · simp [onWorld, modifySelf, Exn.bind_apply, TempFile.release_run]

/-- The archive without what it had cached, for good. -/
def shut (self : Archive) : Archive :=
  { self with reader := none, entries := none, byName := none, closed := true }

theorem close_run (s : Session) : close s = (.ok (), dropped { s with self := shut s.self }) := by
  unfold close modifySelf
  rw [Exn.modify_bind_apply, dropTempfile_run]
  rfl

theorem dropped_log (s : Session) : (dropped s).world.log = s.world.log := by
  unfold dropped
  split
  · rfl
  · exact World.afterRelease_log _ _

/-- A source that is not a file object can be spilled again. -/
theorem Sees.dropped (h : Sees V s) (unread : s.self.reader = none)
    (again : ∀ file, V.source ≠ .stream file) : Sees V (dropped s) := by
  unfold Archive.dropped
  cases h.backing with
  | own p source file unspilled =>
      rw [unspilled]
      exact h
  | unread content noPath known unspilled delivers =>
      rw [unspilled]
      exact h
  | spilled t f content noPath known claimed entry held file =>
      rw [claimed]
      have delivers : s.self.source.Delivers content := by
        have alike := h.alike
        cases source : V.source with
        | path arg =>
            rw [source] at noPath
            cases noPath
        | stream file => exact absurd source (again file)
        | bytes b =>
            have same : V.content = some b := h.bytes b source
            rw [source] at alike
            cases own : s.self.source <;> rw [own] at alike <;> cases alike
            exact Option.some.inj (same.symm.trans known)
      exact
        { owned := h.owned, bytes := h.bytes, notClosed := h.notClosed, password := h.password
          encoding := h.encoding, alike := h.alike
          backing := .unread content noPath known rfl delivers
          cached := fun r cached => by cases unread.symm.trans cached
          listed := fun es listed => by
            obtain ⟨⟨r, cached, -⟩, -⟩ := h.listed es listed
            cases unread.symm.trans cached }

/-- Nothing but the files and the temp files of the world matters. -/
theorem Sees.ofWorld (h : Sees V s) {w : World} (files : w.files = s.world.files)
    (temps : w.temps = s.world.temps) : Sees V { s with world := w } where
  owned := h.owned
  bytes := h.bytes
  notClosed := h.notClosed
  password := h.password
  encoding := h.encoding
  alike := h.alike
  backing := h.backing.transfer ⟨rfl, rfl⟩ files rfl rfl fun _ f _ entry held =>
    ⟨f, temps ▸ entry, rfl, held⟩
  cached := fun r cached =>
    let reads := h.cached r cached
    ⟨reads.opened, reads.password, reads.encoding, files ▸ reads.file⟩
  listed := h.listed

/-! ## The lazy open -/

/-- The rest of `_listing`, once the archive is open. -/
def listOpened (reader : RustArchive) : Py Session (List Entry) := do
  let (entries, byName) := entriesFromRaw reader.entries true
  modifySelf fun self => { self with entries := some entries, byName := some byName }
  pure entries

theorem openAt_run (eng : Engine) (p : FilePath) (s : Session) :
    openAt eng p s =
      let w := s.world.logged
        { path := p, password := s.self.password, encoding := s.self.encoding, work := .open }
      match eng.snapshot (s.world.files p) s.self.password s.self.encoding with
      | .ok o =>
          let r : RustArchive :=
            { o with path := p, password := s.self.password, encoding := s.self.encoding }
          (.ok r, { world := w, self := { s.self with reader := some r } })
      | .error (.error e) => (.error (toPyerr e).raised, dropped { s with world := w })
      | .error (.panic message) =>
          (.error (Fault.panic message).toPyExc.raised, { s with world := w }) := by
  have opening := onWorld_run (s := s)
    (Compiled.open_run eng p s.self.password s.self.encoding s.world)
  unfold openAt
  rw [Exn.get_bind_apply]
  rcases found : eng.snapshot (s.world.files p) s.self.password s.self.encoding with
    (e | message) | o <;> rw [found] at opening
  · rw [Exn.handle_of_error (Exn.bind_of_error opening _), Fault.error_isException, if_pos rfl,
      Exn.bind_of_ok (dropTempfile_run _)]
    rfl
  · rw [Exn.handle_of_error (Exn.bind_of_error opening _), Fault.panic_isException]
    rfl
  · rw [Exn.handle_of_ok (Exn.bind_of_ok opening _)]

/-- A reader of the view's content may be cached. -/
theorem Sees.withReader (h : Sees V s) (unread : s.self.reader = none)
    (reads : Reads V s.world r) :
    Ready V r { s with self := { s.self with reader := some r } } := by
  refine ⟨{ owned := h.owned, bytes := h.bytes, notClosed := h.notClosed, password := h.password
            encoding := h.encoding, alike := h.alike, backing := ?_, cached := ?_
            listed := ?_ }, rfl⟩
  · exact h.backing.transfer ⟨rfl, rfl⟩ rfl rfl rfl fun _ f _ entry held => ⟨f, entry, rfl, held⟩
  · intro r' cached
    cases cached
    exact reads
  · intro es listed
    obtain ⟨⟨r', cached, -⟩, -⟩ := h.listed es listed
    cases unread.symm.trans cached

theorem Sees.present_of_ok {o : Opened} (opens : V.opened = .ok o) :
    V.source.ownPath = none ∨ V.content.isSome = true := by
  rcases source : V.source.ownPath with _ | p
  · exact Or.inl rfl
  · rcases content : V.content with _ | c
    · obtain ⟨own, rfl⟩ := Source.ownPath_named source
      rw [View.opened_missing source content] at opens
      cases opens
    · exact Or.inr rfl

/-- `_open` of a path that is not there. -/
theorem Sees._open_missing (h : Sees V s) (unread : s.self.reader = none) {own : String}
    (source : V.source.ownPath = some (.named own)) (gone : V.content = none) :
    _open V.eng s = (.error (fileNotFound own), s) := by
  have file : s.world.files (.named own) = none := by
    cases h.backing with
    | own p source' file _ =>
        cases source.symm.trans source'
        exact file.trans gone
    | spilled _ _ _ noPath => cases source.symm.trans noPath
    | unread _ noPath => cases source.symm.trans noPath
  have back : _backingPath s = (.ok (.named own), s) :=
    _backingPath_own (h.ownPath.trans source)
  unfold _open
  simp only [Exn.get_bind_apply, h.notClosed, unread, Bool.false_eq_true, if_false]
  rw [Exn.bind_of_ok back, Exn.get_bind_apply, h.ownPath, source, file]
  rfl

/-- `_open` of something that is there, when no reader is cached. -/
theorem Sees._open_present (h : Sees V s) (unread : s.self.reader = none)
    (present : V.source.ownPath = none ∨ V.content.isSome = true) :
    ∃ p s', Sees V s' ∧ s'.self.reader = none ∧ s'.world.files p = V.content ∧
      s'.world.log = s.world.log ∧ _open V.eng s = openAt V.eng p s' := by
  obtain ⟨p, s', back, sees, none, file, log⟩ := h.backingPath unread
  refine ⟨p, s', sees, none, file, log, ?_⟩
  unfold _open
  simp only [Exn.get_bind_apply, h.notClosed, unread, Bool.false_eq_true, if_false]
  rw [Exn.bind_of_ok back, Exn.get_bind_apply, sees.ownPath, file]
  rcases source : V.source.ownPath with _ | q
  · rfl
  · have some : V.content.isSome = true := present.resolve_left (by rw [source]; exact nofun)
    obtain ⟨c, content⟩ := Option.isSome_iff_exists.mp some
    rw [content]
    obtain ⟨own, rfl⟩ := Source.ownPath_named source
    rfl

/-- If the view opens, so does the archive, and it is left with the reader. -/
theorem Sees._open_ok (h : Sees V s) {o : Opened} (opens : V.opened = .ok o) :
    ∃ r s', _open V.eng s = (.ok r, s') ∧ r.toOpened = o ∧ Ready V r s' ∧
      s'.world.handed = s.world.handed := by
  rcases cached : s.self.reader with _ | r
  · have present := Sees.present_of_ok opens
    obtain ⟨p, s', sees, unread, file, log, run⟩ := h._open_present cached present
    have snapshot : V.eng.snapshot V.content V.password V.encoding = .ok o := by
      rw [View.opened_present present] at opens
      rcases found : V.eng.snapshot V.content V.password V.encoding with fault | o' <;>
        rw [found] at opens <;> cases opens
      rfl
    have opened := openAt_run V.eng p s'
    rw [file, sees.password, sees.encoding, snapshot] at opened
    let asked : EngineCall :=
      { path := p, password := V.password, encoding := V.encoding, work := .open }
    have kept : Sees V { s' with world := s'.world.logged asked } := sees.ofWorld rfl rfl
    refine ⟨_, _, run.trans opened, rfl, kept.withReader unread ?_, ?_⟩
    · exact { opened := opens, password := rfl, encoding := rfl, file := file }
    · exact (World.handed_opening rfl).trans (World.handed_of_log log)
  · have reads := h.cached r cached
    refine ⟨r, s, ?_, ?_, ⟨h, cached⟩, rfl⟩
    · unfold _open
      simp [h.notClosed, cached]
    · exact Except.ok.inj (reads.opened.symm.trans opens)

/-- If the view does not open, the archive raises the same exception; only a
source that is spent thereby is not as it was. -/
theorem Sees._open_error (h : Sees V s) {exc : PyExc} (opens : V.opened = .error exc) :
    ∃ s', _open V.eng s = (.error exc, s') ∧ (Sees V s' ∨ V.Spends) ∧
      s'.world.handed = s.world.handed := by
  have unread : s.self.reader = none := by
    rcases cached : s.self.reader with _ | r
    · rfl
    · cases (h.cached r cached).opened.symm.trans opens
  by_cases present : V.source.ownPath = none ∨ V.content.isSome = true
  · obtain ⟨p, s', sees, unread, file, log, run⟩ := h._open_present unread present
    rw [View.opened_present present] at opens
    have opened := openAt_run V.eng p s'
    rw [file, sees.password, sees.encoding] at opened
    let asked : EngineCall :=
      { path := p, password := V.password, encoding := V.encoding, work := .open }
    have kept : Sees V { s' with world := s'.world.logged asked } := sees.ofWorld rfl rfl
    have handed : (s'.world.logged asked).handed = s.world.handed :=
      (World.handed_opening rfl).trans (World.handed_of_log log)
    rcases found : V.eng.snapshot V.content V.password V.encoding with (e | message) | o
    · rw [found] at opens opened
      cases opens
      refine ⟨_, run.trans opened, ?_, ?_⟩
      · by_cases spent : ∃ file, V.source = .stream file
        · exact Or.inr ⟨spent, e, found⟩
        · exact Or.inl (kept.dropped unread fun file source => spent ⟨file, source⟩)
      · exact (World.handed_of_log (dropped_log _)).trans handed
    · rw [found] at opens opened
      cases opens
      exact ⟨_, run.trans opened, Or.inl kept, handed⟩
    · rw [found] at opens
      cases opens
  · obtain ⟨sourced, gone⟩ := not_or.mp present
    obtain ⟨p, source⟩ := Option.ne_none_iff_exists'.mp sourced
    obtain ⟨own, rfl⟩ := Source.ownPath_named source
    have gone : V.content = none := Option.not_isSome_iff_eq_none.mp gone
    rw [View.opened_missing source gone] at opens
    cases opens
    exact ⟨s, h._open_missing unread source gone, Or.inl h, rfl⟩

end Archive

end NewtuaPy
