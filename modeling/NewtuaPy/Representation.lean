import NewtuaPy.TempFileClaims

/-!
# The representation invariant of an archive

Six fields of an archive are filled and reset by different operations.  Whatever
a run of operations was, and however its engine calls ended, what is cached
belongs to the backing file, the password and the encoding in use, and a closed
archive holds nothing and does nothing.
-/

namespace NewtuaPy

/-! ## What a call may do to the world -/

/-- `w'` is `w` after work that makes no file: spilled files may be gone. -/
structure World.Follows (w w' : World) : Prop where
  paths : w'.temps.map TempFile.path = w.temps.map TempFile.path
  files : ∀ p, w'.files p = w.files p ∨
    (w'.files p = none ∧ p ∈ w.temps.map TempFile.path)
  nextTemp : w'.nextTemp = w.nextTemp

theorem World.Follows.refl (w : World) : w.Follows w := ⟨rfl, fun _ => Or.inl rfl, rfl⟩

theorem World.Follows.trans {w w' w'' : World} (h : w.Follows w') (h' : w'.Follows w'') :
    w.Follows w'' := by
  refine ⟨h'.paths.trans h.paths, fun p => ?_, h'.nextTemp.trans h.nextTemp⟩
  rcases h'.files p with same | ⟨gone, spilled⟩
  · rw [same]
    exact h.files p
  · rw [h.paths] at spilled
    exact Or.inr ⟨gone, spilled⟩

theorem World.Follows.length {w w' : World} (h : w.Follows w') :
    w'.temps.length = w.temps.length := by
  simpa using congrArg List.length h.paths

theorem World.Follows.path {w w' : World} (h : w.Follows w') {t : Nat} {f : TempFile}
    (entry : w.temps[t]? = some f) : ∃ f', w'.temps[t]? = some f' ∧ f'.path = f.path := by
  have same : (w'.temps.map TempFile.path)[t]? = (w.temps.map TempFile.path)[t]? := by
    rw [h.paths]
  rw [List.getElem?_map, List.getElem?_map, entry] at same
  exact Option.map_eq_some_iff.mp same

theorem World.Quiet.follows {w w' : World} (h : w.Quiet w') : w.Follows w' where
  paths := by rw [h.temps]
  files := fun p => Or.inl (by rw [h.files])
  nextTemp := h.nextTemp

theorem World.withStreams_follows (w : World) (streams : List PipeStream) :
    w.Follows { w with streams } := ⟨rfl, fun _ => Or.inl rfl, rfl⟩

theorem World.afterRelease_follows (w : World) (t : Nat) : w.Follows (w.afterRelease t) := by
  unfold World.afterRelease
  rcases found : w.temps[t]? with _ | f
  · exact .refl w
  · obtain ⟨inside, rfl⟩ := List.getElem?_eq_some_iff.mp found
    have paths (g : TempFile) (same : g.path = w.temps[t].path) :
        (w.temps.set t g).map TempFile.path = w.temps.map TempFile.path := by
      rw [List.map_set, same, ← List.getElem_map TempFile.path (h := by simpa using inside)]
      exact List.set_getElem_self _
    by_cases more : 1 < w.temps[t].holders
    · simp only [more, if_true]
      exact ⟨paths _ rfl, fun _ => Or.inl rfl, rfl⟩
    · simp only [more, if_false]
      refine ⟨paths _ rfl, fun p => ?_, rfl⟩
      by_cases first : w.temps[t].deleteCalls = 0
      · by_cases this : p = w.temps[t].path
        · subst this
          refine Or.inr ⟨by simp [first], List.mem_map_of_mem (List.getElem_mem inside)⟩
        · refine Or.inl ?_
          simp [first, Function.update_of_ne this]
      · exact Or.inl (by simp [first])

theorem holdClaim_follows (tempfile : Option Nat) (w : World) :
    ∃ w', holdClaim tempfile w = (.ok (), w') ∧ w.Follows w' := by
  rcases tempfile with _ | t
  · exact ⟨w, rfl, .refl w⟩
  · refine ⟨_, rfl, ?_, fun _ => Or.inl rfl, rfl⟩
    simp only [World.modifyTemp]
    apply List.ext_getElem?
    intro i
    simp only [List.getElem?_map, List.getElem?_modify]
    rcases w.temps[i]? with _ | f
    · rfl
    · by_cases this : t = i <;> simp [this]

theorem releaseClaim_follows (tempfile : Option Nat) (w : World) :
    ∃ w', releaseClaim tempfile w = (.ok (), w') ∧ w.Follows w' := by
  rcases tempfile with _ | t
  · exact ⟨w, rfl, .refl w⟩
  · exact ⟨_, TempFile.release_run t w, w.afterRelease_follows t⟩

theorem openPipe_follows (tempfile : Option Nat) {x : Py World Bytes}
    (quiet : ∀ w : World, w.Quiet (x w).2) (size : Option Int) (w : World) :
    w.Follows (openPipe tempfile x size w).2 := by
  obtain ⟨w₁, held, first⟩ := holdClaim_follows tempfile w
  have asked := (quiet w₁).follows
  rcases run : x w₁ with ⟨exc | data, w₂⟩ <;> rw [run] at asked
  · obtain ⟨w₃, released, last⟩ := releaseClaim_follows tempfile w₂
    rw [openPipe_error held run released]
    exact (first.trans asked).trans last
  · rw [openPipe_ok held run]
    exact (first.trans asked).trans (w₂.withStreams_follows _)

theorem release_keeps {I : World → Prop} (releases : ∀ w t, I w → I (w.afterRelease t)) (t : Nat) :
    Exn.Keeps I (TempFile.release t) := by
  intro w holds
  rw [TempFile.release_run]
  exact releases w t holds

/-- The `finally` block of a stream's `close`, with the outcome that waits for it. -/
theorem finally_keeps {I : World → Prop} (releases : ∀ w t, I w → I (w.afterRelease t))
    (p : PipeStream) (outcome : Except PyExc Unit) :
    Exn.Keeps I (match p.closed, p.onClose with
      | false, some t => do
          TempFile.release t
          Exn.lift outcome
      | _, _ => Exn.lift outcome : Py World Unit) := by
  split
  · exact (release_keeps releases _).bind fun _ => .lift _
  · exact .lift _

/-- Closing a stream marks it and releases its claim, and does no more. -/
theorem closeStream_keeps {I : World → Prop} {k : Nat}
    (marks : ∀ (w : World) (f : PipeStream → PipeStream), I w →
      I { w with streams := w.streams.modify k f })
    (releases : ∀ w t, I w → I (w.afterRelease t)) (fault : Option PyExc) :
    Exn.Keeps I (closeStream k fault) := by
  refine Exn.Keeps.get.bind fun w => ?_
  rcases w.streams[k]? with _ | p
  · exact .pure _
  · dsimp only
    split
    · exact Exn.Keeps.bind (.modify fun w holds => marks w _ holds) fun _ =>
        finally_keeps releases p _
    · exact finally_keeps releases p _

theorem closeStream_follows (k : Nat) (fault : Option PyExc) (w : World) :
    w.Follows (closeStream k fault w).2 :=
  closeStream_keeps (fun w' _ follows => follows.trans (w'.withStreams_follows _))
    (fun w' t follows => follows.trans (w'.afterRelease_follows t)) fault w (.refl w)

theorem closeStream_log (k : Nat) (fault : Option PyExc) (w : World) :
    (closeStream k fault w).2.log = w.log :=
  closeStream_keeps (I := fun w' => w'.log = w.log) (fun _ _ same => same)
    (fun w' t same => (w'.afterRelease_log t).trans same) fault w rfl

namespace Archive

variable {used : Engine → Prop} {held : FilePath → Option Bytes → Prop} {s : Session}

/-! ## The invariant -/

/-- `p` is the file behind the archive: its own path, or its spilled file. -/
def Behind (s : Session) (p : FilePath) : Prop :=
  s.self.source.ownPath = some p ∨
    (s.self.source.ownPath = none ∧
      ∃ t f, s.self.tempfile = some t ∧ s.world.temps[t]? = some f ∧ f.path = p)

/-- `r` was opened by one of the engines `used` from the file behind the archive,
with its password and its encoding.  The content it was opened from is one the
archive's own path has `held`, or what the spilled file still holds. -/
structure Opens (used : Engine → Prop) (held : FilePath → Option Bytes → Prop) (s : Session)
    (r : RustArchive) : Prop where
  behind : Behind s r.path
  password : r.password = s.self.password
  encoding : r.encoding = s.self.encoding
  content : ∃ eng content, used eng ∧
    eng.snapshot content s.self.password s.self.encoding = .ok r.toOpened ∧
    (∀ own, r.path = .named own → held r.path content) ∧
    ∀ n now, r.path = .temp n → s.world.files r.path = some now → content = some now

/-- What holds of the claims of an archive and of the files it may open. -/
structure Sound (held : FilePath → Option Bytes → Prop) (s : Session) : Prop where
  numbered : ∀ p ∈ s.world.temps.map TempFile.path, ∃ n < s.world.nextTemp, p = .temp n
  present : ∀ own, held (.named own) (s.world.files (.named own))
  pathed : ∀ p, s.self.source.ownPath = some p → s.self.tempfile = none
  claimed : ∀ t, s.self.tempfile = some t → t < s.world.temps.length
  shut : s.self.closed = true → s.self.reader = none ∧ s.self.tempfile = none

/-- The representation invariant. -/
structure Represents (used : Engine → Prop) (held : FilePath → Option Bytes → Prop)
    (s : Session) : Prop extends Sound held s where
  indexed : s.self.byName = s.self.entries.map NewtuaPy.nameIndex
  listed : ∀ es, s.self.entries = some es →
    ∃ r, s.self.reader = some r ∧ es = (entriesFromRaw r.entries true).1
  opened : ∀ r, s.self.reader = some r → Opens used held s r

theorem Represents.mono {used' : Engine → Prop} {held' : FilePath → Option Bytes → Prop}
    (h : Represents used held s) (more : ∀ eng, used eng → used' eng)
    (also : ∀ p content, held p content → held' p content) : Represents used' held' s where
  numbered := h.numbered
  present := fun own => also _ _ (h.present own)
  pathed := h.pathed
  claimed := h.claimed
  shut := h.shut
  indexed := h.indexed
  listed := h.listed
  opened := by
    intro r cached
    have reader := h.opened r cached
    obtain ⟨eng, content, given, snapshot, own, spilled⟩ := reader.content
    exact ⟨reader.behind, reader.password, reader.encoding, eng, content, more eng given, snapshot,
      fun name same => also _ _ (own name same), spilled⟩

/-- An archive without a reader has nothing cached. -/
theorem Represents.unlisted (h : Represents used held s) (unread : s.self.reader = none) :
    s.self.entries = none ∧ s.self.byName = none := by
  have entries : s.self.entries = none := by
    rcases listed : s.self.entries with _ | es
    · rfl
    · obtain ⟨r, cached, -⟩ := h.listed es listed
      cases unread.symm.trans cached
  refine ⟨entries, ?_⟩
  rw [h.indexed, entries]
  rfl

theorem Sound.represents (h : Sound held s) (unread : s.self.reader = none)
    (unlisted : s.self.entries = none ∧ s.self.byName = none) : Represents used held s where
  toSound := h
  indexed := by rw [unlisted.1, unlisted.2]; rfl
  listed := fun es listed => by cases unlisted.1.symm.trans listed
  opened := fun r cached => by cases unread.symm.trans cached

/-! ## Steps that keep the reader -/

theorem Sound.follows (h : Sound held s) {w : World} (follows : s.world.Follows w) :
    Sound held { s with world := w } where
  numbered := by
    dsimp only
    rw [follows.paths, follows.nextTemp]
    exact h.numbered
  present := by
    intro own
    have kept := h.present own
    rcases follows.files (.named own) with same | ⟨-, spilled⟩
    · dsimp only
      rw [same]
      exact kept
    · obtain ⟨n, -, impossible⟩ := h.numbered _ spilled
      cases impossible
  pathed := h.pathed
  claimed := by
    intro t claimed
    have inside := h.claimed t claimed
    have length := follows.length
    dsimp only
    omega
  shut := h.shut

theorem Opens.follows {r : RustArchive} (h : Opens used held s r) {w : World}
    (follows : s.world.Follows w) : Opens used held { s with world := w } r where
  behind := by
    rcases h.behind with own | ⟨noPath, t, f, claimed, entry, path⟩
    · exact Or.inl own
    · obtain ⟨f', entry', same⟩ := follows.path entry
      exact Or.inr ⟨noPath, t, f', claimed, entry', same.trans path⟩
  password := h.password
  encoding := h.encoding
  content := by
    obtain ⟨eng, content, given, snapshot, own, spilled⟩ := h.content
    refine ⟨eng, content, given, snapshot, own, fun n now path file => ?_⟩
    rcases follows.files r.path with same | ⟨gone, -⟩
    · rw [← spilled n now path (same.symm.trans file)]
    · cases gone.symm.trans file

theorem Represents.follows (h : Represents used held s) {w : World}
    (follows : s.world.Follows w) : Represents used held { s with world := w } where
  toSound := h.toSound.follows follows
  indexed := h.indexed
  listed := h.listed
  opened := fun r cached => (h.opened r cached).follows follows

/-! ## Steps that change what is behind the archive -/

theorem Sound.withSelf (h : Sound held s) {self : Archive} (source : self.source = s.self.source)
    (tempfile : self.tempfile = s.self.tempfile)
    (shut : self.closed = true → self.reader = none ∧ self.tempfile = none) :
    Sound held { s with self } where
  numbered := h.numbered
  present := h.present
  pathed := by dsimp only; rw [source, tempfile]; exact h.pathed
  claimed := by dsimp only; rw [tempfile]; exact h.claimed
  shut := shut

/-- Giving up the spilled file. -/
theorem Sound.dropped (h : Sound held s) : Sound held (dropped s) := by
  unfold Archive.dropped
  rcases claimed : s.self.tempfile with _ | t
  · exact h
  · have followed := h.follows (s.world.afterRelease_follows t)
    exact
      { numbered := followed.numbered, present := followed.present
        pathed := fun _ _ => rfl
        claimed := fun _ impossible => nomatch impossible
        shut := fun closed => ⟨(h.shut closed).1, rfl⟩ }

theorem dropped_self (s : Session) : (dropped s).self = { s.self with tempfile := none } := by
  unfold Archive.dropped
  rcases claimed : s.self.tempfile with _ | t
  · dsimp only
    rw [← claimed]
  · rfl

/-- A spill file is one that nothing refers to yet. -/
theorem Sound.made (h : Sound held s) (content : Bytes) {temps : List TempFile}
    (temps_eq : temps = s.world.temps ∨
      temps = s.world.temps ++ [{ path := .temp s.world.nextTemp }]) :
    (∀ p ∈ temps.map TempFile.path, ∃ n < s.world.nextTemp + 1, p = .temp n) ∧
      ∀ own, held (.named own)
        (Function.update s.world.files (.temp s.world.nextTemp) (some content) (.named own)) := by
  constructor
  · intro p member
    have older (member : p ∈ s.world.temps.map TempFile.path) :
        ∃ n < s.world.nextTemp + 1, p = .temp n := by
      obtain ⟨n, before, rfl⟩ := h.numbered p member
      exact ⟨n, by omega, rfl⟩
    rcases temps_eq with rfl | rfl
    · exact older member
    · rw [List.map_append, List.mem_append] at member
      rcases member with old | new
      · exact older old
      · exact ⟨s.world.nextTemp, by omega, List.mem_singleton.mp new⟩
  · intro own
    have other : FilePath.named own ≠ .temp s.world.nextTemp := by exact nofun
    rw [Function.update_of_ne other]
    exact h.present own

/-- The backing path is behind the archive, and finding it caches nothing. -/
theorem Sound.backingPath (h : Sound held s) (unclosed : s.self.closed = false) :
    ∃ r s', _backingPath s = (r, s') ∧ Sound held s' ∧ (∀ p, r = .ok p → Behind s' p) ∧
      s'.self = { s.self with source := s'.self.source, tempfile := s'.self.tempfile } := by
  rcases _backingPath_cases s with ⟨p, own, run⟩ | ⟨p, own, live, run⟩ | ⟨own, -, run⟩
  · refine ⟨_, s, run, h, ?_, rfl⟩
    intro p same
    cases same
    exact Or.inl own
  · refine ⟨_, s, run, h, ?_, rfl⟩
    intro p same
    cases same
    unfold liveTempfile at live
    obtain ⟨t, claimed, live⟩ := Option.bind_eq_some_iff.mp live
    obtain ⟨f, entry, live⟩ := Option.bind_eq_some_iff.mp live
    split at live
    · exact Or.inr ⟨own, t, f, claimed, entry, Option.some.inj live⟩
    · cases live
  · have noPath := (Source.afterCopy_ownPath s.self.source).trans own
    have openShut (closed : s.self.closed = true) {P : Prop} : P := by
      cases unclosed.symm.trans closed
    rcases Source.delivers_or_fails own with ⟨content, delivers⟩ | ⟨file, exc, source, failed⟩
    · obtain ⟨numbered, present⟩ := h.made content (Or.inr rfl)
      refine ⟨_, _, run.trans (spill_run delivers), ?_, ?_, rfl⟩
      · exact
          { numbered := numbered, present := present
            pathed := fun p path => by cases noPath.symm.trans path
            claimed := fun t same => by
              cases same
              simp [World.spilled]
            shut := fun closed => openShut closed }
      · intro p same
        cases same
        refine Or.inr ⟨noPath, _, { path := .temp s.world.nextTemp }, rfl, ?_, rfl⟩
        simp [World.spilled]
    · obtain ⟨numbered, present⟩ := h.made (copyLoop file.replies).2.1 (Or.inl rfl)
      refine ⟨_, _, run.trans (spill_failed source failed), ?_, ?_, rfl⟩
      · exact
          { numbered := numbered, present := present
            pathed := fun p path => by cases noPath.symm.trans path
            claimed := h.claimed
            shut := fun closed => openShut closed }
      · intro p same
        cases same

/-- Opening what is behind the archive: a reader of it is cached, or none is and a
refused file is given up. -/
theorem Sound.openAt (h : Sound held s) {eng : Engine} (given : used eng) {p : FilePath}
    (behind : Behind s p) (unclosed : s.self.closed = false) (unread : s.self.reader = none)
    (unlisted : s.self.entries = none ∧ s.self.byName = none) :
    Represents used held (Archive.openAt eng p s).2 ∧
      ∀ r, (Archive.openAt eng p s).1 = .ok r →
        (Archive.openAt eng p s).2.self.reader = some r := by
  let asked : EngineCall :=
    { path := p, password := s.self.password, encoding := s.self.encoding, work := .open }
  have logged := h.follows ((World.Quiet.refl s.world).logged asked).follows
  rw [openAt_run]
  rcases found : eng.snapshot (s.world.files p) s.self.password s.self.encoding with
    (e | message) | o
  · refine ⟨logged.dropped.represents ?_ ?_, fun r impossible => ?_⟩
    · rw [dropped_self]
      exact unread
    · rw [dropped_self]
      exact unlisted
    · cases impossible
  · refine ⟨logged.represents unread unlisted, fun r impossible => ?_⟩
    cases impossible
  · refine ⟨?_, fun r same => congrArg some (Except.ok.inj same)⟩
    let r : RustArchive :=
      { o with path := p, password := s.self.password, encoding := s.self.encoding }
    let read : Archive := { s.self with reader := some r }
    have sound : Sound held { world := s.world.logged asked, self := read } :=
      logged.withSelf rfl rfl fun closed => by cases unclosed.symm.trans closed
    refine { toSound := sound, indexed := ?_, listed := ?_, opened := ?_ }
    · dsimp only
      rw [unlisted.1, unlisted.2]
      rfl
    · intro es listed
      cases unlisted.1.symm.trans listed
    · intro r cached
      cases cached
      refine ⟨behind, rfl, rfl, eng, s.world.files p, given, found, ?_, ?_⟩
      · intro own same
        have same : p = .named own := same
        rw [same]
        exact h.present own
      · exact fun n now path file => file

theorem _open_represents (h : Represents used held s) {eng : Engine} (given : used eng) :
    Represents used held (_open eng s).2 ∧
      ∀ r, (_open eng s).1 = .ok r → (_open eng s).2.self.reader = some r := by
  unfold _open
  rw [Exn.get_bind_apply]
  rcases unclosed : s.self.closed with _ | _
  · rcases unread : s.self.reader with _ | r
    · obtain ⟨r, s', back, sound, behind, self⟩ := h.backingPath unclosed
      have unread' : s'.self.reader = none := by rw [self]; exact unread
      have unlisted : s'.self.entries = none ∧ s'.self.byName = none := by
        rw [self]
        exact h.unlisted unread
      have unclosed' : s'.self.closed = false := by rw [self]; exact unclosed
      rcases r with exc | p
      · rw [if_neg Bool.false_ne_true]
        dsimp only
        rw [Exn.bind_of_error back]
        refine ⟨sound.represents unread' unlisted, fun r impossible => ?_⟩
        cases impossible
      · rw [if_neg Bool.false_ne_true]
        dsimp only
        rw [Exn.bind_of_ok back, Exn.get_bind_apply]
        have opened := sound.openAt given (behind p rfl) unclosed' unread' unlisted
        rcases s'.self.source.ownPath with _ | (own | n)
        · exact opened
        · rcases s'.world.files p with _ | content
          · refine ⟨sound.represents unread' unlisted, fun r impossible => ?_⟩
            cases impossible
          · exact opened
        · exact opened
    · rw [if_neg Bool.false_ne_true]
      exact ⟨h, fun _ same => unread.trans (congrArg some (Except.ok.inj same))⟩
  · rw [if_pos rfl]
    refine ⟨h, fun r impossible => ?_⟩
    cases impossible

theorem _listing_represents (h : Represents used held s) {eng : Engine} (given : used eng) :
    Represents used held (_listing eng s).2 ∧
      ∀ es, (_listing eng s).1 = .ok es → (_listing eng s).2.self.entries = some es := by
  unfold _listing
  rw [Exn.get_bind_apply]
  rcases listed : s.self.entries with _ | es
  · have opened := _open_represents h given
    dsimp only
    rcases run : _open eng s with ⟨exc | r, s'⟩ <;> rw [run] at opened
    · rw [Exn.bind_of_error run]
      refine ⟨opened.1, fun es impossible => ?_⟩
      cases impossible
    · rw [Exn.bind_of_ok run]
      obtain ⟨represents, cached⟩ := opened
      have cached := cached r rfl
      refine ⟨?_, fun es same => congrArg some (Except.ok.inj same)⟩
      exact
        { toSound := represents.toSound.withSelf rfl rfl represents.shut
          indexed := rfl
          listed := fun es same => ⟨r, cached, (Option.some.inj same).symm⟩
          opened := fun r' cached' =>
            let reader := represents.opened r' cached'
            ⟨reader.behind, reader.password, reader.encoding, reader.content⟩ }
  · exact ⟨h, fun _ same => listed.trans (congrArg some (Except.ok.inj same))⟩

theorem represents_upheld {eng : Engine} (given : used eng) :
    Upheld (Represents used held) eng where
  opens := fun _ h => (_open_represents h given).1
  lists := fun _ h => (_listing_represents h given).1
  asks := fun _ _ h quiet => h.follows quiet.follows
  pipes := fun s _ size h quiet => h.follows (openPipe_follows s.self.tempfile quiet size s.world)

/-! ## Runs -/

/-- One operation on an archive or on a stream opened from it, each with an engine
of its own; or somebody else writes or removes a file that is not a spilled one. -/
inductive Operation
  | call (eng : Engine) (c : Call)
  | setPassword (password : Option String)
  | repr
  | enter (eng : Engine)
  | exit
  | close
  | closeStream (k : Nat) (fault : Option PyExc)
  | outside (path : String) (content : Option Bytes)

/-- One operation; its outcome is not looked at. -/
def operate : Machine Session Operation Unit
  | s, .call eng c => ((), (call eng c s).2)
  | s, .setPassword password => ((), (setPassword password s).2)
  | s, .repr => ((), (Archive.repr s).2)
  | s, .enter eng => ((), (enter eng s).2)
  | s, .exit => ((), (exit s).2)
  | s, .close => ((), (close s).2)
  | s, .closeStream k fault => ((), (onWorld (NewtuaPy.closeStream k fault) s).2)
  | s, .outside path content =>
      ((), { s with world := s.world.writeFile (.named path) content })

/-- The operation uses an engine only if it is one of `used`, and writes only
content that `held` allows. -/
def Operation.Within (used : Engine → Prop) (held : FilePath → Option Bytes → Prop) :
    Operation → Prop
  | .call eng _ => used eng
  | .enter eng => used eng
  | .outside path content => held (.named path) content
  | _ => True

/-- A file that somebody else writes is not a spilled one. -/
theorem Represents.outside (h : Represents used held s) {path : String} {content : Option Bytes}
    (given : held (.named path) content) :
    Represents used held { s with world := s.world.writeFile (.named path) content } where
  numbered := h.numbered
  present := by
    intro own
    unfold World.writeFile
    dsimp only
    by_cases this : own = path
    · subst this
      rw [Function.update_self]
      exact given
    · rw [Function.update_of_ne (fun same => this (FilePath.named.inj same))]
      exact h.present own
  pathed := h.pathed
  claimed := h.claimed
  shut := h.shut
  indexed := h.indexed
  listed := h.listed
  opened := by
    intro r cached
    have reader := h.opened r cached
    obtain ⟨eng, content', given', snapshot, own, spilled⟩ := reader.content
    refine ⟨reader.behind, reader.password, reader.encoding, eng, content', given', snapshot, own,
      fun n now path' file => spilled n now path' ?_⟩
    have other : r.path ≠ .named path := by
      rw [path']
      exact nofun
    exact (Function.update_of_ne other _ _).symm.trans file

theorem close_represents (h : Represents used held s) : Represents used held (close s).2 := by
  rw [close_run]
  have sound : Sound held (dropped s) := h.toSound.dropped
  have same : dropped { s with self := Archive.shut s.self } =
      { dropped s with self := Archive.shut (dropped s).self } := by
    unfold Archive.dropped
    rcases claimed : s.self.tempfile with _ | t <;> simp [Archive.shut, claimed]
  rw [same]
  refine Sound.represents (sound.withSelf rfl rfl ?_) rfl ⟨rfl, rfl⟩
  intro closed
  rw [dropped_self]
  exact ⟨rfl, rfl⟩

theorem repr_snd (s : Session) : (Archive.repr s).2 = s := by
  unfold Archive.repr
  rw [Exn.get_bind_apply]
  rcases s.self.entries with _ | es
  · rfl
  · rcases s.self.reader with _ | r
    · rfl
    · dsimp only
      rw [Exn.lift_map_apply]

/-- Step lemma: every operation preserves the representation invariant. -/
theorem operate_represents (s : Session) (op : Operation) (within : op.Within used held)
    (h : Represents used held s) : Represents used held (operate s op).2 := by
  cases op with
  | call eng c => exact (represents_upheld within).call c s h
  | setPassword password =>
      refine Sound.represents (h.toSound.withSelf rfl rfl fun closed => ?_) rfl ⟨rfl, rfl⟩
      exact ⟨rfl, (h.shut closed).2⟩
  | repr =>
      unfold operate
      rw [repr_snd]
      exact h
  | enter eng => exact (represents_upheld within).lists.bind (fun _ => .pure _) s h
  | exit => exact close_represents h
  | close => exact close_represents h
  | closeStream k fault => exact h.follows (closeStream_follows k fault s.world)
  | outside path content => exact h.outside within

/-! ## After `close` -/

/-- Nothing is cached and nothing spilled is referred to. -/
structure Emptied (s : Session) : Prop where
  reader : s.self.reader = none
  entries : s.self.entries = none
  byName : s.self.byName = none
  tempfile : s.self.tempfile = none

theorem Represents.emptied (h : Represents used held s) (closed : s.self.closed = true) :
    Emptied s :=
  let shut := h.shut closed
  let unlisted := h.unlisted shut.1
  ⟨shut.1, unlisted.1, unlisted.2, shut.2⟩

/-- The archive is closed in `t`, and since `s` the engine has not been called and
no file has been made. -/
structure Rests (s t : Session) : Prop where
  closed : t.self.closed = true
  log : t.world.log = s.world.log
  nextTemp : t.world.nextTemp = s.world.nextTemp
  files : ∀ n, t.world.files (.temp n) ≠ none →
    t.world.files (.temp n) = s.world.files (.temp n)

theorem closed_open (closed : s.self.closed = true) (eng : Engine) :
    _open eng s = (.error closedArchive, s) := by
  unfold _open
  rw [Exn.get_bind_apply, closed]
  rfl

theorem closed_listing (closed : s.self.closed = true) (unlisted : s.self.entries = none)
    (eng : Engine) : _listing eng s = (.error closedArchive, s) := by
  unfold _listing
  rw [Exn.get_bind_apply, unlisted]
  exact Exn.bind_of_error (closed_open closed eng) _

/-- Every call that looks at a closed archive is refused and changes nothing. -/
theorem closed_call (closed : s.self.closed = true) (unlisted : s.self.entries = none)
    (eng : Engine) {c : Call} (opens : View.opens c = true) :
    call eng c s = (.error closedArchive, s) := by
  have opening := closed_open closed eng
  have listing := closed_listing closed unlisted eng
  cases c with
  | len => exact Exn.bind_of_error listing _
  | iter => exact Exn.bind_of_error listing _
  | getitem key => exact Exn.bind_of_error listing _
  | contains key =>
      refine Exn.bind_of_error ?_ _
      cases key with
      | entry e => exact Exn.bind_of_error listing _
      | name text => exact Exn.bind_of_error listing _
      | path path => exact Exn.bind_of_error listing _
      | other => cases opens
  | format => exact Exn.bind_of_error (Exn.bind_of_error opening _) _
  | detectedEncoding => exact Exn.bind_of_error (Exn.bind_of_error opening _) _
  | needsPassword =>
      refine Exn.bind_of_error ?_ _
      exact Exn.handle_of_error (Exn.bind_of_error listing _) _
  | read ref => exact Exn.bind_of_error (Exn.bind_of_error opening _) _
  | openBuffered ref => exact Exn.bind_of_error (Exn.bind_of_error opening _) _
  | openStream ref => exact Exn.bind_of_error (Exn.bind_of_error opening _) _
  | extract request => exact Exn.bind_of_error (Exn.bind_of_error opening _) _

/-- Step lemma: a closed archive rests. -/
theorem Rests.operate {t : Session} (h : Rests s t) (emptied : Emptied t) (op : Operation) :
    Rests s (operate t op).2 := by
  have closing : Rests s (close t).2 := by
    rw [close_run]
    unfold Archive.dropped Archive.shut
    dsimp only
    rw [emptied.tempfile]
    exact ⟨rfl, h.log, h.nextTemp, h.files⟩
  have still {op : Operation} (same : (Archive.operate t op).2 = t) :
      Rests s (Archive.operate t op).2 := by
    rw [same]
    exact h
  cases op with
  | call eng c =>
      by_cases opens : View.opens c = true
      · exact still (congrArg Prod.snd (closed_call h.closed emptied.entries eng opens))
      · have other : c = .contains .other := by
          unfold View.opens at opens
          split at opens
          · rfl
          · exact absurd rfl opens
        rw [other]
        exact h
  | setPassword password => exact ⟨h.closed, h.log, h.nextTemp, h.files⟩
  | repr => exact still (repr_snd t)
  | enter eng =>
      have refused : enter eng t = (.error closedArchive, t) :=
        Exn.bind_of_error (closed_listing h.closed emptied.entries eng) _
      exact still (congrArg Prod.snd refused)
  | exit => exact closing
  | close => exact closing
  | closeStream k fault =>
      have follows := closeStream_follows k fault t.world
      refine ⟨h.closed, (closeStream_log k fault t.world).trans h.log,
        follows.nextTemp.trans h.nextTemp, fun n there => ?_⟩
      have there : (NewtuaPy.closeStream k fault t.world).2.files (.temp n) ≠ none := there
      rcases follows.files (.temp n) with same | ⟨gone, -⟩
      · rw [same] at there
        exact same.trans (h.files n there)
      · exact absurd gone there
  | outside path content =>
      have other (n : Nat) : FilePath.temp n ≠ .named path := by exact nofun
      refine ⟨h.closed, h.log, h.nextTemp, fun n there => ?_⟩
      have same : (Archive.operate t (.outside path content)).2.world.files (.temp n) =
          t.world.files (.temp n) := Function.update_of_ne (other n) content t.world.files
      rw [same] at there ⊢
      exact h.files n there

/-! ## Assertions -/

/-- The assertion of `__getitem__` and of `__contains__` holds where it stands. -/
theorem Represents.nameIndex_run (h : Represents used held s) {eng : Engine} (given : used eng)
    {es : List Entry} {s' : Session} (listing : _listing eng s = (.ok es, s')) :
    Archive.nameIndex s' = (.ok (NewtuaPy.nameIndex es), s') := by
  obtain ⟨represents, cached⟩ := _listing_represents h given
  rw [listing] at represents cached
  have indexed := represents.indexed
  rw [cached es rfl] at indexed
  exact Archive.nameIndex_run indexed

/-- `repr` never raises. -/
theorem Represents.repr_run (h : Represents used held s) :
    ∃ shown, Archive.repr s = (.ok shown, s) := by
  unfold Archive.repr
  rw [Exn.get_bind_apply]
  rcases listed : s.self.entries with _ | es
  · exact ⟨_, rfl⟩
  · obtain ⟨r, cached, -⟩ := h.listed es listed
    obtain ⟨f, member, -⟩ := Format.ofValue_formatName r.reader.format
    have known : formatOf r.format = .ok f := by
      unfold formatOf RustArchive.format
      rw [member]
    rw [cached]
    dsimp only
    rw [known]
    exact ⟨_, rfl⟩

/-! ## Every run -/

/-- `eng` is the engine of an operation of the run. -/
def Given (run : List Operation) (eng : Engine) : Prop :=
  (∃ c, .call eng c ∈ run) ∨ .enter eng ∈ run

/-- What a path may have held: its first content, or one written from outside. -/
def Held (files : FilePath → Option Bytes) (run : List Operation) (p : FilePath)
    (content : Option Bytes) : Prop :=
  content = files p ∨ ∃ path, p = .named path ∧ .outside path content ∈ run

theorem within_of_mem (files : FilePath → Option Bytes) {run : List Operation} :
    ∀ op ∈ run, op.Within (Given run) (Held files run) := by
  intro op member
  cases op with
  | call eng c => exact Or.inl ⟨c, member⟩
  | enter eng => exact Or.inr member
  | outside path content => exact Or.inr ⟨path, rfl, member⟩
  | _ => exact True.intro

theorem init_represents (files : FilePath → Option Bytes) (source : Source)
    (password encoding : Option String) (run : List Operation) :
    Represents (Given run) (Held files run) (init files source password encoding) where
  numbered := fun _ member => nomatch member
  present := fun _ => Or.inl rfl
  pathed := fun _ _ => rfl
  claimed := fun _ impossible => nomatch impossible
  shut := fun impossible => nomatch impossible
  indexed := rfl
  listed := fun _ impossible => nomatch impossible
  opened := fun _ impossible => nomatch impossible

theorem run_represents (files : FilePath → Option Bytes) (source : Source)
    (password encoding : Option String) (run : List Operation) :
    Represents (Given run) (Held files run)
      (operate.runState (init files source password encoding) run) :=
  Machine.runState_invariant_of_mem (C := Operation.Within (Given run) (Held files run))
    (fun s op within h => operate_represents s op within h)
    (init_represents files source password encoding run) run (within_of_mem files)

/-- What is cached belongs to the file behind the archive, its password and its
encoding, whatever was done to it and however that ended. -/
structure Cached (used : Engine → Prop) (held : FilePath → Option Bytes → Prop)
    (s : Session) : Prop where
  together : s.self.entries.isSome = s.self.byName.isSome
  onlyRead : s.self.entries.isSome = true → s.self.reader.isSome = true
  reader : ∀ r, s.self.reader = some r → Opens used held s r
  listing : ∀ r es byName, s.self.reader = some r → s.self.entries = some es →
    s.self.byName = some byName → (es, byName) = entriesFromRaw r.entries true
  unspilled : ∀ p, s.self.source.ownPath = some p → s.self.tempfile = none

theorem Represents.cached (h : Represents used held s) : Cached used held s where
  together := by
    rw [h.indexed]
    rcases s.self.entries with _ | es <;> rfl
  onlyRead := by
    intro some
    obtain ⟨es, listed⟩ := Option.isSome_iff_exists.mp some
    obtain ⟨r, cached, -⟩ := h.listed es listed
    rw [cached]
    rfl
  reader := h.opened
  listing := by
    intro r es byName cached listed named
    obtain ⟨r', cached', rfl⟩ := h.listed es listed
    obtain rfl : r = r' := Option.some.inj (cached.symm.trans cached')
    rw [h.indexed, listed] at named
    cases named
    rfl
  unspilled := h.pathed

/-- The archive is closed for good: nothing is held, nothing more is asked of an
engine, no file is made, and whatever asks for content is refused. -/
structure Final (s : Session) (later : List Operation) : Prop where
  emptied : Emptied (operate.runState s later)
  rests : Rests s (operate.runState s later)
  refused : ∀ (eng : Engine) c, View.opens c = true →
    call eng c (operate.runState s later) = (.error closedArchive, operate.runState s later)
  unentered : ∀ (eng : Engine),
    enter eng (operate.runState s later) = (.error closedArchive, operate.runState s later)

theorem Rests.refl (closed : s.self.closed = true) : Rests s s :=
  ⟨closed, rfl, rfl, fun _ _ => rfl⟩

/-- Run lemma: a closed archive stays closed. -/
theorem Represents.final (h : Represents used held s) (closed : s.self.closed = true)
    (later : List Operation) (within : ∀ op ∈ later, op.Within used held) : Final s later := by
  obtain ⟨represents, rests⟩ := Machine.runState_invariant_of_mem
    (m := operate) (I := fun t => Represents used held t ∧ Rests s t)
    (fun t op within both =>
      ⟨operate_represents t op within both.1,
        both.2.operate (both.1.emptied both.2.closed) op⟩)
    ⟨h, .refl closed⟩ later within
  have emptied := represents.emptied rests.closed
  exact
    { emptied := emptied, rests := rests
      refused := fun eng _ opens => closed_call rests.closed emptied.entries eng opens
      unentered := fun eng =>
        Exn.bind_of_error (closed_listing rests.closed emptied.entries eng) _ }

/-- The representation invariant: after every run of operations, what is cached is
consistent, a closed archive is closed for good, and no assertion can fail. -/
theorem representation_invariant (files : FilePath → Option Bytes) (source : Source)
    (password encoding : Option String) (run : List Operation) :
    let s := operate.runState (init files source password encoding) run
    Cached (Given run) (Held files run) s ∧
      (s.self.closed = true → ∀ later, Final s later) ∧
      (∀ (eng : Engine) es s', _listing eng s = (.ok es, s') →
        Archive.nameIndex s' = (.ok (NewtuaPy.nameIndex es), s')) ∧
      ∃ shown, Archive.repr s = (.ok shown, s) := by
  intro s
  have represents := run_represents files source password encoding run
  have anyhow : Represents (fun _ => True) (fun _ _ => True) s :=
    represents.mono (fun _ _ => True.intro) fun _ _ _ => True.intro
  refine ⟨represents.cached, fun closed later => ?_, ?_, represents.repr_run⟩
  · apply anyhow.final closed later
    intro op member
    cases op <;> exact True.intro
  · intro eng es s' listing
    exact anyhow.nameIndex_run True.intro listing

end Archive

end NewtuaPy
