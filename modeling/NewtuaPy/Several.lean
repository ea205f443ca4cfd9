import NewtuaPy.SharedWorld
import NewtuaPy.StreamAgree

/-!
# Several archives in one process

Any number of archives share the file system, the table of temp files, the table
of streams and the file objects they are given.  What one of them does in a shared
world is what it does in a world of its own, up to the names of its temp files and
of its streams, and it leaves what the others have named alone; only a file object
that two of them read is not each one's own.
-/

namespace NewtuaPy

/-! ## Sessions -/

/-- The reader of an archive in the two worlds. -/
structure Names.ReaderAlike (n : Names) (w w' : World) (r r' : RustArchive) : Prop where
  opened : r.toOpened = r'.toOpened
  password : r.password = r'.password
  encoding : r.encoding = r'.encoding
  path : n.PathAlike w w' r.path r'.path

namespace Archive

/-- The archive of `s` is that of `s'`, in a world that is `Names.Together` with its own. -/
structure Mirrored (n₀ : Names) (w₀ : World) (n : Names) (s s' : Session) : Prop where
  together : Names.Together n₀ w₀ n s.world s'.world
  source : s.self.source = s'.self.source
  password : s.self.password = s'.self.password
  encoding : s.self.encoding = s'.self.encoding
  entries : s.self.entries = s'.self.entries
  byName : s.self.byName = s'.self.byName
  closed : s.self.closed = s'.self.closed
  tempfile : Option.Rel n.Temp s.self.tempfile s'.self.tempfile
  reader : Option.Rel (n.ReaderAlike s.world s'.world) s.self.reader s'.self.reader

/-- `Mirrored` under some names. -/
def Twin (n₀ : Names) (w₀ : World) (s s' : Session) : Prop := ∃ n, Mirrored n₀ w₀ n s s'

variable {n₀ n m : Names} {w₀ : World} {s s' : Session}

/-- The worlds may change, as long as what the archives refer to keeps its path. -/
theorem Mirrored.inWorld (h : Mirrored n₀ w₀ n s s') {w w' : World}
    (together : Names.Together n₀ w₀ m w w') (names : ∀ t t', n.Temp t t' → m.Temp t t')
    (paths : s.world.temps.map TempFile.path <+: w.temps.map TempFile.path)
    (paths' : s'.world.temps.map TempFile.path <+: w'.temps.map TempFile.path) :
    Mirrored n₀ w₀ m { s with world := w } { s' with world := w' } where
  together := together
  source := h.source
  password := h.password
  encoding := h.encoding
  entries := h.entries
  byName := h.byName
  closed := h.closed
  tempfile := rel_imp names h.tempfile
  reader := rel_imp (fun _ _ alike =>
    ⟨alike.opened, alike.password, alike.encoding,
      alike.path.mono names (fun _ _ _ => kept paths) paths'⟩) h.reader

theorem Mirrored.logged (h : Mirrored n₀ w₀ n s s') (call call' : EngineCall) :
    Mirrored n₀ w₀ n { s with world := s.world.logged call }
      { s' with world := s'.world.logged call' } :=
  h.inWorld (h.together.logged call call') (fun _ _ => id) (List.prefix_refl _)
    (List.prefix_refl _)

theorem Mirrored.released (h : Mirrored n₀ w₀ n s s') {t t' : Nat} (name : n.Temp t t') :
    Mirrored n₀ w₀ n { s with world := s.world.afterRelease t }
      { s' with world := s'.world.afterRelease t' } := by
  have paths := (s.world.release_touches t).paths
  have paths' := (s'.world.release_touches t').paths
  exact h.inWorld (h.together.released name) (fun _ _ => id)
    (paths ▸ List.prefix_refl _) (paths' ▸ List.prefix_refl _)

/-- The claim on a spilled file is given up in both worlds. -/
theorem Mirrored.dropped (h : Mirrored n₀ w₀ n s s') :
    Mirrored n₀ w₀ n (dropped s) (dropped s') := by
  unfold Archive.dropped
  rcases rel_cases h.tempfile with ⟨claimed, claimed'⟩ | ⟨t, t', claimed, claimed', name⟩
  · rw [claimed, claimed']
    exact h
  · rw [claimed, claimed']
    exact { h.released name with tempfile := .none }

/-- The spilled file is still there in both worlds, or in none. -/
theorem Mirrored.live (h : Mirrored n₀ w₀ n s s') :
    Option.Rel (n.PathAlike s.world s'.world) (liveTempfile s) (liveTempfile s') := by
  unfold liveTempfile
  rcases rel_cases h.tempfile with ⟨claimed, claimed'⟩ | ⟨t, t', claimed, claimed', name⟩
  · rw [claimed, claimed']
    exact .none
  · obtain ⟨f, f', entry, entry', -, -, file⟩ := h.together.mirrors.temps t t' name
    simp only [claimed, claimed', Option.bind_some, entry, entry', ← file]
    by_cases there : (s.world.files f.path).isSome = true
    · rw [if_pos there, if_pos there]
      refine .some (Or.inr ⟨t, t', name, ?_, ?_⟩)
      · rw [List.getElem?_map, entry]
        rfl
      · rw [List.getElem?_map, entry']
        rfl
    · rw [if_neg there, if_neg there]
      exact .none

/-- From where they are, nothing has been touched and nothing is new. -/
theorem Mirrored.rebase (h : Mirrored n₀ w₀ n s s') : Mirrored n s.world n s s' :=
  { h with together := h.together.mirrors.together }

/-- What is done under the names `m` leaves what is mirrored under other names alone. -/
theorem Mirrored.spared (h : Mirrored n s.world n s s') {w : World} (spares : m.Spares s.world w)
    (numbered : w.Numbered) (temps : ∀ t ∈ n.temps, t ∉ m.temps)
    (streams : ∀ j ∈ n.streams, j ∉ m.streams) :
    Mirrored n w n { s with world := w } s' := by
  have mirrors := h.together.mirrors
  have entry (t : Nat) (named : t ∈ n.temps) :=
    spares.temps t (mirrors.below named) (temps t named)
  have paths (t : Nat) (named : t ∈ n.temps) (q : FilePath)
      (found : (s.world.temps.map TempFile.path)[t]? = some q) :
      (w.temps.map TempFile.path)[t]? = some q := by
    rw [List.getElem?_map, (entry t named).1, ← List.getElem?_map]
    exact found
  have after : n.Mirrors w s'.world :=
    { named := fun own => (spares.named own).trans (mirrors.named own)
      numbered := numbered
      numbered' := mirrors.numbered'
      temps := by
        intro t t' name
        obtain ⟨f, f', found, found', holders, deletes, file⟩ := mirrors.temps t t' name
        obtain ⟨same, files⟩ := entry t name.mem
        exact ⟨f, f', same.trans found, found', holders, deletes, (files f found).trans file⟩
      nodup := mirrors.nodup
      count := mirrors.count
      streams := by
        intro j j' name
        obtain ⟨p, p', found, rest⟩ := mirrors.streams j j' name
        have named := List.mem_of_getElem? name
        have same := spares.streams j (mirrors.belowStreams named) (streams j named)
        exact ⟨p, p', same.trans found, rest⟩
      nodupStreams := mirrors.nodupStreams
      countStreams := mirrors.countStreams }
  exact
    { h with
      together := after.together
      reader := rel_imp (fun _ _ alike => ⟨alike.opened, alike.password, alike.encoding,
        alike.path.mono (fun _ _ => id) paths (List.prefix_refl _)⟩) h.reader }

/-- A path of the two sessions of an archive that is not closed. -/
def AtPath (n₀ : Names) (w₀ : World) (p p' : FilePath) (s s' : Session) : Prop :=
  s.self.closed = false ∧ ∃ n, Mirrored n₀ w₀ n s s' ∧ n.PathAlike s.world s'.world p p'

theorem _backingPath_twin :
    Exn.Sim (fun s s' => s.self.closed = false ∧ Twin n₀ w₀ s s') _backingPath _backingPath
      (AtPath n₀ w₀) (Twin n₀ w₀) := by
  intro s s' start
  obtain ⟨unclosed, n, h⟩ := start
  have source := congrArg Source.ownPath h.source
  rcases _backingPath_cases s with ⟨p, own, run⟩ | ⟨p, own, found, run⟩ | ⟨own, dead, run⟩
  · rw [run, _backingPath_own (source.symm.trans own)]
    obtain ⟨name, rfl⟩ := Source.ownPath_named own
    exact ⟨unclosed, n, h, Or.inl ⟨name, rfl, rfl⟩⟩
  · rcases rel_cases h.live with ⟨none, -⟩ | ⟨q, p', same, found', alike⟩
    · cases found.symm.trans none
    · obtain rfl := Option.some.inj (found.symm.trans same)
      rw [run, _backingPath_live (source.symm.trans own) found']
      exact ⟨unclosed, n, h, alike⟩
  · have dead' : liveTempfile s' = none := by
      rcases rel_cases h.live with ⟨-, none⟩ | ⟨p, p', found, -⟩
      · exact none
      · cases dead.symm.trans found
    rw [run, _backingPath_dead (source.symm.trans own) dead']
    rcases Source.delivers_or_fails own with ⟨content, delivers⟩ | ⟨file, exc, stream, failed⟩
    · have delivers' : s'.self.source.Delivers content := h.source ▸ delivers
      rw [spill_run delivers, spill_run delivers']
      have names (t t' : Nat) (name : n.Temp t t') : (n.withTemp s.world.temps.length).Temp t t' :=
        name.withTemp _
      have grows (w : World) :
          w.temps.map TempFile.path <+: (w.spilled content).temps.map TempFile.path := by
        unfold World.spilled
        rw [List.map_append]
        exact List.prefix_append _ _
      have after := h.inWorld (h.together.spilled content) names (grows s.world) (grows s'.world)
      have name : (n.withTemp s.world.temps.length).Temp s.world.temps.length
          s'.world.temps.length := by
        rw [h.together.mirrors.count]
        exact n.temp_withTemp _
      refine ⟨unclosed, _, { after with source := congrArg Source.afterCopy h.source
                                        tempfile := .some name }, Or.inr ⟨_, _, name, ?_, ?_⟩⟩
      · simp [World.spilled]
      · simp [World.spilled]
    · rw [spill_failed stream failed, spill_failed (h.source.symm.trans stream) failed]
      have after := h.inWorld (h.together.made (copyLoop file.replies).2.1) (fun _ _ => id)
        (List.prefix_refl _) (List.prefix_refl _)
      exact ⟨rfl, n, { after with source := congrArg Source.afterCopy h.source }⟩

/-- The archive is open: `r` is its reader in the one session, `r'` in the other. -/
structure AtReader (n₀ : Names) (w₀ : World) (r r' : RustArchive) (s s' : Session) : Prop where
  twin : Twin n₀ w₀ s s'
  unclosed : s.self.closed = false
  reader : s.self.reader = some r
  reader' : s'.self.reader = some r'

theorem openAt_twin (eng : Engine) (p p' : FilePath) :
    Exn.Sim (AtPath n₀ w₀ p p') (openAt eng p) (openAt eng p') (AtReader n₀ w₀) (Twin n₀ w₀) := by
  intro s s' start
  obtain ⟨unclosed, n, h, alike⟩ := start
  rw [openAt_run, openAt_run, ← h.password, ← h.encoding, ← alike.file h.together.mirrors]
  have logged := h.logged
    { path := p, password := s.self.password, encoding := s.self.encoding, work := .open }
    { path := p', password := s.self.password, encoding := s.self.encoding, work := .open }
  rcases eng.snapshot (s.world.files p) s.self.password s.self.encoding with
    (e | message) | o
  · exact ⟨rfl, n, logged.dropped⟩
  · exact ⟨rfl, n, logged⟩
  · refine ⟨⟨n, { logged with reader := .some ⟨rfl, rfl, rfl, ?_⟩ }⟩, unclosed, rfl, rfl⟩
    exact alike.mono (fun _ _ => id) (fun _ _ _ => id) (List.prefix_refl _)

theorem _open_twin (eng : Engine) :
    Exn.Sim (Twin n₀ w₀) (_open eng) (_open eng) (AtReader n₀ w₀) (Twin n₀ w₀) := by
  intro s s' start
  obtain ⟨n, h⟩ := start
  unfold _open
  rw [Exn.get_bind_apply, Exn.get_bind_apply, ← h.closed]
  cases unclosed : s.self.closed with
  | true => exact ⟨rfl, n, h⟩
  | false =>
      rw [if_neg Bool.false_ne_true, if_neg Bool.false_ne_true]
      rcases rel_cases h.reader with ⟨unread, unread'⟩ | ⟨r, r', cached, cached', -⟩
      · rw [unread, unread']
        refine (_backingPath_twin.bind ?_) s s' ⟨unclosed, n, h⟩
        intro p p' s s' at'
        have opened := openAt_twin eng p p' s s' at'
        obtain ⟨-, m, mirrored, alike⟩ := at'
        rw [Exn.get_bind_apply, Exn.get_bind_apply, ← congrArg Source.ownPath mirrored.source,
          ← alike.file mirrored.together.mirrors]
        rcases s.self.source.ownPath with _ | (own | k)
        · exact opened
        · rcases s.world.files p with _ | content
          · exact ⟨rfl, m, mirrored⟩
          · exact opened
        · exact opened
      · rw [cached, cached']
        exact ⟨⟨n, h⟩, unclosed, cached, cached'⟩

/-- A cached reader is the same in both worlds, but for its path. -/
theorem AtReader.alike {r r' : RustArchive} (h : AtReader n₀ w₀ r r' s s') :
    ∃ n, Mirrored n₀ w₀ n s s' ∧ n.ReaderAlike s.world s'.world r r' := by
  obtain ⟨n, mirrored⟩ := h.twin
  have readers := mirrored.reader
  rw [h.reader, h.reader'] at readers
  cases readers with
  | some alike => exact ⟨n, mirrored, alike⟩

/-- The listing that is made of a reader may be cached in both. -/
theorem AtReader.listed {r r' : RustArchive} (h : AtReader n₀ w₀ r r' s s') (entries : List Entry)
    (byName : NameIndex) :
    AtReader n₀ w₀ r r'
      { s with self := { s.self with entries := some entries, byName := some byName } }
      { s' with self := { s'.self with entries := some entries, byName := some byName } } := by
  obtain ⟨n, mirrored⟩ := h.twin
  exact ⟨⟨n, { mirrored with entries := rfl, byName := rfl }⟩, h.unclosed, h.reader, h.reader'⟩

theorem _listing_twin (eng : Engine) : Exn.Respects (Twin n₀ w₀) (_listing eng) := by
  intro s s' start
  obtain ⟨n, h⟩ := start
  unfold _listing
  rw [Exn.get_bind_apply, Exn.get_bind_apply, ← h.entries]
  cases s.self.entries with
  | some entries => exact ⟨rfl, n, h⟩
  | none =>
      refine ((_open_twin eng).bind ?_) s s' ⟨n, h⟩
      intro r r' s s' held
      obtain ⟨n, mirrored, alike⟩ := held.alike
      rw [← congrArg Opened.entries alike.opened]
      exact ⟨rfl, (held.listed _ _).twin⟩

/-! ## With the reader at hand -/

variable {r r' : RustArchive} {α β : Type}

theorem AtReader._listing_twin (eng : Engine) :
    Exn.Respects (AtReader n₀ w₀ r r') (_listing eng) := by
  intro s s' held
  obtain ⟨n, mirrored, alike⟩ := held.alike
  unfold _listing
  rw [Exn.get_bind_apply, Exn.get_bind_apply, ← mirrored.entries]
  cases s.self.entries with
  | some entries => exact ⟨rfl, held⟩
  | none =>
      have opened : _open eng s = (.ok r, s) := by
        unfold _open
        simp [held.unclosed, held.reader]
      have opened' : _open eng s' = (.ok r', s') := by
        unfold _open
        simp [← mirrored.closed, held.unclosed, held.reader']
      dsimp only
      rw [Exn.bind_of_ok opened, Exn.bind_of_ok opened', ← congrArg Opened.entries alike.opened]
      exact ⟨rfl, held.listed _ _⟩

theorem AtReader._indexOf_twin (eng : Engine) (ref : Ref) :
    Exn.Respects (AtReader n₀ w₀ r r') (_indexOf eng ref) :=
  (AtReader._listing_twin eng).bind fun _ => Exn.Respects.lift _

theorem AtReader.indices_twin (eng : Engine) (refs : List Ref) :
    Exn.Respects (AtReader n₀ w₀ r r') (indices eng refs) := by
  induction refs with
  | nil => exact Exn.Respects.pure _
  | cons ref refs ih =>
      exact (AtReader._indexOf_twin eng ref).bind fun i => ih.bind fun is => Exn.Respects.pure _

theorem AtReader.selected_twin (eng : Engine) (selection : Option (List Ref)) :
    Exn.Respects (AtReader n₀ w₀ r r') (selected eng selection) := by
  cases selection with
  | none => exact Exn.Respects.pure _
  | some refs => exact (AtReader.indices_twin eng refs).bind fun is => Exn.Respects.pure _

/-- The reader stays at hand in worlds that stay together. -/
theorem AtReader.inWorld (h : AtReader n₀ w₀ r r' s s') {w w' : World}
    (mirrored : Mirrored n₀ w₀ n { s with world := w } { s' with world := w' }) :
    AtReader n₀ w₀ r r' { s with world := w } { s' with world := w' } :=
  ⟨⟨n, mirrored⟩, h.unclosed, h.reader, h.reader'⟩

/-- What is asked of the one reader and of the other ends alike. -/
theorem AtReader.asks {x x' : Py World β} {argument : Except PyExc α}
    {call call' : α → EngineCall} {result result' : α → Option Bytes → Except PyExc β}
    (h : Asks x r.path argument call result) (h' : Asks x' r'.path argument call' result')
    (same : r.toOpened = r'.toOpened → r.password = r'.password → r.encoding = r'.encoding →
      result = result') :
    Exn.Sim (AtReader n₀ w₀ r r') (onWorld x) (onWorld x')
      (fun a b s s' => a = b ∧ AtReader n₀ w₀ r r' s s') (AtReader n₀ w₀ r r') := by
  intro s s' held
  obtain ⟨n, mirrored, alike⟩ := held.alike
  obtain rfl := same alike.opened alike.password alike.encoding
  cases argument with
  | error exc =>
      rw [onWorld_run (h s.world), onWorld_run (h' s'.world)]
      exact ⟨rfl, held⟩
  | ok a =>
      have logged := held.inWorld (mirrored.logged (call a) (call' a))
      rw [onWorld_run (h s.world), onWorld_run (h' s'.world), ← alike.path.file
        mirrored.together.mirrors]
      rcases result a (s.world.files r.path) with exc | b
      · exact ⟨rfl, logged⟩
      · exact ⟨rfl, logged⟩

/-! ## Pipes -/

theorem Mirrored.holding (h : Mirrored n₀ w₀ n s s') :
    ∃ w w', holdClaim s.self.tempfile s.world = (.ok (), w) ∧
      holdClaim s'.self.tempfile s'.world = (.ok (), w') ∧
      Mirrored n₀ w₀ n { s with world := w } { s' with world := w' } := by
  rcases rel_cases h.tempfile with ⟨claimed, claimed'⟩ | ⟨t, t', claimed, claimed', name⟩
  · rw [claimed, claimed']
    exact ⟨s.world, s'.world, rfl, rfl, h⟩
  · rw [claimed, claimed']
    have paths := (s.world.hold_touches t).paths
    have paths' := (s'.world.hold_touches t').paths
    exact ⟨_, _, rfl, rfl, h.inWorld (h.together.held name) (fun _ _ => id)
      (paths ▸ List.prefix_refl _) (paths' ▸ List.prefix_refl _)⟩

theorem Mirrored.releasing (h : Mirrored n₀ w₀ n s s') :
    ∃ w w', releaseClaim s.self.tempfile s.world = (.ok (), w) ∧
      releaseClaim s'.self.tempfile s'.world = (.ok (), w') ∧
      Mirrored n₀ w₀ n { s with world := w } { s' with world := w' } := by
  rcases rel_cases h.tempfile with ⟨claimed, claimed'⟩ | ⟨t, t', claimed, claimed', name⟩
  · rw [claimed, claimed']
    exact ⟨s.world, s'.world, rfl, rfl, h⟩
  · rw [claimed, claimed']
    exact ⟨_, _, TempFile.release_run t s.world, TempFile.release_run t' s'.world,
      h.released name⟩

/-- `open_stream` checks its index before it asks for anything. -/
def streamIndex (eng : Engine) (r : RustArchive) (index : Int) : Except PyExc Nat := do
  let i ← usizeArg index
  if r.entries.length ≤ i then
    .error (toPyerr { variant := .invalidIndex, message := eng.invalidIndex i })
  else .ok i

theorem openStream_asks (eng : Engine) (r : RustArchive) (index : Int) :
    Asks (r.openStream eng index) r.path (streamIndex eng r index)
      (fun i => r.call (.stream i)) fun i file => eng.piped r.password r.encoding i file := by
  intro w
  unfold RustArchive.openStream streamIndex
  rcases usizeArg index with exc | i
  · rfl
  · rw [Exn.lift_ok_bind_apply]
    simp only [bind, Except.bind]
    by_cases outside : r.entries.length ≤ i
    · rw [if_pos outside, if_pos outside]
      rfl
    · rw [if_neg outside, if_neg outside]
      exact spawnStreamWorkerUnix_run eng r.path r.password r.encoding i w

theorem onWorld_inv {x : Py World α} {a : Except PyExc α} {u t : Session}
    (run : onWorld x u = (a, t)) : ∃ w, x u.world = (a, w) ∧ t = { u with world := w } := by
  unfold onWorld at run
  rw [Exn.zoom_apply] at run
  obtain ⟨rfl, rfl⟩ := Prod.mk.inj run
  exact ⟨_, rfl, rfl⟩

/-- The two streams deliver the same and expect the same. -/
def SameStream (p p' : Nat × PipeStream) : Prop := p.2 = { p'.2 with onClose := p.2.onClose }

theorem AtReader._openPipePosix_twin (eng : Engine) (index : Int) (size : Option Int) :
    Exn.Sim (AtReader n₀ w₀ r r') (_openPipePosix eng r index size)
      (_openPipePosix eng r' index size)
      (fun p p' s s' => SameStream p p' ∧ Twin n₀ w₀ s s') (Twin n₀ w₀) := by
  intro s s' held
  obtain ⟨n, mirrored, alike⟩ := held.alike
  have argument : streamIndex eng r index = streamIndex eng r' index := by
    unfold streamIndex
    rw [congrArg Opened.entries alike.opened]
  obtain ⟨w, w', holds, holds', after⟩ := mirrored.holding
  unfold _openPipePosix
  rw [Exn.get_bind_apply, Exn.get_bind_apply]
  have asked := (AtReader.asks (openStream_asks eng r index)
    (argument ▸ openStream_asks eng r' index)
    (fun _ password encoding => by rw [password, encoding])).cases (held.inWorld after)
  rcases asked with
    ⟨data, _, t, t', run, run', rfl, still⟩ | ⟨exc, t, t', run, run', still⟩
  · obtain ⟨v, shake, rfl⟩ := onWorld_inv run
    obtain ⟨v', shake', rfl⟩ := onWorld_inv run'
    obtain ⟨m, mirrored', -⟩ := still.alike
    rw [onWorld_run (openPipe_ok holds shake size), onWorld_run (openPipe_ok holds' shake' size)]
    refine ⟨rfl, _, mirrored'.inWorld (mirrored'.together.newStream rfl mirrored'.tempfile)
      (fun _ _ => id) (List.prefix_refl _) (List.prefix_refl _)⟩
  · obtain ⟨v, shake, rfl⟩ := onWorld_inv run
    obtain ⟨v', shake', rfl⟩ := onWorld_inv run'
    obtain ⟨m, mirrored', -⟩ := still.alike
    obtain ⟨u, u', gives, gives', after'⟩ := mirrored'.releasing
    rw [onWorld_run (openPipe_error holds shake gives size),
      onWorld_run (openPipe_error holds' shake' gives' size)]
    exact ⟨rfl, m, after'⟩

/-! ## Every call -/

theorem nameIndex_twin : Exn.Respects (Twin n₀ w₀) Archive.nameIndex := by
  intro s s' start
  obtain ⟨n, h⟩ := start
  unfold Archive.nameIndex
  rw [Exn.get_bind_apply, Exn.get_bind_apply, ← h.byName]
  cases s.self.byName with
  | none => exact ⟨rfl, n, h⟩
  | some byName => exact ⟨rfl, n, h⟩

theorem getitem_twin (eng : Engine) (key : Key) :
    Exn.Respects (Twin n₀ w₀) (getitem eng key) := by
  refine (_listing_twin eng).bind fun entries => ?_
  cases key with
  | slice slice => exact (Exn.Respects.lift _).bind fun _ => Exn.Respects.pure _
  | int i => exact (Exn.Respects.lift _).bind fun _ => Exn.Respects.pure _
  | name text =>
      exact nameIndex_twin.bind fun _ =>
        (Exn.Respects.lift _).bind fun _ => Exn.Respects.pure _
  | path path =>
      exact nameIndex_twin.bind fun _ =>
        (Exn.Respects.lift _).bind fun _ => Exn.Respects.pure _

theorem contains_twin (eng : Engine) (key : Member) :
    Exn.Respects (Twin n₀ w₀) (contains eng key) := by
  cases key with
  | other => exact Exn.Respects.pure _
  | entry e => exact (_listing_twin eng).bind fun _ => Exn.Respects.pure _
  | name text =>
      exact (_listing_twin eng).bind fun _ =>
        nameIndex_twin.bind fun _ => Exn.Respects.pure _
  | path path =>
      exact (_listing_twin eng).bind fun _ =>
        nameIndex_twin.bind fun _ => Exn.Respects.pure _

theorem needsPassword_twin (eng : Engine) :
    Exn.Respects (Twin n₀ w₀) (needsPassword eng) := by
  refine Exn.Respects.handle ((_listing_twin eng).bind fun _ => Exn.Respects.pure _) fun exc => ?_
  by_cases lacking : exc.cls = .passwordRequiredError ∨ exc.cls = .wrongPasswordError
  · rw [if_pos lacking]
    exact Exn.Respects.pure _
  · rw [if_neg lacking]
    exact Exn.Respects.raise _

theorem typed_twin {x y : Py Session α} {R E : Session → Session → Prop}
    {Q : α → α → Session → Session → Prop} (h : Exn.Sim R x y Q E) :
    Exn.Sim R (typed x) (typed y) Q E :=
  h.handle fun _ => Exn.Sim.raise fun _ _ ended => ended

/-- Opening, and then something that the two readers do alike. -/
theorem opening_twin (eng : Engine) {f : RustArchive → Py Session α}
    (rest : ∀ r r', Exn.Sim (AtReader n₀ w₀ r r') (f r) (f r')
      (fun a b s s' => a = b ∧ Twin n₀ w₀ s s') (Twin n₀ w₀)) :
    Exn.Respects (Twin n₀ w₀) (_open eng >>= f) :=
  (_open_twin eng).bind rest

/-- What respects the relation with the readers at hand leaves twins. -/
theorem AtReader.bind {x : Py Session β} (hx : Exn.Respects (AtReader n₀ w₀ r r') x)
    {f f' : β → Py Session α} {Q : α → α → Session → Session → Prop}
    (rest : ∀ b, Exn.Sim (AtReader n₀ w₀ r r') (f b) (f' b) Q (Twin n₀ w₀)) :
    Exn.Sim (AtReader n₀ w₀ r r') (x >>= f) (x >>= f') Q (Twin n₀ w₀) := by
  have weaker := hx.conseq (fun _ _ => id) (fun _ _ _ _ => id)
    fun _ _ (held : AtReader n₀ w₀ r r' _ _) => held.twin
  refine weaker.bind ?_
  intro b _ s s' post
  obtain ⟨rfl, held⟩ := post
  exact rest b s s' held

theorem AtReader.lift {e e' : Except PyExc α}
    (same : r.toOpened = r'.toOpened → e = e') :
    Exn.Sim (AtReader n₀ w₀ r r') (Exn.lift e : Py Session α) (Exn.lift e')
      (fun a b s s' => a = b ∧ Twin n₀ w₀ s s') (Twin n₀ w₀) := by
  intro s s' held
  obtain ⟨n, mirrored, alike⟩ := held.alike
  obtain rfl := same alike.opened
  cases e with
  | error exc => exact ⟨rfl, held.twin⟩
  | ok a => exact ⟨rfl, held.twin⟩

theorem AtReader.typedAsks {x x' : Py World β} {argument : Except PyExc α}
    {call call' : α → EngineCall} {result result' : α → Option Bytes → Except PyExc β}
    (h : Asks x r.path argument call result) (h' : Asks x' r'.path argument call' result')
    (same : r.toOpened = r'.toOpened → result = result') :
    Exn.Sim (AtReader n₀ w₀ r r') (typed (onWorld x)) (typed (onWorld x'))
      (fun a b s s' => a = b ∧ Twin n₀ w₀ s s') (Twin n₀ w₀) :=
  typed_twin ((AtReader.asks h h' fun opened _ _ => same opened).conseq (fun _ _ => id)
    (fun _ _ _ _ post => ⟨post.1, post.2.twin⟩) fun _ _ held => held.twin)

/-- Decoding one entry through the two readers. -/
theorem fetch_twin (eng : Engine) (ref : Ref) {x : RustArchive → Int → Py World Bytes}
    {work : Nat → Work}
    (asks : ∀ (r : RustArchive) index, Asks (x r index) r.path (usizeArg index)
      (fun i => r.call (work i)) fun i file => (r.reader.readEntry file i).bytes) :
    Exn.Respects (Twin n₀ w₀) (do
      let reader ← _open eng
      let index ← _indexOf eng ref
      typed (onWorld (x reader index))) := by
  refine opening_twin eng fun r r' => ?_
  refine AtReader.bind (AtReader._indexOf_twin eng ref) fun index => ?_
  refine AtReader.typedAsks (asks r index) (asks r' index) fun opened => ?_
  rw [congrArg Opened.reader opened]

theorem openStream_twin (eng : Engine) (ref : Ref) :
    Exn.Sim (Twin n₀ w₀) (openStream eng ref) (openStream eng ref)
      (fun p p' s s' => SameStream p p' ∧ Twin n₀ w₀ s s') (Twin n₀ w₀) := by
  refine (_open_twin eng).bind fun r r' => ?_
  refine AtReader.bind (AtReader._indexOf_twin eng ref) fun index => ?_
  refine AtReader.bind (AtReader._listing_twin eng) fun entries => ?_
  refine AtReader.bind (Exn.Respects.lift _) fun entry => ?_
  exact AtReader._openPipePosix_twin eng index _

theorem extract_twin (eng : Engine) (request : ExtractRequest) :
    Exn.Respects (Twin n₀ w₀) (extract eng request) := by
  refine opening_twin eng fun r r' => ?_
  refine AtReader.bind (AtReader.selected_twin eng request.selection) fun selection => ?_
  intro s s' held
  obtain ⟨n, mirrored⟩ := held.twin
  rw [Exn.get_bind_apply, Exn.get_bind_apply, ← mirrored.source]
  refine AtReader.typedAsks (r.extract_asks eng _) (r'.extract_asks eng _) (fun opened => ?_) s s'
    held
  rw [congrArg Opened.reader opened]

/-- Step lemma: every call ends alike in the two worlds and leaves them together. -/
theorem call_twin (eng : Engine) (c : Call) : Exn.Respects (Twin n₀ w₀) (call eng c) := by
  have packed {α : Type} {x : Py Session α} (f : α → Value)
      (respects : Exn.Respects (Twin n₀ w₀) x) :
      Exn.Respects (Twin n₀ w₀) (x >>= fun a => pure (f a)) :=
    respects.bind fun a => Exn.Respects.pure (f a)
  cases c with
  | len => exact packed _ (_listing_twin eng)
  | iter => exact packed _ (_listing_twin eng)
  | getitem key => exact getitem_twin eng key
  | contains key => exact packed _ (contains_twin eng key)
  | format =>
      refine packed _ (opening_twin eng fun r r' => AtReader.lift fun opened => ?_)
      unfold RustArchive.format
      rw [congrArg Opened.reader opened]
  | detectedEncoding =>
      have same (r r' : RustArchive) (opened : r.toOpened = r'.toOpened) :
          (Except.ok r.detectedEncoding : Except PyExc String) = .ok r'.detectedEncoding := by
        rw [congrArg Opened.detectedEncoding opened]
      exact packed _ (opening_twin eng fun r r' => AtReader.lift (same r r'))
  | needsPassword => exact packed _ (needsPassword_twin eng)
  | read ref => exact packed _ (fetch_twin eng ref RustArchive.read_asks)
  | openBuffered ref => exact packed _ (fetch_twin eng ref RustArchive.writeEntryTo_asks)
  | openStream ref =>
      refine (openStream_twin eng ref).bind ?_
      intro p p' s s' post
      obtain ⟨same, twin⟩ := post
      have same : p.2 = { p'.2 with onClose := p.2.onClose } := same
      dsimp only
      rw [same]
      exact ⟨rfl, twin⟩
  | extract request => exact packed _ (extract_twin eng request)

/-! ## Everything else that is done to an archive -/

/-- Caching nothing, under any password, open or closed. -/
theorem Mirrored.emptied (h : Mirrored n₀ w₀ n s s') (password : Option String) (closed : Bool) :
    Mirrored n₀ w₀ n
      { s with self := { s.self with
        password, closed, reader := none, entries := none, byName := none } }
      { s' with self := { s'.self with
        password, closed, reader := none, entries := none, byName := none } } where
  together := h.together
  source := h.source
  password := rfl
  encoding := h.encoding
  entries := rfl
  byName := rfl
  closed := rfl
  tempfile := h.tempfile
  reader := .none

theorem setPassword_twin (password : Option String) :
    Exn.Respects (Twin n₀ w₀) (setPassword password) := by
  intro s s' start
  obtain ⟨n, h⟩ := start
  refine ⟨rfl, n, ?_⟩
  have emptied := h.emptied password s.self.closed
  exact { emptied with closed := h.closed }

theorem close_twin : Exn.Respects (Twin n₀ w₀) close := by
  intro s s' start
  obtain ⟨n, h⟩ := start
  rw [close_run, close_run]
  have emptied := h.emptied s.self.password true
  have shut : Mirrored n₀ w₀ n { s with self := shut s.self } { s' with self := shut s'.self } :=
    { emptied with password := h.password }
  exact ⟨rfl, n, shut.dropped⟩

/-- A stream gives the same claim up in both worlds. -/
theorem Mirrored.claimGiven (h : Mirrored n₀ w₀ n s s') {claim claim' : Option Nat}
    (same : Option.Rel n.Temp claim claim') :
    Mirrored n₀ w₀ n { s with world := s.world.afterClaim claim }
      { s' with world := s'.world.afterClaim claim' } := by
  cases same with
  | none => exact h
  | some name => exact h.released name

theorem closeStream_twin {j j' : Nat} (name : n.streams[j']? = some j) (fault : Option PyExc)
    (h : Mirrored n₀ w₀ n s s') :
    (onWorld (NewtuaPy.closeStream j fault) s).1 = (onWorld (NewtuaPy.closeStream j' fault) s').1 ∧
      Mirrored n₀ w₀ n (onWorld (NewtuaPy.closeStream j fault) s).2
        (onWorld (NewtuaPy.closeStream j' fault) s').2 := by
  obtain ⟨p, p', entry, entry', same, claim⟩ := h.together.mirrors.streams j j' name
  have run := closeStream_run entry fault
  have run' := closeStream_run entry' fault
  have closed : p'.closed = p.closed := by rw [same]
  rw [closed] at run'
  cases closed : p.closed with
  | true =>
      rw [if_pos closed] at run run'
      rw [onWorld_run run, onWorld_run run']
      exact ⟨rfl, h⟩
  | false =>
      have unclosed : ¬p.closed = true := by simp [closed]
      rw [if_neg unclosed] at run run'
      rw [onWorld_run run, onWorld_run run']
      cases fault with
      | some exc => exact ⟨rfl, h.claimGiven claim⟩
      | none =>
          have marked := h.inWorld (h.together.marked name) (fun _ _ => id) (List.prefix_refl _)
            (List.prefix_refl _)
          exact ⟨rfl, marked.claimGiven claim⟩

/-! ## Files that a caller named -/

theorem Mirrored.written (h : Mirrored n₀ w₀ n s s') (own : String) (content : Option Bytes) :
    Mirrored n (s.world.writeFile (.named own) content) n
      { s with world := s.world.writeFile (.named own) content }
      { s' with world := s'.world.writeFile (.named own) content } := by
  have mirrors := h.together.mirrors
  have elsewhere {w : World} (numbered : w.Numbered) {t : Nat} {f : TempFile}
      (entry : w.temps[t]? = some f) :
      (w.writeFile (.named own) content).files f.path = w.files f.path := by
    obtain ⟨m, -, path⟩ := numbered.below t f.path (by rw [List.getElem?_map, entry]; rfl)
    exact Function.update_of_ne (by rw [path]; exact FilePath.noConfusion) _ _
  have after : n.Mirrors (s.world.writeFile (.named own) content)
      (s'.world.writeFile (.named own) content) :=
    { named := by
        intro name
        unfold World.writeFile
        dsimp only
        by_cases this : name = own
        · rw [this, Function.update_self, Function.update_self]
        · have other : FilePath.named name ≠ .named own :=
            fun same => this (FilePath.named.inj same)
          rw [Function.update_of_ne other, Function.update_of_ne other]
          exact mirrors.named name
      numbered := ⟨mirrors.numbered.below, mirrors.numbered.distinct⟩
      numbered' := ⟨mirrors.numbered'.below, mirrors.numbered'.distinct⟩
      temps := by
        intro t t' name
        obtain ⟨f, f', entry, entry', holders, deletes, file⟩ := mirrors.temps t t' name
        refine ⟨f, f', entry, entry', holders, deletes, ?_⟩
        rw [elsewhere mirrors.numbered entry, elsewhere mirrors.numbered' entry']
        exact file
      nodup := mirrors.nodup
      count := mirrors.count
      streams := mirrors.streams
      nodupStreams := mirrors.nodupStreams
      countStreams := mirrors.countStreams }
  exact
    { h with
      together := after.together
      reader := rel_imp (fun _ _ alike =>
        ⟨alike.opened, alike.password, alike.encoding, alike.path⟩) h.reader }

end Archive

/-! ## A process with several archives -/

/-- An archive, the file object it reads, and the streams that were opened from it, both by
their places in what the process has of them. -/
structure Member where
  self : Archive
  object : Option Nat := none
  streams : List Nat := []

structure Process where
  world : World
  objects : Nat → FileObj
  members : List Member

/-- The archive, with its file object where that now stands. -/
def Member.lent (objects : Nat → FileObj) (m : Member) : Archive :=
  match m.object with
  | none => m.self
  | some i => { m.self with source := .stream (objects i) }

/-- The file objects, once the archive has read its own as far as `source`. -/
def Member.moved (objects : Nat → FileObj) (m : Member) (source : Source) : Nat → FileObj :=
  match m.object, source with
  | some i, .stream file => Function.update objects i file
  | _, _ => objects

namespace Process

/-- What is done to an archive, or to the `j`-th stream opened from it. -/
inductive Event
  | call (c : Archive.Call)
  | setPassword (password : Option String)
  | enter
  | close
  | closeStream (j : Nat) (fault : Option PyExc)

def Event.run (eng : Engine) (streams : List Nat) : Event → Py Session (Option Archive.Value)
  | .call c => do
      let value ← Archive.call eng c
      pure (some value)
  | .setPassword password => do
      Archive.setPassword password
      pure none
  | .enter => do
      Archive.enter eng
      pure none
  | .close => do
      Archive.close
      pure none
  | .closeStream j fault => match streams[j]? with
      | some k => do
          onWorld (NewtuaPy.closeStream k fault)
          pure none
      | none => pure none

/-- What happens in a process.  A file that a caller named is `written`, or deleted, by
anyone: an extraction, the caller, another program. -/
inductive Input
  | on (k : Nat) (event : Event)
  | written (own : String) (content : Option Bytes)

/-- What an event of an archive gives, if the process has that archive. -/
abbrev Outcome := Option (Except PyExc (Option Archive.Value))

/-- The archives handle their events one after the other in the world they share. -/
def step (eng : Engine) : Machine Process Input Outcome
  | p, .on k event => match p.members[k]? with
      | none => (none, p)
      | some m =>
          let (outcome, s) :=
            event.run eng m.streams { world := p.world, self := m.lent p.objects }
          let opened := List.range' p.world.streams.length
            (s.world.streams.length - p.world.streams.length)
          (some outcome,
           { world := s.world
             objects := m.moved p.objects s.self.source
             members := p.members.set k
               { m with self := s.self, streams := m.streams ++ opened } })
  | p, .written own content => (none, { p with world := p.world.writeFile (.named own) content })

/-- What an archive is constructed from: a file object is one that the process has. -/
inductive Origin
  | path (arg : PathArg)
  | bytes (content : Bytes)
  | object (i : Nat)

def Origin.source (objects : Nat → FileObj) : Origin → Source
  | .path arg => .path arg
  | .bytes content => .bytes content
  | .object i => .stream (objects i)

/-- The file object of the process that the archive is given. -/
def Origin.place : Origin → Option Nat
  | .object i => some i
  | _ => none

structure Given where
  origin : Origin
  password : Option String := none
  encoding : Option String := none

def Given.member (objects : Nat → FileObj) (given : Given) : Member where
  self :=
    { source := given.origin.source objects
      password := given.password
      encoding := given.encoding }
  object := given.origin.place

/-- A process that has constructed an archive from each of `given`.  Constructing one
touches nothing. -/
def start (files : FilePath → Option Bytes) (objects : Nat → FileObj) (given : List Given) :
    Process where
  world := { files }
  objects
  members := given.map (Given.member objects)

/-- No two archives are given one file object. -/
def Unshared (given : List Given) : Prop :=
  (given.filterMap fun g => g.origin.place).Nodup

instance : DecidablePred Unshared := fun _ => inferInstanceAs (Decidable (List.Nodup _))

/-- What the `k`-th archive sees of what happens, in the words of a process that has no other. -/
def view (k : Nat) : Input → Option Input
  | .on j event => if j = k then some (.on 0 event) else none
  | .written own content => some (.written own content)

theorem view_on (k j : Nat) (event : Event) :
    view k (.on j event) = if j = k then some (.on 0 event) else none := rfl

/-! ## File objects -/

section Objects

variable {objects : Nat → FileObj} {m : Member}

/-- An archive that reads a file object goes on reading one. -/
theorem Event.run_stream (eng : Engine) (streams : List Nat) (event : Event) :
    Exn.Keeps (fun s => ∃ file, s.self.source = .stream file) (event.run eng streams) := by
  let Streams (source : Source) : Prop := ∃ file, source = .stream file
  have copied (source : Source) (stream : Streams source) : Streams source.afterCopy := by
    obtain ⟨file, rfl⟩ := stream
    exact ⟨_, rfl⟩
  have upheld : Archive.Upheld (fun s => Streams s.self.source) eng := .ofSource copied eng
  cases event with
  | call c => exact (upheld.call c).bind fun _ => Exn.Keeps.pure _
  | setPassword password =>
      exact Exn.Keeps.bind (Exn.Keeps.modify fun _ stream => stream) fun _ => Exn.Keeps.pure _
  | enter =>
      exact (upheld.lists.bind fun _ => Exn.Keeps.pure ()).bind fun _ => Exn.Keeps.pure _
  | close =>
      exact Exn.Keeps.bind (fun _ stream => Archive.close_source (P := Streams) stream)
        fun _ => Exn.Keeps.pure _
  | closeStream j fault =>
      unfold Event.run
      dsimp only
      cases streams[j]? with
      | none => exact Exn.Keeps.pure _
      | some k =>
          have closed : Exn.Keeps (fun s => Streams s.self.source)
              (onWorld (NewtuaPy.closeStream k fault)) := fun _ stream => stream
          exact closed.bind fun _ => Exn.Keeps.pure _

theorem lent_stream {i : Nat} (reads : m.object = some i) :
    (m.lent objects).source = .stream (objects i) := by
  unfold Member.lent
  rw [reads]

/-- Where the archive has left its file object, it finds it. -/
theorem lent_moved (objects : Nat → FileObj) {self : Archive}
    (stream : ∀ i, m.object = some i → ∃ file, self.source = .stream file)
    (streams : List Nat) :
    ({ m with self, streams } : Member).lent (m.moved objects self.source) = self := by
  unfold Member.lent Member.moved
  dsimp only
  cases reads : m.object with
  | none => rfl
  | some i =>
      obtain ⟨file, source⟩ := stream i reads
      rcases self with ⟨_, _, _, _, _, _, _, _⟩
      dsimp only at source ⊢
      rw [source]
      simp

/-- Another's file object stays where it is. -/
theorem lent_apart {m' : Member} (apart : ∀ i, m.object = some i → m'.object ≠ some i)
    (source : Source) : m'.lent (m.moved objects source) = m'.lent objects := by
  unfold Member.lent Member.moved
  cases reads' : m'.object with
  | none => rfl
  | some j =>
      cases reads : m.object with
      | none => rfl
      | some i =>
          have other : j ≠ i := by
            rintro rfl
            exact apart j reads reads'
          cases source with
          | stream file =>
              dsimp only
              rw [Function.update_of_ne other]
          | path arg => rfl
          | bytes content => rfl

end Objects

/-! ## The archives side by side -/

/-- Each archive mirrors a process of its own, and no two have a name in common or read
one file object. -/
structure Split (p : Process) (names : Nat → Names) (own : Nat → Process) : Prop where
  mirrored : ∀ (k : Nat) (m : Member), p.members[k]? = some m → ∃ alone : Member,
    (own k).members = [alone] ∧
    alone.object = m.object ∧
    alone.streams = List.range (own k).world.streams.length ∧
    Archive.Mirrored (names k) p.world (names k) { world := p.world, self := m.lent p.objects }
      { world := (own k).world, self := alone.lent (own k).objects } ∧
    (names k).streams = m.streams
  objects : (p.members.filterMap Member.object).Nodup
  temps : ∀ i j, i < p.members.length → j < p.members.length → i ≠ j →
    ∀ t ∈ (names i).temps, t ∉ (names j).temps
  streams : ∀ i j, i < p.members.length → j < p.members.length → i ≠ j →
    ∀ t ∈ (names i).streams, t ∉ (names j).streams

/-- An event ends alike in the two worlds. -/
theorem Event.run_twin (eng : Engine) (event : Event) {n : Names} {s s' : Session}
    (h : Archive.Mirrored n s.world n s s') :
    (event.run eng n.streams s).1 =
        (event.run eng (List.range s'.world.streams.length) s').1 ∧
      Archive.Twin n s.world (event.run eng n.streams s).2
        (event.run eng (List.range s'.world.streams.length) s').2 := by
  have twin : Archive.Twin n s.world s s' := ⟨n, h⟩
  have count := h.together.mirrors.countStreams
  cases event with
  | call c =>
      exact ((Archive.call_twin eng c).bind fun _ => Exn.Respects.pure _).same twin
  | setPassword password =>
      exact ((Archive.setPassword_twin password).bind fun _ => Exn.Respects.pure _).same twin
  | enter =>
      have entered : Exn.Respects (Archive.Twin n s.world) (Archive.enter eng) :=
        (Archive._listing_twin eng).bind fun _ => Exn.Respects.pure _
      exact (entered.bind fun _ => Exn.Respects.pure _).same twin
  | close => exact (Archive.close_twin.bind fun _ => Exn.Respects.pure _).same twin
  | closeStream j fault =>
      unfold Event.run
      dsimp only
      cases name : n.streams[j]? with
      | none =>
          have outside : s'.world.streams.length ≤ j := by
            rw [count]
            exact List.getElem?_eq_none_iff.mp name
          rw [List.getElem?_eq_none (by rw [List.length_range]; exact outside)]
          exact ⟨rfl, twin⟩
      | some k =>
          have inside : j < s'.world.streams.length := by
            rw [count]
            exact (List.getElem?_eq_some_iff.mp name).1
          rw [List.getElem?_range inside]
          dsimp only
          obtain ⟨same, after⟩ := Archive.closeStream_twin name fault h
          rcases run : onWorld (NewtuaPy.closeStream k fault) s with ⟨exc | ⟨⟩, t⟩ <;>
            rcases run' : onWorld (NewtuaPy.closeStream j fault) s' with ⟨exc' | ⟨⟩, t'⟩ <;>
            rw [run, run'] at same after <;> cases same
          · rw [Exn.bind_of_error run, Exn.bind_of_error run']
            exact ⟨rfl, n, after⟩
          · rw [Exn.bind_of_ok run, Exn.bind_of_ok run']
            exact ⟨rfl, n, after⟩

variable {eng : Engine} {p : Process} {names : Nat → Names} {own : Nat → Process} {k : Nat}

/-- What is newly named is named by nobody else. -/
theorem Split.apart (h : Split p names own) (inside : k < p.members.length) {n : Names}
    {s s' : Session} (after : Archive.Mirrored (names k) p.world n s s') {i : Nat}
    (inside' : i < p.members.length) (other : i ≠ k) :
    (∀ t ∈ (names i).temps, t ∉ n.temps) ∧ ∀ j ∈ (names i).streams, j ∉ n.streams := by
  obtain ⟨alone, -, -, -, mirrored, -⟩ := h.mirrored i _ (List.getElem?_eq_getElem inside')
  have mirrors := mirrored.together.mirrors
  constructor
  · intro t named new
    rcases after.together.temps t new with old | late
    · exact h.temps i k inside' inside other t named old
    · exact Nat.not_lt.mpr late (mirrors.below named)
  · intro j named new
    rw [after.together.streams] at new
    rcases List.mem_append.mp new with old | late
    · exact h.streams i k inside' inside other j named old
    · exact Nat.not_lt.mpr (List.mem_range'_1.mp late).1 (mirrors.belowStreams named)

theorem filterMap_set {α β : Type} (f : α → Option β) {l : List α} {k : Nat}
    (inside : k < l.length) {a : α} (same : f a = f l[k]) :
    (l.set k a).filterMap f = l.filterMap f := by
  have mapped : (l.set k a).map f = l.map f := by
    calc (l.set k a).map f = (l.map f).set k (f l[k]) := by rw [List.map_set, same]
      _ = (l.set k l[k]).map f := List.map_set.symm
      _ = l.map f := by rw [List.set_getElem_self]
  have images (l : List α) : l.filterMap f = (l.map f).filterMap id := by
    rw [List.filterMap_map]
    rfl
  rw [images, mapped, ← images]

/-- What one archive reads no other does. -/
theorem Split.unshared (h : Split p names own) {i k : Nat} (inside : k < p.members.length)
    {m : Member} (found : p.members[i]? = some m) (other : i ≠ k) (j : Nat)
    (reads : p.members[k].object = some j) : m.object ≠ some j := by
  intro reads'
  have pairs := List.pairwise_iff_getElem.mp (List.pairwise_filterMap.mp h.objects)
  obtain ⟨inside', rfl⟩ := List.getElem?_eq_some_iff.mp found
  rcases Nat.lt_or_gt_of_ne other with before | after
  · exact pairs i k inside' inside before j reads' j reads rfl
  · exact pairs k i inside inside' after j reads j reads' rfl

/-- The streams of an archive alone are all the streams there are. -/
theorem range_grown {n m : Names} {v w v' w' : World} (before : n.Mirrors v w)
    (after : Names.Together n v m v' w') :
    List.range w.streams.length ++
        List.range' w.streams.length (w'.streams.length - w.streams.length) =
      List.range w'.streams.length := by
  have more : w.streams.length ≤ w'.streams.length := by
    rw [before.countStreams, after.mirrors.countStreams, after.streams, List.length_append]
    exact Nat.le_add_right _ _
  obtain ⟨d, length⟩ := Nat.exists_eq_add_of_le more
  rw [length, Nat.add_sub_cancel_left, List.range_eq_range', List.range_eq_range']
  simpa using List.range'_append_1 (s := 0) (m := w.streams.length) (n := d)

/-- Step lemma: an event of the `k`-th archive does what it does alone, and leaves the
others as they are. -/
theorem Split.on (eng : Engine) (h : Split p names own) (inside : k < p.members.length)
    (event : Event) :
    (step eng p (.on k event)).1 = (step eng (own k) (.on 0 event)).1 ∧
      ∃ names', Split (step eng p (.on k event)).2 names'
        (Function.update own k (step eng (own k) (.on 0 event)).2) := by
  have entry : p.members[k]? = some p.members[k] := List.getElem?_eq_getElem inside
  obtain ⟨alone, members, reads, streams, mirrored, named⟩ := h.mirrored k _ entry
  have shared : Archive.Mirrored (names k)
      (Session.mk p.world (p.members[k].lent p.objects)).world (names k)
      (Session.mk p.world (p.members[k].lent p.objects))
      (Session.mk (own k).world (alone.lent (own k).objects)) := mirrored
  obtain ⟨same, n, after⟩ := event.run_twin eng shared
  have stream := event.run_stream eng p.members[k].streams
    (Session.mk p.world (p.members[k].lent p.objects))
  have stream' := event.run_stream eng alone.streams
    (Session.mk (own k).world (alone.lent (own k).objects))
  rw [named] at same after
  rw [streams] at stream'
  dsimp only at same after
  unfold Process.step
  dsimp only
  rw [entry, members, List.getElem?_cons_zero]
  dsimp only
  rw [streams]
  refine ⟨congrArg some same, Function.update names k n, ?_⟩
  have apart {i : Nat} (inside' : i < p.members.length) (other : i ≠ k) :=
    h.apart inside after inside' other
  refine ⟨?_, ?_, ?_, ?_⟩
  · intro i m found
    by_cases this : i = k
    · subst this
      rw [List.getElem?_set_self inside] at found
      obtain rfl := Option.some.inj found
      rw [Function.update_self, Function.update_self]
      refine ⟨_, List.set_cons_zero (x := alone), reads, ?_, ?_, ?_⟩
      · exact range_grown mirrored.together.mirrors after.together
      · have left := lent_moved p.objects fun j held => stream ⟨_, lent_stream held⟩
        have left' := lent_moved (own i).objects fun j held => stream' ⟨_, lent_stream held⟩
        dsimp only
        rw [left, left']
        exact after.rebase
      · dsimp only
        rw [after.together.streams, named]
    · rw [List.getElem?_set_ne (Ne.symm this)] at found
      rw [Function.update_of_ne this, Function.update_of_ne this]
      have inside' := (List.getElem?_eq_some_iff.mp found).1
      obtain ⟨alone', members', reads', streams', mirrored', named'⟩ := h.mirrored i m found
      obtain ⟨temps, streams⟩ := apart inside' this
      have before : Archive.Mirrored (names i)
          (Session.mk p.world (m.lent p.objects)).world (names i)
          (Session.mk p.world (m.lent p.objects))
          (Session.mk (own i).world (alone'.lent (own i).objects)) := mirrored'
      refine ⟨alone', members', reads', streams', ?_, named'⟩
      dsimp only
      rw [lent_apart (h.unshared inside found this)]
      exact before.spared after.together.spares after.together.mirrors.numbered temps streams
  · dsimp only
    rw [filterMap_set Member.object inside]
    · exact h.objects
    · rfl
  · intro i j inside' inside'' other
    rw [List.length_set] at inside' inside''
    by_cases mine : i = k
    · subst mine
      rw [Function.update_self, Function.update_of_ne (Ne.symm other)]
      exact fun t new found => (apart inside'' (Ne.symm other)).1 t found new
    · rw [Function.update_of_ne mine]
      by_cases mine' : j = k
      · subst mine'
        rw [Function.update_self]
        exact (apart inside' mine).1
      · rw [Function.update_of_ne mine']
        exact h.temps i j inside' inside'' other
  · intro i j inside' inside'' other
    rw [List.length_set] at inside' inside''
    by_cases mine : i = k
    · subst mine
      rw [Function.update_self, Function.update_of_ne (Ne.symm other)]
      exact fun t new found => (apart inside'' (Ne.symm other)).2 t found new
    · rw [Function.update_of_ne mine]
      by_cases mine' : j = k
      · subst mine'
        rw [Function.update_self]
        exact (apart inside' mine).2
      · rw [Function.update_of_ne mine']
        exact h.streams i j inside' inside'' other

theorem step_outside (eng : Engine) (p : Process) {k : Nat} (outside : ¬k < p.members.length)
    (event : Event) : (step eng p (.on k event)).2 = p := by
  unfold Process.step
  dsimp only
  rw [List.getElem?_eq_none (Nat.le_of_not_lt outside)]

theorem step_length (eng : Engine) (p : Process) (input : Input) :
    (step eng p input).2.members.length = p.members.length := by
  unfold Process.step
  cases input with
  | written own content => rfl
  | on k event =>
      dsimp only
      cases p.members[k]? with
      | none => rfl
      | some m => exact List.length_set

/-- Step lemma: a file that a caller named changes for every archive at once. -/
theorem Split.written (h : Split p names own) (name : String) (content : Option Bytes) :
    Split (step eng p (.written name content)).2 names
      fun k => (step eng (own k) (.written name content)).2 where
  mirrored := by
    intro k m found
    obtain ⟨alone, members, reads, streams, mirrored, named⟩ := h.mirrored k m found
    exact ⟨alone, members, reads, streams, mirrored.written name content, named⟩
  objects := h.objects
  temps := h.temps
  streams := h.streams

theorem Given.lent (objects : Nat → FileObj) (g : Given) :
    (g.member objects).lent objects = (g.member objects).self := by
  unfold Member.lent Given.member
  cases g.origin <;> rfl

theorem Split.start (files : FilePath → Option Bytes) (objects : Nat → FileObj)
    {given : List Given} (unshared : Unshared given) :
    Split (start files objects given) (fun _ => {})
      fun k => start files objects given[k]?.toList where
  mirrored := by
    intro k m found
    unfold Process.start at found
    dsimp only at found
    rw [List.getElem?_map] at found
    obtain ⟨g, entry, rfl⟩ := Option.map_eq_some_iff.mp found
    have numbered : World.Numbered { files } :=
      ⟨fun t p found => absurd found (by simp), fun t u p found => absurd found (by simp)⟩
    have mirrors : Names.Mirrors {} { files } { files } :=
      { named := fun _ => rfl
        numbered := numbered
        numbered' := numbered
        temps := fun t t' name => absurd name (by simp [Names.Temp])
        nodup := List.nodup_nil
        count := rfl
        streams := fun j j' name => absurd name (by simp)
        nodupStreams := List.nodup_nil
        countStreams := rfl }
    refine ⟨g.member objects, ?_, rfl, rfl, ?_, rfl⟩
    · rw [entry]
      rfl
    · unfold Process.start
      dsimp only
      rw [Given.lent]
      exact
        { together := mirrors.together
          source := rfl
          password := rfl
          encoding := rfl
          entries := rfl
          byName := rfl
          closed := rfl
          tempfile := .none
          reader := .none }
  objects := by
    unfold Process.start
    dsimp only
    rw [List.filterMap_map]
    exact unshared
  temps := fun i j _ _ _ t named => absurd named List.not_mem_nil
  streams := fun i j _ _ _ t named => absurd named List.not_mem_nil

/-- Archives that share a process, but no file object, do not interfere: whatever is done to
any of them in whatever order, and whatever becomes of the files callers named, each answers
as it does in a process of its own. -/
theorem archives_do_not_interfere (eng : Engine) (files : FilePath → Option Bytes)
    (objects : Nat → FileObj) (given : List Given) (unshared : Unshared given) (k : Nat)
    (g : Given) (entry : given[k]? = some g) (inputs : List Input) :
    Machine.seenOutputs (view k) inputs ((step eng).run (start files objects given) inputs).1 =
      ((step eng).run (start files objects [g]) (inputs.filterMap (view k))).1 := by
  let Apart (p q : Process) : Prop :=
    k < p.members.length ∧ ∃ names own, Split p names own ∧ own k = q
  have begun : Apart (start files objects given) (start files objects [g]) := by
    refine ⟨?_, _, _, Split.start files objects unshared, by rw [entry]; rfl⟩
    unfold Process.start
    rw [List.length_map]
    exact (List.getElem?_eq_some_iff.mp entry).1
  refine Machine.seenOutputs_run (R := Apart) ?_ ?_ begun inputs
  · rintro p q input seen through ⟨inside, names, own, split, rfl⟩
    rw [← step_length eng p input] at inside
    cases input with
    | written name content =>
        obtain rfl := Option.some.inj through
        exact ⟨rfl, inside, names, _, split.written name content, rfl⟩
    | on j event =>
        rw [view_on] at through
        by_cases mine : j = k
        · subst mine
          rw [if_pos rfl] at through
          obtain rfl := Option.some.inj through
          rw [step_length] at inside
          obtain ⟨same, names', next⟩ := split.on eng inside event
          refine ⟨same, ?_, names', _, next, Function.update_self _ _ _⟩
          rw [step_length]
          exact inside
        · rw [if_neg mine] at through
          cases through
  · rintro p q input through ⟨inside, names, own, split, rfl⟩
    cases input with
    | written name content => cases through
    | on j event =>
        have other : j ≠ k := by
          rintro rfl
          rw [view_on, if_pos rfl] at through
          cases through
        by_cases member : j < p.members.length
        · obtain ⟨-, names', next⟩ := split.on eng member event
          refine ⟨?_, names', _, next, Function.update_of_ne (Ne.symm other) _ _⟩
          rw [step_length]
          exact inside
        · rw [step_outside eng p member]
          exact ⟨inside, names, own, split, rfl⟩

/-- Two archives of file objects: closing the first leaves the second its spilled file. -/
theorem archives_do_not_interfere_closed :
    Machine.seenOutputs (view 1)
        [.on 0 .enter, .on 1 .enter, .on 0 .close, .on 1 (.call (.read (.int 0)))]
        ((step Archive.oneIntact).run
          (start (fun _ => none) (fun _ => ⟨[.ok [80]], .missing⟩)
            [⟨.object 0, none, none⟩, ⟨.object 1, none, none⟩])
          [.on 0 .enter, .on 1 .enter, .on 0 .close, .on 1 (.call (.read (.int 0)))]).1 =
      [some (.ok none), some (.ok (some (.bytes [1, 2, 3, 4, 5, 6, 7, 8])))] := by
  rw [archives_do_not_interfere Archive.oneIntact (fun _ => none) _ _ (by decide) 1
    ⟨.object 1, none, none⟩ rfl]
  decide

end Process

end NewtuaPy
