import NewtuaPy.Lookup
import NewtuaPy.Representation

/-!
# Entries as references

`_resolve_index` takes the position of an `Entry` at its word.  An operation
given an entry acts on that entry, and on no other, exactly if the archive
contains it.
-/

namespace NewtuaPy

/-- The positions a piece of work acts on. -/
def Work.acts : Work → List Nat
  | .open => []
  | .list => []
  | .read index => [index]
  | .write index => [index]
  | .stream index => [index]
  | .extract args => args.selection.getD []

/-- Between `w` and `w'` the engine was asked only for work that meets `P`. -/
def World.Asked (P : Work → Prop) (w w' : World) : Prop :=
  ∃ calls : List EngineCall, w'.log = w.log ++ calls ∧ ∀ call ∈ calls, P call.work

namespace World.Asked

variable {P : Work → Prop} {w w' w'' : World}

theorem of_log (same : w'.log = w.log) : w.Asked P w' :=
  ⟨[], by rw [same, List.append_nil], List.forall_mem_nil _⟩

theorem logged {call : EngineCall} (met : P call.work) : w.Asked P (w.logged call) := by
  refine ⟨[call], rfl, fun call' member => ?_⟩
  rw [List.mem_singleton.mp member]
  exact met

theorem trans (h : w.Asked P w') (h' : w'.Asked P w'') : w.Asked P w'' := by
  obtain ⟨calls, log, met⟩ := h
  obtain ⟨calls', log', met'⟩ := h'
  refine ⟨calls ++ calls', by rw [log', log, List.append_assoc], fun call member => ?_⟩
  rcases List.mem_append.mp member with first | last
  · exact met call first
  · exact met' call last

theorem mono {Q : Work → Prop} (h : w.Asked P w') (weaker : ∀ work, P work → Q work) :
    w.Asked Q w' := by
  obtain ⟨calls, log, met⟩ := h
  exact ⟨calls, log, fun call member => weaker _ (met call member)⟩

end World.Asked

/-- A call of the compiled module asks for one piece of work. -/
theorem Asks.asked {α β : Type} {x : Py World β} {path : FilePath} {argument : Except PyExc α}
    {call : α → EngineCall} {result : α → Option Bytes → Except PyExc β} {P : Work → Prop}
    (h : Asks x path argument call result) (met : ∀ a, argument = .ok a → P (call a).work)
    (w : World) : w.Asked P (x w).2 := by
  rw [h w]
  cases argument with
  | error exc => exact .of_log rfl
  | ok a => exact .logged (met a rfl)

/-! ## What it means to act on an entry -/

/-- Work on positions that hold an entry equal to `e`. -/
def ActsOn (es : List Entry) (e : Entry) (work : Work) : Prop :=
  ∀ i ∈ work.acts, ∃ e', es[i]? = some e' ∧ e'.pyEq e = true

/-- Given `e`, an operation has acted on entries equal to `e` only, and has raised
`EntryNotFoundError` exactly if `e` is not inside. -/
structure OnlyItself {α : Type} (es : List Entry) (e : Entry) (inside : Except PyExc Bool)
    (w : World) (outcome : Except PyExc α) (w' : World) : Prop where
  acts : w.Asked (ActsOn es e) w'
  missing : (∃ exc, outcome = .error exc ∧ exc.cls = .entryNotFoundError) ↔ inside = .ok false

/-- An outcome that is no `EntryNotFoundError`. -/
def Found {α : Type} (outcome : Except PyExc α) : Prop :=
  ∀ exc, outcome = .error exc → exc.cls ≠ .entryNotFoundError

theorem raised_found {α : Type} (exc : PyExc) : Found (.error exc.raised : Except PyExc α) := by
  intro exc' same
  cases same
  exact exc.raised_cls_ne rfl (by decide) (by decide)

/-- An operation that never looks for the entry acts on it alone exactly if the
archive contains it. -/
theorem onlyItself_iff {α : Type} {es : List Entry} {e : Entry} {w w' : World}
    {outcome : Except PyExc α} (found : Found outcome)
    (acts : es.any (e.pyEq ·) = true → w.Asked (ActsOn es e) w') :
    OnlyItself es e (.ok (es.any (e.pyEq ·))) w outcome w' ↔
      (.ok (es.any (e.pyEq ·)) : Except PyExc Bool) = .ok true := by
  constructor
  · intro only
    rcases inside : es.any (e.pyEq ·) with _ | _
    · obtain ⟨exc, raised, cls⟩ := only.missing.mpr (by rw [inside])
      exact absurd cls (found exc raised)
    · rfl
  · intro inside
    refine ⟨acts (Except.ok.inj inside), ?_⟩
    constructor
    · intro missing
      obtain ⟨exc, raised, cls⟩ := missing
      exact absurd cls (found exc raised)
    · intro outside
      cases inside.symm.trans outside

/-- In a listing, an entry equal to `e` stands where `e` says. -/
theorem actsOn_index {raw : List EntryData} {owned : Bool} {e : Entry} {i : Nat}
    (inside : (entriesFromRaw raw owned).1.any (e.pyEq ·) = true) (index : e.index = i) :
    ∃ e', (entriesFromRaw raw owned).1[i]? = some e' ∧ e'.pyEq e = true := by
  obtain ⟨e', member, same⟩ := List.any_eq_true.mp inside
  rw [Entry.pyEq_iff] at same
  obtain ⟨j, bound, rfl⟩ := List.mem_iff_getElem.mp member
  have entry := List.getElem?_eq_getElem bound
  have position := entriesFromRaw_position entry
  have : (i : Int) = j := by
    rw [← index, ← position]
    exact congrArg EntryInfo.index same
  obtain rfl : i = j := by omega
  exact ⟨_, entry, (Entry.pyEq_iff _ _).mpr same.symm⟩

theorem tupleItem_error {es : List Entry} {i : Int} {exc : PyExc}
    (missing : tupleItem es i = .error exc) : exc.cls = .indexError := by
  by_cases inside : -(es.length : Int) ≤ i ∧ i < es.length
  · obtain ⟨-, e, -, -, item⟩ := tupleItem_inside inside
    cases item.symm.trans missing
  · cases (tupleItem_outside inside).symm.trans missing
    rfl

/-- What is raised after a pipe has been asked for is never a failed lookup, and
nothing else was asked for. -/
theorem openPipe_asked {P : Work → Prop} (tempfile : Option Nat) (handshake : Py World Bytes)
    (size : Option Int) (w : World) :
    Found (openPipe tempfile handshake size w).1 ∧
      ((∀ w : World, w.Asked P (handshake w).2) →
        w.Asked P (openPipe tempfile handshake size w).2) := by
  obtain ⟨w₁, w₃, before, after, ends⟩ := openPipe_cases tempfile handshake size w
  have asked (only : ∀ w : World, w.Asked P (handshake w).2) : w.Asked P w₃ := by
    have first : w.Asked P w₁ := .of_log before
    exact (first.trans (only w₁)).trans (.of_log after)
  rcases ends with ⟨data, p, -, opened⟩ | ⟨exc, -, raised⟩
  · rw [opened]
    exact ⟨nofun, asked⟩
  · rw [raised]
    exact ⟨raised_found exc, asked⟩

/-- A typed call of the compiled module, seen from an object that holds the world. -/
theorem typed_asked {σ α β : Type} (world : σ → World) (put : σ → World → σ)
    (lawful : ∀ t w, world (put t w) = w) {x : Py World β} {path : FilePath}
    {argument : Except PyExc α} {call : α → EngineCall}
    {result : α → Option Bytes → Except PyExc β} (h : Asks x path argument call result)
    (P : Work → Prop) (t : σ) :
    Found (Archive.typed (Exn.zoom world put x) t).1 ∧
      ((∀ a, argument = .ok a → P (call a).work) →
        (world t).Asked P (world (Archive.typed (Exn.zoom world put x) t).2)) := by
  unfold Archive.typed
  have asked (met : ∀ a, argument = .ok a → P (call a).work) :
      (world t).Asked P (world (put t (x (world t)).2)) := by
    rw [lawful]
    exact h.asked met (world t)
  rcases run : Exn.zoom world put x t with ⟨exc | a, t'⟩
  · obtain rfl : put t (x (world t)).2 = t' := congrArg Prod.snd run
    rw [Exn.handle_of_error run]
    exact ⟨raised_found exc, asked⟩
  · obtain rfl : put t (x (world t)).2 = t' := congrArg Prod.snd run
    rw [Exn.handle_of_ok run]
    exact ⟨nofun, asked⟩

/-- The positions that an index argument stands for. -/
theorem actsOn_usizeArg {raw : List EntryData} {owned : Bool} {e : Entry} {work : Nat → Work}
    (acts : ∀ i, (work i).acts = [i])
    (inside : (entriesFromRaw raw owned).1.any (e.pyEq ·) = true) (i : Nat)
    (argument : usizeArg e.index = .ok i) : ActsOn (entriesFromRaw raw owned).1 e (work i) := by
  intro j member
  rw [acts, List.mem_singleton] at member
  rw [member]
  exact actsOn_index inside (usizeArg_eq_ok argument)

/-- A selection of the one entry `e`. -/
theorem actsOn_selectionArg {raw : List EntryData} {owned : Bool} {e : Entry} {c : ExtractCall}
    (only : c.selection = some [e.index])
    (inside : (entriesFromRaw raw owned).1.any (e.pyEq ·) = true) (selection : Option (List Nat))
    (argument : selectionArg c.selection = .ok selection) :
    ActsOn (entriesFromRaw raw owned).1 e (.extract (c.args selection)) := by
  rw [only] at argument
  unfold selectionArg at argument
  rcases index : usizeArg e.index with exc | i
  · simp [index, bind, Except.bind, Except.map] at argument
  · simp only [index, List.mapM_cons, List.mapM_nil, bind, Except.bind, pure, Except.pure,
      Except.map, Except.ok.injEq] at argument
    subst argument
    intro j member
    obtain rfl : j = i := List.mem_singleton.mp member
    exact actsOn_index inside (usizeArg_eq_ok index)

namespace Archive

variable {used : Engine → Prop} {held : FilePath → Option Bytes → Prop} {s : Session}
  {eng : Engine} {es : List Entry} {e : Entry} {r : RustArchive} {α : Type}

/-! ## Opening and listing -/

theorem backingPath_log (s : Session) : (_backingPath s).2.world.log = s.world.log := by
  rcases _backingPath_cases s with ⟨p, -, run⟩ | ⟨p, -, -, run⟩ | ⟨noPath, -, run⟩
  · rw [run]
  · rw [run]
  · rw [run]
    rcases Source.delivers_or_fails noPath with ⟨content, delivers⟩ | ⟨file, exc, source, failed⟩
    · rw [spill_run delivers]
      rfl
    · rw [spill_failed source failed]

/-- Opening the archive asks the engine for that alone. -/
theorem _open_asked (eng : Engine) (s : Session) :
    s.world.Asked (fun work => work.opening = true) (_open eng s).2.world := by
  unfold _open
  rw [Exn.get_bind_apply]
  rcases s.self.closed with _ | _
  · rw [if_neg Bool.false_ne_true]
    rcases s.self.reader with _ | r
    · dsimp only
      have log := backingPath_log s
      rcases back : _backingPath s with ⟨exc | p, s'⟩ <;> rw [back] at log
      · rw [Exn.bind_of_error back]
        exact .of_log log
      · rw [Exn.bind_of_ok back, Exn.get_bind_apply]
        have opened : s.world.Asked (fun work => work.opening = true)
            (openAt eng p s').2.world := by
          have first : s.world.Asked (fun work => work.opening = true) s'.world := .of_log log
          refine first.trans ?_
          let asked : EngineCall := ⟨p, s'.self.password, s'.self.encoding, .open⟩
          have opening : s'.world.Asked (fun work => work.opening = true)
              (s'.world.logged asked) := .logged rfl
          have dropping := dropped_log { s' with world := s'.world.logged asked }
          rw [openAt_run]
          dsimp only
          rcases eng.snapshot (s'.world.files p) s'.self.password s'.self.encoding with
            (e | message) | o
          · exact opening.trans (.of_log dropping)
          · exact opening
          · exact opening
        rcases s'.self.source.ownPath with _ | (own | n)
        · exact opened
        · rcases s'.world.files p with _ | content
          · exact .of_log log
          · exact opened
        · exact opened
    · exact .of_log rfl
  · rw [if_pos rfl]
    exact .of_log rfl

/-- The reader and its listing are at hand. -/
structure Loaded (r : RustArchive) (s : Session) : Prop where
  unclosed : s.self.closed = false
  reader : s.self.reader = some r
  entries : s.self.entries = some (entriesFromRaw r.entries true).1

theorem _open_cached (unclosed : s.self.closed = false) (cached : s.self.reader = some r)
    (eng : Engine) : _open eng s = (.ok r, s) := by
  unfold _open
  rw [Exn.get_bind_apply, unclosed, cached]
  rfl

theorem Loaded._listing_run (h : Loaded r s) (eng : Engine) :
    _listing eng s = (.ok (entriesFromRaw r.entries true).1, s) := by
  unfold _listing
  rw [Exn.get_bind_apply, h.entries]
  rfl

/-- Listing an archive that is open. -/
theorem Represents.lists (h : Represents used held s) (unclosed : s.self.closed = false)
    (cached : s.self.reader = some r) (eng : Engine) :
    ∃ s', _listing eng s = (.ok (entriesFromRaw r.entries true).1, s') ∧ Loaded r s' ∧
      s'.world = s.world := by
  rcases listed : s.self.entries with _ | es
  · unfold _listing
    rw [Exn.get_bind_apply, listed]
    dsimp only
    rw [Exn.bind_of_ok (_open_cached unclosed cached eng)]
    exact ⟨_, rfl, ⟨unclosed, cached, rfl⟩, rfl⟩
  · obtain ⟨r', cached', rfl⟩ := h.listed es listed
    obtain rfl : r' = r := Option.some.inj (cached'.symm.trans cached)
    have loaded : Loaded r' s := ⟨unclosed, cached, listed⟩
    exact ⟨s, loaded._listing_run eng, loaded, rfl⟩

/-- An archive that can be listed opens to the reader of that listing. -/
theorem Represents.loads (h : Represents used held s) (given : used eng)
    (listing : (_listing eng s).1 = .ok es) :
    ∃ r s₁ s₂, es = (entriesFromRaw r.entries true).1 ∧ _open eng s = (.ok r, s₁) ∧
      _listing eng s₁ = (.ok es, s₂) ∧ Loaded r s₂ ∧
      s.world.Asked (fun work => work.opening = true) s₂.world := by
  have unclosed {s : Session} (h : Represents used held s) {r : RustArchive}
      (cached : s.self.reader = some r) : s.self.closed = false := by
    rcases closed : s.self.closed with _ | _
    · rfl
    · cases (h.shut closed).1.symm.trans cached
  have opened (r : RustArchive) (s₁ : Session) (run : _open eng s = (.ok r, s₁)) :
      ∃ s₂, _listing eng s₁ = (.ok (entriesFromRaw r.entries true).1, s₂) ∧ Loaded r s₂ ∧
        s.world.Asked (fun work => work.opening = true) s₂.world := by
    have asked := _open_asked eng s
    obtain ⟨represents, cached⟩ := _open_represents h given
    rw [run] at asked represents cached
    have cached := cached r rfl
    obtain ⟨s₂, list, loaded, world⟩ :=
      represents.lists (unclosed represents cached) cached eng
    exact ⟨s₂, list, loaded, by rw [world]; exact asked⟩
  rcases listed : s.self.entries with _ | es'
  · unfold _listing at listing
    rw [Exn.get_bind_apply, listed] at listing
    dsimp only at listing
    rcases run : _open eng s with ⟨exc | r, s₁⟩
    · rw [Exn.bind_of_error run] at listing
      cases listing
    · rw [Exn.bind_of_ok run] at listing
      cases listing
      obtain ⟨s₂, list, loaded, asked⟩ := opened r s₁ run
      exact ⟨r, s₁, s₂, rfl, rfl, list, loaded, asked⟩
  · obtain ⟨r, cached, rfl⟩ := h.listed es' listed
    have run := _open_cached (unclosed h cached) cached eng
    have loaded : Loaded r s := ⟨unclosed h cached, cached, listed⟩
    rw [loaded._listing_run] at listing
    cases listing
    obtain ⟨s₂, list, loaded, asked⟩ := opened r s run
    exact ⟨r, s, s₂, rfl, run, list, loaded, asked⟩

/-! ## The operations -/

/-- After the opening, what is left of an operation is judged alone. -/
theorem onlyItself_of_tail {x y : Py Session α} {t : Session} (run : x s = y t)
    (opening : s.world.Asked (fun work => work.opening = true) t.world)
    (found : Found (y t).1)
    (acts : es.any (e.pyEq ·) = true → t.world.Asked (ActsOn es e) (y t).2.world) :
    OnlyItself es e (.ok (es.any (e.pyEq ·))) s.world (x s).1 (x s).2.world ↔
      (.ok (es.any (e.pyEq ·)) : Except PyExc Bool) = .ok true := by
  rw [run]
  have idle (work : Work) (opens : work.opening = true) : ActsOn es e work := by
    intro i member
    cases work with
    | «open» => cases member
    | list => cases member
    | _ => cases opens
  exact onlyItself_iff found fun inside => (opening.mono idle).trans (acts inside)

/-- An entry resolves to the position it names, in the archive or not. -/
theorem _indexOf_entry {s s' : Session} (listing : _listing eng s = (.ok es, s')) (e : Entry) :
    _indexOf eng (.entry e) s = (.ok e.index, s') :=
  Exn.bind_of_ok listing _

theorem fetch_run (x : RustArchive → Int → Py Session α) {s₁ s₂ : Session}
    (opening : _open eng s = (.ok r, s₁)) (listing : _listing eng s₁ = (.ok es, s₂)) (e : Entry) :
    (do
      let reader ← _open eng
      let index ← _indexOf eng (.entry e)
      x reader index) s = x r e.index s₂ :=
  (Exn.bind_of_ok opening _).trans (Exn.bind_of_ok (_indexOf_entry listing e) _)

theorem selected_entry {s s' : Session} (listing : _listing eng s = (.ok es, s')) (e : Entry) :
    selected eng (some [.entry e]) s = (.ok (some [e.index]), s') := by
  have first : indices eng [.entry e] s = (.ok [e.index], s') :=
    Exn.bind_of_ok (_indexOf_entry listing e) _
  exact Exn.bind_of_ok first _

theorem contains_entry {s s' : Session} (listing : _listing eng s = (.ok es, s')) (e : Entry) :
    contains eng (.entry e) s = (.ok (es.any (e.pyEq ·)), s') :=
  Exn.bind_of_ok listing _

theorem typed_onWorld {β : Type} {x : Py World β} {path : FilePath} {argument : Except PyExc α}
    {call : α → EngineCall} {result : α → Option Bytes → Except PyExc β}
    (h : Asks x path argument call result) (P : Work → Prop) (s : Session) :
    Found (typed (onWorld x) s).1 ∧ ((∀ a, argument = .ok a → P (call a).work) →
      s.world.Asked P (typed (onWorld x) s).2.world) :=
  typed_asked Session.world (fun s world => { s with world }) (fun _ _ => rfl) h P s

/-- The streaming half of `open`, from the position on. -/
theorem stream_found (loaded : Loaded r s) (eng : Engine) :
    let x : Py Session (Nat × PipeStream) := do
      let entries ← _listing eng
      let entry ← Exn.lift (tupleItem entries e.index)
      _openPipePosix eng r e.index (some entry.size)
    Found (x s).1 ∧ ((entriesFromRaw r.entries true).1.any (e.pyEq ·) = true →
      s.world.Asked (ActsOn (entriesFromRaw r.entries true).1 e) (x s).2.world) := by
  intro x
  have listing := loaded._listing_run eng
  rcases item : tupleItem (entriesFromRaw r.entries true).1 e.index with exc | entry
  · have missing : x s = (.error exc, s) := by
      refine (Exn.bind_of_ok listing _).trans ?_
      rw [item]
      rfl
    rw [missing]
    refine ⟨?_, fun _ => .of_log rfl⟩
    intro exc' same
    cases same
    rw [tupleItem_error item]
    exact nofun
  · have opening : x s =
        onWorld (openPipe s.self.tempfile (r.openStream eng e.index) (some entry.size)) s := by
      refine (Exn.bind_of_ok listing _).trans ?_
      rw [item]
      rfl
    rw [opening]
    obtain ⟨found, asked⟩ := openPipe_asked (P := ActsOn (entriesFromRaw r.entries true).1 e)
      s.self.tempfile (r.openStream eng e.index) (some entry.size) s.world
    refine ⟨found, fun inside => asked ?_⟩
    refine (r.openStream_asks eng e.index ?_).asked ?_
    · intro i argument
      obtain ⟨e', at', -⟩ := actsOn_index inside (usizeArg_eq_ok argument)
      have inside := (List.getElem?_eq_some_iff.mp at').1
      rwa [entriesFromRaw_length] at inside
    · exact actsOn_usizeArg (fun _ => rfl) inside

/-- The operation `x`, given `e`, acts on `e` alone, and misses it exactly if
`e in archive` is false. -/
def Only (eng : Engine) (es : List Entry) (e : Entry) (s : Session) (x : Py Session α) : Prop :=
  OnlyItself es e (contains eng (.entry e) s).1 s.world (x s).1 (x s).2.world

/-- `extract(selection=[e])`. -/
def extractEntry (eng : Engine) (request : ExtractRequest) (e : Entry) : Py Session Report :=
  Archive.extract eng { request with selection := some [.entry e] }

theorem Represents.only_iff (h : Represents used held s) (given : used eng)
    (listing : (_listing eng s).1 = .ok es) (request : ExtractRequest) (e : Entry) :
    let inside := (contains eng (.entry e) s).1
    (Only eng es e s (Archive.read eng (.entry e)) ↔ inside = .ok true) ∧
      (Only eng es e s (Archive.openBuffered eng (.entry e)) ↔ inside = .ok true) ∧
      (Only eng es e s (Archive.openStream eng (.entry e)) ↔ inside = .ok true) ∧
      (Only eng es e s (extractEntry eng request e) ↔ inside = .ok true) := by
  obtain ⟨r, s₁, s₂, rfl, opened, listed, loaded, asked⟩ := h.loads given listing
  have inside : (contains eng (.entry e) s).1 =
      .ok ((entriesFromRaw r.entries true).1.any (e.pyEq ·)) := by
    rcases list : _listing eng s with ⟨outcome, s'⟩
    obtain rfl : outcome = .ok (entriesFromRaw r.entries true).1 := by rw [← listing, list]
    exact congrArg Prod.fst (contains_entry list e)
  unfold Only
  rw [inside]
  refine ⟨?_, ?_, ?_, ?_⟩
  · have tail := typed_onWorld (r.read_asks e.index) (ActsOn (entriesFromRaw r.entries true).1 e) s₂
    exact onlyItself_of_tail (fetch_run (fun r i => typed (onWorld (r.read i))) opened listed e)
      asked tail.1 fun inside => tail.2 (actsOn_usizeArg (fun _ => rfl) inside)
  · have tail := typed_onWorld (r.writeEntryTo_asks e.index)
      (ActsOn (entriesFromRaw r.entries true).1 e) s₂
    exact onlyItself_of_tail
      (fetch_run (fun r i => typed (onWorld (r.writeEntryTo i spooled []))) opened listed e)
      asked tail.1 fun inside => tail.2 (actsOn_usizeArg (fun _ => rfl) inside)
  · obtain ⟨found, acts⟩ := stream_found (e := e) loaded eng
    exact onlyItself_of_tail (fetch_run _ opened listed e) asked found acts
  · let c := { request with selection := some [.entry e] }.toCall (some [e.index])
      s₂.self.source.wrapperNameSource
    have tail := typed_onWorld (r.extract_asks eng c)
      (ActsOn (entriesFromRaw r.entries true).1 e) s₂
    have run : extractEntry eng request e s = typed (onWorld (r.extract eng c)) s₂ :=
      (Exn.bind_of_ok opened _).trans (Exn.bind_of_ok (selected_entry listed e) _)
    exact onlyItself_of_tail run asked tail.1 fun inside =>
      tail.2 (actsOn_selectionArg rfl inside)

end Archive

/-! ## The asynchronous archive -/

/-- An asynchronous archive that has been entered: it lists `raw`, and its backing
path is `p`. -/
def AsyncSession.entered (a : AsyncSession) (raw : List EntryData) (p : FilePath) : AsyncSession :=
  { a.listed raw with self := { (a.listed raw).self with path := some p, closed := false } }

namespace AsyncArchive

open Archive (ExtractRequest typed)

variable {α : Type} {raw : List EntryData} {p : FilePath} {a : AsyncSession}

/-- As `Archive.Only`, for an asynchronous archive. -/
def Only (es : List Entry) (e : Entry) (a : AsyncSession) (x : Py AsyncSession α) : Prop :=
  OnlyItself es e (contains (.entry e) a).1 a.world (x a).1 (x a).2.world

/-- `extract(selection=[e])`. -/
def extractEntry (eng : Engine) (request : ExtractRequest) (e : Entry) :
    Py AsyncSession Report :=
  AsyncArchive.extract eng { request with selection := some [.entry e] }

/-- `open(ref)`, entered. -/
def openEntered (eng : Engine) (ref : Ref) : Py AsyncSession (Nat × PipeStream) := do
  let ctx ← AsyncArchive.open ref
  ctx.aenter eng

theorem typed_onWorld {β : Type} {x : Py World β} {path : FilePath} {argument : Except PyExc α}
    {call : α → EngineCall} {result : α → Option Bytes → Except PyExc β}
    (h : Asks x path argument call result) (P : Work → Prop) (a : AsyncSession) :
    Found (typed (onWorld x) a).1 ∧ ((∀ b, argument = .ok b → P (call b).work) →
      a.world.Asked P (typed (onWorld x) a).2.world) :=
  typed_asked AsyncSession.world (fun a world => { a with world }) (fun _ _ => rfl) h P a

theorem open_entry (raw : List EntryData) (p : FilePath) (a : AsyncSession) (e : Entry) :
    AsyncArchive.open (.entry e) (a.entered raw p) =
      ((tupleItem (entriesFromRaw raw false).1 e.index).map fun entry => ⟨e.index, entry.size⟩,
        a.entered raw p) :=
  Exn.lift_map_apply _ _ _

theorem openEntered_found (eng : Engine) (raw : List EntryData) (p : FilePath) (a : AsyncSession)
    (e : Entry) :
    Found (openEntered eng (.entry e) (a.entered raw p)).1 ∧
      ((entriesFromRaw raw false).1.any (e.pyEq ·) = true →
        (a.entered raw p).world.Asked (ActsOn (entriesFromRaw raw false).1 e)
          (openEntered eng (.entry e) (a.entered raw p)).2.world) := by
  have opened := open_entry raw p a e
  rcases item : tupleItem (entriesFromRaw raw false).1 e.index with exc | entry <;>
    rw [item] at opened
  · have missing : openEntered eng (.entry e) (a.entered raw p) =
        (.error exc, a.entered raw p) := Exn.bind_of_error opened _
    rw [missing]
    refine ⟨?_, fun _ => .of_log rfl⟩
    intro exc' same
    cases same
    rw [tupleItem_error item]
    exact nofun
  · have opening : openEntered eng (.entry e) (a.entered raw p) =
        onWorld (openPipe a.self.sync.tempfile
          (openStreamPath eng p e.index a.self.password a.self.encoding) (some entry.size))
          (a.entered raw p) := Exn.bind_of_ok opened _
    rw [opening]
    obtain ⟨found, asked⟩ := openPipe_asked (P := ActsOn (entriesFromRaw raw false).1 e)
      a.self.sync.tempfile (openStreamPath eng p e.index a.self.password a.self.encoding)
      (some entry.size) a.world
    refine ⟨found, fun inside => asked ?_⟩
    exact (openStreamPath_asks eng p e.index a.self.password a.self.encoding).asked
      (actsOn_usizeArg (fun _ => rfl) inside)

theorem entered_only_iff (eng : Engine) (request : ExtractRequest) (raw : List EntryData)
    (p : FilePath) (a : AsyncSession) (e : Entry) :
    let t := a.entered raw p
    let es := (entriesFromRaw raw false).1
    let inside := (contains (.entry e) t).1
    (Only es e t (AsyncArchive.read eng (.entry e)) ↔ inside = .ok true) ∧
      (Only es e t (openEntered eng (.entry e)) ↔ inside = .ok true) ∧
      (Only es e t (extractEntry eng request e) ↔ inside = .ok true) := by
  refine ⟨?_, ?_, ?_⟩
  · have tail := typed_onWorld (readPath_asks eng p e.index a.self.password a.self.encoding)
      (ActsOn (entriesFromRaw raw false).1 e) (a.entered raw p)
    exact onlyItself_iff tail.1 fun inside => tail.2 (actsOn_usizeArg (fun _ => rfl) inside)
  · obtain ⟨found, acts⟩ := openEntered_found eng raw p a e
    exact onlyItself_iff found acts
  · let c := { request with selection := some [.entry e] }.toCall (some [e.index])
      a.self.sync.source.wrapperNameSource
    have tail := typed_onWorld (extractPath_asks eng p c a.self.password a.self.encoding)
      (ActsOn (entriesFromRaw raw false).1 e) (a.entered raw p)
    have run : extractEntry eng request e (a.entered raw p) =
        typed (onWorld (extractPath eng p c a.self.password a.self.encoding))
          (a.entered raw p) := rfl
    unfold Only
    rw [run]
    exact onlyItself_iff tail.1 fun inside => tail.2 (actsOn_selectionArg rfl inside)

end AsyncArchive

/-! ## Any archive, any entry -/

/-- On every archive that can be listed, whatever was done to it, and on every
asynchronous archive that has been entered, an operation given an entry acts on
that entry alone, or misses it if it is not there, exactly if it is there. -/
theorem entry_resolves_to_itself_iff (eng : Engine) (files : FilePath → Option Bytes)
    (source : Source) (password encoding : Option String) (run : List Archive.Operation)
    (es : List Entry) (raw : List EntryData) (p : FilePath) (a : AsyncSession)
    (request : Archive.ExtractRequest) (e : Entry)
    (listing : (Archive._listing eng
      (Archive.operate.runState (Archive.init files source password encoding) run)).1 = .ok es) :
    let s := Archive.operate.runState (Archive.init files source password encoding) run
    let inside := (Archive.contains eng (.entry e) s).1
    let t := a.entered raw p
    let es' := (entriesFromRaw raw false).1
    let inside' := (AsyncArchive.contains (.entry e) t).1
    ((Archive.Only eng es e s (Archive.read eng (.entry e)) ↔ inside = .ok true) ∧
      (Archive.Only eng es e s (Archive.openBuffered eng (.entry e)) ↔ inside = .ok true) ∧
      (Archive.Only eng es e s (Archive.openStream eng (.entry e)) ↔ inside = .ok true) ∧
      (Archive.Only eng es e s (Archive.extractEntry eng request e) ↔ inside = .ok true)) ∧
    (AsyncArchive.Only es' e t (AsyncArchive.read eng (.entry e)) ↔ inside' = .ok true) ∧
      (AsyncArchive.Only es' e t (AsyncArchive.openEntered eng (.entry e)) ↔
        inside' = .ok true) ∧
      (AsyncArchive.Only es' e t (AsyncArchive.extractEntry eng request e) ↔
        inside' = .ok true) := by
  intro s inside t es' inside'
  have represents : Archive.Represents (fun _ => True) (fun _ _ => True) s :=
    (Archive.run_represents files source password encoding run).mono (fun _ _ => True.intro)
      fun _ _ _ => True.intro
  exact ⟨represents.only_iff True.intro listing request e,
    AsyncArchive.entered_only_iff eng request raw p a e⟩

/-- The listing of `Archive.oneIntact`'s archives. -/
def oneRaw : List EntryData :=
  [{ path := "a", rawName := [97], kind := "file", size := 8, isEncrypted := false,
     mode := none, mtime := none }]

/-- An entry of another archive, which lists a file `b` where this one lists `a`. -/
def foreign : Entry where
  index := 0
  path := PurePosixPath.ofString "b"
  rawName := [98]
  kind := .file
  size := 8
  isEncrypted := false
  mode := none
  mtime := none
  owned := true

theorem entry_resolves_to_itself_iff_foreign :
    Archive.Only Archive.oneIntact (entriesFromRaw oneRaw true).1 foreign
        (Archive.init (fun _ => none) (.bytes [80]) none none)
        (Archive.read Archive.oneIntact (.entry foreign)) ↔
      (Archive.contains Archive.oneIntact (.entry foreign)
        (Archive.init (fun _ => none) (.bytes [80]) none none)).1 = .ok true :=
  (entry_resolves_to_itself_iff Archive.oneIntact (fun _ => none) (.bytes [80]) none none []
    (entriesFromRaw oneRaw true).1 oneRaw (.named "a.zip")
    (AsyncArchive.init (fun _ => none) (.bytes [80]) none none)
    { dest := ⟨"out", "out"⟩, selection := none, wrapper := true, strict := false
      preserve := true, progress := none } foreign rfl).1.1

/-- The entry of another archive is not in this one, yet reading it delivers the
bytes of the entry that stands at its position. -/
theorem foreign_entry_not_missed :
    ¬ Archive.Only Archive.oneIntact (entriesFromRaw oneRaw true).1 foreign
        (Archive.init (fun _ => none) (.bytes [80]) none none)
        (Archive.read Archive.oneIntact (.entry foreign)) ∧
      (Archive.contains Archive.oneIntact (.entry foreign)
        (Archive.init (fun _ => none) (.bytes [80]) none none)).1 = .ok false ∧
      (Archive.read Archive.oneIntact (.entry foreign)
        (Archive.init (fun _ => none) (.bytes [80]) none none)).1 =
          .ok [1, 2, 3, 4, 5, 6, 7, 8] := by
  have outside : (Archive.contains Archive.oneIntact (.entry foreign)
      (Archive.init (fun _ => none) (.bytes [80]) none none)).1 = .ok false := by decide
  have delivered : (Archive.read Archive.oneIntact (.entry foreign)
      (Archive.init (fun _ => none) (.bytes [80]) none none)).1 =
        .ok [1, 2, 3, 4, 5, 6, 7, 8] := by decide
  refine ⟨fun only => ?_, outside, delivered⟩
  obtain ⟨exc, raised, -⟩ := only.missing.mpr outside
  cases delivered.symm.trans raised

end NewtuaPy
