import NewtuaPy.Archive

/-!
# What an archive is for

The abstract meaning of the accessors: over a source with given content, under a
password and an encoding, every call has one answer and hands the engine one
piece of work, whatever was called before.  There is no reader, no cache, no
temp file and no closed flag here.  `Archive` and `AsyncArchive` are compared
with it, and through it with one another.
-/

namespace NewtuaPy

/-- Work handed to the engine, with the options the archive is opened under. -/
structure Handed where
  password : Option String
  encoding : Option String
  work : Work
deriving DecidableEq, Repr

/-- The opens and listings of a log are the archive's own business. -/
def Work.opening : Work → Bool
  | .open | .list => true
  | _ => false

def EngineCall.handed (call : EngineCall) : Option Handed :=
  if call.work.opening then none else some ⟨call.password, call.encoding, call.work⟩

/-- What the engine has been handed so far. -/
def World.handed (w : World) : List Handed := w.log.filterMap EngineCall.handed

@[simp] theorem World.handed_logged (w : World) (call : EngineCall) :
    (w.logged call).handed = w.handed ++ call.handed.toList := by
  unfold World.handed World.logged
  rw [List.filterMap_append]
  rcases given : call.handed with _ | handed <;> simp [given]

theorem World.handed_opening {w : World} {call : EngineCall} (h : call.work.opening = true) :
    (w.logged call).handed = w.handed := by
  simp [EngineCall.handed, h]

theorem World.handed_of_log {w w' : World} (h : w.log = w'.log) : w.handed = w'.handed := by
  unfold World.handed
  rw [h]

/-- A computation that only hands work to the engine. -/
abbrev Answer (α : Type) := Exn PyExc (List Handed) α

/-- An archive as its user thinks of it.  `owned` says whether its entries refer
back to it. -/
structure View where
  eng : Engine
  source : Source
  content : Option Bytes
  password : Option String
  encoding : Option String
  owned : Bool

namespace View

open Archive (Key Member Value Call ExtractRequest itemByName)

variable (V : View)

/-- What opening the archive tells, or the exception it ends with. -/
def opened : Except PyExc Opened :=
  match V.source.ownPath, V.content with
  | some (.named own), none => .error (fileNotFound own)
  | _, _ =>
      (V.eng.snapshot V.content V.password V.encoding).mapError fun fault =>
        fault.toPyExc.raised

variable {V} in
theorem opened_missing {own : String} (source : V.source.ownPath = some (.named own))
    (gone : V.content = none) : V.opened = .error (fileNotFound own) := by
  unfold opened
  rw [source, gone]

variable {V} in
theorem opened_present (present : V.source.ownPath = none ∨ V.content.isSome = true) :
    V.opened = (V.eng.snapshot V.content V.password V.encoding).mapError fun fault =>
      fault.toPyExc.raised := by
  unfold opened
  rcases content : V.content with _ | c
  · rw [content] at present
    rw [present.resolve_right (by decide)]
  · split
    · contradiction
    · rfl

/-- The one way to lose a source: it is a file object, and opening what it held
fails with an error of the engine. -/
def Spends : Prop :=
  (∃ file, V.source = .stream file) ∧
    ∃ e, V.eng.snapshot V.content V.password V.encoding = .error (.error e)

def entries (o : Opened) : List Entry := (entriesFromRaw o.entries V.owned).1

/-- The answer any opening call starts from. -/
def reader : Answer Opened := Exn.lift V.opened

def listing : Answer (List Entry) := do
  let o ← V.reader
  pure (V.entries o)

def indexOf (ref : Ref) : Answer Int := do
  let entries ← V.listing
  Exn.lift (resolveIndex entries ref)

def hand (work : Work) : Answer Unit :=
  Exn.modify (· ++ [⟨V.password, V.encoding, work⟩])

/-- `archive[key]` over the entries. -/
def item (entries : List Entry) : Key → Except PyExc Value
  | .slice s => (tupleSlice entries s).map .entries
  | .int i => (tupleItem entries i).map .entry
  | .name s => (itemByName (nameIndex entries) (PurePosixPath.ofString s) s).map .entry
  | .path p => (itemByName (nameIndex entries) p p.str).map .entry

/-- `key in archive` over the entries. -/
def member (entries : List Entry) : Member → Bool
  | .entry e => entries.any (e.pyEq ·)
  | .name s => ((nameIndex entries).lookup (PurePosixPath.ofString s)).isSome
  | .path p => ((nameIndex entries).lookup p).isSome
  | .other => false

/-- One call of the compiled module: its argument is converted, and the work is
handed over. -/
def request {α β : Type} (argument : Except PyExc α) (work : α → Work)
    (result : α → Except PyExc β) : Answer β := do
  let a ← Exn.lift argument
  V.hand (work a)
  Exn.lift (result a)

/-- A request whose exceptions come back typed. -/
def ask {α β : Type} (argument : Except PyExc α) (work : α → Work)
    (result : α → Except PyExc β) : Answer β :=
  Archive.typed (V.request argument work result)

/-- Anything that is neither an entry nor a name is not contained, and needs no
listing to be refused. -/
def contains : Member → Answer Bool
  | .other => pure false
  | key => do
      let entries ← V.listing
      pure (member entries key)

/-- An archive that cannot even be listed without a password needs one. -/
def needsPassword : Answer Bool :=
  Exn.handle
    (do
      let entries ← V.listing
      pure (entries.any (·.isEncrypted)))
    fun exc =>
      if exc.cls = .passwordRequiredError ∨ exc.cls = .wrongPasswordError then pure true
      else Exn.raise exc

def decode (o : Opened) (work : Nat → Work) (index : Int) : Answer Bytes :=
  V.ask (usizeArg index) work fun i => (o.reader.readEntry V.content i).bytes

/-- What a pipe stream over the entry at `index` delivers, however the decoding
ends. -/
def pipe (o : Opened) (index : Int) : Answer Bytes :=
  V.ask (usizeArg index) .stream fun i => .ok (o.reader.readEntry V.content i).chunks.flatten

/-- `open(ref, stream=True)`: what will be delivered, and the size expected. -/
def stream (ref : Ref) : Answer (Bytes × Nat) := do
  let o ← V.reader
  let index ← V.indexOf ref
  let entries ← V.listing
  let entry ← Exn.lift (tupleItem entries index)
  let data ← V.pipe o index
  pure (data, entry.size)

def unpack (o : Opened) (c : ExtractCall) : Answer Report :=
  V.ask (selectionArg c.selection) (fun selection => .extract (c.args selection)) fun selection =>
    o.reader.report V.content (c.options V.eng selection)

/-- The references of a selection, resolved one after another. -/
def select (entries : List Entry) : Option (List Ref) → Except PyExc (Option (List Int))
  | none => .ok none
  | some refs => (refs.mapM (resolveIndex entries)).map some

/-- Whether a call looks at the archive at all. -/
def opens : Call → Bool
  | .contains .other => false
  | _ => true

def format : Answer Format := do
  let o ← V.reader
  Exn.lift (Archive.formatOf (formatName o.reader.format))

def detectedEncoding : Answer String := do
  let o ← V.reader
  pure o.detectedEncoding

/-- One entry, decoded to the end. -/
def fetch (work : Nat → Work) (ref : Ref) : Answer Bytes := do
  let o ← V.reader
  let index ← V.indexOf ref
  V.decode o work index

def extract (request : ExtractRequest) : Answer Report := do
  let o ← V.reader
  let selection ← Exn.lift (select (V.entries o) request.selection)
  V.unpack o (request.toCall selection V.source.wrapperNameSource)

/-- The answer to an accessor call, with the work it hands over. -/
def call : Call → Answer Value
  | .len => do
      let entries ← V.listing
      pure (.nat entries.length)
  | .iter => do
      let entries ← V.listing
      pure (.entries entries)
  | .getitem key => do
      let entries ← V.listing
      Exn.lift (item entries key)
  | .contains key => do
      let b ← V.contains key
      pure (.bool b)
  | .format => do
      let f ← V.format
      pure (.format f)
  | .detectedEncoding => do
      let s ← V.detectedEncoding
      pure (.str s)
  | .needsPassword => do
      let b ← V.needsPassword
      pure (.bool b)
  | .read ref => do
      let b ← V.fetch .read ref
      pure (.bytes b)
  | .openBuffered ref => do
      let b ← V.fetch .write ref
      pure (.buffered b)
  | .openStream ref => do
      let d ← V.stream ref
      pure (.stream d.1 (some d.2))
  | .extract request => do
      let r ← V.extract request
      pure (.report r)

/-! ## Calls of the compiled module -/

variable {V} {α β : Type}

theorem typed_sim {σ : Type} {x : Py σ α} {y : Answer β} {R E : σ → List Handed → Prop}
    {Q : α → β → σ → List Handed → Prop} (h : Exn.Sim R x y Q E) :
    Exn.Sim R (Archive.typed x) (Archive.typed y) Q E :=
  h.handle fun _ => Exn.Sim.raise fun _ _ ended => ended

theorem ask_run (a : α) (work : α → Work) (result : α → Except PyExc β) (t : List Handed) :
    V.ask (.ok a) work result t =
      ((result a).mapError PyExc.raised, t ++ [⟨V.password, V.encoding, work a⟩]) := by
  unfold ask Archive.typed
  have asked : V.request (.ok a) work result t =
      (result a, t ++ [⟨V.password, V.encoding, work a⟩]) := rfl
  rcases answer : result a with exc | b <;> rw [answer] at asked
  · rw [Exn.handle_of_error asked]
    rfl
  · rw [Exn.handle_of_ok asked]
    rfl

theorem snapshot_of_ok {o : Opened} (opens : V.opened = .ok o) :
    V.eng.snapshot V.content V.password V.encoding = .ok o := by
  unfold opened at opens
  split at opens
  · cases opens
  · rcases found : V.eng.snapshot V.content V.password V.encoding with fault | o' <;>
      rw [found] at opens <;> cases opens
    rfl

theorem coreOpen_of_ok {o : Opened} (opens : V.opened = .ok o) :
    V.eng.coreOpen V.content V.password V.encoding = .ok o.reader :=
  (Engine.snapshot_ok (snapshot_of_ok opens)).1

theorem entries_fit {o : Opened} (opens : V.opened = .ok o) :
    (V.entries o).length < usizeBound := by
  obtain ⟨-, found, -, entries⟩ := Engine.snapshot_ok (snapshot_of_ok opens)
  rw [View.entries, entriesFromRaw_length, entries, List.length_map]
  exact found.fits

theorem piped_of_ok {o : Opened} (opens : V.opened = .ok o) (i : Nat) :
    V.eng.piped V.password V.encoding i V.content =
      .ok (o.reader.readEntry V.content i).chunks.flatten := by
  unfold Engine.piped
  rw [coreOpen_of_ok opens]

end View

/-! ## What a call leaves alone -/

/-- `w'` differs from `w` in nothing an archive depends on. -/
structure World.Quiet (w w' : World) : Prop where
  files : w'.files = w.files
  temps : w'.temps = w.temps
  nextTemp : w'.nextTemp = w.nextTemp
  streams : w'.streams = w.streams

theorem World.Quiet.refl (w : World) : w.Quiet w := ⟨rfl, rfl, rfl, rfl⟩

theorem World.Quiet.logged {w w' : World} (h : w.Quiet w') (call : EngineCall) :
    w.Quiet (w'.logged call) := ⟨h.files, h.temps, h.nextTemp, h.streams⟩

theorem Asks.quiet {α β : Type} {x : Py World β} {path : FilePath} {argument : Except PyExc α}
    {call : α → EngineCall} {result : α → Option Bytes → Except PyExc β}
    (h : Asks x path argument call result) (w : World) : w.Quiet (x w).2 := by
  rw [h w]
  cases argument with
  | error exc => exact .refl w
  | ok a => exact (World.Quiet.refl w).logged _

/-- `w'` has the files of `w`, and the temp file is still claimed if it was. -/
structure World.Same (tempfile : Option Nat) (w w' : World) : Prop where
  files : w'.files = w.files
  claims : ∀ t f, tempfile = some t → w.temps[t]? = some f → 0 < f.holders →
    ∃ f', w'.temps[t]? = some f' ∧ f'.path = f.path ∧ 0 < f'.holders

theorem World.Quiet.same {w w' : World} (h : w.Quiet w') (tempfile : Option Nat) :
    World.Same tempfile w w' :=
  ⟨h.files, fun t f _ entry held => ⟨f, by rw [h.temps]; exact entry, rfl, held⟩⟩

/-- The temp file, if there is one, has more than `n` claims. -/
def World.Claimed (tempfile : Option Nat) (n : Int) (w : World) : Prop :=
  ∀ t, tempfile = some t → ∃ f, w.temps[t]? = some f ∧ n < f.holders

theorem World.Quiet.claimed {w w' : World} {tempfile : Option Nat} {n : Int} (h : w.Quiet w')
    (claimed : World.Claimed tempfile n w) : World.Claimed tempfile n w' := by
  intro t same
  rw [h.temps]
  exact claimed t same

theorem World.Same.trans_quiet {w w' w'' : World} {tempfile : Option Nat}
    (h : World.Same tempfile w w') (quiet : w'.Quiet w'') : World.Same tempfile w w'' := by
  refine ⟨quiet.files.trans h.files, fun t f same entry held => ?_⟩
  rw [quiet.temps]
  exact h.claims t f same entry held

theorem holdClaim_run {tempfile : Option Nat} {w : World} (h : World.Claimed tempfile 0 w) :
    ∃ w', holdClaim tempfile w = (.ok (), w') ∧ World.Same tempfile w w' ∧
      World.Claimed tempfile 1 w' ∧ w'.log = w.log := by
  rcases tempfile with _ | t
  · exact ⟨w, rfl, (World.Quiet.refl w).same none, nofun, rfl⟩
  · obtain ⟨f, entry, held⟩ := h t rfl
    have entry' : (w.modifyTemp t fun f => { f with holders := f.holders + 1 }).temps[t]? =
        some { f with holders := f.holders + 1 } := by
      simp [World.modifyTemp, entry]
    refine ⟨_, rfl, ⟨rfl, ?_⟩, ?_, rfl⟩
    · intro t' f' same found held'
      cases same
      cases entry.symm.trans found
      exact ⟨_, entry', rfl, by dsimp only; omega⟩
    · intro t' same
      cases same
      exact ⟨_, entry', by dsimp only; omega⟩

theorem releaseClaim_run {tempfile : Option Nat} {w : World}
    (h : World.Claimed tempfile 1 w) :
    ∃ w', releaseClaim tempfile w = (.ok (), w') ∧ World.Same tempfile w w' ∧
      w'.log = w.log := by
  rcases tempfile with _ | t
  · exact ⟨w, rfl, (World.Quiet.refl w).same none, rfl⟩
  · obtain ⟨f, entry, held⟩ := h t rfl
    have inside : t < w.temps.length := (List.getElem?_eq_some_iff.mp entry).1
    have after : w.afterRelease t =
        { w with temps := w.temps.set t { f with holders := f.holders - 1 } } := by
      unfold World.afterRelease
      rw [entry]
      exact if_pos held
    refine ⟨_, TempFile.release_run t w, ⟨?_, ?_⟩, World.afterRelease_log w t⟩
    · rw [after]
    · intro t' f' same found held'
      cases same
      cases entry.symm.trans found
      rw [after]
      exact ⟨_, List.getElem?_set_self inside, rfl, by dsimp only; omega⟩

theorem World.Same.trans {w w' w'' : World} {tempfile : Option Nat}
    (h : World.Same tempfile w w') (h' : World.Same tempfile w' w'') :
    World.Same tempfile w w'' := by
  refine ⟨h'.files.trans h.files, fun t f same entry held => ?_⟩
  obtain ⟨f', entry', path, held'⟩ := h.claims t f same entry held
  obtain ⟨f'', entry'', path', held''⟩ := h'.claims t f' same entry' held'
  exact ⟨f'', entry'', path'.trans path, held''⟩

namespace View

variable {V : View} {α β : Type} {L : List Handed}

/-- A world that a call has left alone, after `L` and then `t` were handed over. -/
def Idle (L : List Handed) (w₀ w : World) (t : List Handed) : Prop :=
  w₀.Quiet w ∧ w.handed = L ++ t

/-- A call of the compiled module on a file that holds the content of the view
does what the view asks for. -/
theorem request_sim {x : Py World β} {path : FilePath} {argument : Except PyExc α}
    {call : α → EngineCall} {result : α → Option Bytes → Except PyExc β} {work : α → Work}
    {answer : α → Except PyExc β} {w₀ : World} (h : Asks x path argument call result)
    (same : ∀ a, (call a).handed = some ⟨V.password, V.encoding, work a⟩)
    (file : w₀.files path = V.content) (agree : ∀ a, result a V.content = answer a) :
    Exn.Sim (Idle L w₀) x (V.request argument work answer)
      (fun a b w t => a = b ∧ Idle L w₀ w t) (Idle L w₀) := by
  intro w t start
  obtain ⟨quiet, handed⟩ := start
  rcases argument with exc | a
  · rw [h w]
    exact ⟨rfl, quiet, handed⟩
  · have held : w.files path = V.content := by rw [quiet.files, file]
    have asked : x w = (answer a, w.logged (call a)) := by
      rw [← agree a, ← held]
      exact h w
    have viewed : V.request (.ok a) work answer t =
        (answer a, t ++ [⟨V.password, V.encoding, work a⟩]) := rfl
    have after : (w.logged (call a)).handed =
        L ++ (t ++ [⟨V.password, V.encoding, work a⟩]) := by
      rw [World.handed_logged, same, handed, List.append_assoc]
      rfl
    rw [asked, viewed]
    rcases answer a with exc | b
    · exact ⟨rfl, quiet.logged _, after⟩
    · exact ⟨rfl, quiet.logged _, after⟩

/-- Opening a pipe over a handshake that does what the view asks for: the stream
delivers what the view says, and the archive's claim on its spilled file is
untouched. -/
theorem openPipe_sim {tempfile : Option Nat} {x : Py World Bytes} {y : Answer Bytes}
    {size : Option Int} {w₀ : World} (claimed : World.Claimed tempfile 0 w₀)
    (handshake : ∀ w, w.files = w₀.files →
      Exn.Sim (Idle L w) x y (fun a b w' t => a = b ∧ Idle L w w' t) (Idle L w)) :
    Exn.Sim (Idle L w₀) (openPipe tempfile x size)
      (Archive.typed y)
      (fun p b w t => p.2 = { data := b, expectedSize := size, onClose := tempfile } ∧
        w.streams[p.1]? = some p.2 ∧ World.Same tempfile w₀ w ∧ w.handed = L ++ t)
      (fun w t => World.Same tempfile w₀ w ∧ w.handed = L ++ t) := by
  intro w t start
  obtain ⟨idle, handed⟩ := start
  obtain ⟨w₁, holding, held, spare, log⟩ := holdClaim_run (idle.claimed claimed)
  have same : World.Same tempfile w₀ w₁ := (idle.same tempfile).trans held
  have start : Idle L w₁ w₁ t := ⟨.refl w₁, (World.handed_of_log log).trans handed⟩
  unfold Archive.typed
  rcases (handshake w₁ same.files).cases start with
    ⟨a, _, w₂, t₂, left, right, rfl, quiet, handed₂⟩ | ⟨exc, w₂, t₂, left, right, quiet, handed₂⟩
  · rw [openPipe_ok holding left, Exn.handle_of_ok right]
    refine ⟨rfl, ?_, ⟨quiet.files.trans same.files, (same.trans_quiet quiet).claims⟩, handed₂⟩
    exact List.getElem?_concat_length
  · obtain ⟨w₃, releasing, same₃, log₃⟩ := releaseClaim_run (quiet.claimed spare)
    rw [openPipe_error holding left releasing, Exn.handle_of_error right]
    exact ⟨rfl, (same.trans_quiet quiet).trans same₃,
      (World.handed_of_log log₃).trans handed₂⟩

end View

end NewtuaPy
