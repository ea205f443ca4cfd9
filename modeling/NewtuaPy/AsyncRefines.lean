import NewtuaPy.AsyncLifetime
import NewtuaPy.History
import NewtuaPy.Owner

/-!
# The asynchronous archive answers as the synchronous one does

`AsyncArchive.Holds W o a` says that the entered archive `a` has cached what
opening the view `W` tells, and that its path holds the content of `W`.  Under
it every operation gives the answer of the view.  `Archive` answers as the same
view does, but for the owner of the entries, so the two agree on every run.
-/

namespace NewtuaPy

open Archive (Value)

/-! ## Operations -/

namespace AsyncArchive

/-- The same call on an `Archive`. -/
def Call.sync : Call → Archive.Call
  | .len => .len
  | .iter => .iter
  | .getitem key => .getitem key
  | .contains key => .contains key
  | .format => .format
  | .detectedEncoding => .detectedEncoding
  | .needsPassword => .needsPassword
  | .read ref => .read ref
  | .extract request => .extract request

/-- An operation on an entered archive: a call, or opening a stream and reading
it with `read(size)` for each of the sizes. -/
inductive Op
  | call (c : Call)
  | stream (ref : Ref) (sizes : List Int)

inductive Result
  | value (v : Value)
  | chunks (outcomes : List (Except PyExc Bytes))

def Result.Alike : Result → Result → Prop
  | .value v, .value v' => v.Alike v'
  | .chunks outcomes, .chunks outcomes' => outcomes = outcomes'
  | _, _ => False

/-- The outcomes of successive reads of a stream. -/
def readEach : List Int → PipeStream → List (Except PyExc Bytes) × PipeStream
  | [], p => ([], p)
  | size :: sizes, p =>
      let (outcome, p) := PipeStream.read (some size) p
      let (outcomes, p) := readEach sizes p
      (outcome :: outcomes, p)

/-- Read the stream at place `k`. -/
def readStream (k : Nat) (sizes : List Int) : Py World (List (Except PyExc Bytes)) :=
  onStream k fun p => (.ok (readEach sizes p).1, (readEach sizes p).2)

/-- An operation of the synchronous archive. -/
def syncOp (eng : Engine) : Op → Py Session Result
  | .call c => do
      let v ← Archive.call eng c.sync
      pure (.value v)
  | .stream ref sizes => do
      let (k, _) ← Archive.openStream eng ref
      let outcomes ← NewtuaPy.onWorld (readStream k sizes)
      pure (.chunks outcomes)

/-- An operation of the asynchronous archive. -/
def asyncOp (eng : Engine) : Op → Py AsyncSession Result
  | .call c => do
      let v ← call eng c
      pure (.value v)
  | .stream ref sizes => do
      let ctx ← AsyncArchive.open ref
      let (k, _) ← ctx.aenter eng
      let outcomes ← onWorld (readStream k sizes)
      pure (.chunks outcomes)

end AsyncArchive

open AsyncArchive (Call Op Result readEach readStream syncOp asyncOp)

namespace PipeStream

/-- The stream `p` with another claim. -/
def Claiming (claim : Option Nat) (p q : PipeStream) : Prop := p = { q with onClose := claim }

variable {claim : Option Nat}

theorem _checkOpen_sim :
    Exn.Sim (Claiming claim) _checkOpen _checkOpen (fun _ _ => Claiming claim)
      (Claiming claim) := by
  intro _ q same
  obtain rfl := same
  unfold _checkOpen
  rcases closed : q.closed with _ | _
  · simp [closed, Claiming]
  · simp [closed, Claiming]

theorem backingRead_sim (size : Int) :
    Exn.Sim (Claiming claim) (backingRead size) (backingRead size)
      (fun a b p q => a = b ∧ Claiming claim p q) (Claiming claim) := by
  intro _ q same
  obtain rfl := same
  unfold backingRead
  by_cases low : size < -1
  · simp [low, Claiming]
  · simp [low, Claiming]

theorem _took_sim (n : Nat) (exhausted : Bool) :
    Exn.Sim (Claiming claim) (_took n exhausted) (_took n exhausted)
      (fun _ _ => Claiming claim) (Claiming claim) := by
  intro _ q same
  obtain rfl := same
  unfold _took
  simp only [Exn.modify_bind_apply, Exn.get_bind_apply]
  rcases exhausted with _ | _
  · exact rfl
  · rcases expected : q.expectedSize with _ | size
    · exact rfl
    · by_cases short : 0 < size ∧ ((q.readTotal + n : Nat) : Int) < size
      · simp only [Bool.not_true, Bool.false_eq_true, if_false, if_pos short]
        exact ⟨rfl, rfl⟩
      · simp only [Bool.not_true, Bool.false_eq_true, if_false, if_neg short]
        exact rfl

/-- What a stream delivers does not depend on what its close releases. -/
theorem read_sim (size : Option Int) :
    Exn.Sim (Claiming claim) (read size) (read size)
      (fun a b p q => a = b ∧ Claiming claim p q) (Claiming claim) := by
  unfold read _readChunk
  refine _checkOpen_sim.bind fun _ _ => (backingRead_sim _).bind ?_
  intro a b p q post
  obtain ⟨rfl, same⟩ := post
  refine ((_took_sim _ _).bind ?_) p q same
  exact fun _ _ => Exn.Sim.pure fun p q same => ⟨rfl, same⟩

end PipeStream

theorem readEach_onClose (sizes : List Int) (p : PipeStream) (claim : Option Nat) :
    readEach sizes { p with onClose := claim } =
      ((readEach sizes p).1, { (readEach sizes p).2 with onClose := claim }) := by
  induction sizes generalizing p with
  | nil => rfl
  | cons size sizes ih =>
      unfold readEach
      rcases (PipeStream.read_sim (some size)).cases (s := { p with onClose := claim }) rfl with
        ⟨a, _, _, q, left, right, rfl, rfl⟩ | ⟨exc, _, q, left, right, rfl⟩
      · rw [left, right]
        dsimp only
        rw [ih]
      · rw [left, right]
        dsimp only
        rw [ih]

/-- The answer of a view to an operation. -/
def View.op (V : View) : Op → Answer Result
  | .call c => do
      let v ← V.call c.sync
      pure (.value v)
  | .stream ref sizes => do
      let d ← V.stream ref
      pure (.chunks (readEach sizes { data := d.1, expectedSize := some d.2 }).1)

theorem readStream_run {w : World} {k : Nat} {p : PipeStream} (entry : w.streams[k]? = some p)
    (sizes : List Int) :
    readStream k sizes w =
      (.ok (readEach sizes { p with onClose := none }).1,
        { w with streams := w.streams.set k (readEach sizes p).2 }) := by
  unfold readStream onStream
  rw [entry, readEach_onClose]

theorem World.Same.withStreams (tempfile : Option Nat) (w : World) (streams : List PipeStream) :
    World.Same tempfile w { w with streams } :=
  ⟨rfl, fun _ f _ entry held => ⟨f, entry, rfl, held⟩⟩

/-! ## The entered archive -/

namespace AsyncArchive

open Archive (typed)

structure Holds (W : View) (o : Opened) (p : FilePath) (a : AsyncSession) : Prop where
  owned : W.owned = false
  opened : W.opened = .ok o
  unclosed : a.self.closed = false
  password : a.self.password = W.password
  encoding : a.self.encoding = W.encoding
  path : a.self.path = some p
  file : a.world.files p = W.content
  entries : a.self.entries = W.entries o
  byName : a.self.byName = NewtuaPy.nameIndex (W.entries o)
  format : a.self._format = some (formatName o.reader.format)
  detectedEncoding : a.self._detectedEncoding = some o.detectedEncoding
  names : a.self.sync.source.wrapperNameSource = W.source.wrapperNameSource
  claimed : World.Claimed a.self.sync.tempfile 0 a.world

/-- `Holds`, after `L` and then `t` have been handed over. -/
def Tracks (W : View) (o : Opened) (p : FilePath) (L : List Handed) (a : AsyncSession)
    (t : List Handed) : Prop :=
  Holds W o p a ∧ a.world.handed = L ++ t

/-- A computation of the archive does what the view does. -/
abbrev Answers {α : Type} (W : View) (o : Opened) (p : FilePath) (L : List Handed)
    (x : Py AsyncSession α) (y : Answer α) : Prop :=
  Exn.Sim (Tracks W o p L) x y (fun a b s t => a = b ∧ Tracks W o p L s t) (Tracks W o p L)

variable {W : View} {o : Opened} {p : FilePath} {a : AsyncSession} {L : List Handed}

theorem Holds.ofSame (h : Holds W o p a) {w : World}
    (same : World.Same a.self.sync.tempfile a.world w) : Holds W o p { a with world := w } where
  owned := h.owned
  opened := h.opened
  unclosed := h.unclosed
  password := h.password
  encoding := h.encoding
  path := h.path
  file := by dsimp only; rw [same.files]; exact h.file
  entries := h.entries
  byName := h.byName
  format := h.format
  detectedEncoding := h.detectedEncoding
  names := h.names
  claimed := by
    intro t claimed
    obtain ⟨f, entry, held⟩ := h.claimed t claimed
    obtain ⟨f', entry', -, held'⟩ := same.claims t f claimed entry held
    exact ⟨f', entry', held'⟩

/-! ## What the view does with what it opens -/

theorem Holds.reader_run (h : Holds W o p a) (t : List Handed) : W.reader t = (.ok o, t) := by
  unfold View.reader
  rw [h.opened]
  rfl

theorem Holds.listing_run (h : Holds W o p a) (t : List Handed) :
    W.listing t = (.ok (W.entries o), t) :=
  Exn.bind_of_ok (h.reader_run t) _

theorem Holds.indexOf_run (h : Holds W o p a) (ref : Ref) (t : List Handed) :
    W.indexOf ref t = (resolveIndex (W.entries o) ref, t) :=
  Exn.bind_of_ok (h.listing_run t) _

theorem Holds._ensureReady_run (h : Holds W o p a) : _ensureReady a = (.ok p, a) := by
  unfold _ensureReady
  rw [Exn.get_bind_apply, h.path]
  dsimp only
  rw [h.unclosed]
  rfl

/-- An outcome that the archive and the view compute alike. -/
theorem lift_answers {α : Type} (r : Except PyExc α) :
    Answers W o p L (Exn.lift r) (Exn.lift r) :=
  Exn.Sim.lift (fun _ _ _ _ tracks => ⟨rfl, tracks⟩) fun _ _ => id

theorem indexOf_answers (ref : Ref) : Answers W o p L (indexOf ref) (W.indexOf ref) := by
  intro a t tracks
  unfold indexOf
  rw [Exn.get_bind_apply, tracks.1.indexOf_run, tracks.1.entries]
  exact lift_answers _ a t tracks

/-- A call of the compiled module on the backing path does what the view asks for. -/
theorem ask_answers {α β : Type} {x : Py World β} {argument : Except PyExc α}
    {result : α → Option Bytes → Except PyExc β} {work : α → Work}
    {answer : α → Except PyExc β}
    (h : Asks x p argument (fun a => ⟨p, W.password, W.encoding, work a⟩) result)
    (visible : ∀ a, (work a).opening = false) (agree : ∀ a, result a W.content = answer a) :
    Answers W o p L (typed (onWorld x)) (W.ask argument work answer) := by
  refine View.typed_sim (Exn.Sim.zoom ?_)
  intro s t start
  obtain ⟨holds, handed⟩ := start
  have call (a : α) : (EngineCall.mk p W.password W.encoding (work a)).handed =
      some ⟨W.password, W.encoding, work a⟩ := by
    unfold EngineCall.handed
    rw [visible a]
    rfl
  refine (View.request_sim (L := L) h call holds.file agree).conseq ?_ ?_ ?_
  · intro w t start
    obtain ⟨rfl, rfl⟩ := start
    exact ⟨.refl _, handed⟩
  · intro a b w t post
    obtain ⟨rfl, quiet, handed⟩ := post
    exact ⟨rfl, holds.ofSame (quiet.same _), handed⟩
  · intro w t start
    obtain ⟨quiet, handed⟩ := start
    exact ⟨holds.ofSame (quiet.same _), handed⟩

theorem read_answers (ref : Ref) : Answers W o p L (read W.eng ref) (W.fetch .read ref) := by
  intro a t tracks
  unfold read View.fetch
  rw [Exn.bind_of_ok tracks.1._ensureReady_run, Exn.bind_of_ok (tracks.1.reader_run t)]
  refine (Exn.Sim.bind (indexOf_answers ref) ?_) a t tracks
  intro index _ a t post
  obtain ⟨rfl, tracks⟩ := post
  rw [Exn.get_bind_apply, tracks.1.password, tracks.1.encoding]
  have asks := readPath_asks W.eng p index W.password W.encoding
  refine ask_answers asks (fun _ => rfl) ?_ a t tracks
  intro i
  rw [View.coreOpen_of_ok tracks.1.opened]

theorem selected_answers (selection : Option (List Ref)) :
    Answers W o p L (selected selection)
      (Exn.lift (View.select (W.entries o) selection)) := by
  intro a t tracks
  rw [selected_run, tracks.1.entries]
  exact lift_answers _ a t tracks

theorem extract_answers (request : Archive.ExtractRequest) :
    Answers W o p L (extract W.eng request) (W.extract request) := by
  intro a t tracks
  unfold extract View.extract
  rw [Exn.bind_of_ok tracks.1._ensureReady_run, Exn.bind_of_ok (tracks.1.reader_run t)]
  refine (Exn.Sim.bind (selected_answers request.selection) ?_) a t tracks
  intro selection _ a t post
  obtain ⟨rfl, tracks⟩ := post
  rw [Exn.get_bind_apply, tracks.1.password, tracks.1.encoding, tracks.1.names]
  refine ask_answers (extractPath_asks W.eng p _ W.password W.encoding) (fun _ => rfl) ?_ a t tracks
  intro selection
  rw [View.coreOpen_of_ok tracks.1.opened]

/-- Entering a stream context opens a pipe that delivers what the view says. -/
theorem aenter_sim (index : Int) (size : Nat) :
    Exn.Sim (Tracks W o p L) (StreamCtx.aenter W.eng ⟨index, size⟩) (W.pipe o index)
      (fun q b s t =>
        q.2 = { data := b, expectedSize := some (size : Int), onClose := s.self.sync.tempfile } ∧
          s.world.streams[q.1]? = some q.2 ∧ Tracks W o p L s t)
      (Tracks W o p L) := by
  intro a t tracks
  obtain ⟨holds, handed⟩ := tracks
  have handshake (w : World) (files : w.files = a.world.files) :
      Exn.Sim (View.Idle L w) (openStreamPath W.eng p index W.password W.encoding)
        (W.request (usizeArg index) .stream fun i =>
          .ok (o.reader.readEntry W.content i).chunks.flatten)
        (fun a b w' t => a = b ∧ View.Idle L w w' t) (View.Idle L w) :=
    View.request_sim (openStreamPath_asks W.eng p index W.password W.encoding) (fun _ => rfl)
      ((congrFun files p).trans holds.file) (View.piped_of_ok holds.opened ·)
  have piped : Exn.Sim (fun s' t' => s' = a ∧ t' = t)
      (onWorld (openPipe a.self.sync.tempfile
        (openStreamPath W.eng p index W.password W.encoding) (some (size : Int))))
      (W.pipe o index)
      (fun q b s t =>
        q.2 = { data := b, expectedSize := some (size : Int), onClose := s.self.sync.tempfile } ∧
          s.world.streams[q.1]? = some q.2 ∧ Tracks W o p L s t)
      (Tracks W o p L) := by
    refine Exn.Sim.zoom ?_
    intro s t start
    obtain ⟨rfl, rfl⟩ := start
    refine (View.openPipe_sim holds.claimed handshake).conseq ?_ ?_ ?_
    · intro w t start
      obtain ⟨rfl, rfl⟩ := start
      exact ⟨.refl _, handed⟩
    · intro q b w t post
      obtain ⟨stream, placed, same, handed⟩ := post
      exact ⟨stream, placed, holds.ofSame same, handed⟩
    · intro w t start
      obtain ⟨same, handed⟩ := start
      exact ⟨holds.ofSame same, handed⟩
  unfold StreamCtx.aenter _openPipeSync
  rw [Exn.get_bind_apply, holds.path, holds.password, holds.encoding]
  exact piped a t ⟨rfl, rfl⟩

theorem stream_answers (ref : Ref) (sizes : List Int) :
    Answers W o p L (asyncOp W.eng (.stream ref sizes)) (W.op (.stream ref sizes)) := by
  unfold asyncOp AsyncArchive.open View.op View.stream
  simp only [Exn.bind_assoc]
  intro a t tracks
  rw [Exn.bind_of_ok tracks.1._ensureReady_run, Exn.bind_of_ok (tracks.1.reader_run t)]
  refine (Exn.Sim.bind (indexOf_answers ref) ?_) a t tracks
  intro index _ a t post
  obtain ⟨rfl, tracks⟩ := post
  rw [Exn.get_bind_apply, Exn.bind_of_ok (tracks.1.listing_run t), tracks.1.entries]
  refine (Exn.Sim.bind (lift_answers _) ?_) a t tracks
  intro entry _ a t post
  obtain ⟨rfl, tracks⟩ := post
  refine (Exn.Sim.bind (aenter_sim index entry.size) ?_) a t tracks
  intro opened data a t post
  obtain ⟨k, q⟩ := opened
  obtain ⟨stream, placed, tracks⟩ := post
  dsimp only at stream placed
  have reading := onWorld_run (readStream_run placed sizes)
  rw [Exn.bind_of_ok reading, stream]
  exact ⟨rfl, tracks.1.ofSame (.withStreams _ _ _), tracks.2⟩

theorem getitem_run (h : Holds W o p a) (key : Archive.Key) :
    getitem key a = (View.item (W.entries o) key, a) := by
  unfold getitem View.item
  rw [Exn.get_bind_apply, h.entries, h.byName]
  cases key with
  | slice slice => exact Exn.lift_map_apply _ Value.entries a
  | int i => exact Exn.lift_map_apply _ Value.entry a
  | name text => exact Exn.lift_map_apply _ Value.entry a
  | path path => exact Exn.lift_map_apply _ Value.entry a

theorem getitem_answers (key : Archive.Key) :
    Answers W o p L (getitem key) (do
      let entries ← W.listing
      Exn.lift (View.item entries key)) := by
  intro a t tracks
  rw [getitem_run tracks.1, Exn.bind_of_ok (tracks.1.listing_run t)]
  exact lift_answers _ a t tracks

theorem listing_answers :
    Answers W o p L (Exn.get >>= fun a => pure a.self.entries) W.listing := by
  intro a t tracks
  rw [Exn.get_bind_apply, tracks.1.listing_run, tracks.1.entries]
  exact ⟨rfl, tracks⟩

theorem contains_answers (key : Archive.Member) :
    Answers W o p L (contains key) (W.contains key) := by
  intro a t tracks
  have run : contains key a = (.ok (View.member (W.entries o) key), a) := by
    unfold contains View.member
    rw [Exn.get_bind_apply, tracks.1.entries, tracks.1.byName]
    cases key <;> rfl
  have viewed : W.contains key t = (.ok (View.member (W.entries o) key), t) := by
    cases key with
    | other => rfl
    | entry e => exact Exn.bind_of_ok (tracks.1.listing_run t) _
    | name text => exact Exn.bind_of_ok (tracks.1.listing_run t) _
    | path path => exact Exn.bind_of_ok (tracks.1.listing_run t) _
  rw [run, viewed]
  exact ⟨rfl, tracks⟩

theorem needsPassword_answers : Answers W o p L needsPassword W.needsPassword := by
  intro a t tracks
  have run : W.needsPassword t = (.ok ((W.entries o).any (·.isEncrypted)), t) :=
    Exn.handle_of_ok (Exn.bind_of_ok (tracks.1.listing_run t) _) _
  unfold needsPassword
  rw [Exn.get_bind_apply, tracks.1.entries, run]
  exact ⟨rfl, tracks⟩

theorem format_answers : Answers W o p L format W.format := by
  intro a t tracks
  unfold format View.format
  rw [Exn.get_bind_apply, tracks.1.format, Exn.bind_of_ok (tracks.1.reader_run t)]
  exact lift_answers _ a t tracks

theorem detectedEncoding_answers : Answers W o p L detectedEncoding W.detectedEncoding := by
  intro a t tracks
  unfold detectedEncoding View.detectedEncoding
  rw [Exn.get_bind_apply, tracks.1.detectedEncoding, Exn.bind_of_ok (tracks.1.reader_run t)]
  exact ⟨rfl, tracks⟩

/-- The same value, packed in the same way. -/
theorem pack_answers {α β : Type} {x : Py AsyncSession α} {y : Answer α} (f : α → β)
    (h : Answers W o p L x y) :
    Answers W o p L (x >>= fun a => pure (f a)) (y >>= fun a => pure (f a)) := by
  refine Exn.Sim.bind h ?_
  intro a _ s t post
  obtain ⟨rfl, tracks⟩ := post
  exact ⟨rfl, tracks⟩

theorem call_answers (c : Call) : Answers W o p L (call W.eng c) (W.call c.sync) := by
  cases c with
  | len => exact pack_answers (fun es => Value.nat es.length) listing_answers
  | iter => exact pack_answers Value.entries listing_answers
  | getitem key => exact getitem_answers key
  | contains key => exact pack_answers _ (contains_answers key)
  | format => exact pack_answers _ format_answers
  | detectedEncoding => exact pack_answers _ detectedEncoding_answers
  | needsPassword => exact pack_answers _ needsPassword_answers
  | read ref => exact pack_answers _ (read_answers ref)
  | extract request => exact pack_answers _ (extract_answers request)

/-- Every operation on the entered archive answers as the view does. -/
theorem op_answers (op : Op) : Answers W o p L (asyncOp W.eng op) (W.op op) := by
  cases op with
  | call c => exact pack_answers _ (call_answers c)
  | stream ref sizes => exact stream_answers ref sizes

/-! ## Entering -/

section

variable {files : FilePath → Option Bytes} {source : Source} {password encoding : Option String}

variable (files password encoding) in
/-- With a readable source, `aenter` comes to a path that holds the content. -/
theorem aenter_backed (eng : Engine) (readable : source.Readable) :
    ∃ p a, aenter eng (init files source password encoding) =
        enterBacked eng source.ownPath (source.content files) p a ∧
      a.self.path = some p ∧ a.self.password = password ∧ a.self.encoding = encoding ∧
      a.self.closed = false ∧ a.world.files p = source.content files ∧ a.world.handed = [] ∧
      a.self.sync.source.wrapperNameSource = source.wrapperNameSource ∧
      World.Claimed a.self.sync.tempfile 0 a.world := by
  have sees := Archive.init_sees eng files readable password encoding
  obtain ⟨p, s, back, sees, -, file, log⟩ := sees.backingPath rfl
  have spilled := onSync_run (a := init files source password encoding) back
  refine ⟨p,
    { world := s.world
      self := { (init files source password encoding).self with sync := s.self, path := some p } },
    ?_, rfl, rfl, rfl, rfl, file, World.handed_of_log log, sees.alike.wrapperNameSource,
    sees.claimed⟩
  have own : s.self.source.ownPath = source.ownPath := sees.ownPath
  have content : s.world.files p = source.content files := file
  rw [aenter_run eng spilled, ← own, ← content]

theorem aenter_ok {eng : Engine} (readable : source.Readable) {o : Opened}
    (opens : (View.over eng files source password encoding).opened = .ok o) :
    ∃ p a, aenter eng (init files source password encoding) = (.ok (), a) ∧
      Holds (View.over eng files source password encoding).disown o p a ∧
      a.world.handed = [] := by
  obtain ⟨p, a, entering, path, pw, enc, unclosed, file, handed, names, claimed⟩ :=
    aenter_backed files password encoding eng readable
  have found : eng.snapshot (a.world.files p) a.self.password a.self.encoding = .ok o := by
    rw [file, pw, enc]
    exact View.snapshot_of_ok opens
  have present : source.ownPath = none ∨ (source.content files).isSome = true :=
    Archive.Sees.present_of_ok opens
  rw [enterBacked_present eng present, enterAt_ok found] at entering
  refine ⟨p, _, entering, ?_, (World.handed_opening rfl).trans handed⟩
  exact
    { owned := rfl, opened := opens, unclosed := unclosed, password := pw, encoding := enc
      path := path, file := file, entries := rfl, byName := rfl, format := rfl
      detectedEncoding := rfl, names := names, claimed := claimed }

end

end AsyncArchive

/-! ## The synchronous archive -/

namespace Archive

variable {files : FilePath → Option Bytes} {source : Source} {password encoding : Option String}
  {V : View} {L : List Handed}

theorem syncOp_sim (op : Op) : Answers V L (syncOp V.eng op) (V.op op) := by
  cases op with
  | call c => exact (call_sim c.sync).pack Result.value
  | stream ref sizes =>
      refine (openStream_sim ref).bind ?_
      intro opened d s t post
      obtain ⟨k, p⟩ := opened
      obtain ⟨stream, placed, r, ready, handed⟩ := post
      dsimp only at stream placed
      dsimp only
      rw [Exn.bind_of_ok (onWorld_run (readStream_run placed sizes)), stream]
      exact ⟨rfl, (ready.ofSame (.withStreams _ _ _)).left, handed⟩

end Archive

namespace View

theorem SameAnswer.outcome {α β : Type} {x : Answer α} {y : Answer β} {R : α → β → Prop}
    (h : SameAnswer x y R) (t : List Handed) :
    SameOutcome R (x t).1 (y t).1 ∧ (x t).2 = (y t).2 := by
  rcases h.cases (s := t) rfl with ⟨a, b, s', t', left, right, related, same⟩ |
    ⟨exc, s', t', left, right, same⟩
  · rw [left, right]
    exact ⟨related, same⟩
  · rw [left, right]
    exact ⟨rfl, same⟩

theorem op_disown {V : View} (op : Op) :
    SameAnswer (V.op op) (V.disown.op op) Result.Alike := by
  cases op with
  | call c => exact (call_disown c.sync).bind fun v v' alike => SameAnswer.pure alike
  | stream ref sizes =>
      refine (stream_disown ref).bind ?_
      intro d _ same
      obtain rfl := same
      exact SameAnswer.pure rfl

end View

/-! ## Runs -/

namespace AsyncArchive

/-- What the caller and the engine see of an operation: its outcome, and the
work handed over up to then. -/
def syncStep (eng : Engine) : Machine Session Op (Except PyExc Result × List Handed) :=
  fun s op =>
    let (outcome, s) := syncOp eng op s
    ((outcome, s.world.handed), s)

def asyncStep (eng : Engine) : Machine AsyncSession Op (Except PyExc Result × List Handed) :=
  fun a op =>
    let (outcome, a) := asyncOp eng op a
    ((outcome, a.world.handed), a)

/-- The same result or the same exception, and the same work. -/
def SameStep (x y : Except PyExc Result × List Handed) : Prop :=
  SameOutcome Result.Alike x.1 y.1 ∧ x.2 = y.2

/-- Both archives have the answers of one view. -/
structure Twins (V : View) (o : Opened) (p : FilePath) (s : Session) (a : AsyncSession) : Prop where
  sees : Archive.Sees V s
  holds : Holds V.disown o p a
  handed : s.world.handed = a.world.handed

variable {V : View} {o : Opened} {p : FilePath} {s : Session} {a : AsyncSession}

/-- An archive that opens is never spent. -/
theorem not_spends_of_ok (opens : V.opened = .ok o) : ¬ V.Spends := by
  intro post
  obtain ⟨-, e, refused⟩ := post
  cases (View.snapshot_of_ok opens).symm.trans refused

/-- Step lemma: one operation ends alike on both, and they stay twins. -/
theorem Twins.step (h : Twins V o p s a) (op : Op) :
    SameStep (syncStep V.eng s op).1 (asyncStep V.eng a op).1 ∧
      Twins V o p (syncStep V.eng s op).2 (asyncStep V.eng a op).2 := by
  have unspent : ¬ V.Spends := not_spends_of_ok h.holds.opened
  obtain ⟨outcome, left, handed⟩ := (Archive.syncOp_sim (L := s.world.handed) op).same
    ⟨h.sees, (List.append_nil _).symm⟩
  have tracks : Tracks V.disown o p a.world.handed a [] := ⟨h.holds, (List.append_nil _).symm⟩
  obtain ⟨outcome', holds, handed'⟩ := (op_answers op).same tracks
  obtain ⟨alike, work⟩ := (View.op_disown (V := V) op).outcome []
  have same : (syncOp V.eng op s).2.world.handed = (asyncOp V.eng op a).2.world.handed := by
    calc
      _ = s.world.handed ++ (V.op op []).2 := handed
      _ = a.world.handed ++ (V.disown.op op []).2 := by rw [h.handed, work]
      _ = _ := handed'.symm
  refine ⟨⟨?_, same⟩, left.resolve_right unspent, holds, same⟩
  change SameOutcome Result.Alike (syncOp V.eng op s).1 (asyncOp V.disown.eng op a).1
  rw [outcome, outcome']
  exact alike

/-- On an archive that could be entered, every run of operations ends alike on
the synchronous and on the asynchronous archive. -/
theorem Twins.run (h : Twins V o p s a) (ops : List Op) :
    List.Forall₂ SameStep ((syncStep V.eng).run s ops).1 ((asyncStep V.eng).run a ops).1 :=
  (Machine.run_related (R := Twins V o p) (fun _ _ op twins => twins.step op) h ops).1

end AsyncArchive

end NewtuaPy
