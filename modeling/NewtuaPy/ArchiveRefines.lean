import NewtuaPy.LazyOpen

/-!
# The lazily opened archive answers as the view does

Under `Archive.Sees` every accessor call gives the answer of the view and hands
over the same work.  Each operation is simulated by its counterpart on the view;
from the lazy open on, the simulation is carried by `Archive.Ready`, which says
that the reader is at hand.
-/

namespace NewtuaPy

namespace Archive

variable {V : View} {s : Session} {r : RustArchive}

/-! ## The accessors -/

/-- The state of a session after `L` and then `t` have been handed over. -/
def Tracks (L : List Handed) (P : Session → Prop) (s : Session) (t : List Handed) : Prop :=
  P s ∧ s.world.handed = L ++ t

/-- What holds when a call ends with an exception. -/
def Left (V : View) (s : Session) : Prop := Sees V s ∨ V.Spends

variable {L : List Handed}

theorem Tracks.mono {P Q : Session → Prop} (h : ∀ s, P s → Q s) {s : Session} {t : List Handed}
    (tracks : Tracks L P s t) : Tracks L Q s t :=
  ⟨h s tracks.1, tracks.2⟩

/-- A computation of the archive does what the view does. -/
abbrev Answers {α : Type} (V : View) (L : List Handed) (x : Py Session α) (y : Answer α) : Prop :=
  Exn.Sim (Tracks L (Sees V)) x y (fun a b s t => a = b ∧ Tracks L (Left V) s t)
    (Tracks L (Left V))

/-- It may leave more intact than it has to. -/
theorem Answers.of_sim {α : Type} {x : Py Session α} {y : Answer α} {P : α → Session → Prop}
    (h : Exn.Sim (Tracks L (Sees V)) x y (fun a b s t => a = b ∧ Tracks L (P a) s t)
      (Tracks L (Left V))) (left : ∀ a s, P a s → Left V s) : Answers V L x y := by
  refine h.conseq (fun _ _ => id) ?_ fun _ _ => id
  intro a b s t post
  obtain ⟨same, tracks⟩ := post
  exact ⟨same, tracks.mono (left a)⟩

/-- The same value, packed in the same way. -/
theorem Answers.pack {α β : Type} {x : Py Session α} {y : Answer α} (f : α → β)
    (h : Answers V L x y) :
    Answers V L (x >>= fun a => pure (f a)) (y >>= fun a => pure (f a)) := by
  refine Exn.Sim.bind h ?_
  intro a _ s t post
  obtain ⟨rfl, tracks⟩ := post
  exact ⟨rfl, tracks⟩

theorem Ready.left (h : Ready V r s) : Left V s := Or.inl h.1

theorem Ready.opened (h : Ready V r s) : V.opened = .ok r.toOpened := (h.1.cached r h.2).opened

theorem _open_sim :
    Exn.Sim (Tracks L (Sees V)) (_open V.eng) V.reader
      (fun r o s t => o = r.toOpened ∧ Tracks L (Ready V r) s t)
      (Tracks L (Left V)) := by
  intro s t start
  obtain ⟨sees, handed⟩ := start
  unfold View.reader
  rcases opens : V.opened with exc | o
  · obtain ⟨s', run, left, same⟩ := sees._open_error opens
    rw [run]
    exact ⟨rfl, left, same.trans handed⟩
  · obtain ⟨r, s', run, rfl, ready, same⟩ := sees._open_ok opens
    rw [run]
    exact ⟨rfl, ready, same.trans handed⟩

/-- The listing of the cached reader may be cached. -/
theorem Ready.withListing (h : Ready V r s) :
    Ready V r { s with self :=
      { s.self with
        entries := some (V.entries r.toOpened)
        byName := some (NewtuaPy.nameIndex (V.entries r.toOpened)) } } := by
  obtain ⟨sees, cached⟩ := h
  refine ⟨{ owned := sees.owned, bytes := sees.bytes, notClosed := sees.notClosed
            password := sees.password, encoding := sees.encoding, alike := sees.alike
            backing := ?_, cached := sees.cached, listed := ?_ }, cached⟩
  · exact sees.backing.transfer ⟨rfl, rfl⟩ rfl rfl rfl fun _ f _ entry held =>
      ⟨f, entry, rfl, held⟩
  · intro es listed
    cases listed
    exact ⟨⟨r, cached, rfl⟩, rfl⟩

theorem _listing_sim :
    Exn.Sim (Tracks L (Sees V)) (_listing V.eng) V.listing
      (fun es es' s t => es = es' ∧ s.self.byName = some (NewtuaPy.nameIndex es) ∧
        Tracks L (Sees V) s t)
      (Tracks L (Left V)) := by
  intro s t start
  obtain ⟨sees, handed⟩ := start
  unfold _listing View.listing
  rw [Exn.get_bind_apply]
  rcases listed : s.self.entries with _ | es
  · refine Exn.Sim.bind _open_sim ?_ s t ⟨sees, handed⟩
    intro r o s t post
    obtain ⟨rfl, ready, handed⟩ := post
    have owned : V.entries r.toOpened = (entriesFromRaw r.entries true).1 := by
      unfold View.entries
      rw [ready.1.owned]
    have named : NewtuaPy.nameIndex (V.entries r.toOpened) = (entriesFromRaw r.entries true).2 := by
      rw [owned]
      rfl
    have cached := ready.withListing
    rw [named, owned] at cached
    exact ⟨owned.symm, congrArg some (named.symm.trans (congrArg _ owned)), cached.1, handed⟩
  · obtain ⟨⟨r, cached, rfl⟩, named⟩ := sees.listed es listed
    unfold View.reader
    rw [(sees.cached r cached).opened]
    exact ⟨rfl, named, sees, handed⟩

theorem Ready._open_run (h : Ready V r s) : _open V.eng s = (.ok r, s) := by
  unfold _open
  simp [h.1.notClosed, h.2]

/-- With a reader at hand, listing touches nothing but the cache of the archive. -/
theorem Ready._listing_run (h : Ready V r s) :
    ∃ s', _listing V.eng s = (.ok (V.entries r.toOpened), s') ∧ Ready V r s' ∧
      s'.world = s.world := by
  unfold _listing
  rw [Exn.get_bind_apply]
  rcases listed : s.self.entries with _ | es
  · dsimp only
    rw [Exn.bind_of_ok h._open_run]
    have cached := h.withListing
    unfold View.entries at cached ⊢
    rw [h.1.owned] at cached ⊢
    exact ⟨_, rfl, cached, rfl⟩
  · obtain ⟨⟨r', cached, rfl⟩, -⟩ := h.1.listed es listed
    obtain rfl : r' = r := Option.some.inj (cached.symm.trans h.2)
    exact ⟨s, rfl, h, rfl⟩

theorem ready_listing_sim :
    Exn.Sim (Tracks L (Ready V r)) (_listing V.eng) V.listing
      (fun es es' s t => es = V.entries r.toOpened ∧ es' = es ∧ Tracks L (Ready V r) s t)
      (Tracks L (Left V)) := by
  intro s t start
  obtain ⟨ready, handed⟩ := start
  obtain ⟨s', run, ready', world⟩ := ready._listing_run
  unfold View.listing View.reader
  rw [run, ready.opened]
  exact ⟨rfl, rfl, ready', by rw [world]; exact handed⟩

theorem _indexOf_sim (ref : Ref) :
    Exn.Sim (Tracks L (Ready V r)) (_indexOf V.eng ref) (V.indexOf ref)
      (fun i j s t => i = j ∧ resolveIndex (V.entries r.toOpened) ref = .ok i ∧
        Tracks L (Ready V r) s t)
      (Tracks L (Left V)) := by
  refine ready_listing_sim.bind ?_
  intro es es' s t post
  obtain ⟨rfl, rfl, tracks⟩ := post
  exact Exn.Sim.lift (fun i s t resolved tracks => ⟨rfl, resolved, tracks⟩)
    (fun s t tracks => tracks.mono fun _ => Ready.left) s t tracks

theorem Ready.reads (h : Ready V r s) : Reads V s.world r := h.1.cached r h.2

/-- The archive's claim on its spilled file keeps it ready. -/
theorem Ready.ofSame (h : Ready V r s) {w : World}
    (same : World.Same s.self.tempfile s.world w) : Ready V r { s with world := w } := by
  obtain ⟨sees, cached⟩ := h
  refine ⟨{ owned := sees.owned, bytes := sees.bytes, notClosed := sees.notClosed
            password := sees.password, encoding := sees.encoding, alike := sees.alike
            backing := ?_, cached := ?_, listed := sees.listed }, cached⟩
  · exact sees.backing.transfer ⟨rfl, rfl⟩ same.files rfl rfl same.claims
  · intro r' cached
    have reads := sees.cached r' cached
    exact ⟨reads.opened, reads.password, reads.encoding, same.files ▸ reads.file⟩

theorem Sees.claimed (h : Sees V s) : World.Claimed s.self.tempfile 0 s.world := by
  intro t claimed'
  cases h.backing with
  | own p source file unspilled => cases unspilled.symm.trans claimed'
  | unread content noPath known unspilled delivers => cases unspilled.symm.trans claimed'
  | spilled t' f content noPath known claimed entry held file =>
      cases claimed.symm.trans claimed'
      exact ⟨f, entry, held⟩

theorem Reads.handed {w : World} (reads : Reads V w r) {work : Work}
    (visible : work.opening = false) :
    (r.call work).handed = some ⟨V.password, V.encoding, work⟩ := by
  unfold EngineCall.handed RustArchive.call
  rw [visible, reads.password, reads.encoding]
  rfl

/-- A call of the cached reader does what the view asks for. -/
theorem ask_sim {α β : Type} {x : Py World β} {argument : Except PyExc α}
    {result : α → Option Bytes → Except PyExc β} {work : α → Work}
    {answer : α → Except PyExc β}
    (h : Asks x r.path argument (fun a => r.call (work a)) result)
    (visible : ∀ a, (work a).opening = false) (agree : ∀ a, result a V.content = answer a) :
    Exn.Sim (Tracks L (Ready V r)) (typed (onWorld x)) (V.ask argument work answer)
      (fun a b s t => a = b ∧ Tracks L (Ready V r) s t) (Tracks L (Left V)) := by
  refine View.typed_sim (Exn.Sim.zoom ?_)
  intro s t start
  obtain ⟨ready, handed⟩ := start
  have request := View.request_sim (L := L) h
    (fun a => ready.reads.handed (visible a)) ready.reads.file agree
  refine request.conseq ?_ ?_ ?_
  · intro w t start
    obtain ⟨rfl, rfl⟩ := start
    exact ⟨.refl _, handed⟩
  · intro a b w t post
    obtain ⟨rfl, quiet, handed⟩ := post
    exact ⟨rfl, ready.ofSame (quiet.same _), handed⟩
  · intro w t start
    obtain ⟨quiet, handed⟩ := start
    exact ⟨(ready.ofSame (quiet.same _)).left, handed⟩

theorem Ready.piped (h : Ready V r s) (i : Nat) :
    V.eng.piped r.password r.encoding i V.content =
      .ok (r.reader.readEntry V.content i).chunks.flatten := by
  rw [h.reads.password, h.reads.encoding]
  exact View.piped_of_ok h.opened i

theorem _openPipePosix_sim (index : Int) (size : Option Int)
    (listed : ∀ i, usizeArg index = .ok i → i < r.entries.length) :
    Exn.Sim (Tracks L (Ready V r)) (_openPipePosix V.eng r index size)
      (V.pipe r.toOpened index)
      (fun p b s t => p.2 = { data := b, expectedSize := size, onClose := s.self.tempfile } ∧
        s.world.streams[p.1]? = some p.2 ∧ Tracks L (Ready V r) s t)
      (Tracks L (Left V)) := by
  unfold _openPipePosix View.pipe
  refine Exn.Sim.get_left fun s₀ => Exn.Sim.zoom ?_
  intro s t start
  obtain ⟨⟨ready, handed⟩, rfl⟩ := start
  have handshake (w : World) (files : w.files = s.world.files) :=
    View.request_sim (L := L) (r.openStream_asks V.eng index listed)
      (fun _ => ready.reads.handed rfl) ((congrFun files r.path).trans ready.reads.file)
      (ready.piped ·)
  refine (View.openPipe_sim ready.1.claimed handshake).conseq ?_ ?_ ?_
  · intro w t start
    obtain ⟨rfl, rfl⟩ := start
    exact ⟨.refl _, handed⟩
  · intro p b w t post
    obtain ⟨stream, placed, same, handed⟩ := post
    exact ⟨stream, placed, ready.ofSame same, handed⟩
  · intro w t start
    obtain ⟨same, handed⟩ := start
    exact ⟨(ready.ofSame same).left, handed⟩

theorem openStream_sim (ref : Ref) :
    Exn.Sim (Tracks L (Sees V)) (openStream V.eng ref) (V.stream ref)
      (fun p d s t => p.2 = { data := d.1, expectedSize := some d.2, onClose := p.2.onClose } ∧
        s.world.streams[p.1]? = some p.2 ∧ ∃ r, Tracks L (Ready V r) s t)
      (Tracks L (Left V)) := by
  unfold openStream View.stream
  refine _open_sim.bind ?_
  intro r o s t post
  obtain ⟨rfl, tracks⟩ := post
  refine ((_indexOf_sim ref).bind ?_) s t tracks
  intro index _ s t post
  obtain ⟨rfl, -, tracks⟩ := post
  refine (ready_listing_sim.bind ?_) s t tracks
  intro entries _ s t post
  obtain ⟨rfl, rfl, tracks⟩ := post
  refine (Exn.Sim.bind (Q := fun e e' s t => e = e' ∧
    tupleItem (V.entries r.toOpened) index = .ok e ∧ Tracks L (Ready V r) s t)
    (Exn.Sim.lift (fun e s t found tracks => ⟨rfl, found, tracks⟩)
      fun s t tracks => tracks.mono fun _ => Ready.left) ?_) s t tracks
  intro e _ s t post
  obtain ⟨rfl, found, tracks⟩ := post
  have listed (i : Nat) (argument : usizeArg index = .ok i) : i < r.entries.length := by
    rw [usizeArg_eq_ok argument] at found
    have inside := (List.getElem?_eq_some_iff.mp (tupleItem_natCast found)).1
    rwa [View.entries, entriesFromRaw_length] at inside
  refine ((_openPipePosix_sim index (some e.size) listed).pure_right ?_) s t tracks
  intro p b s t post
  obtain ⟨stream, placed, tracks⟩ := post
  exact ⟨by rw [stream], placed, r, tracks⟩

/-! ## Extraction -/

theorem Ready._indexOf_run (h : Ready V r s) (ref : Ref) :
    ∃ s', _indexOf V.eng ref s = (resolveIndex (V.entries r.toOpened) ref, s') ∧
      Ready V r s' ∧ s'.world = s.world := by
  obtain ⟨s', listing, ready, world⟩ := h._listing_run
  exact ⟨s', Exn.bind_of_ok listing _, ready, world⟩

/-- Resolving a selection touches nothing but the cache of the archive. -/
theorem Ready.indices_run (h : Ready V r s) (refs : List Ref) :
    ∃ s', indices V.eng refs s = (refs.mapM (resolveIndex (V.entries r.toOpened)), s') ∧
      Ready V r s' ∧ s'.world = s.world := by
  induction refs generalizing s with
  | nil => exact ⟨s, rfl, h, rfl⟩
  | cons ref refs ih =>
      obtain ⟨s₁, first, ready₁, world₁⟩ := h._indexOf_run ref
      unfold indices
      rw [List.mapM_cons]
      rcases resolved : resolveIndex (V.entries r.toOpened) ref with exc | i
      · rw [resolved] at first
        exact ⟨s₁, Exn.bind_of_error first _, ready₁, world₁⟩
      · rw [resolved] at first
        obtain ⟨s₂, rest, ready₂, world₂⟩ := ih ready₁
        rw [Exn.bind_of_ok first]
        refine ⟨s₂, ?_, ready₂, world₂.trans world₁⟩
        rcases all : refs.mapM (resolveIndex (V.entries r.toOpened)) with exc | is
        · rw [all] at rest
          exact Exn.bind_of_error rest _
        · rw [all] at rest
          exact Exn.bind_of_ok rest _

theorem Ready.selected_run (h : Ready V r s) (selection : Option (List Ref)) :
    ∃ s', selected V.eng selection s = (View.select (V.entries r.toOpened) selection, s') ∧
      Ready V r s' ∧ s'.world = s.world := by
  cases selection with
  | none => exact ⟨s, rfl, h, rfl⟩
  | some refs =>
      obtain ⟨s', run, ready, world⟩ := h.indices_run refs
      refine ⟨s', ?_, ready, world⟩
      unfold selected View.select
      dsimp only
      rcases all : refs.mapM (resolveIndex (V.entries r.toOpened)) with exc | is <;>
        rw [all] at run
      · exact Exn.bind_of_error run _
      · exact Exn.bind_of_ok run _

theorem selected_sim (selection : Option (List Ref)) :
    Exn.Sim (Tracks L (Ready V r)) (selected V.eng selection)
      (Exn.lift (View.select (V.entries r.toOpened) selection))
      (fun i j s t => i = j ∧ Tracks L (Ready V r) s t) (Tracks L (Left V)) := by
  intro s t start
  obtain ⟨ready, handed⟩ := start
  obtain ⟨s', run, ready', world⟩ := ready.selected_run selection
  have handed' : s'.world.handed = L ++ t := by rw [world, handed]
  rw [run]
  cases View.select (V.entries r.toOpened) selection with
  | error exc => exact ⟨rfl, ready'.left, handed'⟩
  | ok is => exact ⟨rfl, ready', handed'⟩

theorem extract_sim (request : ExtractRequest) :
    Exn.Sim (Tracks L (Sees V)) (extract V.eng request) (V.extract request)
      (fun a b s t => a = b ∧ ∃ r, Tracks L (Ready V r) s t) (Tracks L (Left V)) := by
  unfold extract View.extract
  refine _open_sim.bind ?_
  intro r o s t post
  obtain ⟨rfl, tracks⟩ := post
  refine ((selected_sim request.selection).bind ?_) s t tracks
  intro selection _ s t post
  obtain ⟨rfl, tracks⟩ := post
  rw [Exn.get_bind_apply, tracks.1.1.alike.wrapperNameSource]
  exact ((ask_sim (r.extract_asks V.eng _) (fun _ => rfl) fun _ => rfl).conseq (fun _ _ => id)
    (fun a b s t post => ⟨post.1, r, post.2⟩) fun _ _ => id) s t tracks

/-! ## Every call -/

theorem nameIndex_run {es : List Entry} (named : s.self.byName = some (NewtuaPy.nameIndex es)) :
    Archive.nameIndex s = (.ok (NewtuaPy.nameIndex es), s) := by
  unfold Archive.nameIndex
  rw [Exn.get_bind_apply, named]
  rfl

/-- A result that does not depend on the state, seen as a value. -/
theorem lifted_sim {α β : Type} {e : Except PyExc α} {f : α → β} {P : Session → Prop}
    (left : ∀ s, P s → Left V s) :
    Exn.Sim (Tracks L P)
      (do
        let a ← Exn.lift e
        pure (f a))
      (Exn.lift (e.map f)) (fun a b s t => a = b ∧ Tracks L P s t) (Tracks L (Left V)) := by
  intro s t tracks
  cases e with
  | error exc => exact ⟨rfl, tracks.mono left⟩
  | ok a => exact ⟨rfl, tracks⟩

theorem getitem_sim (key : Key) :
    Exn.Sim (Tracks L (Sees V)) (getitem V.eng key)
      (do
        let entries ← V.listing
        Exn.lift (View.item entries key))
      (fun a b s t => a = b ∧ Tracks L (Sees V) s t) (Tracks L (Left V)) := by
  unfold getitem
  refine _listing_sim.bind ?_
  intro es _ s t post
  obtain ⟨rfl, named, tracks⟩ := post
  have left : ∀ s, Sees V s → Left V s := fun _ => Or.inl
  cases key with
  | slice slice => exact lifted_sim left s t tracks
  | int i => exact lifted_sim left s t tracks
  | name text =>
      dsimp only
      rw [Exn.bind_of_ok (nameIndex_run named)]
      exact lifted_sim left s t tracks
  | path path =>
      dsimp only
      rw [Exn.bind_of_ok (nameIndex_run named)]
      exact lifted_sim left s t tracks

/-- The membership test of a name or a path. -/
theorem containsPath_sim (path : PurePosixPath) :
    Exn.Sim (Tracks L (Sees V))
      (do
        let _ ← _listing V.eng
        let byName ← nameIndex
        pure (byName.lookup path).isSome)
      (do
        let es ← V.listing
        pure ((NewtuaPy.nameIndex es).lookup path).isSome)
      (fun a b s t => a = b ∧ Tracks L (Sees V) s t) (Tracks L (Left V)) := by
  refine _listing_sim.bind ?_
  intro es _ s t post
  obtain ⟨rfl, named, tracks⟩ := post
  rw [Exn.bind_of_ok (nameIndex_run named)]
  exact ⟨rfl, tracks⟩

theorem contains_sim (key : Member) :
    Exn.Sim (Tracks L (Sees V)) (contains V.eng key) (V.contains key)
      (fun a b s t => a = b ∧ Tracks L (Sees V) s t) (Tracks L (Left V)) := by
  unfold contains View.contains
  cases key with
  | other => exact Exn.Sim.pure fun s t tracks => ⟨rfl, tracks⟩
  | entry e =>
      refine _listing_sim.bind ?_
      intro es _ s t post
      obtain ⟨rfl, -, tracks⟩ := post
      exact ⟨rfl, tracks⟩
  | name text => exact containsPath_sim _
  | path path => exact containsPath_sim path

theorem needsPassword_sim : Answers V L (needsPassword V.eng) V.needsPassword := by
  unfold needsPassword View.needsPassword
  refine Exn.Sim.handle (F := Tracks L (Left V)) ?_ ?_
  · refine _listing_sim.bind ?_
    intro es _ s t post
    obtain ⟨rfl, -, tracks⟩ := post
    exact ⟨rfl, tracks.mono fun _ => Or.inl⟩
  · intro exc s t tracks
    by_cases lacking : exc.cls = .passwordRequiredError ∨ exc.cls = .wrongPasswordError
    · rw [if_pos lacking, if_pos lacking]
      exact ⟨rfl, tracks⟩
    · rw [if_neg lacking, if_neg lacking]
      exact ⟨rfl, tracks⟩

theorem format_sim : Answers V L (Archive.format V.eng) V.format := by
  refine _open_sim.bind ?_
  intro r o s t post
  obtain ⟨rfl, tracks⟩ := post
  have tracks := tracks.mono fun _ => Ready.left
  exact Exn.Sim.lift (fun a s t _ tracks => ⟨rfl, tracks⟩) (fun _ _ => id) s t tracks

theorem detectedEncoding_sim : Answers V L (Archive.detectedEncoding V.eng) V.detectedEncoding := by
  refine _open_sim.bind ?_
  intro r o s t post
  obtain ⟨rfl, tracks⟩ := post
  exact ⟨rfl, tracks.mono fun _ => Ready.left⟩

/-- Decoding one entry through the cached reader. -/
theorem decode_sim (ref : Ref) {work : Nat → Work} {x : RustArchive → Int → Py World Bytes}
    (asks : ∀ (r : RustArchive) index, Asks (x r index) r.path (usizeArg index)
      (fun i => r.call (work i)) fun i file => (r.reader.readEntry file i).bytes)
    (visible : ∀ i, (work i).opening = false) :
    Answers V L
      (do
        let reader ← _open V.eng
        let index ← _indexOf V.eng ref
        typed (onWorld (x reader index)))
      (V.fetch work ref) := by
  refine _open_sim.bind ?_
  intro r o s t post
  obtain ⟨rfl, tracks⟩ := post
  refine ((_indexOf_sim ref).bind ?_) s t tracks
  intro index _ s t post
  obtain ⟨rfl, -, tracks⟩ := post
  refine ((ask_sim (asks r index) visible fun _ => rfl).conseq (fun _ _ => id) ?_
    fun _ _ => id) s t tracks
  intro a b s t post
  obtain ⟨rfl, tracks⟩ := post
  exact ⟨rfl, tracks.mono fun _ => Ready.left⟩

theorem listing_sim : Answers V L (_listing V.eng) V.listing := by
  refine _listing_sim.conseq (fun _ _ => id) ?_ fun _ _ => id
  intro es _ s t post
  obtain ⟨same, -, tracks⟩ := post
  exact ⟨same, tracks.mono fun _ => Or.inl⟩

/-- The stream is there, and the caller has its data. -/
theorem stream_sim (ref : Ref) :
    Answers V L (call V.eng (.openStream ref)) (V.call (.openStream ref)) := by
  refine (openStream_sim ref).bind ?_
  intro p d s t post
  obtain ⟨stream, -, r, tracks⟩ := post
  dsimp only
  rw [stream]
  exact ⟨rfl, tracks.mono fun _ => Ready.left⟩

/-- Every accessor call answers as the view does and hands over the same work. -/
theorem call_sim (c : Call) : Answers V L (call V.eng c) (V.call c) := by
  have intact {α : Type} (_ : α) (s : Session) : Sees V s → Left V s := Or.inl
  cases c with
  | len => exact listing_sim.pack fun es => Value.nat es.length
  | iter => exact listing_sim.pack Value.entries
  | getitem key => exact .of_sim (getitem_sim key) intact
  | contains key => exact (Answers.of_sim (contains_sim key) intact).pack Value.bool
  | format => exact format_sim.pack Value.format
  | detectedEncoding => exact detectedEncoding_sim.pack Value.str
  | needsPassword => exact needsPassword_sim.pack Value.bool
  | read ref => exact (decode_sim ref RustArchive.read_asks fun _ => rfl).pack Value.bytes
  | openBuffered ref =>
      exact (decode_sim ref RustArchive.writeEntryTo_asks fun _ => rfl).pack Value.buffered
  | openStream ref => exact stream_sim ref
  | extract request =>
      have answers : Answers V L (extract V.eng request) (V.extract request) := by
        refine (extract_sim request).conseq (fun _ _ => id) ?_ fun _ _ => id
        intro a b s t post
        obtain ⟨same, r, tracks⟩ := post
        exact ⟨same, tracks.mono fun _ => Ready.left⟩
      exact answers.pack Value.report

end Archive

end NewtuaPy
