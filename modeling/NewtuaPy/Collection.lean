import Mathlib.Logic.Relation
import NewtuaPy.SharedWorld

/-!
# Collection

What becomes of spilled files when objects are dropped and not closed.  An entry
refers to its archive, the archive to its `_TempFile`, and a stream, through the
callback of its `close`, to the `_TempFile` it was opened over.  What cannot be
reached from outside may be collected at any time and in any order: a stream is
closed by its finalizer, a `_TempFile` deletes its file by `weakref.finalize`
unless that has happened before, and at interpreter exit every `_TempFile` does.
-/

namespace NewtuaPy

/-! ## The finalizer of a temp file -/

/-- The callback of `weakref.finalize` runs, unless it has run before. -/
def World.finalize (w : World) (t : Nat) : World :=
  match w.temps[t]? with
  | none => w
  | some f => if f.deleteCalls = 0 then (TempFile.delete t w).2 else w

theorem World.finalize_run {w : World} {t : Nat} {f : TempFile} (entry : w.temps[t]? = some f) :
    w.finalize t =
      if f.deleteCalls = 0 then
        { w with
          temps := w.temps.set t { f with deleteCalls := 1 }
          files := Function.update w.files f.path none }
      else w := by
  unfold World.finalize
  rw [entry]
  dsimp only
  by_cases fresh : f.deleteCalls = 0
  · obtain ⟨inside, rfl⟩ := List.getElem?_eq_some_iff.mp entry
    simp [fresh, TempFile.delete, World.modifyTemp, inside, deleteTempfile, World.writeFile,
      List.modify_eq_set_getElem?]
  · rw [if_neg fresh, if_neg fresh]

theorem World.finalize_touches (w : World) (t : Nat) : World.Touches t w (w.finalize t) := by
  rcases entry : w.temps[t]? with _ | f
  · have same : w.finalize t = w := by
      unfold World.finalize
      rw [entry]
    rw [same]
    exact ⟨rfl, rfl, rfl, fun _ _ => rfl, fun _ _ => rfl⟩
  · rw [World.finalize_run entry]
    by_cases fresh : f.deleteCalls = 0
    · rw [if_pos fresh]
      refine ⟨?_, rfl, rfl, ?_, ?_⟩
      · apply List.ext_getElem?
        intro u
        simp only [List.getElem?_map, List.getElem?_set]
        by_cases this : t = u
        · subst this
          obtain ⟨inside, rfl⟩ := List.getElem?_eq_some_iff.mp entry
          simp [inside]
        · simp [this]
      · intro u other
        exact List.getElem?_set_ne (Ne.symm other)
      · intro p other
        refine Function.update_of_ne (fun same => other ?_) _ _
        rw [List.getElem?_map, entry, same]
        rfl
    · rw [if_neg fresh]
      exact ⟨rfl, rfl, rfl, fun _ _ => rfl, fun _ _ => rfl⟩

/-- After its finalizer the file of a `_TempFile` is gone. -/
theorem World.finalize_gone {w : World} {t : Nat} {f : TempFile} (entry : w.temps[t]? = some f)
    (deleted : 0 < f.deleteCalls → w.files f.path = none) :
    ∃ f', (w.finalize t).temps[t]? = some f' ∧ (w.finalize t).files f'.path = none ∧
      0 < f'.deleteCalls := by
  rw [World.finalize_run entry]
  by_cases fresh : f.deleteCalls = 0
  · rw [if_pos fresh]
    refine ⟨_, List.getElem?_set_self (List.getElem?_eq_some_iff.mp entry).1, ?_, Nat.one_pos⟩
    exact Function.update_self _ _ _
  · rw [if_neg fresh]
    exact ⟨f, entry, deleted (Nat.pos_of_ne_zero fresh), Nat.pos_of_ne_zero fresh⟩

/-! ## Worlds with collected temp files -/

/-- The temp file counts `claims` claims and is on disk while there are any. -/
structure TempFile.Tends (f : TempFile) (files : FilePath → Option Bytes) (claims : Nat) :
    Prop where
  holders : f.holders = claims
  present : (files f.path).isSome = true ↔ 0 < claims
  deleted : f.deleteCalls = if 0 < claims then 0 else 1

/-- A spilled file that no `_TempFile` stands for, as a copy that fails leaves one, is on disk. -/
def World.Strays (w : World) : Prop :=
  ∀ n < w.nextTemp, .temp n ∉ w.temps.map TempFile.path → (w.files (.temp n)).isSome = true

theorem World.Strays.touched {w w₂ : World} {t : Nat} (h : w.Strays)
    (touches : World.Touches t w w₂) : w₂.Strays := by
  intro n before stray
  rw [touches.paths] at stray
  rw [touches.nextTemp] at before
  rw [touches.files _ fun found => stray (List.mem_of_getElem? found)]
  exact h n before stray

/-- A new file is on disk, whether a `_TempFile` comes to stand for it or not. -/
theorem World.Strays.made {w : World} (h : w.Strays) (content : Bytes) :
    (w.made content).Strays := by
  intro n before stray
  unfold World.made
  by_cases new : n = w.nextTemp
  · rw [new]
    simp
  · have earlier : n < w.nextTemp := Nat.lt_of_le_of_ne (Nat.lt_succ_iff.mp before) new
    dsimp only
    rw [Function.update_of_ne fun same => new (FilePath.temp.inj same)]
    exact h n earlier stray

theorem World.Strays.spilled {w : World} (h : w.Strays) (content : Bytes) :
    (w.spilled content).Strays := by
  intro n before stray
  unfold World.spilled at stray
  rw [List.map_append, List.mem_append, not_or] at stray
  exact h.made content n before stray.1

/-- Every temp file that is not `gone` counts its claims; those that are gone have no file
any more, whoever still claims them. -/
structure World.Tended (w : World) (gone : Nat → Prop) (claims : Nat → Nat) : Prop where
  numbered : w.Numbered
  counts : ∀ t f, w.temps[t]? = some f → ¬gone t → f.Tends w.files (claims t)
  absent : ∀ t f, w.temps[t]? = some f → gone t → w.files f.path = none ∧ 0 < f.deleteCalls
  bounded : ∀ t, 0 < claims t → t < w.temps.length
  past : ∀ t, gone t → t < w.temps.length
  strays : w.Strays

namespace World.Tended

variable {w w₂ : World} {gone gone₂ : Nat → Prop} {claims : Nat → Nat} {t n : Nat}

theorem quiet (h : w.Tended gone claims) {w' : World} (quiet : w.Quiet w') :
    w'.Tended gone claims where
  numbered := ⟨by rw [quiet.temps, quiet.nextTemp]; exact h.numbered.below,
    by rw [quiet.temps]; exact h.numbered.distinct⟩
  counts := by rw [quiet.temps, quiet.files]; exact h.counts
  absent := by rw [quiet.temps, quiet.files]; exact h.absent
  bounded := by rw [quiet.temps]; exact h.bounded
  past := by rw [quiet.temps]; exact h.past
  strays := by
    unfold World.Strays
    rw [quiet.temps, quiet.files, quiet.nextTemp]
    exact h.strays

/-- The streams themselves carry no file. -/
theorem withStreams (h : w.Tended gone claims) (streams : List PipeStream) :
    { w with streams }.Tended gone claims :=
  ⟨⟨h.numbered.below, h.numbered.distinct⟩, h.counts, h.absent, h.bounded, h.past, h.strays⟩

/-- The temp file of a claim. -/
theorem claimed (h : w.Tended gone claims) (positive : 0 < claims t) :
    ∃ f, w.temps[t]? = some f := ⟨_, List.getElem?_eq_getElem (h.bounded t positive)⟩

/-- One temp file is touched, and may be gone afterwards. -/
theorem touched (h : w.Tended gone claims) (touches : World.Touches t w w₂) {f : TempFile}
    (entry : w₂.temps[t]? = some f) (others : ∀ u, u ≠ t → (gone₂ u ↔ gone u))
    (counts : ¬gone₂ t → f.Tends w₂.files n)
    (absent : gone₂ t → w₂.files f.path = none ∧ 0 < f.deleteCalls) :
    w₂.Tended gone₂ (Function.update claims t n) := by
  have length : w₂.temps.length = w.temps.length := by
    simpa using congrArg List.length touches.paths
  have inside : t < w.temps.length := length ▸ (List.getElem?_eq_some_iff.mp entry).1
  have apart (u : Nat) (other : u ≠ t) (g : TempFile) (found : w.temps[u]? = some g) :
      w₂.files g.path = w.files g.path := by
    have path : (w.temps.map TempFile.path)[u]? = some g.path := by
      rw [List.getElem?_map, found]
      rfl
    exact touches.files _ fun same => other (h.numbered.distinct u t _ path same)
  constructor
  · exact h.numbered.touched touches
  · intro u g found alive
    by_cases this : u = t
    · subst this
      obtain rfl := Option.some.inj (entry.symm.trans found)
      rw [Function.update_self]
      exact counts alive
    · rw [touches.temps u this] at found
      rw [Function.update_of_ne this]
      have old := h.counts u g found fun before => alive ((others u this).mpr before)
      exact ⟨old.holders, by rw [apart u this g found]; exact old.present, old.deleted⟩
  · intro u g found dead
    by_cases this : u = t
    · subst this
      obtain rfl := Option.some.inj (entry.symm.trans found)
      exact absent dead
    · rw [touches.temps u this] at found
      rw [apart u this g found]
      exact h.absent u g found ((others u this).mp dead)
  · intro u positive
    by_cases this : u = t
    · exact this ▸ length ▸ inside
    · rw [Function.update_of_ne this] at positive
      exact length ▸ h.bounded u positive
  · intro u dead
    by_cases this : u = t
    · exact this ▸ length ▸ inside
    · exact length ▸ h.past u ((others u this).mp dead)
  · exact h.strays.touched touches

theorem hold (h : w.Tended gone claims) (positive : 0 < claims t) (alive : ¬gone t) :
    (w.modifyTemp t fun f => { f with holders := f.holders + 1 }).Tended gone
      (Function.update claims t (claims t + 1)) := by
  obtain ⟨f, entry⟩ := h.claimed positive
  have counts := h.counts t f entry alive
  have deleted := counts.deleted
  rw [if_pos positive] at deleted
  have entry' : (w.modifyTemp t fun f => { f with holders := f.holders + 1 }).temps[t]? =
      some { f with holders := f.holders + 1 } := by
    simp [World.modifyTemp, entry]
  refine h.touched (w.hold_touches t) entry' (fun _ _ => Iff.rfl) (fun _ => ?_)
    fun dead => absurd dead alive
  exact
    { holders := congrArg (· + 1) counts.holders
      present := iff_of_true (counts.present.mpr positive) (Nat.succ_pos _)
      deleted := deleted.trans (if_pos (Nat.succ_pos _)).symm }

/-- The last release deletes the file; on a file that is gone no release has any effect. -/
theorem release (h : w.Tended gone claims) (positive : 0 < claims t) :
    (w.afterRelease t).Tended gone (Function.update claims t (claims t - 1)) := by
  obtain ⟨f, entry⟩ := h.claimed positive
  have inside := h.bounded t positive
  have touches := w.release_touches t
  by_cases dead : gone t
  · obtain ⟨missing, called⟩ := h.absent t f entry dead
    have again : ¬f.deleteCalls = 0 := Nat.ne_of_gt called
    have files : (w.afterRelease t).files = w.files := by
      unfold World.afterRelease
      rw [entry]
      dsimp only
      by_cases more : 1 < f.holders
      · rw [if_pos more]
      · rw [if_neg more, if_neg again]
    obtain ⟨f', entry', path, called'⟩ : ∃ f', (w.afterRelease t).temps[t]? = some f' ∧
        f'.path = f.path ∧ 0 < f'.deleteCalls := by
      unfold World.afterRelease
      rw [entry]
      dsimp only
      by_cases more : 1 < f.holders
      · rw [if_pos more]
        exact ⟨_, List.getElem?_set_self inside, rfl, called⟩
      · rw [if_neg more]
        exact ⟨_, List.getElem?_set_self inside, rfl, Nat.succ_pos _⟩
    refine h.touched touches entry' (fun _ _ => Iff.rfl) (fun alive => absurd dead alive)
      fun _ => ⟨?_, called'⟩
    rw [files, path]
    exact missing
  · have counts := h.counts t f entry dead
    have holders := counts.holders
    have deleted := counts.deleted
    rw [if_pos positive] at deleted
    obtain ⟨f', entry', tends⟩ : ∃ f', (w.afterRelease t).temps[t]? = some f' ∧
        f'.Tends (w.afterRelease t).files (claims t - 1) := by
      unfold World.afterRelease
      rw [entry]
      dsimp only
      by_cases more : 1 < f.holders
      · rw [if_pos more]
        have left : 0 < claims t - 1 := by omega
        refine ⟨_, List.getElem?_set_self inside, ?_⟩
        exact
          { holders := by dsimp only; omega
            present := iff_of_true (counts.present.mpr positive) left
            deleted := by rw [if_pos left]; exact deleted }
      · rw [if_neg more, if_pos deleted]
        have last : claims t - 1 = 0 := by omega
        refine ⟨_, List.getElem?_set_self inside, ?_⟩
        exact
          { holders := by dsimp only; omega
            present := by simp [last]
            deleted := by rw [last, deleted]; rfl }
    exact h.touched touches entry' (fun _ _ => Iff.rfl) (fun _ => tends)
      fun gone => absurd gone dead

/-- A temp file is collected. -/
theorem finalize (h : w.Tended gone claims) (inside : t < w.temps.length) :
    (w.finalize t).Tended (fun u => u = t ∨ gone u) claims := by
  have entry := List.getElem?_eq_getElem inside
  obtain ⟨f', entry', missing, called⟩ := World.finalize_gone entry fun called => by
    by_cases dead : gone t
    · exact (h.absent t _ entry dead).1
    · have counts := h.counts t _ entry dead
      have deleted := counts.deleted
      by_cases positive : 0 < claims t
      · rw [if_pos positive] at deleted
        exact absurd called (by omega)
      · exact Option.not_isSome_iff_eq_none.mp (mt counts.present.mp positive)
  have collected : (w.finalize t).Tended (fun u => u = t ∨ gone u)
      (Function.update claims t (claims t)) :=
    h.touched (w.finalize_touches t) entry' (fun u other => or_iff_right other)
      (fun alive => absurd (Or.inl rfl) alive) fun _ => ⟨missing, called⟩
  rw [Function.update_eq_self] at collected
  exact collected

/-- A new file has a path of its own. -/
theorem made (h : w.Tended gone claims) (content : Bytes) :
    (w.made content).Tended gone claims := by
  have apart {u : Nat} {f : TempFile} (entry : w.temps[u]? = some f) :
      (w.made content).files f.path = w.files f.path :=
    Function.update_of_ne (h.numbered.fresh entry) _ _
  constructor
  · exact h.numbered.made content
  · intro u f entry alive
    have old := h.counts u f entry alive
    exact ⟨old.holders, by rw [apart entry]; exact old.present, old.deleted⟩
  · intro u f entry dead
    rw [apart entry]
    exact h.absent u f entry dead
  · exact h.bounded
  · exact h.past
  · exact h.strays.made content

/-- A spill makes one more temp file, with one claim. -/
theorem spilled (h : w.Tended gone claims) (content : Bytes) :
    (w.spilled content).Tended gone (Function.update claims w.temps.length 1) := by
  have made := h.made content
  have cases {u : Nat} {f : TempFile} (entry : (w.spilled content).temps[u]? = some f) :
      w.temps[u]? = some f ∨ u = w.temps.length ∧ f = { path := .temp w.nextTemp } := by
    change (w.temps ++ [_])[u]? = some f at entry
    by_cases old : u < w.temps.length
    · rw [List.getElem?_append_left old] at entry
      exact Or.inl entry
    · rw [List.getElem?_append_right (Nat.le_of_not_lt old)] at entry
      obtain ⟨last, same⟩ := List.getElem?_eq_some_iff.mp entry
      rw [List.length_singleton] at last
      refine Or.inr ⟨by omega, ?_⟩
      rw [← same, List.getElem_singleton]
  have length : (w.spilled content).temps.length = w.temps.length + 1 := List.length_append
  constructor
  · exact h.numbered.spilled content
  · intro u f entry alive
    rcases cases entry with old | ⟨rfl, rfl⟩
    · have other : u ≠ w.temps.length := Nat.ne_of_lt (List.getElem?_eq_some_iff.mp old).1
      rw [Function.update_of_ne other]
      exact made.counts u f old alive
    · rw [Function.update_self]
      exact ⟨rfl, by simp [World.spilled], rfl⟩
  · intro u f entry dead
    have before := h.past u dead
    rcases cases entry with old | ⟨rfl, -⟩
    · exact made.absent u f old dead
    · exact absurd before (Nat.lt_irrefl _)
  · intro u positive
    rw [length]
    by_cases this : u = w.temps.length
    · omega
    · rw [Function.update_of_ne this] at positive
      exact Nat.lt_succ_of_lt (h.bounded u positive)
  · intro u dead
    rw [length]
    exact Nat.lt_succ_of_lt (h.past u dead)
  · exact h.strays.spilled content

end World.Tended

/-! ## What an archive and its streams claim -/

/-- A file that nobody claimed before becomes the archive's. -/
theorem claimsOf_fresh {streams : List PipeStream} {t : Nat}
    (unclaimed : claimsOf none streams t = 0) :
    claimsOf (some t) streams = Function.update (claimsOf none streams) t 1 := by
  funext u
  by_cases this : u = t
  · subst this
    unfold claimsOf at unclaimed ⊢
    rw [Function.update_self, if_pos rfl]
    rw [if_neg nofun] at unclaimed
    omega
  · rw [Function.update_of_ne this]
    have other : ¬some t = some u := fun same => this (Option.some.inj same).symm
    simp [claimsOf, other]

theorem closeStream_tended {w : World} {gone : Nat → Prop} {tempfile : Option Nat}
    (h : w.Tended gone (claimsOf tempfile w.streams)) (k : Nat) :
    (closeStream k none w).2.Tended gone (claimsOf tempfile (closeStream k none w).2.streams) := by
  rcases entry : w.streams[k]? with _ | p
  · have same : closeStream k none w = (.ok (), w) := by
      unfold closeStream
      rw [Exn.get_bind_apply, entry]
      rfl
    rw [same]
    exact h
  · rw [closeStream_run entry]
    cases unclosed : p.closed with
    | true => exact h
    | false =>
        have closed (t : Nat) := claimsOf_closed tempfile entry unclosed t
        have marked := h.withStreams (w.streams.modify k ({ · with closed := true }))
        rw [if_neg Bool.false_ne_true]
        cases claim : p.onClose with
        | none =>
            have same : claimsOf tempfile (w.streams.modify k ({ · with closed := true })) =
                claimsOf tempfile w.streams := by
              funext t
              rw [closed t, claim, if_neg nofun]
            rw [← same] at marked
            exact marked
        | some t =>
            have fewer : claimsOf tempfile (w.streams.modify k ({ · with closed := true })) =
                Function.update (claimsOf tempfile w.streams) t
                  (claimsOf tempfile w.streams t - 1) := by
              funext u
              rw [closed u, claim]
              by_cases this : u = t
              · subst this
                rw [if_pos rfl, Function.update_self]
              · rw [if_neg fun same => this (Option.some.inj same).symm,
                  Function.update_of_ne this]
            have released := marked.release (claimsOf_stream_pos tempfile entry unclosed claim)
            rw [← fewer] at released
            change (World.afterRelease _ t).Tended gone
              (claimsOf tempfile (World.afterRelease _ t).streams)
            rw [World.afterRelease_streams]
            exact released

/-- Closing a stream changes neither what the streams refer to nor how many there are. -/
theorem closeStream_onClose (w : World) (k : Nat) :
    (closeStream k none w).2.streams.map PipeStream.onClose = w.streams.map PipeStream.onClose ∧
      (closeStream k none w).2.temps.length = w.temps.length := by
  rcases entry : w.streams[k]? with _ | p
  · have same : closeStream k none w = (.ok (), w) := by
      unfold closeStream
      rw [Exn.get_bind_apply, entry]
      rfl
    rw [same]
    exact ⟨rfl, rfl⟩
  · have marked : (w.streams.modify k ({ · with closed := true })).map PipeStream.onClose =
        w.streams.map PipeStream.onClose := by
      apply List.ext_getElem?
      intro j
      simp only [List.getElem?_map, List.getElem?_modify]
      rcases w.streams[j]? with _ | q
      · rfl
      · by_cases this : k = j <;> simp [this]
    rw [closeStream_run entry]
    cases p.closed with
    | true => exact ⟨rfl, rfl⟩
    | false =>
        rw [if_neg Bool.false_ne_true]
        cases p.onClose with
        | none => exact ⟨marked, rfl⟩
        | some t =>
            have touches := World.release_touches
              { w with streams := w.streams.modify k ({ · with closed := true }) } t
            have length := congrArg List.length touches.paths
            rw [List.length_map, List.length_map] at length
            exact ⟨(congrArg (List.map PipeStream.onClose) touches.streams).trans marked, length⟩

namespace Archive

/-- The claims of an archive and of its streams are kept while some temp files are gone.
Neither the archive nor a stream it has opened beside the `old` ones refers to one of these. -/
structure Attended (gone : Nat → Prop) (old : List PipeStream) (s : Session) : Prop where
  tended : s.world.Tended gone (claimsOf s.self.tempfile s.world.streams)
  claimed : ∀ t, s.self.tempfile = some t → ¬gone t
  closed : s.self.closed = true → s.self.tempfile = none
  opened : ∃ new, s.world.streams = old ++ new ∧ ∀ p ∈ new, ∀ t, p.onClose = some t → ¬gone t

variable {gone : Nat → Prop} {old : List PipeStream} {s : Session}

/-- What an archive caches is of no account. -/
theorem Attended.withSelf (h : Attended gone old s) {self : Archive}
    (tempfile : self.tempfile = s.self.tempfile) (closed : self.closed = s.self.closed) :
    Attended gone old { s with self } where
  tended := by dsimp only; rw [tempfile]; exact h.tended
  claimed := by dsimp only; rw [tempfile]; exact h.claimed
  closed := by dsimp only; rw [tempfile, closed]; exact h.closed
  opened := h.opened

theorem Attended.quiet (h : Attended gone old s) {w : World} (quiet : s.world.Quiet w) :
    Attended gone old { s with world := w } where
  tended := by
    dsimp only
    rw [quiet.streams]
    exact h.tended.quiet quiet
  claimed := h.claimed
  closed := h.closed
  opened := by
    dsimp only
    rw [quiet.streams]
    exact h.opened

theorem Attended.dropped (h : Attended gone old s) : Attended gone old (dropped s) := by
  unfold Archive.dropped
  rcases claimed : s.self.tempfile with _ | t
  · exact h
  · have tended := h.tended
    rw [claimed] at tended
    have released := tended.release (claimsOf_pos t s.world.streams)
    rw [← claimsOf_dropped] at released
    have streams := s.world.afterRelease_streams t
    exact
      { tended := by dsimp only; rw [streams]; exact released
        claimed := nofun
        closed := fun _ => rfl
        opened := by dsimp only; rw [streams]; exact h.opened }

/-- Only an archive without a spilled file spills. -/
theorem Attended.spill (h : Attended gone old s) (unclosed : s.self.closed = false)
    (noPath : s.self.source.ownPath = none) (dead : liveTempfile s = none) :
    Attended gone old (Archive.spill s).2 := by
  have unspilled : s.self.tempfile = none := by
    rcases claimed : s.self.tempfile with _ | t
    · rfl
    · have tended := h.tended
      rw [claimed] at tended
      have positive := claimsOf_pos t s.world.streams
      obtain ⟨f, entry⟩ := tended.claimed positive
      have counts := tended.counts t f entry (h.claimed t claimed)
      simp [liveTempfile, claimed, entry, counts.present.mpr positive] at dead
  have tended := h.tended
  rw [unspilled] at tended
  rcases Source.delivers_or_fails noPath with ⟨content, delivers⟩ | ⟨file, exc, stream, failed⟩
  · rw [spill_run delivers]
    have unclaimed : claimsOf none s.world.streams s.world.temps.length = 0 :=
      Nat.eq_zero_of_not_pos fun positive => Nat.lt_irrefl _ (tended.bounded _ positive)
    have more := tended.spilled content
    rw [← claimsOf_fresh unclaimed] at more
    exact
      { tended := more
        claimed := by
          intro t same gone
          obtain rfl := Option.some.inj same
          exact Nat.lt_irrefl _ (tended.past _ gone)
        closed := fun closed => by cases unclosed.symm.trans closed
        opened := h.opened }
  · rw [spill_failed stream failed]
    exact
      { tended := by
          dsimp only
          rw [unspilled]
          exact tended.made _
        claimed := h.claimed
        closed := h.closed
        opened := h.opened }

theorem attended_opening : Opening (Attended gone old) where
  spills := fun _ h => h.spill
  asks := fun _ _ h => h.quiet
  drops := fun _ h => h.dropped
  reads := fun _ _ h => h.withSelf rfl rfl
  lists := fun _ _ _ h => h.withSelf rfl rfl

/-- A stream that is opened takes a claim on the file of the archive, or gives it up again. -/
theorem Attended.openPipe (h : Attended gone old s) {x : Py World Bytes}
    (quiet : ∀ w : World, w.Quiet (x w).2) (size : Option Int) :
    Attended gone old
      { s with world := (NewtuaPy.openPipe s.self.tempfile x size s.world).2 } := by
  obtain ⟨new, streams, fresh⟩ := h.opened
  have tended := h.tended
  have claimed := h.claimed
  rcases tempfile : s.self.tempfile with _ | t
  · rw [tempfile] at tended
    have still := tended.quiet (quiet s.world)
    have same := (quiet s.world).streams
    have held : holdClaim none s.world = (.ok (), s.world) := rfl
    rcases run : x s.world with ⟨exc | data, w'⟩ <;> rw [run] at still same
    · rw [openPipe_error held run (show releaseClaim none w' = (.ok (), w') from rfl)]
      dsimp only at same
      exact
        { tended := by dsimp only; rw [same, tempfile]; exact still
          claimed := claimed
          closed := h.closed
          opened := ⟨new, same.trans streams, fresh⟩ }
    · rw [openPipe_ok held run]
      dsimp only at same
      refine
        { tended := ?_
          claimed := claimed
          closed := h.closed
          opened := ⟨new ++ [{ data, expectedSize := size, onClose := none }], ?_, ?_⟩ }
      · dsimp only
        rw [tempfile, claimsOf_unclaimed none _ rfl, same]
        exact still.withStreams _
      · dsimp only
        rw [same, streams, List.append_assoc]
      · intro p member u claim
        rcases List.mem_append.mp member with earlier | last
        · exact fresh p earlier u claim
        · obtain rfl := List.mem_singleton.mp last
          cases claim
  · rw [tempfile] at tended
    have positive := claimsOf_pos t s.world.streams
    let w₁ := s.world.modifyTemp t fun f => { f with holders := f.holders + 1 }
    have held : holdClaim (some t) s.world = (.ok (), w₁) := rfl
    have alive := claimed t tempfile
    have still := (tended.hold positive alive).quiet (quiet w₁)
    have same : (x w₁).2.streams = s.world.streams := (quiet w₁).streams
    rcases run : x w₁ with ⟨exc | data, w'⟩ <;> rw [run] at still same
    · rw [openPipe_error held run (TempFile.release_run t w')]
      have released := still.release (t := t) (by rw [Function.update_self]; omega)
      rw [Function.update_self, Nat.add_sub_cancel, Function.update_idem,
        Function.update_eq_self] at released
      have same : (w'.afterRelease t).streams = s.world.streams :=
        (w'.afterRelease_streams t).trans same
      exact
        { tended := by dsimp only; rw [same, tempfile]; exact released
          claimed := claimed
          closed := h.closed
          opened := ⟨new, same.trans streams, fresh⟩ }
    · rw [openPipe_ok held run]
      dsimp only at same
      refine
        { tended := ?_
          claimed := claimed
          closed := h.closed
          opened := ⟨new ++ [{ data, expectedSize := size, onClose := some t }], ?_, ?_⟩ }
      · dsimp only
        rw [tempfile, claimsOf_newStream (some t) _ rfl rfl, same]
        exact still.withStreams _
      · dsimp only
        rw [same, streams, List.append_assoc]
      · intro p member u claim
        rcases List.mem_append.mp member with earlier | last
        · exact fresh p earlier u claim
        · obtain rfl := List.mem_singleton.mp last
          obtain rfl := Option.some.inj claim
          exact alive

theorem attended_upheld (eng : Engine) : Upheld (Attended gone old) eng where
  opens := attended_opening._open eng
  lists := attended_opening._listing eng
  asks := fun _ _ h quiet => h.quiet quiet
  pipes := fun _ _ size h quiet => h.openPipe quiet size

theorem setPassword_attended (password : Option String) :
    Exn.Keeps (Attended gone old) (setPassword password) :=
  fun _ h => h.withSelf rfl rfl

theorem close_attended : Exn.Keeps (Attended gone old) close := by
  intro s h
  rw [close_run]
  have dropped := h.dropped
  unfold Archive.dropped at dropped ⊢
  unfold shut
  dsimp only
  rcases claimed : s.self.tempfile with _ | t
  · have tended := h.tended
    rw [claimed] at tended
    exact ⟨tended, nofun, fun _ => rfl, h.opened⟩
  · rw [claimed] at dropped
    exact { dropped with closed := fun _ => rfl }

end Archive

/-! ## Objects -/

/-- The Python objects that a spilled file depends on.  Which entry of the archive
an entry is makes no difference. -/
inductive Obj
  | archive
  | entry
  | stream (k : Nat)
  | temp (t : Nat)
deriving DecidableEq

/-- An archive, what is referred to from outside, and what has been collected. -/
structure Heap where
  session : Session
  roots : List Obj
  collected : List Obj := []
  exited : Bool := false

namespace Heap

variable (h : Heap)

/-- The objects an object refers to. -/
def refers : Obj → List Obj
  | .archive => h.session.self.tempfile.toList.map .temp ++
      if h.session.self.entries.isSome then [.entry] else []
  | .entry => [.archive]
  | .stream k => (h.session.world.streams[k]?.bind PipeStream.onClose).toList.map .temp
  | .temp _ => []

/-- An object that is referred to from outside, or by an object that is reached. -/
def Reaches (o : Obj) : Prop :=
  ∃ r ∈ h.roots, Relation.ReflTransGen (fun a b => b ∈ h.refers a) r o

/-- What is reached, by following references twice: from an entry to its archive and on to
the temp file, the longest way there is. -/
def marked : List Obj :=
  let first := h.roots.flatMap h.refers
  h.roots ++ first ++ first.flatMap h.refers

/-- The objects with a finalizer, and the archive. -/
def objects : List Obj :=
  .archive :: ((List.range h.session.world.streams.length).map .stream ++
    (List.range h.session.world.temps.length).map .temp)

inductive Event
  | call (eng : Engine) (c : Archive.Call)
  | setPassword (password : Option String)
  | close
  | closeStream (k : Nat)
  | take (o : Obj)
  | drop (o : Obj)
  | collect (o : Obj)
  | exit

/-- A computation on the archive; the caller gets the streams it opens. -/
def within {α : Type} (x : Py Session α) : Heap :=
  let s := (x h.session).2
  let opened := List.range' h.session.world.streams.length
    (s.world.streams.length - h.session.world.streams.length)
  { h with session := s, roots := h.roots ++ opened.map .stream }

/-- The world after the finalizer of an object has run. -/
def finalized : Obj → World
  | .stream k => (NewtuaPy.closeStream k none h.session.world).2
  | .temp t => h.session.world.finalize t
  | _ => h.session.world

/-- What happens next.  Only what is reached can be used, and only what is not can be
collected. -/
def next : Event → Heap
  | .call eng c => if .archive ∈ h.marked then h.within (Archive.call eng c) else h
  | .setPassword password =>
      if .archive ∈ h.marked then h.within (Archive.setPassword password) else h
  | .close => if .archive ∈ h.marked then h.within Archive.close else h
  | .closeStream k =>
      if .stream k ∈ h.marked then h.within (onWorld (NewtuaPy.closeStream k none)) else h
  | .take o => if o ∈ h.marked then { h with roots := o :: h.roots } else h
  | .drop o => { h with roots := h.roots.erase o }
  | .collect o =>
      if o ∈ h.objects ∧ o ∉ h.marked ∧ o ∉ h.collected then
        { h with
          session := { h.session with world := h.finalized o }
          collected := o :: h.collected }
      else h
  | .exit =>
      let temps := List.range h.session.world.temps.length
      { h with
        session := { h.session with world := temps.foldl World.finalize h.session.world }
        exited := true }

def step : Machine Heap Event Unit := fun h event => ((), if h.exited then h else h.next event)

/-- An archive has been constructed and is referred to. -/
def start (files : FilePath → Option Bytes) (source : Source) (password encoding : Option String) :
    Heap where
  session := Archive.init files source password encoding
  roots := [.archive]

/-! ## What is reached -/

variable {h}

theorem archive_mem_refers {a : Obj} : .archive ∈ h.refers a ↔ a = .entry := by
  unfold refers
  cases a with
  | archive => cases h.session.self.tempfile <;> simp
  | entry => simp
  | stream k => simp
  | temp t => simp

theorem entry_mem_refers {a : Obj} :
    .entry ∈ h.refers a ↔ a = .archive ∧ h.session.self.entries.isSome = true := by
  unfold refers
  cases a with
  | archive => cases h.session.self.tempfile <;> simp
  | entry => simp
  | stream k => simp
  | temp t => simp

theorem stream_not_mem_refers {k : Nat} {a : Obj} : .stream k ∉ h.refers a := by
  unfold refers
  cases a with
  | archive => cases h.session.self.tempfile <;> simp
  | entry => simp
  | stream k => simp
  | temp t => simp

theorem temp_mem_refers {t : Nat} {a : Obj} : .temp t ∈ h.refers a ↔
    (a = .archive ∧ h.session.self.tempfile = some t) ∨
      ∃ k p, a = .stream k ∧ h.session.world.streams[k]? = some p ∧ p.onClose = some t := by
  unfold refers
  cases a with
  | archive =>
      rcases h.session.self.tempfile with _ | u
      · simp
      · simp [eq_comm (a := u)]
  | entry => simp
  | stream k => simp [Option.bind_eq_some_iff]
  | temp t => simp

theorem mem_marked {o : Obj} : o ∈ h.marked ↔
    o ∈ h.roots ∨ (∃ r ∈ h.roots, o ∈ h.refers r) ∨
      ∃ r ∈ h.roots, ∃ a ∈ h.refers r, o ∈ h.refers a := by
  simp only [marked, List.mem_append, List.mem_flatMap, or_assoc]
  refine or_congr_right (or_congr_right ?_)
  constructor
  · rintro ⟨a, ⟨r, root, through⟩, held⟩
    exact ⟨r, root, a, through, held⟩
  · rintro ⟨r, root, a, through, held⟩
    exact ⟨a, ⟨r, root, through⟩, held⟩

theorem archive_mem_marked : .archive ∈ h.marked ↔ .archive ∈ h.roots ∨ .entry ∈ h.roots := by
  simp only [mem_marked, archive_mem_refers, exists_eq_right]
  constructor
  · rintro (root | root | ⟨r, root, cached⟩)
    · exact Or.inl root
    · exact Or.inr root
    · rw [(entry_mem_refers.mp cached).1] at root
      exact Or.inl root
  · exact Or.imp_right Or.inl

theorem entry_mem_marked : .entry ∈ h.marked ↔
    .entry ∈ h.roots ∨ .archive ∈ h.roots ∧ h.session.self.entries.isSome = true := by
  simp only [mem_marked, entry_mem_refers]
  constructor
  · rintro (root | ⟨r, root, rfl, cached⟩ | ⟨r, root, a, held, rfl, cached⟩)
    · exact Or.inl root
    · exact Or.inr ⟨root, cached⟩
    · rw [archive_mem_refers.mp held] at root
      exact Or.inl root
  · rintro (root | ⟨root, cached⟩)
    · exact Or.inl root
    · exact Or.inr (Or.inl ⟨_, root, rfl, cached⟩)

theorem stream_mem_marked {k : Nat} : .stream k ∈ h.marked ↔ .stream k ∈ h.roots := by
  simp [mem_marked, stream_not_mem_refers]

theorem temp_mem_marked {t : Nat} : .temp t ∈ h.marked ↔
    .temp t ∈ h.roots ∨ (.archive ∈ h.marked ∧ h.session.self.tempfile = some t) ∨
      ∃ k p, .stream k ∈ h.marked ∧ h.session.world.streams[k]? = some p ∧
        p.onClose = some t := by
  simp only [archive_mem_marked, stream_mem_marked]
  constructor
  · intro reached
    rcases mem_marked.mp reached with root | ⟨r, root, held⟩ | ⟨r, root, a, through, held⟩
    · exact Or.inl root
    · rcases temp_mem_refers.mp held with ⟨rfl, claimed⟩ | ⟨k, p, rfl, entry, claim⟩
      · exact Or.inr (Or.inl ⟨Or.inl root, claimed⟩)
      · exact Or.inr (Or.inr ⟨k, p, root, entry, claim⟩)
    · rcases temp_mem_refers.mp held with ⟨rfl, claimed⟩ | ⟨k, p, rfl, entry, claim⟩
      · rw [archive_mem_refers.mp through] at root
        exact Or.inr (Or.inl ⟨Or.inr root, claimed⟩)
      · exact absurd through stream_not_mem_refers
  · rintro (root | ⟨root | root, claimed⟩ | ⟨k, p, root, entry, claim⟩)
    · exact mem_marked.mpr (Or.inl root)
    · exact mem_marked.mpr (Or.inr (Or.inl ⟨_, root, temp_mem_refers.mpr (Or.inl ⟨rfl, claimed⟩)⟩))
    · exact mem_marked.mpr (Or.inr (Or.inr ⟨_, root, _, archive_mem_refers.mpr rfl,
        temp_mem_refers.mpr (Or.inl ⟨rfl, claimed⟩)⟩))
    · exact mem_marked.mpr (Or.inr (Or.inl ⟨_, root,
        temp_mem_refers.mpr (Or.inr ⟨k, p, rfl, entry, claim⟩)⟩))

/-- What is marked refers to nothing else. -/
theorem marked_closed {a o : Obj} (reached : a ∈ h.marked) (held : o ∈ h.refers a) :
    o ∈ h.marked := by
  cases o with
  | archive =>
      obtain rfl := archive_mem_refers.mp held
      rcases entry_mem_marked.mp reached with root | ⟨root, -⟩
      · exact archive_mem_marked.mpr (Or.inr root)
      · exact archive_mem_marked.mpr (Or.inl root)
  | entry =>
      obtain ⟨rfl, cached⟩ := entry_mem_refers.mp held
      rcases archive_mem_marked.mp reached with root | root
      · exact entry_mem_marked.mpr (Or.inr ⟨root, cached⟩)
      · exact entry_mem_marked.mpr (Or.inl root)
  | stream k => exact absurd held stream_not_mem_refers
  | temp t =>
      rcases temp_mem_refers.mp held with ⟨rfl, claimed⟩ | ⟨k, p, rfl, entry, claim⟩
      · exact temp_mem_marked.mpr (Or.inr (Or.inl ⟨reached, claimed⟩))
      · exact temp_mem_marked.mpr (Or.inr (Or.inr ⟨k, p, reached, entry, claim⟩))

/-- Marking finds what is reached. -/
theorem mem_marked_iff {o : Obj} : o ∈ h.marked ↔ h.Reaches o := by
  constructor
  · intro reached
    rcases mem_marked.mp reached with root | ⟨r, root, held⟩ | ⟨r, root, a, through, held⟩
    · exact ⟨o, root, .refl⟩
    · exact ⟨r, root, .single held⟩
    · exact ⟨r, root, .tail (.single through) held⟩
  · rintro ⟨r, root, path⟩
    induction path with
    | refl => exact mem_marked.mpr (Or.inl root)
    | tail _ held reached => exact marked_closed reached held

/-- If nothing new is referred to, nothing new is reached. -/
theorem marked_mono {g : Heap} (roots : ∀ o ∈ g.roots, o ∈ h.marked)
    (refers : g.refers = h.refers) {o : Obj} (reached : o ∈ g.marked) : o ∈ h.marked := by
  obtain ⟨r, root, path⟩ := mem_marked_iff.mp reached
  induction path with
  | refl => exact roots r root
  | tail _ held ih =>
      rw [refers] at held
      exact marked_closed (ih (mem_marked_iff.mpr ⟨r, root, ‹_›⟩)) held

/-- References are those of the archive and the callbacks of the streams. -/
theorem refers_eq {g : Heap} (tempfile : g.session.self.tempfile = h.session.self.tempfile)
    (entries : g.session.self.entries = h.session.self.entries)
    (streams : g.session.world.streams.map PipeStream.onClose =
      h.session.world.streams.map PipeStream.onClose) : g.refers = h.refers := by
  funext a
  cases a with
  | archive =>
      unfold refers
      rw [tempfile, entries]
  | entry => rfl
  | stream k =>
      have same : (g.session.world.streams.map PipeStream.onClose)[k]? =
          (h.session.world.streams.map PipeStream.onClose)[k]? := by rw [streams]
      rw [List.getElem?_map, List.getElem?_map] at same
      unfold refers
      have claim (x : Option PipeStream) :
          x.bind PipeStream.onClose = (x.map PipeStream.onClose).join := by cases x <;> rfl
      dsimp only
      rw [claim, claim, same]
  | temp t => rfl

/-! ## The invariant -/

/-- The temp file has been collected. -/
def Gone (h : Heap) (t : Nat) : Prop := .temp t ∈ h.collected

/-- Nothing that is reached has been collected, and the claims of what has not been
collected are kept, until the interpreter exits and every file is gone. -/
structure Tidy (h : Heap) : Prop where
  tended : h.exited = false →
    h.session.world.Tended h.Gone (claimsOf h.session.self.tempfile h.session.world.streams)
  absent : h.exited = true → ∀ f ∈ h.session.world.temps, h.session.world.files f.path = none
  strays : h.session.world.Strays
  alive : ∀ o ∈ h.collected, o ∉ h.marked
  past : ∀ k, .stream k ∈ h.collected → k < h.session.world.streams.length
  entry : .entry ∉ h.collected
  closed : h.session.self.closed = true → h.session.self.tempfile = none

theorem start_tidy (files : FilePath → Option Bytes) (source : Source)
    (password encoding : Option String) : (start files source password encoding).Tidy where
  tended := by
    intro _
    constructor
    · exact ⟨fun t p found => absurd found (by simp [start, Archive.init]),
        fun t u p found => absurd found (by simp [start, Archive.init])⟩
    · intro t f entry
      cases entry
    · intro t f entry
      cases entry
    · intro t positive
      simp [claimsOf, start, Archive.init] at positive
    · intro t collected
      cases collected
    · intro n before
      cases before
  absent := nofun
  strays := fun n before => by cases before
  alive := fun o collected => by cases collected
  past := fun k collected => by cases collected
  entry := nofun
  closed := nofun

/-- The archive is used by somebody who reaches it. -/
theorem Tidy.within (tidy : h.Tidy) (running : h.exited = false) (reached : .archive ∈ h.marked)
    {α : Type} {x : Py Session α}
    (keeps : Exn.Keeps (Archive.Attended h.Gone h.session.world.streams) x) :
    (h.within x).Tidy := by
  have claimed (t : Nat) (tempfile : h.session.self.tempfile = some t) : ¬h.Gone t := by
    intro gone
    exact tidy.alive _ gone (temp_mem_marked.mpr (Or.inr (Or.inl ⟨reached, tempfile⟩)))
  have before : Archive.Attended h.Gone h.session.world.streams h.session :=
    ⟨tidy.tended running, claimed, tidy.closed, [], (List.append_nil _).symm, nofun⟩
  have after := keeps h.session before
  obtain ⟨new, streams, fresh⟩ := after.opened
  have length := congrArg List.length streams
  rw [List.length_append] at length
  have root {o : Obj} : o ∈ (h.within x).roots ↔ o ∈ h.roots ∨ ∃ k,
      h.session.world.streams.length ≤ k ∧ k < (x h.session).2.world.streams.length ∧
        o = .stream k := by
    unfold Heap.within
    simp only [List.mem_append, List.mem_map, List.mem_range'_1, length]
    refine or_congr_right (exists_congr fun k => ?_)
    constructor
    · rintro ⟨⟨low, high⟩, rfl⟩
      exact ⟨low, by omega, rfl⟩
    · rintro ⟨low, high, rfl⟩
      exact ⟨⟨low, by omega⟩, rfl⟩
  have archive : .archive ∈ (h.within x).marked ↔ .archive ∈ h.marked := by
    simp [archive_mem_marked, root]
  constructor
  · exact fun _ => after.tended
  · intro exited
    cases running.symm.trans exited
  · exact after.tended.strays
  · intro o collected now
    cases o with
    | archive => exact tidy.alive _ collected (archive.mp now)
    | entry => exact tidy.entry collected
    | stream k =>
        rcases root.mp (stream_mem_marked.mp now) with old | ⟨j, late, -, same⟩
        · exact tidy.alive _ collected (stream_mem_marked.mpr old)
        · obtain rfl := Obj.stream.inj same
          exact Nat.not_lt.mpr late (tidy.past k collected)
    | temp t =>
        rcases temp_mem_marked.mp now with held | ⟨-, tempfile⟩ | ⟨k, p, held, entry, claim⟩
        · rcases root.mp held with old | ⟨j, -, -, same⟩
          · exact tidy.alive _ collected (temp_mem_marked.mpr (Or.inl old))
          · cases same
        · exact after.claimed t tempfile collected
        · change (x h.session).2.world.streams[k]? = some p at entry
          rw [streams] at entry
          rcases root.mp (stream_mem_marked.mp held) with old | ⟨j, late, -, same⟩
          · by_cases inside : k < h.session.world.streams.length
            · rw [List.getElem?_append_left inside] at entry
              have live := stream_mem_marked.mpr old
              exact tidy.alive _ collected
                (temp_mem_marked.mpr (Or.inr (Or.inr ⟨k, p, live, entry, claim⟩)))
            · rw [List.getElem?_append_right (Nat.le_of_not_lt inside)] at entry
              exact fresh p (List.mem_of_getElem? entry) t claim collected
          · obtain rfl := Obj.stream.inj same
            rw [List.getElem?_append_right late] at entry
            exact fresh p (List.mem_of_getElem? entry) t claim collected
  · intro k collected
    have early := tidy.past k collected
    change k < (x h.session).2.world.streams.length
    omega
  · exact tidy.entry
  · exact after.closed

/-- The world changes, and perhaps something unreached is collected; what is referred to
stays the same. -/
theorem Tidy.inWorld (tidy : h.Tidy) (running : h.exited = false) {w : World} (more : List Obj)
    (tended : w.Tended (fun t => .temp t ∈ more ++ h.collected)
      (claimsOf h.session.self.tempfile w.streams))
    (streams : w.streams.map PipeStream.onClose =
      h.session.world.streams.map PipeStream.onClose)
    (unreached : ∀ o ∈ more, o ∈ h.objects ∧ o ∉ h.marked) :
    { h with session := { h.session with world := w }, collected := more ++ h.collected }.Tidy := by
  have length : w.streams.length = h.session.world.streams.length := by
    simpa using congrArg List.length streams
  let g := { h with session := { h.session with world := w }, collected := more ++ h.collected }
  have marked {o : Obj} (reached : o ∈ g.marked) : o ∈ h.marked :=
    marked_mono (h := h) (g := g) (fun r root => mem_marked.mpr (Or.inl root))
      (refers_eq (h := h) (g := g) rfl rfl streams) reached
  constructor
  · exact fun _ => tended
  · intro exited
    cases running.symm.trans exited
  · exact tended.strays
  · intro o collected reached
    rcases List.mem_append.mp collected with new | old
    · exact (unreached o new).2 (marked reached)
    · exact tidy.alive o old (marked reached)
  · intro k collected
    dsimp only
    rw [length]
    rcases List.mem_append.mp collected with new | old
    · simpa [objects] using (unreached _ new).1
    · exact tidy.past k old
  · intro collected
    rcases List.mem_append.mp collected with new | old
    · simpa [objects] using (unreached _ new).1
    · exact tidy.entry old
  · exact tidy.closed

theorem Tidy.rooted (tidy : h.Tidy) {roots : List Obj} (reached : ∀ o ∈ roots, o ∈ h.marked) :
    { h with roots }.Tidy where
  tended := tidy.tended
  absent := tidy.absent
  strays := tidy.strays
  alive := by
    intro o collected now
    exact tidy.alive o collected (marked_mono (g := { h with roots }) reached rfl now)
  past := tidy.past
  entry := tidy.entry
  closed := tidy.closed

theorem Tidy.collect (tidy : h.Tidy) (running : h.exited = false) {o : Obj}
    (object : o ∈ h.objects) (unreached : o ∉ h.marked) :
    { h with
      session := { h.session with world := h.finalized o }
      collected := o :: h.collected }.Tidy := by
  have tended := tidy.tended running
  have other (kind : ∀ t, o ≠ .temp t) : (fun t => .temp t ∈ [o] ++ h.collected) = h.Gone := by
    funext t
    simp [Gone, Ne.symm (kind t)]
  have only : ∀ a ∈ [o], a ∈ h.objects ∧ a ∉ h.marked := by
    intro a same
    obtain rfl := List.mem_singleton.mp same
    exact ⟨object, unreached⟩
  refine tidy.inWorld running [o] ?_ ?_ only
  · cases o with
    | archive =>
        rw [other nofun]
        exact tended
    | entry =>
        rw [other nofun]
        exact tended
    | stream k =>
        rw [other nofun]
        exact closeStream_tended tended k
    | temp t =>
        have inside : t < h.session.world.temps.length := by simpa [objects] using object
        have finalized := tended.finalize inside
        have streams : (h.session.world.finalize t).streams = h.session.world.streams :=
          (h.session.world.finalize_touches t).streams
        change (h.session.world.finalize t).Tended _
          (claimsOf h.session.self.tempfile (h.session.world.finalize t).streams)
        rw [streams]
        have gone : (fun u => .temp u ∈ [Obj.temp t] ++ h.collected) =
            fun u => u = t ∨ h.Gone u := by
          funext u
          simp [Gone]
        rw [gone]
        exact finalized
  · cases o with
    | archive => rfl
    | entry => rfl
    | stream k => exact (closeStream_onClose h.session.world k).1
    | temp t =>
        exact congrArg (List.map PipeStream.onClose) (h.session.world.finalize_touches t).streams

theorem foldl_finalize_length (temps : List Nat) (w : World) :
    (temps.foldl World.finalize w).temps.length = w.temps.length := by
  induction temps generalizing w with
  | nil => rfl
  | cons t temps ih =>
      have paths := congrArg List.length (w.finalize_touches t).paths
      rw [List.length_map, List.length_map] at paths
      exact (ih (w.finalize t)).trans paths

/-- Finalizing temp files one after the other leaves none of them. -/
theorem foldl_finalize_tended {claims : Nat → Nat} (temps : List Nat) {w : World}
    {gone : Nat → Prop} (tended : w.Tended gone claims) (inside : ∀ t ∈ temps, t < w.temps.length) :
    (temps.foldl World.finalize w).Tended (fun t => t ∈ temps ∨ gone t) claims := by
  induction temps generalizing w gone with
  | nil => simpa using tended
  | cons t temps ih =>
      have length : (w.finalize t).temps.length = w.temps.length := foldl_finalize_length [t] w
      have first := tended.finalize (inside t List.mem_cons_self)
      have rest := ih first fun u later => length ▸ inside u (List.mem_cons_of_mem t later)
      have gone : (fun u => u ∈ t :: temps ∨ gone u) = fun u => u ∈ temps ∨ u = t ∨ gone u := by
        funext u
        rw [List.mem_cons, or_assoc, or_left_comm]
      rw [gone]
      exact rest

theorem foldl_finalize_streams (temps : List Nat) (w : World) :
    (temps.foldl World.finalize w).streams = w.streams := by
  induction temps generalizing w with
  | nil => rfl
  | cons t temps ih => exact (ih _).trans (w.finalize_touches t).streams

theorem Tidy.exit (tidy : h.Tidy) (running : h.exited = false) : (h.next .exit).Tidy := by
  have finalized := foldl_finalize_tended _ (tidy.tended running) fun t inside =>
    List.mem_range.mp inside
  have length := foldl_finalize_length (List.range h.session.world.temps.length) h.session.world
  have streams := foldl_finalize_streams (List.range h.session.world.temps.length) h.session.world
  constructor
  · exact nofun
  · intro _ f member
    obtain ⟨t, entry⟩ := List.mem_iff_getElem?.mp member
    have inside := (List.getElem?_eq_some_iff.mp entry).1
    have before := List.mem_range.mpr (lt_of_lt_of_eq inside length)
    exact (finalized.absent t f entry (Or.inl before)).1
  · exact finalized.strays
  · intro o collected reached
    refine tidy.alive o collected (marked_mono (h := h) (g := h.next .exit)
      (fun r root => mem_marked.mpr (Or.inl root)) ?_ reached)
    exact refers_eq (h := h) (g := h.next .exit) rfl rfl (congrArg _ streams)
  · intro k collected
    exact lt_of_lt_of_eq (tidy.past k collected) (congrArg List.length streams).symm
  · exact tidy.entry
  · exact tidy.closed

/-- Step lemma: whatever happens leaves the heap tidy. -/
theorem step_tidy (h : Heap) (event : Event) (tidy : h.Tidy) : (step h event).2.Tidy := by
  unfold step
  dsimp only
  cases running : h.exited with
  | true => exact tidy
  | false =>
      rw [if_neg Bool.false_ne_true]
      unfold next
      cases event with
      | call eng c =>
          dsimp only
          split
          · exact tidy.within running ‹_› ((Archive.attended_upheld eng).call c)
          · exact tidy
      | setPassword password =>
          dsimp only
          split
          · exact tidy.within running ‹_› (Archive.setPassword_attended password)
          · exact tidy
      | close =>
          dsimp only
          split
          · exact tidy.within running ‹_› Archive.close_attended
          · exact tidy
      | closeStream k =>
          dsimp only
          split
          · have streams := (closeStream_onClose h.session.world k).1
            have length : (closeStream k none h.session.world).2.streams.length =
                h.session.world.streams.length := by
              simpa using congrArg List.length streams
            have closed := tidy.inWorld running []
              (closeStream_tended (tidy.tended running) k) streams nofun
            have none : h.within (onWorld (NewtuaPy.closeStream k none)) =
                { h with
                  session :=
                    { h.session with
                      world := (NewtuaPy.closeStream k none h.session.world).2 } } := by
              have run : (onWorld (NewtuaPy.closeStream k none) h.session).2 =
                  { h.session with world := (closeStream k none h.session.world).2 } := rfl
              unfold within
              simp only [run, length, Nat.sub_self, List.range'_zero, List.map_nil, List.append_nil]
            rw [none]
            exact closed
          · exact tidy
      | take o =>
          dsimp only
          split
          · refine tidy.rooted fun r root => ?_
            rcases List.mem_cons.mp root with rfl | old
            · assumption
            · exact mem_marked.mpr (Or.inl old)
          · exact tidy
      | drop o =>
          exact tidy.rooted fun r root => mem_marked.mpr (Or.inl (List.mem_of_mem_erase root))
      | collect o =>
          dsimp only
          split
          · rename_i allowed
            exact tidy.collect running allowed.1 allowed.2.1
          · exact tidy
      | exit => exact tidy.exit running

/-- However an archive, its entries and its streams are used, closed, dropped and
collected: what somebody still reaches has not been collected, and a spilled file is on disk
exactly while its `_TempFile` has not been collected and the archive or an open stream claims
it.  So the file of an archive or of an open stream that is reached is there, and once
everything has been collected, or the interpreter exits, none is left but what a failed copy
has left: such a file has no `_TempFile`, and nothing ever deletes it. -/
theorem collection_exact (files : FilePath → Option Bytes) (source : Source)
    (password encoding : Option String) (events : List Event) :
    let h := step.runState (start files source password encoding) events
    (∀ o, h.Reaches o → o ∉ h.collected) ∧
      (∀ t f, h.session.world.temps[t]? = some f →
        ((h.session.world.files f.path).isSome = true ↔
          h.exited = false ∧ .temp t ∉ h.collected ∧
            (h.session.self.tempfile = some t ∨
              ∃ p ∈ h.session.world.streams, p.closed = false ∧ p.onClose = some t))) ∧
      (h.exited = false → ∀ t,
        (h.Reaches .archive ∧ h.session.self.tempfile = some t ∨
          ∃ k p, h.Reaches (.stream k) ∧ h.session.world.streams[k]? = some p ∧
            p.closed = false ∧ p.onClose = some t) →
        ∃ f, h.session.world.temps[t]? = some f ∧
          (h.session.world.files f.path).isSome = true) ∧
      (h.roots = [] → (∀ o ∈ h.objects, o ∈ h.collected) →
        ∀ f ∈ h.session.world.temps, h.session.world.files f.path = none) ∧
      ∀ n < h.session.world.nextTemp, .temp n ∉ h.session.world.temps.map TempFile.path →
        (h.session.world.files (.temp n)).isSome = true := by
  intro h
  have tidy : h.Tidy :=
    Machine.runState_invariant step_tidy (start_tidy files source password encoding) events
  have claims (t : Nat) : 0 < claimsOf h.session.self.tempfile h.session.world.streams t ↔
      h.session.self.tempfile = some t ∨
        ∃ p ∈ h.session.world.streams, p.closed = false ∧ p.onClose = some t := by
    have counted : 0 < h.session.world.streams.countP (·.claims t) ↔
        ∃ p ∈ h.session.world.streams, p.closed = false ∧ p.onClose = some t := by
      rw [List.countP_pos_iff]
      simp [PipeStream.claims]
    unfold claimsOf
    rw [← counted]
    by_cases own : h.session.self.tempfile = some t
    · simp [own]
    · simp [own]
  have exact' (t : Nat) (f : TempFile) (entry : h.session.world.temps[t]? = some f) :
      (h.session.world.files f.path).isSome = true ↔
        h.exited = false ∧ .temp t ∉ h.collected ∧
          0 < claimsOf h.session.self.tempfile h.session.world.streams t := by
    cases running : h.exited with
    | true =>
        rw [tidy.absent running f (List.mem_of_getElem? entry)]
        simp
    | false =>
        have tended := tidy.tended running
        by_cases gone : .temp t ∈ h.collected
        · rw [(tended.absent t f entry gone).1]
          simp [gone]
        · rw [(tended.counts t f entry gone).present]
          simp [gone]
  refine ⟨?_, ?_, ?_, ?_, tidy.strays⟩
  · exact fun o reached collected => tidy.alive o collected (mem_marked_iff.mpr reached)
  · intro t f entry
    rw [exact' t f entry, claims t]
  · intro running t holder
    have positive : 0 < claimsOf h.session.self.tempfile h.session.world.streams t := by
      refine (claims t).mpr (holder.imp And.right ?_)
      rintro ⟨k, p, -, entry, unclosed, claim⟩
      exact ⟨p, List.mem_of_getElem? entry, unclosed, claim⟩
    have reached : .temp t ∈ h.marked := by
      rcases holder with ⟨archive, tempfile⟩ | ⟨k, p, stream, entry, -, claim⟩
      · exact temp_mem_marked.mpr (Or.inr (Or.inl ⟨mem_marked_iff.mpr archive, tempfile⟩))
      · exact temp_mem_marked.mpr (Or.inr (Or.inr ⟨k, p, mem_marked_iff.mpr stream, entry, claim⟩))
    have kept : .temp t ∉ h.collected := fun gone => tidy.alive _ gone reached
    obtain ⟨f, entry⟩ := (tidy.tended running).claimed positive
    exact ⟨f, entry, (exact' t f entry).mpr ⟨running, kept, positive⟩⟩
  · intro _ all f member
    obtain ⟨t, entry⟩ := List.mem_iff_getElem?.mp member
    refine Option.not_isSome_iff_eq_none.mp fun present => ?_
    have object : .temp t ∈ h.objects := by
      simpa [objects] using (List.getElem?_eq_some_iff.mp entry).1
    exact ((exact' t f entry).mp present).2.1 (all _ object)

end Heap

end NewtuaPy
