import NewtuaPy.Representation

/-!
# Worlds under names

A world that several archives share, and the world one of them would have to
itself.  The two are compared under the names that the shared one gives to the
temp files and to the streams of that archive; what has another name is spared.
-/

namespace NewtuaPy

theorem rel_imp {α β : Type} {r r' : α → β → Prop} (weaker : ∀ a b, r a b → r' a b)
    {x : Option α} {y : Option β} (h : Option.Rel r x y) : Option.Rel r' x y := by
  cases h with
  | none => exact .none
  | some related => exact .some (weaker _ _ related)

theorem rel_cases {α β : Type} {r : α → β → Prop} {x : Option α} {y : Option β}
    (h : Option.Rel r x y) :
    (x = none ∧ y = none) ∨ ∃ a b, x = some a ∧ y = some b ∧ r a b := by
  cases h with
  | none => exact Or.inl ⟨rfl, rfl⟩
  | some related => exact Or.inr ⟨_, _, rfl, rfl, related⟩

/-- What a list holds it holds when it has grown. -/
theorem kept {α : Type} {l m : List α} (part : l <+: m) {i : Nat} {a : α}
    (found : l[i]? = some a) : m[i]? = some a := by
  obtain ⟨rest, rfl⟩ := part
  rw [List.getElem?_append_left (List.getElem?_eq_some_iff.mp found).1]
  exact found

/-! ## One archive in two worlds -/

/-- The temp files and the streams of one archive: the `t`-th it has made in a world
of its own is `temps[t]` of the shared world, and the streams likewise. -/
structure Names where
  temps : List Nat := []
  streams : List Nat := []

/-- No two temp files have one path, and the next path is new. -/
structure World.Numbered (w : World) : Prop where
  below : ∀ (t : Nat) (p : FilePath), (w.temps.map TempFile.path)[t]? = some p →
    ∃ n < w.nextTemp, p = .temp n
  distinct : ∀ (t u : Nat) (p : FilePath), (w.temps.map TempFile.path)[t]? = some p →
    (w.temps.map TempFile.path)[u]? = some p → t = u

/-- The files `t` of the shared world and `t'` of the own one are counted alike and
hold the same. -/
def World.TempAlike (w w' : World) (t t' : Nat) : Prop :=
  ∃ f f', w.temps[t]? = some f ∧ w'.temps[t']? = some f' ∧ f.holders = f'.holders ∧
    f.deleteCalls = f'.deleteCalls ∧ w.files f.path = w'.files f'.path

namespace Names

variable (n : Names)

/-- `t` is the shared name of the temp file `t'`. -/
def Temp (t t' : Nat) : Prop := n.temps[t']? = some t

def StreamAlike (w w' : World) (j j' : Nat) : Prop :=
  ∃ p p', w.streams[j]? = some p ∧ w'.streams[j']? = some p' ∧
    p = { p' with onClose := p.onClose } ∧ Option.Rel n.Temp p.onClose p'.onClose

/-- The own world `w'` is what the shared world `w` holds under the names. -/
structure Mirrors (w w' : World) : Prop where
  named : ∀ own, w.files (.named own) = w'.files (.named own)
  numbered : w.Numbered
  numbered' : w'.Numbered
  temps : ∀ t t', n.Temp t t' → w.TempAlike w' t t'
  nodup : n.temps.Nodup
  count : w'.temps.length = n.temps.length
  streams : ∀ j j', n.streams[j']? = some j → n.StreamAlike w w' j j'
  nodupStreams : n.streams.Nodup
  countStreams : w'.streams.length = n.streams.length

/-- A path in the two worlds: one that a caller named, or that of a temp file. -/
def PathAlike (w w' : World) (p p' : FilePath) : Prop :=
  (∃ own, p = .named own ∧ p' = .named own) ∨
    ∃ t t', n.Temp t t' ∧ (w.temps.map TempFile.path)[t]? = some p ∧
      (w'.temps.map TempFile.path)[t']? = some p'

/-- The shared world `w` has at least what `w₀` has, and nothing of `w₀` is touched
that the names do not name. -/
structure Spares (w₀ w : World) : Prop where
  more : w₀.temps.length ≤ w.temps.length
  named : ∀ own, w.files (.named own) = w₀.files (.named own)
  temps : ∀ t < w₀.temps.length, t ∉ n.temps → w.temps[t]? = w₀.temps[t]? ∧
    ∀ f, w₀.temps[t]? = some f → w.files f.path = w₀.files f.path
  moreStreams : w₀.streams.length ≤ w.streams.length
  streams : ∀ j < w₀.streams.length, j ∉ n.streams → w.streams[j]? = w₀.streams[j]?

end Names

/-! ## Holding and releasing -/

/-- `w₂` differs from `w` in nothing but the `t`-th temp file and what is on disk for it. -/
structure World.Touches (t : Nat) (w w₂ : World) : Prop where
  paths : w₂.temps.map TempFile.path = w.temps.map TempFile.path
  nextTemp : w₂.nextTemp = w.nextTemp
  streams : w₂.streams = w.streams
  temps : ∀ u, u ≠ t → w₂.temps[u]? = w.temps[u]?
  files : ∀ p, (w.temps.map TempFile.path)[t]? ≠ some p → w₂.files p = w.files p

theorem World.hold_touches (w : World) (t : Nat) :
    World.Touches t w (w.modifyTemp t fun f => { f with holders := f.holders + 1 }) where
  paths := by
    apply List.ext_getElem?
    intro u
    simp only [World.modifyTemp, List.getElem?_map, List.getElem?_modify]
    rcases w.temps[u]? with _ | f
    · rfl
    · by_cases this : t = u <;> simp [this]
  nextTemp := rfl
  streams := rfl
  temps := by
    intro u other
    simp only [World.modifyTemp, List.getElem?_modify, Ne.symm other, if_false]
    rcases w.temps[u]? with _ | f <;> rfl
  files := fun _ _ => rfl

theorem World.release_touches (w : World) (t : Nat) : World.Touches t w (w.afterRelease t) where
  paths := (w.afterRelease_follows t).paths
  nextTemp := (w.afterRelease_follows t).nextTemp
  streams := w.afterRelease_streams t
  temps := by
    intro u other
    unfold World.afterRelease
    rcases w.temps[t]? with _ | f
    · rfl
    · dsimp only
      split <;> exact List.getElem?_set_ne (Ne.symm other)
  files := by
    intro p other
    unfold World.afterRelease
    rcases found : w.temps[t]? with _ | f
    · rfl
    · rw [List.getElem?_map, found] at other
      have elsewhere : p ≠ f.path := fun same => other (congrArg some same.symm)
      dsimp only
      split
      · rfl
      · dsimp only
        split
        · exact Function.update_of_ne elsewhere _ _
        · rfl

theorem World.Numbered.touched {w w₂ : World} {t : Nat} (h : w.Numbered)
    (touches : World.Touches t w w₂) : w₂.Numbered where
  below := by rw [touches.paths, touches.nextTemp]; exact h.below
  distinct := by rw [touches.paths]; exact h.distinct

/-- Releasing what is counted alike leaves it counted alike. -/
theorem World.TempAlike.released {w w' : World} {t t' : Nat} (h : w.TempAlike w' t t') :
    (w.afterRelease t).TempAlike (w'.afterRelease t') t t' := by
  obtain ⟨f, f', entry, entry', holders, deletes, file⟩ := h
  have inside := (List.getElem?_eq_some_iff.mp entry).1
  have inside' := (List.getElem?_eq_some_iff.mp entry').1
  unfold World.afterRelease
  rw [entry, entry']
  dsimp only
  rw [← holders, ← deletes]
  by_cases more : 1 < f.holders
  · rw [if_pos more, if_pos more]
    exact ⟨_, _, List.getElem?_set_self inside, List.getElem?_set_self inside', rfl, rfl, file⟩
  · rw [if_neg more, if_neg more]
    refine ⟨_, _, List.getElem?_set_self inside, List.getElem?_set_self inside', rfl, rfl, ?_⟩
    by_cases first : f.deleteCalls = 0
    · simp [first]
    · simp [first, file]

theorem World.TempAlike.held {w w' : World} {t t' : Nat} (h : w.TempAlike w' t t') :
    World.TempAlike (w.modifyTemp t fun f => { f with holders := f.holders + 1 })
      (w'.modifyTemp t' fun f => { f with holders := f.holders + 1 }) t t' := by
  obtain ⟨f, f', entry, entry', holders, deletes, file⟩ := h
  refine ⟨{ f with holders := f.holders + 1 }, { f' with holders := f'.holders + 1 }, ?_, ?_,
    congrArg (· + 1) holders, deletes, file⟩
  · simp [World.modifyTemp, entry]
  · simp [World.modifyTemp, entry']

namespace Names

variable {n : Names} {w₀ w w' w₂ w₂' : World} {t t' : Nat}

theorem Temp.mem (h : n.Temp t t') : t ∈ n.temps := List.mem_of_getElem? h

/-- Two temp files have one shared name only if they are one. -/
theorem Mirrors.same_iff (h : n.Mirrors w w') {u u' : Nat} (first : n.Temp t t')
    (second : n.Temp u u') : t = u ↔ t' = u' := by
  constructor
  · rintro rfl
    obtain ⟨inside, place⟩ := List.getElem?_eq_some_iff.mp first
    obtain ⟨inside', place'⟩ := List.getElem?_eq_some_iff.mp second
    exact (List.getElem_inj h.nodup).mp (place.trans place'.symm)
  · rintro rfl
    exact Option.some.inj (first.symm.trans second)

theorem Mirrors.touched (h : n.Mirrors w w') (name : n.Temp t t')
    (touches : World.Touches t w w₂) (touches' : World.Touches t' w' w₂')
    (alike : w₂.TempAlike w₂' t t') : n.Mirrors w₂ w₂' where
  named := by
    intro own
    have other (v : World) (numbered : v.Numbered) (u : Nat) :
        (v.temps.map TempFile.path)[u]? ≠ some (.named own) := by
      intro same
      obtain ⟨m, -, impossible⟩ := numbered.below u _ same
      cases impossible
    rw [touches.files _ (other w h.numbered t), touches'.files _ (other w' h.numbered' t')]
    exact h.named own
  numbered := h.numbered.touched touches
  numbered' := h.numbered'.touched touches'
  temps := by
    intro u u' name'
    by_cases this : u = t
    · obtain rfl := (h.same_iff name' name).mp this
      rw [this]
      exact alike
    · have this' : u' ≠ t' := fun same => this ((h.same_iff name' name).mpr same)
      obtain ⟨f, f', entry, entry', holders, deletes, file⟩ := h.temps u u' name'
      have path : (w.temps.map TempFile.path)[u]? = some f.path := by
        rw [List.getElem?_map, entry]
        rfl
      have path' : (w'.temps.map TempFile.path)[u']? = some f'.path := by
        rw [List.getElem?_map, entry']
        rfl
      refine ⟨f, f', (touches.temps u this).trans entry, (touches'.temps u' this').trans entry',
        holders, deletes, ?_⟩
      rw [touches.files _ fun same => this (h.numbered.distinct u t _ path same),
        touches'.files _ fun same => this' (h.numbered'.distinct u' t' _ path' same)]
      exact file
  nodup := h.nodup
  count := by
    rw [← h.count]
    simpa using congrArg List.length touches'.paths
  streams := by
    intro j j' name'
    unfold StreamAlike
    rw [touches.streams, touches'.streams]
    exact h.streams j j' name'
  nodupStreams := h.nodupStreams
  countStreams := by rw [touches'.streams, h.countStreams]

theorem Mirrors.held (h : n.Mirrors w w') (name : n.Temp t t') :
    n.Mirrors (w.modifyTemp t fun f => { f with holders := f.holders + 1 })
      (w'.modifyTemp t' fun f => { f with holders := f.holders + 1 }) :=
  h.touched name (w.hold_touches t) (w'.hold_touches t') (h.temps t t' name).held

theorem Mirrors.released (h : n.Mirrors w w') (name : n.Temp t t') :
    n.Mirrors (w.afterRelease t) (w'.afterRelease t') :=
  h.touched name (w.release_touches t) (w'.release_touches t') (h.temps t t' name).released

/-- What is touched was named. -/
theorem Spares.touched (h : n.Spares w₀ w) (numbered : w.Numbered) (named : t ∈ n.temps)
    (touches : World.Touches t w w₂) : n.Spares w₀ w₂ where
  more := by
    have length : w₂.temps.length = w.temps.length := by
      simpa using congrArg List.length touches.paths
    rw [length]
    exact h.more
  named := by
    intro own
    rw [touches.files, h.named own]
    intro same
    obtain ⟨m, -, impossible⟩ := numbered.below t _ same
    cases impossible
  temps := by
    intro u before unnamed
    have other : u ≠ t := fun same => unnamed (same ▸ named)
    obtain ⟨same, files⟩ := h.temps u before unnamed
    refine ⟨(touches.temps u other).trans same, fun f entry => ?_⟩
    have path : (w.temps.map TempFile.path)[u]? = some f.path := by
      rw [List.getElem?_map, same, entry]
      rfl
    rw [touches.files _ fun same => other (numbered.distinct u t _ path same)]
    exact files f entry
  moreStreams := by rw [touches.streams]; exact h.moreStreams
  streams := by rw [touches.streams]; exact h.streams

end Names

/-! ## Closing a stream -/

/-- The claim a stream gives up. -/
def World.afterClaim (w : World) : Option Nat → World
  | some t => w.afterRelease t
  | none => w

theorem closeStream_run {w : World} {k : Nat} {p : PipeStream} (entry : w.streams[k]? = some p)
    (fault : Option PyExc) :
    closeStream k fault w =
      if p.closed = true then (.ok (), w)
      else match fault with
        | none =>
            (.ok (), World.afterClaim
              { w with streams := w.streams.modify k ({ · with closed := true }) } p.onClose)
        | some exc => (.error exc, w.afterClaim p.onClose) := by
  unfold closeStream
  rw [Exn.get_bind_apply, entry]
  dsimp only
  cases p.closed with
  | true => rfl
  | false =>
      cases fault with
      | none =>
          cases p.onClose with
          | none => rfl
          | some t =>
              dsimp only
              rw [if_pos ⟨rfl, rfl⟩, Exn.modify_bind_apply]
              exact Exn.bind_of_ok (TempFile.release_run t _) _
      | some exc =>
          cases p.onClose with
          | none => rfl
          | some t => exact Exn.bind_of_ok (TempFile.release_run t w) _

/-! ## Making files -/

/-- The world after a spill that failed with `content` written. -/
def World.made (w : World) (content : Bytes) : World :=
  { w with
    files := Function.update w.files (.temp w.nextTemp) (some content)
    nextTemp := w.nextTemp + 1 }

theorem World.Numbered.fresh {w : World} (h : w.Numbered) {t : Nat} {f : TempFile}
    (entry : w.temps[t]? = some f) : f.path ≠ .temp w.nextTemp := by
  obtain ⟨m, before, path⟩ := h.below t f.path (by rw [List.getElem?_map, entry]; rfl)
  intro same
  obtain rfl := FilePath.temp.inj (path.symm.trans same)
  exact Nat.lt_irrefl _ before

theorem World.Numbered.made {w : World} (h : w.Numbered) (content : Bytes) :
    (w.made content).Numbered where
  below := by
    intro t p entry
    obtain ⟨m, before, path⟩ := h.below t p entry
    exact ⟨m, Nat.lt_succ_of_lt before, path⟩
  distinct := h.distinct

theorem World.Numbered.spilled {w : World} (h : w.Numbered) (content : Bytes) :
    (w.spilled content).Numbered := by
  have cases (t : Nat) (p : FilePath)
      (entry : ((w.spilled content).temps.map TempFile.path)[t]? = some p) :
      (w.temps.map TempFile.path)[t]? = some p ∨
        t = w.temps.length ∧ p = .temp w.nextTemp := by
    unfold World.spilled at entry
    rw [List.map_append] at entry
    by_cases old : t < (w.temps.map TempFile.path).length
    · rw [List.getElem?_append_left old] at entry
      exact Or.inl entry
    · rw [List.getElem?_append_right (Nat.le_of_not_lt old)] at entry
      obtain ⟨last, same⟩ := List.getElem?_eq_some_iff.mp entry
      simp only [List.map_cons, List.map_nil, List.length_singleton, List.length_map] at last old
      refine Or.inr ⟨by omega, ?_⟩
      simpa using same.symm
  constructor
  · intro t p entry
    rcases cases t p entry with old | ⟨-, rfl⟩
    · obtain ⟨m, before, path⟩ := h.below t p old
      exact ⟨m, Nat.lt_succ_of_lt before, path⟩
    · exact ⟨w.nextTemp, Nat.lt_succ_self _, rfl⟩
  · intro t u p first second
    have apart {u : Nat} (old : (w.temps.map TempFile.path)[u]? = some (.temp w.nextTemp)) :
        False := by
      obtain ⟨m, before, path⟩ := h.below u _ old
      exact Nat.ne_of_lt before (FilePath.temp.inj path).symm
    rcases cases t p first with old | ⟨rfl, rfl⟩
    · rcases cases u p second with old' | ⟨rfl, rfl⟩
      · exact h.distinct t u p old old'
      · exact (apart old).elim
    · rcases cases u _ second with old' | ⟨rfl, -⟩
      · exact (apart old').elim
      · rfl

namespace Names

variable {n : Names} {w₀ w w' : World} {t t' : Nat}

/-- One more temp file, under the name `t`. -/
def withTemp (n : Names) (t : Nat) : Names := { n with temps := n.temps ++ [t] }

/-- One more stream, under the name `j`. -/
def withStream (n : Names) (j : Nat) : Names := { n with streams := n.streams ++ [j] }

theorem Temp.withTemp (h : n.Temp t t') (u : Nat) : (n.withTemp u).Temp t t' :=
  (List.getElem?_append_left (List.getElem?_eq_some_iff.mp h).1).trans h

theorem temp_withTemp (n : Names) (t : Nat) : (n.withTemp t).Temp t n.temps.length :=
  List.getElem?_concat_length

theorem Temp.cases {u : Nat} (h : (n.withTemp u).Temp t t') :
    n.Temp t t' ∨ t = u ∧ t' = n.temps.length := by
  unfold Names.Temp Names.withTemp at h
  by_cases old : t' < n.temps.length
  · rw [List.getElem?_append_left old] at h
    exact Or.inl h
  · rw [List.getElem?_append_right (Nat.le_of_not_lt old)] at h
    obtain ⟨last, same⟩ := List.getElem?_eq_some_iff.mp h
    simp only [List.length_singleton] at last
    refine Or.inr ⟨by simpa using same.symm, by omega⟩

theorem Mirrors.inside (h : n.Mirrors w w') (name : n.Temp t t') :
    t < w.temps.length ∧ t' < w'.temps.length := by
  obtain ⟨f, f', entry, entry', -⟩ := h.temps t t' name
  exact ⟨(List.getElem?_eq_some_iff.mp entry).1, (List.getElem?_eq_some_iff.mp entry').1⟩

theorem Mirrors.below (h : n.Mirrors w w') {t : Nat} (named : t ∈ n.temps) :
    t < w.temps.length := by
  obtain ⟨t', name⟩ := List.mem_iff_getElem?.mp named
  exact (h.inside name).1

theorem Mirrors.made (h : n.Mirrors w w') (content : Bytes) :
    n.Mirrors (w.made content) (w'.made content) where
  named := fun own => by
    have other (v : World) : FilePath.named own ≠ .temp v.nextTemp := by exact nofun
    unfold World.made
    dsimp only
    rw [Function.update_of_ne (other w), Function.update_of_ne (other w')]
    exact h.named own
  numbered := h.numbered.made content
  numbered' := h.numbered'.made content
  temps := by
    intro t t' name
    obtain ⟨f, f', entry, entry', holders, deletes, file⟩ := h.temps t t' name
    refine ⟨f, f', entry, entry', holders, deletes, ?_⟩
    unfold World.made
    dsimp only
    rw [Function.update_of_ne (h.numbered.fresh entry),
      Function.update_of_ne (h.numbered'.fresh entry')]
    exact file
  nodup := h.nodup
  count := h.count
  streams := h.streams
  nodupStreams := h.nodupStreams
  countStreams := h.countStreams

theorem Spares.made (h : n.Spares w₀ w) (numbered : w.Numbered) (content : Bytes) :
    n.Spares w₀ (w.made content) where
  more := h.more
  named := fun own => by
    have other : FilePath.named own ≠ .temp w.nextTemp := by exact nofun
    unfold World.made
    dsimp only
    rw [Function.update_of_ne other]
    exact h.named own
  temps := by
    intro t before unnamed
    obtain ⟨same, files⟩ := h.temps t before unnamed
    refine ⟨same, fun f entry => ?_⟩
    unfold World.made
    dsimp only
    rw [Function.update_of_ne (numbered.fresh (same.trans entry))]
    exact files f entry
  moreStreams := h.moreStreams
  streams := h.streams

theorem Mirrors.spilled (h : n.Mirrors w w') (content : Bytes) :
    (n.withTemp w.temps.length).Mirrors (w.spilled content) (w'.spilled content) where
  named := (h.made content).named
  numbered := h.numbered.spilled content
  numbered' := h.numbered'.spilled content
  temps := by
    intro t t' name
    rcases name.cases with old | ⟨rfl, rfl⟩
    · obtain ⟨f, f', entry, entry', holders, deletes, file⟩ := (h.made content).temps t t' old
      obtain ⟨inside, inside'⟩ := h.inside old
      exact ⟨f, f', (List.getElem?_append_left inside).trans entry,
        (List.getElem?_append_left inside').trans entry', holders, deletes, file⟩
    · rw [← h.count]
      refine ⟨{ path := .temp w.nextTemp }, { path := .temp w'.nextTemp },
        List.getElem?_concat_length, List.getElem?_concat_length, rfl, rfl, ?_⟩
      unfold World.spilled
      dsimp only
      rw [Function.update_self, Function.update_self]
  nodup := by
    refine List.nodup_append.mpr ⟨h.nodup, List.pairwise_singleton _ _, ?_⟩
    intro t named u new
    rw [List.mem_singleton.mp new]
    exact Nat.ne_of_lt (h.below named)
  count := by
    unfold World.spilled Names.withTemp
    rw [List.length_append, List.length_append, h.count]
    rfl
  streams := by
    intro j j' name
    obtain ⟨p, p', entry, entry', same, claim⟩ := h.streams j j' name
    exact ⟨p, p', entry, entry', same, rel_imp (fun _ _ name => name.withTemp _) claim⟩
  nodupStreams := h.nodupStreams
  countStreams := h.countStreams

theorem Spares.spilled (h : n.Spares w₀ w) (numbered : w.Numbered) (content : Bytes) :
    n.Spares w₀ (w.spilled content) where
  more := by
    unfold World.spilled
    rw [List.length_append]
    exact Nat.le_add_right_of_le h.more
  named := (h.made numbered content).named
  temps := by
    intro t before unnamed
    obtain ⟨same, files⟩ := (h.made numbered content).temps t before unnamed
    have inside : t < w.temps.length := Nat.lt_of_lt_of_le before h.more
    exact ⟨(List.getElem?_append_left inside).trans same, files⟩
  moreStreams := h.moreStreams
  streams := h.streams

/-! ## Streams -/

theorem Mirrors.belowStreams (h : n.Mirrors w w') {j : Nat} (named : j ∈ n.streams) :
    j < w.streams.length := by
  obtain ⟨j', name⟩ := List.mem_iff_getElem?.mp named
  obtain ⟨p, p', entry, -⟩ := h.streams j j' name
  exact (List.getElem?_eq_some_iff.mp entry).1

theorem Mirrors.newStream (h : n.Mirrors w w') {p p' : PipeStream}
    (same : p = { p' with onClose := p.onClose }) (claim : Option.Rel n.Temp p.onClose p'.onClose) :
    (n.withStream w.streams.length).Mirrors { w with streams := w.streams ++ [p] }
      { w' with streams := w'.streams ++ [p'] } where
  named := h.named
  numbered := ⟨h.numbered.below, h.numbered.distinct⟩
  numbered' := ⟨h.numbered'.below, h.numbered'.distinct⟩
  temps := h.temps
  nodup := h.nodup
  count := h.count
  streams := by
    intro j j' name
    unfold Names.withStream at name
    dsimp only at name
    by_cases old : j' < n.streams.length
    · rw [List.getElem?_append_left old] at name
      obtain ⟨q, q', entry, entry', alike, claims⟩ := h.streams j j' name
      exact ⟨q, q',
        (List.getElem?_append_left (List.getElem?_eq_some_iff.mp entry).1).trans entry,
        (List.getElem?_append_left (List.getElem?_eq_some_iff.mp entry').1).trans entry', alike,
        claims⟩
    · rw [List.getElem?_append_right (Nat.le_of_not_lt old)] at name
      obtain ⟨last, place⟩ := List.getElem?_eq_some_iff.mp name
      simp only [List.length_singleton] at last
      obtain rfl : w.streams.length = j := by simpa using place
      obtain rfl : j' = w'.streams.length := by have := h.countStreams; omega
      exact ⟨p, p', List.getElem?_concat_length, List.getElem?_concat_length, same, claim⟩
  nodupStreams := by
    refine List.nodup_append.mpr ⟨h.nodupStreams, List.pairwise_singleton _ _, ?_⟩
    intro j named j' new
    rw [List.mem_singleton.mp new]
    exact Nat.ne_of_lt (h.belowStreams named)
  countStreams := by
    unfold Names.withStream
    rw [List.length_append, List.length_append, h.countStreams]
    rfl

theorem Spares.newStream (h : n.Spares w₀ w) (p : PipeStream) :
    n.Spares w₀ { w with streams := w.streams ++ [p] } where
  more := h.more
  named := h.named
  temps := h.temps
  moreStreams := by
    rw [List.length_append]
    exact Nat.le_add_right_of_le h.moreStreams
  streams := by
    intro j before unnamed
    have inside : j < w.streams.length := Nat.lt_of_lt_of_le before h.moreStreams
    exact (List.getElem?_append_left inside).trans (h.streams j before unnamed)

/-- A stream is marked closed under its two names. -/
theorem Mirrors.marked (h : n.Mirrors w w') {j j' : Nat} (name : n.streams[j']? = some j) :
    n.Mirrors { w with streams := w.streams.modify j ({ · with closed := true }) }
      { w' with streams := w'.streams.modify j' ({ · with closed := true }) } where
  named := h.named
  numbered := ⟨h.numbered.below, h.numbered.distinct⟩
  numbered' := ⟨h.numbered'.below, h.numbered'.distinct⟩
  temps := h.temps
  nodup := h.nodup
  count := h.count
  streams := by
    intro i i' name'
    obtain ⟨p, p', entry, entry', same, claim⟩ := h.streams i i' name'
    have agree : j = i ↔ j' = i' := by
      obtain ⟨inside, place⟩ := List.getElem?_eq_some_iff.mp name
      obtain ⟨inside', place'⟩ := List.getElem?_eq_some_iff.mp name'
      rw [← place, ← place']
      exact List.getElem_inj h.nodupStreams
    unfold StreamAlike
    simp only [List.getElem?_modify, entry, entry', Option.map_eq_map, Option.map_some]
    by_cases this : j = i
    · rw [if_pos this, if_pos (agree.mp this)]
      refine ⟨_, _, rfl, rfl, ?_, claim⟩
      rw [same]
    · rw [if_neg this, if_neg (mt agree.mpr this)]
      exact ⟨p, p', rfl, rfl, same, claim⟩
  nodupStreams := h.nodupStreams
  countStreams := by rw [List.length_modify, h.countStreams]

theorem Spares.marked (h : n.Spares w₀ w) {j : Nat} (named : j ∈ n.streams)
    (f : PipeStream → PipeStream) : n.Spares w₀ { w with streams := w.streams.modify j f } where
  more := h.more
  named := h.named
  temps := h.temps
  moreStreams := by
    rw [List.length_modify]
    exact h.moreStreams
  streams := by
    intro i before unnamed
    have other : j ≠ i := fun same => unnamed (same ▸ named)
    rw [← h.streams i before unnamed]
    simp only [List.getElem?_modify, if_neg other]
    rcases w.streams[i]? with _ | p <;> rfl

/-! ## Both at once -/

theorem Spares.mono {m : Names} (h : n.Spares w₀ w) (temps : ∀ t ∈ n.temps, t ∈ m.temps)
    (streams : ∀ j ∈ n.streams, j ∈ m.streams) : m.Spares w₀ w where
  more := h.more
  named := h.named
  temps := fun t before unnamed => h.temps t before (mt (temps t) unnamed)
  moreStreams := h.moreStreams
  streams := fun j before unnamed => h.streams j before (mt (streams j) unnamed)

/-- `w'` is what `w` holds under the names `n`; since the world `w₀` and the names `n₀`,
nothing unnamed has been touched, and what is newly named is new. -/
structure Together (n₀ : Names) (w₀ : World) (n : Names) (w w' : World) : Prop where
  mirrors : n.Mirrors w w'
  spares : n.Spares w₀ w
  temps : ∀ t ∈ n.temps, t ∈ n₀.temps ∨ w₀.temps.length ≤ t
  streams : n.streams =
    n₀.streams ++ List.range' w₀.streams.length (w.streams.length - w₀.streams.length)

theorem Mirrors.together (h : n.Mirrors w w') : Together n w n w w' where
  mirrors := h
  spares := ⟨Nat.le_refl _, fun _ => rfl, fun _ _ _ => ⟨rfl, fun _ _ => rfl⟩, Nat.le_refl _,
    fun _ _ _ => rfl⟩
  temps := fun _ named => Or.inl named
  streams := by
    rw [Nat.sub_self]
    exact (List.append_nil _).symm

namespace Together

variable {n₀ : Names}

theorem logged (h : Together n₀ w₀ n w w') (call call' : EngineCall) :
    Together n₀ w₀ n (w.logged call) (w'.logged call') :=
  let m := h.mirrors
  ⟨⟨m.named, ⟨m.numbered.below, m.numbered.distinct⟩, ⟨m.numbered'.below, m.numbered'.distinct⟩,
    m.temps, m.nodup, m.count, m.streams, m.nodupStreams, m.countStreams⟩,
   ⟨h.spares.more, h.spares.named, h.spares.temps, h.spares.moreStreams, h.spares.streams⟩,
   h.temps, h.streams⟩

theorem held (h : Together n₀ w₀ n w w') (name : n.Temp t t') :
    Together n₀ w₀ n (w.modifyTemp t fun f => { f with holders := f.holders + 1 })
      (w'.modifyTemp t' fun f => { f with holders := f.holders + 1 }) :=
  ⟨h.mirrors.held name, h.spares.touched h.mirrors.numbered name.mem (w.hold_touches t),
    h.temps, h.streams⟩

theorem released (h : Together n₀ w₀ n w w') (name : n.Temp t t') :
    Together n₀ w₀ n (w.afterRelease t) (w'.afterRelease t') := by
  refine ⟨h.mirrors.released name,
    h.spares.touched h.mirrors.numbered name.mem (w.release_touches t), h.temps, ?_⟩
  rw [World.afterRelease_streams]
  exact h.streams

theorem made (h : Together n₀ w₀ n w w') (content : Bytes) :
    Together n₀ w₀ n (w.made content) (w'.made content) :=
  ⟨h.mirrors.made content, h.spares.made h.mirrors.numbered content, h.temps, h.streams⟩

theorem spilled (h : Together n₀ w₀ n w w') (content : Bytes) :
    Together n₀ w₀ (n.withTemp w.temps.length) (w.spilled content) (w'.spilled content) where
  mirrors := h.mirrors.spilled content
  spares := (h.spares.spilled h.mirrors.numbered content).mono
    (fun _ named => List.mem_append_left _ named) fun _ => id
  temps := by
    intro t named
    rcases List.mem_append.mp named with old | new
    · exact h.temps t old
    · rw [List.mem_singleton.mp new]
      exact Or.inr h.spares.more
  streams := h.streams

theorem newStream (h : Together n₀ w₀ n w w') {p p' : PipeStream}
    (same : p = { p' with onClose := p.onClose })
    (claim : Option.Rel n.Temp p.onClose p'.onClose) :
    Together n₀ w₀ (n.withStream w.streams.length) { w with streams := w.streams ++ [p] }
      { w' with streams := w'.streams ++ [p'] } where
  mirrors := h.mirrors.newStream same claim
  spares := (h.spares.newStream p).mono (fun _ => id) fun _ named => List.mem_append_left _ named
  temps := h.temps
  streams := by
    obtain ⟨k, length⟩ := Nat.exists_eq_add_of_le h.spares.moreStreams
    have grown := h.streams
    unfold Names.withStream
    dsimp only
    rw [List.length_append, List.length_singleton, grown, List.append_assoc, length,
      Nat.add_assoc, Nat.add_sub_cancel_left, Nat.add_sub_cancel_left, List.range'_concat]
    simp

theorem marked (h : Together n₀ w₀ n w w') {j j' : Nat} (name : n.streams[j']? = some j) :
    Together n₀ w₀ n { w with streams := w.streams.modify j ({ · with closed := true }) }
      { w' with streams := w'.streams.modify j' ({ · with closed := true }) } where
  mirrors := h.mirrors.marked name
  spares := h.spares.marked (List.mem_of_getElem? name) _
  temps := h.temps
  streams := by
    rw [List.length_modify]
    exact h.streams

end Together

/-- Paths stay alike where the named temp files keep theirs. -/
theorem PathAlike.mono {m : Names} {v v' : World} {p p' : FilePath} (h : n.PathAlike w w' p p')
    (names : ∀ t t', n.Temp t t' → m.Temp t t')
    (paths : ∀ t ∈ n.temps, ∀ q, (w.temps.map TempFile.path)[t]? = some q →
      (v.temps.map TempFile.path)[t]? = some q)
    (paths' : (w'.temps.map TempFile.path) <+: (v'.temps.map TempFile.path)) :
    m.PathAlike v v' p p' := by
  rcases h with named | ⟨t, t', name, entry, entry'⟩
  · exact Or.inl named
  · exact Or.inr ⟨t, t', names t t' name, paths t name.mem p entry, kept paths' entry'⟩

/-- What is at a path is the same in both worlds. -/
theorem PathAlike.file {p p' : FilePath} (h : n.PathAlike w w' p p') (mirrors : n.Mirrors w w') :
    w.files p = w'.files p' := by
  rcases h with ⟨own, rfl, rfl⟩ | ⟨t, t', name, entry, entry'⟩
  · exact mirrors.named own
  · obtain ⟨f, f', found, found', -, -, file⟩ := mirrors.temps t t' name
    rw [List.getElem?_map, found] at entry
    rw [List.getElem?_map, found'] at entry'
    cases entry
    cases entry'
    exact file

end Names

end NewtuaPy
