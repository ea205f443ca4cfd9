import NewtuaPy.AsyncArchive

/-!
# Lookups by name and by position

An entry can be found through the name index, by the scan of `_resolve_index`
and by its position.  On every listing that `_entries_from_raw` builds the three
ways end together, for `Archive` as for `AsyncArchive`.
-/

namespace NewtuaPy

/-! ## Names -/

/-- A key that names an entry: a `str` or a `PurePosixPath`. -/
inductive NameKey
  | str (s : String)
  | path (p : PurePosixPath)
deriving DecidableEq

namespace NameKey

/-- `PurePosixPath(key)`. -/
def target : NameKey → PurePosixPath
  | .str s => PurePosixPath.ofString s
  | .path p => p

/-- `str(key)`. -/
def text : NameKey → String
  | .str s => s
  | .path p => p.str

def key : NameKey → Archive.Key
  | .str s => .name s
  | .path p => .path p

def member : NameKey → Archive.Member
  | .str s => .name s
  | .path p => .path p

def ref : NameKey → Ref
  | .str s => .name s
  | .path p => .path p

end NameKey

/-- `e` is the first of the entries whose path is `p`. -/
def FirstNamed (entries : List Entry) (p : PurePosixPath) (e : Entry) : Prop :=
  ∃ i, entries[i]? = some e ∧ e.path = p ∧
    ∀ (j : Nat) (e' : Entry), j < i → entries[j]? = some e' → e'.path ≠ p

theorem find?_path_iff (entries : List Entry) (p : PurePosixPath) (e : Entry) :
    entries.find? (fun e => e.path = p) = some e ↔ FirstNamed entries p e := by
  rw [List.find?_eq_some_iff_getElem]
  constructor
  · intro found
    obtain ⟨named, i, inside, rfl, before⟩ := found
    refine ⟨i, List.getElem?_eq_getElem inside, of_decide_eq_true named, ?_⟩
    intro j e' earlier entry
    obtain ⟨inside', rfl⟩ := List.getElem?_eq_some_iff.mp entry
    have other := before j earlier
    simpa using other
  · intro first
    obtain ⟨i, entry, named, before⟩ := first
    obtain ⟨inside, rfl⟩ := List.getElem?_eq_some_iff.mp entry
    refine ⟨decide_eq_true named, i, inside, rfl, ?_⟩
    intro j earlier
    have other := before j _ earlier (List.getElem?_eq_getElem (by omega))
    simpa using other

/-! ## Positions -/

/-- A position in range stands for the entry it counts to, from either end. -/
theorem tupleItem_inside {entries : List Entry} {r : Int}
    (inside : -(entries.length : Int) ≤ r ∧ r < entries.length) :
    ∃ (i : Nat) (e : Entry), r % entries.length = (i : Int) ∧ entries[i]? = some e ∧
      tupleItem entries r = .ok e := by
  obtain ⟨low, high⟩ := inside
  have positive : (0 : Int) < entries.length := by omega
  have bound : (r % entries.length).toNat < entries.length := by
    have := Int.emod_nonneg r (b := entries.length) (by omega)
    have := Int.emod_lt_of_pos r positive
    omega
  have counted : (if r < 0 then r + entries.length else r) = r % entries.length := by
    by_cases negative : r < 0
    · rw [if_pos negative, ← Int.add_emod_right, Int.emod_eq_of_lt (by omega) (by omega)]
    · rw [if_neg negative, Int.emod_eq_of_lt (by omega) high]
  have nonneg : 0 ≤ r % (entries.length : Int) := Int.emod_nonneg r (by omega)
  refine ⟨(r % entries.length).toNat, _, (Int.toNat_of_nonneg nonneg).symm,
    List.getElem?_eq_getElem bound, ?_⟩
  unfold tupleItem
  rw [counted]
  dsimp only
  rw [if_pos nonneg, List.getElem?_eq_getElem bound]

theorem tupleItem_outside {entries : List Entry} {r : Int}
    (outside : ¬ (-(entries.length : Int) ≤ r ∧ r < entries.length)) :
    tupleItem entries r = .error (indexError "tuple index out of range") := by
  have none : (if 0 ≤ (if r < 0 then r + entries.length else r) then
      entries[(if r < 0 then r + entries.length else r).toNat]? else none) = none := by
    by_cases negative : r < 0
    · rw [if_pos negative, if_neg (by omega)]
    · rw [if_neg negative]
      split
      · apply List.getElem?_eq_none
        omega
      · rfl
  unfold tupleItem
  dsimp only
  rw [none]

/-! ## The listing -/

variable (raw : List EntryData) (owned : Bool)

theorem entriesFromRaw_getElem? (i : Nat) :
    (entriesFromRaw raw owned).1[i]? = raw[i]?.map (entryFromRaw owned i) :=
  List.getElem?_mapIdx

variable {raw owned} in
/-- An entry knows its position. -/
theorem entriesFromRaw_position {i : Nat} {e : Entry}
    (entry : (entriesFromRaw raw owned).1[i]? = some e) : e.index = i := by
  rw [entriesFromRaw_getElem?] at entry
  obtain ⟨r, -, rfl⟩ := Option.map_eq_some_iff.mp entry
  rfl

theorem byName_lookup (p : PurePosixPath) :
    (entriesFromRaw raw owned).2.lookup p =
      (entriesFromRaw raw owned).1.find? (fun e => e.path = p) :=
  nameIndex_lookup _ p

variable {raw owned} in
/-- A position resolves as the tuple of the entries takes it. -/
theorem resolveIndex_int_iff (r i : Int) :
    resolveIndex (entriesFromRaw raw owned).1 (.int r) = .ok i ↔
      ∃ e, tupleItem (entriesFromRaw raw owned).1 r = .ok e ∧ i = e.index := by
  unfold resolveIndex
  by_cases inside : -((entriesFromRaw raw owned).1.length : Int) ≤ r ∧
      r < (entriesFromRaw raw owned).1.length
  · obtain ⟨j, e, position, entry, item⟩ := tupleItem_inside inside
    have index := entriesFromRaw_position entry
    simp only [inside, and_self, if_true, position, item, Except.ok.injEq]
    constructor
    · intro same
      exact ⟨e, rfl, same.symm.trans index.symm⟩
    · intro found
      obtain ⟨_, rfl, same⟩ := found
      exact (same.trans index).symm
  · simp only [inside, if_false, tupleItem_outside inside]
    exact ⟨nofun, fun found => nomatch found⟩

/-- A lookup by name is settled by the name index. -/
theorem resolveIndex_name (k : NameKey) :
    resolveIndex (entriesFromRaw raw owned).1 k.ref =
      match (entriesFromRaw raw owned).2.lookup k.target with
      | some e => .ok e.index
      | none => .error (entryNotFound k.text) := by
  rw [byName_lookup]
  cases k <;> rfl

/-! ## Sessions that hold a listing -/

/-- The session with the listing of `raw` in its cache. -/
def Session.listed (s : Session) (raw : List EntryData) : Session :=
  { s with self :=
    { s.self with
      entries := some (entriesFromRaw raw true).1
      byName := some (entriesFromRaw raw true).2 } }

/-- The session of an asynchronous archive that has listed `raw`. -/
def AsyncSession.listed (a : AsyncSession) (raw : List EntryData) : AsyncSession :=
  { a with self :=
    { a.self with
      entries := (entriesFromRaw raw false).1
      byName := (entriesFromRaw raw false).2 } }

/-- The ways to look a name up end together: with the entry that was found, or
with nothing found. -/
def Together (k : NameKey) (found : Option Entry) (item : Except PyExc Archive.Value)
    (inside : Except PyExc Bool) (index : Except PyExc Int) : Prop :=
  match found with
  | some e => item = .ok (.entry e) ∧ inside = .ok true ∧ index = .ok e.index
  | none => item = .error (entryNotFound k.text) ∧ inside = .ok false ∧
      index = .error (entryNotFound k.text)

theorem archive_together (eng : Engine) (s : Session) (k : NameKey) :
    Together k ((entriesFromRaw raw true).2.lookup k.target)
      (Archive.getitem eng k.key (s.listed raw)).1
      (Archive.contains eng k.member (s.listed raw)).1
      (Archive._indexOf eng k.ref (s.listed raw)).1 := by
  have listing : Archive._listing eng (s.listed raw) =
      (.ok (entriesFromRaw raw true).1, s.listed raw) := rfl
  have indexed : Archive.nameIndex (s.listed raw) =
      (.ok (entriesFromRaw raw true).2, s.listed raw) := rfl
  have index : Archive._indexOf eng k.ref (s.listed raw) =
      (resolveIndex (entriesFromRaw raw true).1 k.ref, s.listed raw) :=
    Exn.bind_of_ok listing _
  have item : Archive.getitem eng k.key (s.listed raw) =
      ((Archive.itemByName (entriesFromRaw raw true).2 k.target k.text).map .entry,
        s.listed raw) := by
    refine (Exn.bind_of_ok listing _).trans ?_
    cases k with
    | str text => exact (Exn.bind_of_ok indexed _).trans (Exn.lift_map_apply _ _ _)
    | path path => exact (Exn.bind_of_ok indexed _).trans (Exn.lift_map_apply _ _ _)
  have inside : Archive.contains eng k.member (s.listed raw) =
      (.ok ((entriesFromRaw raw true).2.lookup k.target).isSome, s.listed raw) := by
    cases k with
    | str text => exact (Exn.bind_of_ok listing _).trans (Exn.bind_of_ok indexed _)
    | path path => exact (Exn.bind_of_ok listing _).trans (Exn.bind_of_ok indexed _)
  rw [index, item, inside, resolveIndex_name]
  unfold Together Archive.itemByName
  rcases (entriesFromRaw raw true).2.lookup k.target with _ | e
  · exact ⟨rfl, rfl, rfl⟩
  · exact ⟨rfl, rfl, rfl⟩

theorem asyncArchive_together (a : AsyncSession) (k : NameKey) :
    Together k ((entriesFromRaw raw false).2.lookup k.target)
      (AsyncArchive.getitem k.key (a.listed raw)).1
      (AsyncArchive.contains k.member (a.listed raw)).1
      (AsyncArchive.indexOf k.ref (a.listed raw)).1 := by
  have index : AsyncArchive.indexOf k.ref (a.listed raw) =
      (resolveIndex (entriesFromRaw raw false).1 k.ref, a.listed raw) := rfl
  have item : AsyncArchive.getitem k.key (a.listed raw) =
      ((Archive.itemByName (entriesFromRaw raw false).2 k.target k.text).map .entry,
        a.listed raw) := by
    cases k with
    | str text => exact Exn.lift_map_apply _ _ _
    | path path => exact Exn.lift_map_apply _ _ _
  have inside : AsyncArchive.contains k.member (a.listed raw) =
      (.ok ((entriesFromRaw raw false).2.lookup k.target).isSome, a.listed raw) := by
    cases k <;> rfl
  rw [index, item, inside, resolveIndex_name]
  unfold Together Archive.itemByName
  rcases (entriesFromRaw raw false).2.lookup k.target with _ | e
  · exact ⟨rfl, rfl, rfl⟩
  · exact ⟨rfl, rfl, rfl⟩

/-- What `_entries_from_raw` promises of its two results, and `_resolve_index`
of the entries. -/
structure ListingAgrees (raw : List EntryData) (owned : Bool) : Prop where
  length : (entriesFromRaw raw owned).1.length = raw.length
  entry : ∀ (i : Nat), (entriesFromRaw raw owned).1[i]? = raw[i]?.map fun r =>
    { index := i
      path := PurePosixPath.ofString r.path
      rawName := r.rawName
      kind := safeKind r.kind
      size := r.size
      isEncrypted := r.isEncrypted
      mode := r.mode
      mtime := safeMtime r.mtime
      owned }
  position : ∀ (i : Nat) e, (entriesFromRaw raw owned).1[i]? = some e → e.index = i
  first : ∀ (k : NameKey) e, (entriesFromRaw raw owned).2.lookup k.target = some e ↔
    FirstNamed (entriesFromRaw raw owned).1 k.target e
  absent : ∀ k : NameKey, (entriesFromRaw raw owned).2.lookup k.target = none ↔
    ∀ e ∈ (entriesFromRaw raw owned).1, e.path ≠ k.target
  numbered : ∀ r i, resolveIndex (entriesFromRaw raw owned).1 (.int r) = .ok i ↔
    ∃ e, tupleItem (entriesFromRaw raw owned).1 r = .ok e ∧ i = e.index
  bounds : ∀ ref i, (∀ e, ref ≠ .entry e) →
    resolveIndex (entriesFromRaw raw owned).1 ref = .ok i →
      0 ≤ i ∧ i < (entriesFromRaw raw owned).1.length

theorem listing_agrees : ListingAgrees raw owned where
  length := entriesFromRaw_length raw owned
  entry := entriesFromRaw_getElem? raw owned
  position := fun _ _ => entriesFromRaw_position
  first := by
    intro k e
    rw [byName_lookup]
    exact find?_path_iff _ _ e
  absent := by
    intro k
    rw [byName_lookup]
    simp
  numbered := resolveIndex_int_iff
  bounds := by
    intro ref i plain resolved
    rw [entriesFromRaw_length]
    exact resolveIndex_bounds resolved fun e same => absurd same (plain e)

/-- On every listing, the name index, the scan and the positions agree. -/
theorem lookups_agree (eng : Engine) (s : Session) (a : AsyncSession) :
    ListingAgrees raw owned ∧
    ∀ k : NameKey,
      Together k ((entriesFromRaw raw true).2.lookup k.target)
        (Archive.getitem eng k.key (s.listed raw)).1
        (Archive.contains eng k.member (s.listed raw)).1
        (resolveIndex (entriesFromRaw raw true).1 k.ref) ∧
      Together k ((entriesFromRaw raw false).2.lookup k.target)
        (AsyncArchive.getitem k.key (a.listed raw)).1
        (AsyncArchive.contains k.member (a.listed raw)).1
        (resolveIndex (entriesFromRaw raw false).1 k.ref) := by
  refine ⟨listing_agrees raw owned, fun k => ⟨?_, ?_⟩⟩
  · have index : (Archive._indexOf eng k.ref (s.listed raw)).1 =
        resolveIndex (entriesFromRaw raw true).1 k.ref := rfl
    rw [← index]
    exact archive_together raw eng s k
  · exact asyncArchive_together raw a k

end NewtuaPy
