import Mathlib.Data.Int.Log
import Mathlib.Data.Rat.Floor
import NewtuaPy.Errors
import NewtuaPy.Paths

/-!
# Entries and their lookup

The listing snapshot of `lib.rs`, the `Entry` dataclass, and the listing helpers
of `_archive.py`: `_entries_from_raw`, which builds the entry tuple with its
name index, and `_resolve_index`, which turns a reference into a position.
-/

namespace NewtuaPy

abbrev Bytes := List UInt8

/-! ## The engine's listing -/

/-- `newtua_core::EntryKind`. -/
inductive CoreKind
  | file
  | dir
  | symlink (target : String)
deriving DecidableEq, Repr

/-- `newtua_core::Entry`.  `path` is the lossily decoded path; `modified` is in
seconds relative to the Unix epoch. -/
structure CoreEntry where
  path : String
  pathRaw : Bytes
  kind : CoreKind
  size : Nat
  isEncrypted : Bool
  mode : Option Nat
  modified : Option ℚ
deriving DecidableEq

/-- `EntryData`, and the attributes of the compiled module's `Entry` object.
The timestamp is kept as the exact number of seconds; its rounding to a double
is not modelled. -/
structure EntryData where
  path : String
  rawName : Bytes
  kind : String
  size : Nat
  isEncrypted : Bool
  mode : Option Nat
  mtime : Option ℚ
deriving DecidableEq

def entryData (e : CoreEntry) : EntryData where
  path := e.path
  rawName := e.pathRaw
  kind := match e.kind with
    | .file => "file"
    | .dir => "dir"
    | .symlink _ => "symlink"
  size := e.size
  isEncrypted := e.isEncrypted
  mode := e.mode
  mtime := e.modified.bind fun t => if 0 ≤ t then some t else none

/-! ## The `Entry` dataclass -/

inductive EntryKind
  | file
  | dir
  | symlink
deriving DecidableEq, Repr

/-- `_safe_kind`: anything unrecognised is a file. -/
def safeKind : String → EntryKind
  | "dir" => .dir
  | "symlink" => .symlink
  | _ => .file

/-- A UTC `datetime`, as microseconds since the Unix epoch. -/
abbrev DateTime := Int

/-- The nearest integer, the even one of two. -/
def roundHalfEven (x : ℚ) : Int :=
  let low := x.floor
  let rest := x - low
  if rest < 1 / 2 then low
  else if rest > 1 / 2 then low + 1
  else if low % 2 = 0 then low else low + 1

/-- The result of an operation on doubles: 53 significant bits. -/
def roundDouble (x : ℚ) : ℚ :=
  if x = 0 then 0
  else
    let ulp : ℚ := 2 ^ (Int.log 2 |x| - 52)
    roundHalfEven (x / ulp) * ulp

/-- `datetime.fromtimestamp(raw, tz=timezone.utc)`: the fraction of a second is multiplied as a
double and then rounded to microseconds, and what falls outside the years 1 to 9999 is refused. -/
def fromTimestamp (raw : ℚ) : Option DateTime :=
  let seconds : Int := if 0 ≤ raw then raw.floor else raw.ceil
  let us := seconds * 1000000 + roundHalfEven (roundDouble ((raw - seconds) * 1000000))
  if -62135596800000000 ≤ us ∧ us < 253402300800000000 then some us else none

@[simp] theorem roundHalfEven_intCast (n : Int) : roundHalfEven n = n := by
  simp [roundHalfEven]

/-- A whole number of seconds is kept exactly. -/
theorem fromTimestamp_intCast (n : Int) :
    fromTimestamp n =
      if -62135596800 ≤ n ∧ n < 253402300800 then some (n * 1000000) else none := by
  have rest : roundHalfEven (roundDouble (((n : ℚ) - n) * 1000000)) = 0 := by
    rw [sub_self, zero_mul]
    exact roundHalfEven_intCast 0
  have years : (-62135596800000000 ≤ n * 1000000 ∧ n * 1000000 < 253402300800000000) ↔
      -62135596800 ≤ n ∧ n < 253402300800 := by
    omega
  simp only [fromTimestamp, Rat.floor_intCast, Rat.ceil_intCast, ite_self, rest, add_zero, years]

/-- `_safe_mtime`. -/
def safeMtime (raw : Option ℚ) : Option DateTime := raw.bind fromTimestamp

/-- The compared fields of `Entry`. -/
structure EntryInfo where
  index : Int
  path : PurePosixPath
  rawName : Bytes
  kind : EntryKind
  size : Nat
  isEncrypted : Bool
  mode : Option Nat
  mtime : Option DateTime
deriving DecidableEq

/-- `Entry`: `owned` says that the back-reference `_archive` is set.  It is
excluded from comparison. -/
structure Entry extends EntryInfo where
  owned : Bool
deriving DecidableEq

/-- `Entry.__eq__`. -/
def Entry.pyEq (a b : Entry) : Bool := decide (a.toEntryInfo = b.toEntryInfo)

@[simp] theorem Entry.pyEq_iff (a b : Entry) :
    a.pyEq b = true ↔ a.toEntryInfo = b.toEntryInfo := by
  simp [Entry.pyEq]

/-- A reference to an entry, as `read`, `open` and `extract` take it. -/
inductive Ref
  | int (i : Int)
  | name (s : String)
  | path (p : PurePosixPath)
  | entry (e : Entry)
deriving DecidableEq

/-- The lookup error, raised with the `str(ref)` of a name or a path.  It is a `KeyError`, whose
`str()` is the `repr` of that. -/
def entryNotFound (text : String) : PyExc := { cls := .entryNotFoundError, text }

def indexError (text : String) : PyExc := { cls := .indexError, text }

/-! ## The listing helpers -/

/-- `dict[PurePosixPath, Entry]`, in insertion order. -/
abbrev NameIndex := List (PurePosixPath × Entry)

/-- `dict.setdefault`. -/
def NameIndex.setdefault (d : NameIndex) (key : PurePosixPath) (e : Entry) : NameIndex :=
  match d.lookup key with
  | some _ => d
  | none => d ++ [(key, e)]

theorem NameIndex.lookup_setdefault (d : NameIndex) (key p : PurePosixPath) (e : Entry) :
    (d.setdefault key e).lookup p = (d.lookup p).or (if p = key then some e else none) := by
  unfold NameIndex.setdefault
  rcases found : d.lookup key with _ | e'
  · dsimp only
    rw [List.lookup_append]
    by_cases same : p = key
    · subst same
      simp
    · have other : (p == key) = false := by simpa using same
      simp [List.lookup_cons, other, same]
  · dsimp only
    by_cases same : p = key
    · subst same
      simp [found]
    · simp [same]

/-- One `Entry(...)` of `_entries_from_raw`. -/
def entryFromRaw (owned : Bool) (i : Nat) (r : EntryData) : Entry where
  index := i
  path := PurePosixPath.ofString r.path
  rawName := r.rawName
  kind := safeKind r.kind
  size := r.size
  isEncrypted := r.isEncrypted
  mode := r.mode
  mtime := safeMtime r.mtime
  owned := owned

/-- The name index over an entry list: the first entry of each path wins. -/
def nameIndex (entries : List Entry) : NameIndex :=
  entries.foldl (fun d e => d.setdefault e.path e) []

/-- A name stands for the first entry of its path. -/
theorem nameIndex_lookup (entries : List Entry) (p : PurePosixPath) :
    (nameIndex entries).lookup p = entries.find? (fun e => e.path = p) := by
  have from' : ∀ d : NameIndex,
      (entries.foldl (fun d e => d.setdefault e.path e) d).lookup p =
        (d.lookup p).or (entries.find? (fun e => e.path = p)) := by
    induction entries with
    | nil => simp
    | cons e entries ih =>
        intro d
        rw [List.foldl_cons, ih, NameIndex.lookup_setdefault, Option.or_assoc]
        by_cases same : p = e.path
        · subst same
          simp
        · simp [same, Ne.symm same]
  exact from' []

/-- `_entries_from_raw(raw, owner)`. -/
def entriesFromRaw (raw : List EntryData) (owned : Bool) : List Entry × NameIndex :=
  let entries := raw.mapIdx (entryFromRaw owned)
  (entries, nameIndex entries)

/-- The scan at the end of `_resolve_index`. -/
def scanFor (entries : List Entry) (target : PurePosixPath) (text : String) :
    Except PyExc Int :=
  match entries.find? (fun e => e.path = target) with
  | some e => .ok e.index
  | none => .error (entryNotFound text)

/-- `_resolve_index(entries, ref)`. -/
def resolveIndex (entries : List Entry) : Ref → Except PyExc Int
  | .int i =>
      if -(entries.length : Int) ≤ i ∧ i < entries.length then .ok (i % entries.length)
      else .error (indexError (toString i))
  | .entry e => .ok e.index
  | .name s => scanFor entries (PurePosixPath.ofString s) s
  | .path p => scanFor entries p p.str

/-- `entries[i]` of a tuple. -/
def tupleItem (entries : List Entry) (i : Int) : Except PyExc Entry :=
  let j := if i < 0 then i + entries.length else i
  match if 0 ≤ j then entries[j.toNat]? else none with
  | some e => .ok e
  | none => .error (indexError "tuple index out of range")

theorem tupleItem_natCast {entries : List Entry} {n : Nat} {e : Entry}
    (h : tupleItem entries n = .ok e) : entries[n]? = some e := by
  unfold tupleItem at h
  rw [if_neg (by omega)] at h
  dsimp only at h
  rw [if_pos (by omega), Int.toNat_natCast] at h
  rcases found : entries[n]? with _ | e' <;> rw [found] at h <;> cases h
  rfl

theorem tupleItem_of_getElem {entries : List Entry} {n : Nat} {e : Entry}
    (h : entries[n]? = some e) : tupleItem entries n = .ok e := by
  unfold tupleItem
  rw [if_neg (by omega)]
  dsimp only
  rw [if_pos (by omega), Int.toNat_natCast, h]

@[simp] theorem entriesFromRaw_length (raw : List EntryData) (owned : Bool) :
    (entriesFromRaw raw owned).1.length = raw.length := by
  simp [entriesFromRaw]

/-- Who owns the entries is not part of what is compared. -/
theorem entriesFromRaw_infos (raw : List EntryData) (owned owned' : Bool) :
    (entriesFromRaw raw owned).1.map Entry.toEntryInfo =
      (entriesFromRaw raw owned').1.map Entry.toEntryInfo := by
  unfold entriesFromRaw
  simp only [List.mapIdx_eq_zipIdx_map, List.map_map]
  rfl

theorem scanFor_infos {entries entries' : List Entry}
    (h : entries.map Entry.toEntryInfo = entries'.map Entry.toEntryInfo)
    (target : PurePosixPath) (text : String) :
    scanFor entries target text = scanFor entries' target text := by
  have found : ∀ es : List Entry, scanFor es target text =
      match (es.map Entry.toEntryInfo).find? (fun e => e.path = target) with
      | some e => .ok e.index
      | none => .error (entryNotFound text) := by
    intro es
    unfold scanFor
    rw [List.find?_map]
    change _ = match Option.map Entry.toEntryInfo (es.find? fun e => decide (e.path = target)) with
      | some e => Except.ok e.index
      | none => .error (entryNotFound text)
    generalize List.find? (fun e : Entry => decide (e.path = target)) es = first
    cases first <;> rfl
  rw [found, found, h]

/-- Resolving a reference does not look at the owner of an entry. -/
theorem resolveIndex_infos {entries entries' : List Entry}
    (h : entries.map Entry.toEntryInfo = entries'.map Entry.toEntryInfo) (ref : Ref) :
    resolveIndex entries ref = resolveIndex entries' ref := by
  have length : entries.length = entries'.length := by
    simpa using congrArg List.length h
  cases ref with
  | int i =>
      unfold resolveIndex
      rw [length]
  | entry e => rfl
  | name text => exact scanFor_infos h _ _
  | path path => exact scanFor_infos h _ _

theorem entriesFromRaw_index {raw : List EntryData} {owned : Bool} {e : Entry}
    (h : e ∈ (entriesFromRaw raw owned).1) : 0 ≤ e.index ∧ e.index < raw.length := by
  obtain ⟨i, inside, rfl⟩ := List.mem_mapIdx.mp h
  exact ⟨Int.natCast_nonneg i, Int.ofNat_lt.mpr inside⟩

/-- A reference to an entry of the listing, or to anything else. -/
def Ref.Within (entries : List Entry) (ref : Ref) : Prop :=
  ∀ e, ref = .entry e → e.toEntryInfo ∈ entries.map Entry.toEntryInfo

theorem resolveIndex_bounds {raw : List EntryData} {owned : Bool} {ref : Ref} {i : Int}
    (h : resolveIndex (entriesFromRaw raw owned).1 ref = .ok i)
    (within : ref.Within (entriesFromRaw raw owned).1) : 0 ≤ i ∧ i < raw.length := by
  have scanned {target : PurePosixPath} {text : String}
      (found : scanFor (entriesFromRaw raw owned).1 target text = .ok i) :
      0 ≤ i ∧ i < raw.length := by
    unfold scanFor at found
    split at found
    · next e first =>
      cases found
      exact entriesFromRaw_index (List.mem_of_find?_eq_some first)
    · cases found
  cases ref with
  | int j =>
      unfold resolveIndex at h
      dsimp only at h
      rw [entriesFromRaw_length] at h
      split at h
      · next inside =>
        cases h
        have positive : (0 : Int) < raw.length := by omega
        exact ⟨Int.emod_nonneg j (by omega), Int.emod_lt_of_pos j positive⟩
      · cases h
  | entry e =>
      cases h
      obtain ⟨e', member, same⟩ := List.mem_map.mp (within e rfl)
      rw [← same]
      exact entriesFromRaw_index member
  | name text => exact scanned h
  | path path => exact scanned h

/-! ## Slices -/

/-- A `slice` object. -/
structure PySlice where
  start : Option Int
  stop : Option Int
  step : Option Int
deriving DecidableEq, Repr

/-- Clamp a slice bound into `[lower, upper]`, counting from the end when negative. -/
def clampBound (len lower upper : Int) (bound : Int) : Int :=
  if bound < 0 then max (bound + len) lower else min bound upper

/-- `range(*slice.indices(len))`. -/
def PySlice.positions (s : PySlice) (len : Nat) : Except PyExc (List Int) :=
  let step := s.step.getD 1
  let n : Int := len
  if step = 0 then .error { cls := .valueError, text := "slice step cannot be zero" }
  else if 0 < step then
    let start := (s.start.map (clampBound n 0 n)).getD 0
    let stop := (s.stop.map (clampBound n 0 n)).getD n
    let count := if start < stop then (stop - start - 1) / step + 1 else 0
    .ok ((List.range count.toNat).map fun (k : Nat) => start + k * step)
  else
    let start := (s.start.map (clampBound n (-1) (n - 1))).getD (n - 1)
    let stop := (s.stop.map (clampBound n (-1) (n - 1))).getD (-1)
    let count := if stop < start then (start - stop - 1) / (-step) + 1 else 0
    .ok ((List.range count.toNat).map fun (k : Nat) => start + k * step)

/-- `entries[slice]`. -/
def tupleSlice (entries : List Entry) (s : PySlice) : Except PyExc (List Entry) :=
  match s.positions entries.length with
  | .error exc => .error exc
  | .ok positions => .ok (positions.filterMap fun j => entries[j.toNat]?)

end NewtuaPy
