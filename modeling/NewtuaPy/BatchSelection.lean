import NewtuaPy.Batch
import NewtuaPy.History

/-!
# Selections of a batch job

A job's selection is resolved in one of two ways: a selection of integers alone
is handed over as it is, any other is looked up in a listing of the archive.
`Archive.extract` looks every reference up.  The two agree except on integers
that count from the end or fall outside the archive.
-/

namespace NewtuaPy

namespace Batch

variable {eng : Engine} {job : ExtractJob}

/-- What `Archive.extract` resolves `job.selection` to, on a new archive over the
same source. -/
def singleSelection (eng : Engine) (files : FilePath → Option Bytes) (job : ExtractJob) :
    Except PyExc (Option (List Int)) :=
  ((do
    let _ ← Archive._open eng
    Archive.selected eng job.selection : Py Session (Option (List Int)))
    (Archive.init files (.path job.archive) job.password job.encoding)).1

/-- The string of the job names the file that `Archive` opens. -/
def SameFile (files : FilePath → Option Bytes) (arg : PathArg) : Prop :=
  files (.named arg.str) = files (.named (PurePosixPath.ofString arg.fspath).str)

/-- `list_path` finds the archive and lists `raw`. -/
def Lists (eng : Engine) (w : World) (job : ExtractJob) (raw : List EntryData) : Prop :=
  ∃ format encoding,
    (listPath eng (.named job.archive.str) job.password job.encoding w).1 =
      .ok (raw, format, encoding)

variable {w : World} {raw : List EntryData}

theorem Lists.snapshot (h : Lists eng w job raw) :
    ∃ o, eng.snapshot (w.files (.named job.archive.str)) job.password job.encoding = .ok o ∧
      o.entries = raw := by
  obtain ⟨format, encoding, listed⟩ := h
  rw [listPath_run] at listed
  rcases found : eng.snapshot (w.files (.named job.archive.str)) job.password job.encoding with
    fault | o <;> rw [found] at listed <;> cases listed
  exact ⟨o, rfl, rfl⟩

/-- A listed archive is there, and `Archive` opens it to the same listing. -/
theorem Lists.opened (h : Lists eng w job raw) (same : SameFile w.files job.archive) :
    ∃ o, (View.over eng w.files (.path job.archive) job.password job.encoding).opened = .ok o ∧
      o.entries = raw := by
  obtain ⟨o, snapshot, entries⟩ := h.snapshot
  refine ⟨o, ?_, entries⟩
  rw [same] at snapshot
  have present : (w.files (.named (PurePosixPath.ofString job.archive.fspath).str)).isSome =
      true := by
    rcases file : w.files (.named (PurePosixPath.ofString job.archive.fspath).str) with _ | c
    · rw [file] at snapshot
      cases snapshot
    · rfl
  rw [View.opened_present (.inr present)]
  exact congrArg (Except.mapError _) snapshot

theorem singleSelection_run (h : Lists eng w job raw) (same : SameFile w.files job.archive) :
    singleSelection eng w.files job =
      View.select (entriesFromRaw raw true).1 job.selection := by
  obtain ⟨o, opens, rfl⟩ := h.opened same
  have readable : (Source.path job.archive).Readable := True.intro
  have sees := Archive.init_sees eng w.files readable job.password job.encoding
  obtain ⟨r, s, opening, rfl, ready, -⟩ := sees._open_ok opens
  have resolves : (Archive.selected eng job.selection s).1 =
      View.select (entriesFromRaw r.entries true).1 job.selection := by
    have tracks : Archive.Tracks s.world.handed (Archive.Ready _ r) s [] :=
      ⟨ready, (List.append_nil _).symm⟩
    exact (Archive.selected_sim job.selection).result tracks
  unfold singleSelection
  exact (congrArg Prod.fst (Exn.bind_of_ok opening _)).trans resolves

/-- Every reference of the selection is an integer. -/
def AllInts (refs : List Ref) : Prop := ∀ ref ∈ refs, (asInt ref).isSome = true

theorem selectionIndices_ints (eng : Engine) {refs : List Ref} (given : job.selection = some refs)
    (ints : AllInts refs) (w : World) :
    _selectionIndices eng job w = (.ok (some (refs.filterMap asInt)), w) := by
  unfold _selectionIndices
  rw [given]
  dsimp only
  rw [if_pos (List.all_eq_true.mpr ints)]
  rfl

theorem selectionIndices_mixed (h : Lists eng w job raw) {refs : List Ref}
    (given : job.selection = some refs) (mixed : ¬ AllInts refs) :
    (_selectionIndices eng job w).1 =
      (refs.mapM (resolveIndex (entriesFromRaw raw false).1)).map some := by
  obtain ⟨o, snapshot, rfl⟩ := h.snapshot
  have listing := listPath_run eng (.named job.archive.str) job.password job.encoding w
  rw [snapshot] at listing
  unfold _selectionIndices
  rw [given]
  dsimp only
  rw [if_neg (fun all => mixed (List.all_eq_true.mp all)), Exn.bind_of_ok listing]
  dsimp only
  rcases refs.mapM (resolveIndex (entriesFromRaw o.entries false).1) with exc | is <;> rfl

/-- In range, an integer is what it resolves to. -/
theorem resolveInts {raw : List EntryData} (owned : Bool) {refs : List Ref} (ints : AllInts refs)
    (inside : ∀ i : Int, .int i ∈ refs → 0 ≤ i ∧ i < raw.length) :
    refs.mapM (resolveIndex (entriesFromRaw raw owned).1) = .ok (refs.filterMap asInt) := by
  induction refs with
  | nil => rfl
  | cons ref refs ih =>
      have rest := ih (fun ref member => ints ref (List.mem_cons_of_mem _ member))
        (fun i member => inside i (List.mem_cons_of_mem _ member))
      cases ref with
      | int i =>
          obtain ⟨low, high⟩ := inside i List.mem_cons_self
          have resolved : resolveIndex (entriesFromRaw raw owned).1 (.int i) = .ok i := by
            unfold resolveIndex
            dsimp only
            rw [entriesFromRaw_length, if_pos ⟨by omega, high⟩, Int.emod_eq_of_lt low high]
          rw [List.mapM_cons, resolved, rest]
          rfl
      | name text => cases ints _ List.mem_cons_self
      | path path => cases ints _ List.mem_cons_self
      | entry e => cases ints _ List.mem_cons_self

theorem resolved_bounds {raw : List EntryData} {owned : Bool} {refs : List Ref} {is : List Int}
    (within : ∀ ref ∈ refs, ref.Within (entriesFromRaw raw owned).1)
    (h : refs.mapM (resolveIndex (entriesFromRaw raw owned).1) = .ok is) :
    ∀ i ∈ is, 0 ≤ i ∧ i < raw.length := by
  induction refs generalizing is with
  | nil =>
      cases h
      exact nofun
  | cons ref refs ih =>
      rw [List.mapM_cons] at h
      rcases first : resolveIndex (entriesFromRaw raw owned).1 ref with exc | i <;>
        rw [first] at h
      · cases h
      · rcases rest : refs.mapM (resolveIndex (entriesFromRaw raw owned).1) with exc | js <;>
          rw [rest] at h <;> cases h
        intro j member
        rcases List.mem_cons.mp member with rfl | later
        · exact resolveIndex_bounds first (within ref List.mem_cons_self)
        · exact ih (fun ref member => within ref (List.mem_cons_of_mem _ member)) rest j later

/-- The batch resolves a selection as `Archive.extract` does, or fails with the
same class of exception, and every index it hands over is one of the archive. -/
structure Agrees (batch single : Except PyExc (Option (List Int))) (length : Nat) : Prop where
  same : batch.mapError PyExc.cls = single.mapError PyExc.cls
  inside : ∀ is, batch = .ok (some is) → ∀ i ∈ is, 0 ≤ i ∧ i < length

theorem selection_agrees_iff {eng : Engine} {job : ExtractJob} {w : World} {raw : List EntryData}
    (lists : Lists eng w job raw) (same : SameFile w.files job.archive)
    (within : ∀ refs, job.selection = some refs →
      ∀ ref ∈ refs, ref.Within (entriesFromRaw raw true).1) :
    Agrees (_selectionIndices eng job w).1 (singleSelection eng w.files job) raw.length ↔
      ∀ refs, job.selection = some refs → AllInts refs →
        ∀ i : Int, .int i ∈ refs → 0 ≤ i ∧ i < raw.length := by
  constructor
  · rintro agrees refs given ints i member
    have handed := congrArg Prod.fst (selectionIndices_ints eng given ints w)
    exact agrees.inside _ handed i (List.mem_filterMap.mpr ⟨_, member, rfl⟩)
  · intro inside
    rw [singleSelection_run lists same]
    rcases given : job.selection with _ | refs
    · have none : (_selectionIndices eng job w).1 = .ok none := by
        unfold _selectionIndices
        rw [given]
        rfl
      rw [none]
      exact ⟨rfl, nofun⟩
    · have resolved : (_selectionIndices eng job w).1 =
          (refs.mapM (resolveIndex (entriesFromRaw raw true).1)).map some := by
        by_cases ints : AllInts refs
        · rw [selectionIndices_ints eng given ints w,
            resolveInts true ints (inside refs given ints)]
          rfl
        · have owner := funext (resolveIndex_infos (entriesFromRaw_infos raw false true))
          rw [selectionIndices_mixed lists given ints, owner]
      rw [resolved]
      refine ⟨rfl, ?_⟩
      intro is handed
      rcases indices : refs.mapM (resolveIndex (entriesFromRaw raw true).1) with exc | js <;>
        rw [indices] at handed <;> cases handed
      exact resolved_bounds (within refs given) indices

/-! ## An archive of one file -/

def onlyEntry : CoreEntry where
  path := "a"
  pathRaw := [97]
  kind := .file
  size := 1
  isEncrypted := false
  mode := none
  modified := none

/-- An engine for which every file is an archive of one entry. -/
def oneFile : Engine where
  openContent _ _ _ :=
    .ok
      { entries := .ok ⟨[onlyEntry], one_lt_usizeBound⟩
        format := .zip
        readEntry := fun _ _ => { chunks := [[1]], status := .ok () }
        extractAll := fun _ _ => .ok { extracted := 1, failed := [], aborted := false } }
  missing := "no such file"
  invalidIndex _ := "invalid index"
  detectEncoding _ _ := "utf-8"
  wrapperName _ _ := none

def selecting (refs : List Ref) : ExtractJob where
  archive := ⟨"a.zip", "a.zip"⟩
  dest := ⟨"out", "out"⟩
  selection := some refs

def anyFile : World where
  files _ := some [80]

theorem oneFile_lists (refs : List Ref) :
    Lists oneFile anyFile (selecting refs) [entryData onlyEntry] := ⟨"zip", "utf-8", rfl⟩

/-- A name and the last entry counted from the end. -/
theorem selection_agrees_iff_mixed :
    Agrees (_selectionIndices oneFile (selecting [.name "a", .int (-1)]) anyFile).1
      (singleSelection oneFile anyFile.files (selecting [.name "a", .int (-1)])) 1 := by
  refine (selection_agrees_iff (oneFile_lists _) rfl ?_).mpr ?_
  · intro refs given ref member e same
    obtain rfl := same
    cases given
    simp at member
  · rintro refs given ints
    cases given
    exact absurd (ints (.name "a") List.mem_cons_self) (by decide)

/-- The last entry counted from the end, alone: the batch hands over `-1`, and
`Archive.extract` the index `0`. -/
theorem negative_selection_disagrees :
    ¬ Agrees (_selectionIndices oneFile (selecting [.int (-1)]) anyFile).1
      (singleSelection oneFile anyFile.files (selecting [.int (-1)])) 1 := by
  intro agrees
  have inside := agrees.inside [-1] rfl (-1) List.mem_cons_self
  omega

end Batch

end NewtuaPy
