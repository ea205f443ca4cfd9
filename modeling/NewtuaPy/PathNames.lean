import NewtuaPy.AsyncArchive
import NewtuaPy.Batch

/-!
# Paths by name

`str(path)` names the path it came from: parsing it again gives the path back.
So wherever the package takes a path, the string it prints does the same.
-/

namespace NewtuaPy

/-! ## The round trip -/

theorem splitSlash_eq (cs : List Char) : splitSlash cs = cs.splitOn '/' := by
  induction cs with
  | nil => simp [splitSlash, List.splitOn_nil]
  | cons c cs ih =>
      rw [List.splitOn_cons_eq_if_modifyHead, splitSlash, ih]
      by_cases slash : c = '/'
      · simp [slash]
      · have found := List.splitOn_ne_nil '/' cs
        rcases pieces : cs.splitOn '/' with _ | ⟨piece, pieces⟩
        · exact absurd pieces found
        · simp [slash]

namespace PurePosixPath

/-- The roots that `posixpath.splitroot` knows. -/
def Rooted (p : PurePosixPath) : Prop := p.root = "" ∨ p.root = "/" ∨ p.root = "//"

theorem splitRoot_rooted (cs : List Char) :
    (splitRoot cs).1 = "" ∨ (splitRoot cs).1 = "/" ∨ (splitRoot cs).1 = "//" := by
  unfold splitRoot
  split <;> simp

theorem ofString_rooted (text : String) : (ofString text).Rooted := splitRoot_rooted text.toList

/-- The parts between slashes, as pathlib keeps them. -/
def partsOf (cs : List Char) : List (List Char) :=
  (splitSlash cs).filter fun piece => piece ≠ [] ∧ piece ≠ ['.']

theorem partsOf_intercalate {parts : List (List Char)} (isPart : ∀ part ∈ parts, IsPart part) :
    partsOf (['/'].intercalate parts) = parts := by
  have kept : parts.filter (fun piece => piece ≠ [] ∧ piece ≠ ['.']) = parts := by
    refine List.filter_eq_self.mpr fun part member => ?_
    exact decide_eq_true ⟨(isPart part member).1, (isPart part member).2.1⟩
  unfold partsOf
  rw [splitSlash_eq]
  cases parts with
  | nil => decide
  | cons part parts =>
      rw [List.splitOn_intercalate '/' (fun piece member => (isPart piece member).2.2) nofun]
      exact kept

/-- What the parts make of a path starts with no slash. -/
theorem intercalate_head {parts : List (List Char)} (isPart : ∀ part ∈ parts, IsPart part)
    (rest : List Char) : ['/'].intercalate parts ≠ '/' :: rest := by
  cases parts with
  | nil => exact nofun
  | cons part parts =>
      obtain ⟨nonempty, -, noSlash⟩ := isPart part List.mem_cons_self
      rcases part with _ | ⟨c, cs⟩
      · exact absurd rfl nonempty
      · intro same
        have head : c = '/' := by
          cases parts <;> simp [List.intercalate] at same <;> exact same.1
        exact noSlash (head ▸ List.mem_cons_self)

theorem splitRoot_relative {cs : List Char} (noSlash : ∀ rest, cs ≠ '/' :: rest) :
    splitRoot cs = ("", cs) := by
  unfold splitRoot
  split
  · exact absurd rfl (noSlash _)
  · exact absurd rfl (noSlash _)
  · exact absurd rfl (noSlash _)
  · rfl

theorem eq_of_root_parts {p q : PurePosixPath} (root : p.root = q.root)
    (parts : p.parts = q.parts) : p = q := by
  cases p
  cases q
  simp_all

/-- A printed path splits again at its own root. -/
theorem splitRoot_str {p : PurePosixPath} (rooted : p.Rooted)
    (named : ¬ (p.root = "" ∧ p.parts = [])) :
    splitRoot p.str.toList = (p.root, ['/'].intercalate p.parts) := by
  have head := intercalate_head p.isPart
  have printed : p.str.toList = p.root.toList ++ ['/'].intercalate p.parts := by
    simp [str, named]
  rw [printed]
  rcases rooted with root | root | root <;> rw [root]
  · exact splitRoot_relative head
  · change splitRoot ('/' :: ['/'].intercalate p.parts) = _
    unfold splitRoot
    split <;> simp_all
  · change splitRoot ('/' :: '/' :: ['/'].intercalate p.parts) = _
    unfold splitRoot
    split <;> grind

/-- Parsing what `str` prints gives the path back. -/
theorem ofString_str {p : PurePosixPath} (rooted : p.Rooted) : ofString p.str = p := by
  by_cases unnamed : p.root = "" ∧ p.parts = []
  · -- the empty path prints as a dot, which is no part
    refine eq_of_root_parts ?_ ?_
    · rw [str, if_pos unnamed, unnamed.1]
      decide
    · rw [str, if_pos unnamed, unnamed.2]
      decide
  · have split := splitRoot_str rooted unnamed
    refine eq_of_root_parts ?_ ?_
    · simp only [ofString, split]
    · simp only [ofString, split]
      exact partsOf_intercalate p.isPart

end PurePosixPath

/-! ## References by name -/

/-- `str(ref)` in the place of a path. -/
def Ref.byName : Ref → Ref
  | .path p => .name p.str
  | ref => ref

def Ref.Rooted : Ref → Prop
  | .path p => p.Rooted
  | _ => True

theorem resolveIndex_byName (entries : List Entry) {ref : Ref} (rooted : ref.Rooted) :
    resolveIndex entries ref.byName = resolveIndex entries ref := by
  cases ref with
  | path p =>
      have printed := PurePosixPath.ofString_str (show p.Rooted from rooted)
      simp only [Ref.byName, resolveIndex, printed]
  | int | name | entry => rfl

theorem mapM_resolveIndex_byName (entries : List Entry) {refs : List Ref}
    (rooted : ∀ ref ∈ refs, ref.Rooted) :
    (refs.map Ref.byName).mapM (resolveIndex entries) = refs.mapM (resolveIndex entries) := by
  induction refs with
  | nil => rfl
  | cons ref refs ih =>
      rw [List.forall_mem_cons] at rooted
      rw [List.map_cons, List.mapM_cons, List.mapM_cons, ih rooted.2,
        resolveIndex_byName entries rooted.1]

namespace Archive

def Key.byName : Key → Key
  | .path p => .name p.str
  | key => key

def Key.Rooted : Key → Prop
  | .path p => p.Rooted
  | _ => True

def Member.byName : Member → Member
  | .path p => .name p.str
  | key => key

def Member.Rooted : Member → Prop
  | .path p => p.Rooted
  | _ => True

/-- The request, its selection by name. -/
def ExtractRequest.byName (r : ExtractRequest) : ExtractRequest :=
  { r with selection := r.selection.map (List.map Ref.byName) }

def ExtractRequest.Rooted (r : ExtractRequest) : Prop :=
  ∀ refs ∈ r.selection, ∀ ref ∈ refs, ref.Rooted

/-- The call, every path in it turned into the string it prints. -/
def Call.byName : Call → Call
  | .getitem key => .getitem key.byName
  | .contains key => .contains key.byName
  | .read ref => .read ref.byName
  | .openBuffered ref => .openBuffered ref.byName
  | .openStream ref => .openStream ref.byName
  | .extract request => .extract request.byName
  | c => c

/-- Every path in the call is one that `PurePosixPath` can make. -/
def Call.Rooted : Call → Prop
  | .getitem key => key.Rooted
  | .contains key => key.Rooted
  | .read ref => ref.Rooted
  | .openBuffered ref => ref.Rooted
  | .openStream ref => ref.Rooted
  | .extract request => request.Rooted
  | _ => True

variable (eng : Engine)

theorem getitem_byName {key : Key} (rooted : key.Rooted) :
    getitem eng key.byName = getitem eng key := by
  cases key with
  | path p =>
      have printed := PurePosixPath.ofString_str (show p.Rooted from rooted)
      simp only [Key.byName, getitem, printed]
  | int | slice | name => rfl

theorem contains_byName {key : Member} (rooted : key.Rooted) :
    contains eng key.byName = contains eng key := by
  cases key with
  | path p =>
      have printed := PurePosixPath.ofString_str (show p.Rooted from rooted)
      simp only [Member.byName, contains, printed]
  | entry | name | other => rfl

theorem _indexOf_byName {ref : Ref} (rooted : ref.Rooted) :
    _indexOf eng ref.byName = _indexOf eng ref := by
  unfold _indexOf
  simp only [resolveIndex_byName _ rooted]

theorem indices_byName {refs : List Ref} (rooted : ∀ ref ∈ refs, ref.Rooted) :
    indices eng (refs.map Ref.byName) = indices eng refs := by
  induction refs with
  | nil => rfl
  | cons ref refs ih =>
      rw [List.forall_mem_cons] at rooted
      rw [List.map_cons, indices, indices, ih rooted.2, _indexOf_byName eng rooted.1]

theorem selected_byName {r : ExtractRequest} (rooted : r.Rooted) :
    selected eng r.byName.selection = selected eng r.selection := by
  unfold ExtractRequest.byName
  rcases selection : r.selection with _ | refs
  · rfl
  · simp only [Option.map_some, selected]
    rw [indices_byName eng (rooted refs selection)]

theorem extract_byName {r : ExtractRequest} (rooted : r.Rooted) :
    extract eng r.byName = extract eng r := by
  unfold extract
  rw [selected_byName eng rooted]
  rfl

theorem call_byName {c : Call} (rooted : c.Rooted) : call eng c.byName = call eng c := by
  cases c with
  | getitem key =>
      have named := getitem_byName eng (show key.Rooted from rooted)
      simp only [Call.byName, call, named]
  | contains key =>
      have named := contains_byName eng (show key.Rooted from rooted)
      simp only [Call.byName, call, named]
  | read ref =>
      have named := _indexOf_byName eng (show ref.Rooted from rooted)
      simp only [Call.byName, call, read, named]
  | openBuffered ref =>
      have named := _indexOf_byName eng (show ref.Rooted from rooted)
      simp only [Call.byName, call, openBuffered, named]
  | openStream ref =>
      have named := _indexOf_byName eng (show ref.Rooted from rooted)
      simp only [Call.byName, call, openStream, named]
  | extract request =>
      have named := extract_byName eng (show request.Rooted from rooted)
      simp only [Call.byName, call, named]
  | len | iter | format | detectedEncoding | needsPassword => rfl

end Archive

namespace AsyncArchive

open Archive

def Call.byName : Call → Call
  | .getitem key => .getitem key.byName
  | .contains key => .contains key.byName
  | .read ref => .read ref.byName
  | .extract request => .extract request.byName
  | c => c

def Call.Rooted : Call → Prop
  | .getitem key => key.Rooted
  | .contains key => key.Rooted
  | .read ref => ref.Rooted
  | .extract request => request.Rooted
  | _ => True

theorem getitem_byName {key : Key} (rooted : key.Rooted) :
    getitem key.byName = getitem key := by
  cases key with
  | path p =>
      have printed := PurePosixPath.ofString_str (show p.Rooted from rooted)
      simp only [Key.byName, getitem, printed]
  | int | slice | name => rfl

theorem contains_byName {key : Member} (rooted : key.Rooted) :
    contains key.byName = contains key := by
  cases key with
  | path p =>
      have printed := PurePosixPath.ofString_str (show p.Rooted from rooted)
      simp only [Member.byName, contains, printed]
  | entry | name | other => rfl

theorem indexOf_byName {ref : Ref} (rooted : ref.Rooted) : indexOf ref.byName = indexOf ref := by
  simp only [indexOf, resolveIndex_byName _ rooted]

theorem open_byName {ref : Ref} (rooted : ref.Rooted) : «open» ref.byName = «open» ref := by
  simp only [«open», indexOf_byName rooted]

theorem selected_byName {r : ExtractRequest} (rooted : r.Rooted) :
    selected r.byName.selection = selected r.selection := by
  unfold ExtractRequest.byName
  rcases selection : r.selection with _ | refs
  · rfl
  · simp only [Option.map_some, selected, mapM_resolveIndex_byName _ (rooted refs selection)]

theorem extract_byName (eng : Engine) {r : ExtractRequest} (rooted : r.Rooted) :
    extract eng r.byName = extract eng r := by
  unfold extract
  rw [selected_byName rooted]
  rfl

theorem call_byName (eng : Engine) {c : Call} (rooted : c.Rooted) :
    call eng c.byName = call eng c := by
  cases c with
  | getitem key =>
      have named := getitem_byName (show key.Rooted from rooted)
      simp only [Call.byName, call, named]
  | contains key =>
      have named := contains_byName (show key.Rooted from rooted)
      simp only [Call.byName, call, named]
  | read ref =>
      have named := indexOf_byName (show ref.Rooted from rooted)
      simp only [Call.byName, call, read, named]
  | extract request =>
      have named := extract_byName eng (show request.Rooted from rooted)
      simp only [Call.byName, call, named]
  | len | iter | format | detectedEncoding | needsPassword => rfl

end AsyncArchive

namespace Batch

def ExtractJob.byName (job : ExtractJob) : ExtractJob :=
  { job with selection := job.selection.map (List.map Ref.byName) }

def ExtractJob.Rooted (job : ExtractJob) : Prop :=
  ∀ refs ∈ job.selection, ∀ ref ∈ refs, ref.Rooted

theorem asInt_byName (ref : Ref) : asInt ref.byName = asInt ref := by
  cases ref <;> rfl

theorem _selectionIndices_byName (eng : Engine) {job : ExtractJob} (rooted : job.Rooted) :
    _selectionIndices eng job.byName = _selectionIndices eng job := by
  unfold _selectionIndices ExtractJob.byName
  rcases selection : job.selection with _ | refs
  · rfl
  · have named : ∀ entries, (refs.map Ref.byName).mapM (resolveIndex entries) =
        refs.mapM (resolveIndex entries) :=
      fun entries => mapM_resolveIndex_byName entries (rooted refs selection)
    -- a string is as little an integer as the path it names
    have ints : asInt ∘ Ref.byName = asInt := funext asInt_byName
    simp only [Option.map_some, List.all_map, List.filterMap_map, named, ints,
      Function.comp_def, asInt_byName]

theorem _extractOne_byName (eng : Engine) {job : ExtractJob} (rooted : job.Rooted) :
    _extractOne eng job.byName = _extractOne eng job := by
  unfold _extractOne
  rw [_selectionIndices_byName eng rooted]
  rfl

end Batch

/-- A path prints to a string that parses back to it.  So the string does what the
path does in every call of `Archive` and of `AsyncArchive` and in every batch job,
down to the error text. -/
theorem paths_go_by_name (eng : Engine) :
    (∀ text, (PurePosixPath.ofString text).Rooted) ∧
    (∀ p : PurePosixPath, p.Rooted → PurePosixPath.ofString p.str = p) ∧
    (∀ c : Archive.Call, c.Rooted → Archive.call eng c.byName = Archive.call eng c) ∧
    (∀ c : AsyncArchive.Call, c.Rooted →
      AsyncArchive.call eng c.byName = AsyncArchive.call eng c) ∧
    (∀ ref : Ref, ref.Rooted → AsyncArchive.open ref.byName = AsyncArchive.open ref) ∧
    ∀ job : Batch.ExtractJob, job.Rooted →
      Batch._extractOne eng job.byName = Batch._extractOne eng job :=
  ⟨PurePosixPath.ofString_rooted, fun _ => PurePosixPath.ofString_str,
    fun _ => Archive.call_byName eng, fun _ => AsyncArchive.call_byName eng,
    fun _ => AsyncArchive.open_byName, fun _ => Batch._extractOne_byName eng⟩

end NewtuaPy
