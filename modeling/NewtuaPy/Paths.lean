import Mathlib.Data.List.Basic

/-!
# Paths

`pathlib.PurePosixPath` as the package uses it: built from a string, compared,
and turned back into a string.  A path object is its root and its parts, in
normal form by construction: the parts are non-empty, contain no slash and are
never `.`.
-/

namespace NewtuaPy

/-- The pieces between slashes, empty ones included. -/
def splitSlash : List Char → List (List Char)
  | [] => [[]]
  | c :: cs =>
      if c = '/' then [] :: splitSlash cs
      else match splitSlash cs with
        | [] => [[c]]
        | piece :: pieces => (c :: piece) :: pieces

/-- A piece of a path that pathlib keeps as a part. -/
def IsPart (piece : List Char) : Prop := piece ≠ [] ∧ piece ≠ ['.'] ∧ '/' ∉ piece

/-- `PurePosixPath`: the root is empty, `/` or `//`. -/
structure PurePosixPath where
  root : String
  parts : List (List Char)
  isPart : ∀ part ∈ parts, IsPart part
deriving DecidableEq

theorem splitSlash_noSlash (cs : List Char) : ∀ piece ∈ splitSlash cs, '/' ∉ piece := by
  induction cs with
  | nil => simp [splitSlash]
  | cons c cs ih =>
      unfold splitSlash
      split
      · intro piece member
        rcases List.mem_cons.mp member with rfl | rest
        · exact List.not_mem_nil
        · exact ih piece rest
      · rename_i notSlash
        split
        · intro piece member
          obtain rfl := List.mem_singleton.mp member
          simpa [eq_comm] using notSlash
        · rename_i first pieces split
          rw [split] at ih
          intro piece member
          rcases List.mem_cons.mp member with rfl | rest
          · have clean := ih first List.mem_cons_self
            simp only [List.mem_cons, not_or]
            exact ⟨fun same => notSlash same.symm, clean⟩
          · exact ih piece (List.mem_cons_of_mem first rest)

namespace PurePosixPath

/-- `posixpath.splitroot`: exactly two leading slashes are kept as a root of
their own, any other number of them is one root slash. -/
def splitRoot : List Char → String × List Char
  | '/' :: '/' :: '/' :: rest => ("/", '/' :: '/' :: rest)
  | '/' :: '/' :: rest => ("//", rest)
  | '/' :: rest => ("/", rest)
  | rest => ("", rest)

/-- `PurePosixPath(text)`: empty and `.` components are dropped. -/
def ofString (text : String) : PurePosixPath where
  root := (splitRoot text.toList).1
  parts := (splitSlash (splitRoot text.toList).2).filter
    (fun piece => piece ≠ [] ∧ piece ≠ ['.'])
  isPart := by
    intro part member
    obtain ⟨split, kept⟩ := List.mem_filter.mp member
    obtain ⟨nonempty, notDot⟩ := of_decide_eq_true kept
    exact ⟨nonempty, notDot, splitSlash_noSlash _ part split⟩

/-- `str(path)`. -/
def str (p : PurePosixPath) : String :=
  if p.root = "" ∧ p.parts = [] then "."
  else p.root ++ String.ofList (['/'].intercalate p.parts)

example : (ofString "a//b/./c/").str = "a/b/c" := by decide

example : ofString "./a" = ofString "a/" := by decide

end PurePosixPath

end NewtuaPy
