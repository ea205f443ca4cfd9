import NewtuaPy.ArchiveRefines
import NewtuaPy.Lib.Lts

/-!
# History of a lazily opened archive

Runs of accessor calls and password assignments.  As long as no file object has
been spent on an open that the engine refuses, the next call ends as it would on
a new archive over the original source.
-/

namespace NewtuaPy

/-- The original content of a source. -/
def Source.content (files : FilePath → Option Bytes) : Source → Option Bytes
  | .path arg => files (.named (PurePosixPath.ofString arg.fspath).str)
  | .bytes content => some content
  | .stream file => some (copyLoop file.replies).2.1

/-- Reading the source to its end raises nothing. -/
def Source.Readable : Source → Prop
  | .stream file => (copyLoop file.replies).1 = .ok ()
  | _ => True

/-- The view of an archive over `source`. -/
def View.over (eng : Engine) (files : FilePath → Option Bytes) (source : Source)
    (password encoding : Option String) : View where
  eng := eng
  source := source
  content := source.content files
  password := password
  encoding := encoding
  owned := true

def View.withPassword (V : View) (password : Option String) : View := { V with password }

namespace Archive

/-- One step of a run without `close()`. -/
inductive Action
  | call (c : Call)
  | setPassword (password : Option String)

/-- The outcome of a step; an assignment has no value. -/
def perform (eng : Engine) : Machine Session Action (Except PyExc (Option Value))
  | s, .call c => ((call eng c s).1.map some, (call eng c s).2)
  | s, .setPassword password => (.ok none, (setPassword password s).2)

/-- The password in use after a run. -/
def currentPassword : Option String → List Action → Option String
  | password, [] => password
  | password, .call _ :: run => currentPassword password run
  | _, .setPassword password :: run => currentPassword password run

/-- No call of the run spends the source: no call that opens the archive falls
where the source is a file object that the engine refuses under the password in
use. -/
def Spares (V : View) : List Action → Prop
  | [] => True
  | .call c :: run => (View.opens c = true → ¬ V.Spends) ∧ Spares V run
  | .setPassword password :: run => Spares (V.withPassword password) run

variable {V : View} {s : Session}

theorem init_sees (eng : Engine) (files : FilePath → Option Bytes) {source : Source}
    (readable : source.Readable) (password encoding : Option String) :
    Sees (View.over eng files source password encoding)
      (init files source password encoding) where
  owned := rfl
  bytes := by
    intro b same
    obtain rfl : source = .bytes b := same
    rfl
  notClosed := rfl
  password := rfl
  encoding := rfl
  alike := .refl source
  backing := by
    cases source with
    | path arg => exact .own _ rfl rfl rfl
    | bytes content => exact .unread content rfl rfl rfl rfl
    | stream file => exact .unread _ rfl rfl rfl ⟨readable, rfl⟩
  cached := fun r cached => by cases cached
  listed := fun es listed => by cases listed

theorem Sees.call_same (h : Sees V s) (c : Call) :
    (call V.eng c s).1 = (V.call c []).1 ∧
      Tracks s.world.handed (Left V) (call V.eng c s).2 (V.call c []).2 :=
  (call_sim c).same ⟨h, (List.append_nil _).symm⟩

/-- The outcome of a call is the answer of the view. -/
theorem Sees.call_outcome (h : Sees V s) (c : Call) : (call V.eng c s).1 = (V.call c []).1 :=
  (h.call_same c).1

theorem Sees.call_left (h : Sees V s) (c : Call) : Left V (call V.eng c s).2 :=
  (h.call_same c).2.1

/-- A call leaves the relation intact unless it spends the source. -/
theorem Sees.call (h : Sees V s) {c : Call} (spared : View.opens c = true → ¬ V.Spends) :
    Sees V (Archive.call V.eng c s).2 := by
  by_cases opens : View.opens c = true
  · exact (h.call_left c).resolve_right (spared opens)
  · have other : c = .contains .other := by
      unfold View.opens at opens
      split at opens
      · rfl
      · exact absurd rfl opens
    rw [other]
    exact h

theorem Sees.setPassword (h : Sees V s) (password : Option String) :
    Sees (V.withPassword password) (Archive.setPassword password s).2 where
  owned := h.owned
  bytes := h.bytes
  notClosed := h.notClosed
  password := rfl
  encoding := h.encoding
  alike := h.alike
  backing := h.backing.transfer ⟨rfl, rfl⟩ rfl rfl rfl fun _ f _ entry held =>
    ⟨f, entry, rfl, held⟩
  cached := fun r cached => by cases cached
  listed := fun es listed => by cases listed

/-- Run lemma: the archive still sees its original content. -/
theorem Sees.run (h : Sees V s) {run : List Action} (spared : Spares V run) :
    Sees (V.withPassword (currentPassword V.password run)) ((perform V.eng).runState s run) := by
  induction run generalizing V s with
  | nil => exact h
  | cons action run ih =>
      rw [Machine.runState_cons]
      cases action with
      | call c => exact ih (h.call spared.1) spared.2
      | setPassword password => exact ih (h.setPassword password) spared

/-- History independence: after any run of accessor calls and password
assignments that does not spend a file object on a refused open, the next call
has the outcome it has on a new archive with the password in use. -/
theorem history_independent (eng : Engine) (files : FilePath → Option Bytes) (source : Source)
    (readable : source.Readable) (password encoding : Option String) (run : List Action)
    (spared : Spares (View.over eng files source password encoding) run) (next : Call) :
    (call eng next
        ((perform eng).runState (init files source password encoding) run)).1 =
      (call eng next (init files source (currentPassword password run) encoding)).1 := by
  have used := ((init_sees eng files readable password encoding).run spared).call_outcome next
  have new := (init_sees eng files readable (currentPassword password run) encoding).call_outcome
    next
  exact used.trans new.symm

/-! ## A header-encrypted archive -/

/-- An engine for which an empty file is no archive and any other file is one
with encrypted headers and no entries. -/
def headerEncrypted : Engine where
  openContent content password _ :=
    if content = [] then
      .error (.error { variant := .unknownFormat, message := "unknown format" })
    else if password = some "secret" then
      .ok
        { entries := .ok ⟨[], by decide⟩
          format := .sevenZ
          readEntry := fun _ _ => { chunks := [], status := .ok () }
          extractAll := fun _ _ => .ok { extracted := 0, failed := [], aborted := false } }
    else .error (.error { variant := .encrypted, message := "password required" })
  missing := "no such file"
  invalidIndex _ := "invalid index"
  detectEncoding _ _ := "utf-8"
  wrapperName _ _ := none

/-- `io.BytesIO` over an archive of one byte. -/
def bytesIO : Source := .stream { replies := [.ok [55]], name := .missing }

/-- Asking with the right password does not spend the file object. -/
theorem history_independent_bytesIO :
    (call headerEncrypted .len ((perform headerEncrypted).runState
        (init (fun _ => none) bytesIO none none)
        [.setPassword (some "secret"), .call .needsPassword])).1 =
      (call headerEncrypted .len (init (fun _ => none) bytesIO (some "secret") none)).1 := by
  refine history_independent headerEncrypted (fun _ => none) bytesIO rfl none none
    [.setPassword (some "secret"), .call .needsPassword] ⟨fun _ => ?_, True.intro⟩ .len
  intro spent
  obtain ⟨-, e, refused⟩ := spent
  cases refused

/-- "Ask `needs_password`, set the password, try again" on a file object ends in
the error of an empty file. -/
theorem password_retry_spends_file_object :
    (call headerEncrypted .len ((perform headerEncrypted).runState
        (init (fun _ => none) bytesIO none none)
        [.call .needsPassword, .setPassword (some "secret")])).1 ≠
      (call headerEncrypted .len (init (fun _ => none) bytesIO (some "secret") none)).1 := by
  decide

end Archive

end NewtuaPy
