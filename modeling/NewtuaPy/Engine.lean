import NewtuaPy.Entry
import NewtuaPy.Format
import NewtuaPy.Progress

/-!
# The engine

`newtua_core` is not part of the repository.  It enters as a parameter: what an
archive file of given content opens to under a password and an encoding, and
what the reader so obtained answers.  A reader may go back to the archive's path
when it reads an entry (7z and RAR do), so its operations also see what the path
holds at that moment.
-/

namespace NewtuaPy

/-- One `read_entry`: the chunks it writes into its sink, then its result. -/
structure Decoded where
  chunks : List Bytes
  status : Except Fault Unit

/-- `newtua_core::ExtractOptions`. -/
structure ExtractOptions where
  dest : String
  wrapperName : Option String
  strict : Bool
  preserve : Bool
  selection : Option (List Nat)
  progress : Option (List CoreEvent → CoreEvent → Flow)
  keepMacosMetadata : Bool

/-- The engine's extraction report. -/
structure CoreReport where
  extracted : Nat
  failed : List String
  aborted : Bool

/-- A `Vec`, whose length is a `usize`. -/
structure Vec (α : Type) where
  toList : List α
  fits : toList.length < usizeBound

/-- `Box<dyn ArchiveReader>`. -/
structure Reader where
  entries : Except Fault (Vec CoreEntry)
  format : FormatId
  readEntry : Option Bytes → Nat → Decoded
  extractAll : Option Bytes → ExtractOptions → Except Fault CoreReport

/-- The functions of `newtua_core` the compiled module calls.  A missing file
is reported as an I/O error with the text `missing`; `invalidIndex` is the text
of `Error::InvalidIndex`. -/
structure Engine where
  openContent : Bytes → Option String → Option String → Except Fault Reader
  missing : String
  invalidIndex : Nat → String
  detectEncoding : List Bytes → Option String → String
  wrapperName : String → Bool → Option String

/-- `core_open` of a path that holds `file`. -/
def Engine.coreOpen (eng : Engine) (file : Option Bytes) (password encoding : Option String) :
    Except Fault Reader :=
  match file with
  | some content => eng.openContent content password encoding
  | none => .error (.error { variant := .io, message := eng.missing })

end NewtuaPy
