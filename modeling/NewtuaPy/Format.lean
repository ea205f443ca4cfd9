import Mathlib.Data.List.Basic

/-!
# Container formats

The engine's `FormatId` with the name table of `lib.rs`, and the `Format` enum
of `_format.py`.  Every name the engine can report is a value of the enum, so
`Format(name)` does not raise on it.
-/

namespace NewtuaPy

/-- `newtua_core::FormatId`. -/
inductive FormatId
  | zip | tar | gzip | bzip2 | xz | sevenZ | rar | cab | ar | deb | cpio | rpm | xar | msi
  | iso | sfx | warc | raw | jar | apk | ipa | epub | docx | xlsx | pptx | odt | ods | odp
  | crx | conda | squashfs | appImage | wim | hfsPlus | dmg | apfs | arj | zoo | lbr | crunch
  | arc | squeeze | binHex | macBinary | appleSingle | compactPro | packIt | stuffIt | stuffIt5
  | stuffItX | alz | nsis | lzx | powerPacker | dms
deriving DecidableEq, Repr

/-- `format_name`. -/
def formatName : FormatId → String
  | .zip => "zip"
  | .tar => "tar"
  | .gzip => "gzip"
  | .bzip2 => "bzip2"
  | .xz => "xz"
  | .sevenZ => "7z"
  | .rar => "rar"
  | .cab => "cab"
  | .ar => "ar"
  | .deb => "deb"
  | .cpio => "cpio"
  | .rpm => "rpm"
  | .xar => "xar"
  | .msi => "msi"
  | .iso => "iso"
  | .sfx => "sfx"
  | .warc => "warc"
  | .raw => "raw"
  | .jar => "jar"
  | .apk => "apk"
  | .ipa => "ipa"
  | .epub => "epub"
  | .docx => "docx"
  | .xlsx => "xlsx"
  | .pptx => "pptx"
  | .odt => "odt"
  | .ods => "ods"
  | .odp => "odp"
  | .crx => "crx"
  | .conda => "conda"
  | .squashfs => "squashfs"
  | .appImage => "appimage"
  | .wim => "wim"
  | .hfsPlus => "hfsplus"
  | .dmg => "dmg"
  | .apfs => "apfs"
  | .arj => "arj"
  | .zoo => "zoo"
  | .lbr => "lbr"
  | .crunch => "crunch"
  | .arc => "arc"
  | .squeeze => "squeeze"
  | .binHex => "binhex"
  | .macBinary => "macbinary"
  | .appleSingle => "applesingle"
  | .compactPro => "compactpro"
  | .packIt => "packit"
  | .stuffIt => "stuffit"
  | .stuffIt5 => "stuffit5"
  | .stuffItX => "stuffitx"
  | .alz => "alz"
  | .nsis => "nsis"
  | .lzx => "lzx"
  | .powerPacker => "powerpacker"
  | .dms => "dms"

/-- `Format`, the enum of the Python layer. -/
inductive Format
  | alz | apfs | apk | appimage | applesingle | ar | arc | arj | binhex | bzip2 | cab
  | compactpro | conda | cpio | crunch | crx | deb | dmg | dms | docx | epub | gzip | hfsplus
  | ipa | iso | jar | lbr | lzx | macbinary | msi | nsis | odp | ods | odt | packit
  | powerpacker | pptx | rar | raw | rpm | sevenz | sfx | squashfs | squeeze | stuffit
  | stuffit5 | stuffitx | tar | warc | wim | xar | xlsx | xz | zip | zoo
deriving DecidableEq, Repr

def Format.value : Format → String
  | .alz => "alz"
  | .apfs => "apfs"
  | .apk => "apk"
  | .appimage => "appimage"
  | .applesingle => "applesingle"
  | .ar => "ar"
  | .arc => "arc"
  | .arj => "arj"
  | .binhex => "binhex"
  | .bzip2 => "bzip2"
  | .cab => "cab"
  | .compactpro => "compactpro"
  | .conda => "conda"
  | .cpio => "cpio"
  | .crunch => "crunch"
  | .crx => "crx"
  | .deb => "deb"
  | .dmg => "dmg"
  | .dms => "dms"
  | .docx => "docx"
  | .epub => "epub"
  | .gzip => "gzip"
  | .hfsplus => "hfsplus"
  | .ipa => "ipa"
  | .iso => "iso"
  | .jar => "jar"
  | .lbr => "lbr"
  | .lzx => "lzx"
  | .macbinary => "macbinary"
  | .msi => "msi"
  | .nsis => "nsis"
  | .odp => "odp"
  | .ods => "ods"
  | .odt => "odt"
  | .packit => "packit"
  | .powerpacker => "powerpacker"
  | .pptx => "pptx"
  | .rar => "rar"
  | .raw => "raw"
  | .rpm => "rpm"
  | .sevenz => "7z"
  | .sfx => "sfx"
  | .squashfs => "squashfs"
  | .squeeze => "squeeze"
  | .stuffit => "stuffit"
  | .stuffit5 => "stuffit5"
  | .stuffitx => "stuffitx"
  | .tar => "tar"
  | .warc => "warc"
  | .wim => "wim"
  | .xar => "xar"
  | .xlsx => "xlsx"
  | .xz => "xz"
  | .zip => "zip"
  | .zoo => "zoo"

/-- The members of the enum, in the order of their definition. -/
def Format.members : List Format :=
  [.alz, .apfs, .apk, .appimage, .applesingle, .ar, .arc, .arj, .binhex, .bzip2, .cab,
   .compactpro, .conda, .cpio, .crunch, .crx, .deb, .dmg, .dms, .docx, .epub, .gzip, .hfsplus,
   .ipa, .iso, .jar, .lbr, .lzx, .macbinary, .msi, .nsis, .odp, .ods, .odt, .packit,
   .powerpacker, .pptx, .rar, .raw, .rpm, .sevenz, .sfx, .squashfs, .squeeze, .stuffit,
   .stuffit5, .stuffitx, .tar, .warc, .wim, .xar, .xlsx, .xz, .zip, .zoo]

/-- `Format(name)`: the member with that value, if there is one. -/
def Format.ofValue (name : String) : Option Format :=
  Format.members.find? (fun f => f.value = name)

/-- Every format the engine reports is a member of the Python enum. -/
theorem Format.ofValue_formatName (id : FormatId) :
    ∃ f, Format.ofValue (formatName id) = some f ∧ f.value = formatName id := by
  cases id <;> exact ⟨_, rfl, rfl⟩

end NewtuaPy
