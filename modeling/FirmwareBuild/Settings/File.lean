import FirmwareBuild.Session
import FirmwareBuild.Settings
import FirmwareBuild.Toml.Reader

/-! # The settings file

Settings are read from a TOML file in the workspace. The table `build` holds the
parameters of the build and the table `tools` the places of the auxiliary tools;
a key that is none of theirs is an error, and so is a value that is no text. In
the place of a table, an array gives the values in the order of the fields. -/

namespace FirmwareBuild.Settings

def fileName : Text := "payload-build.toml".toList

def textOf? : Toml → Option Text
  | .string text => some text
  | _ => none

/-- The text under a key: `none` for a value that is no text, and `some none` for no value. -/
def entryText? (entries : Toml.Entries) (key : Text) : Option (Option Text) :=
  match entries.lookup key with
  | none => some none
  | some value => (textOf? value).map some

/-- The texts of the named fields. An array gives them by their order, and what it has besides is
not looked at. -/
def fields? (names : List Text) : Toml → Option (List (Option Text))
  | .table _ entries =>
    if entries.all fun entry => names.contains entry.1 then names.mapM (entryText? entries)
    else none
  | .array items => do
    let texts ← (items.take names.length).mapM textOf?
    some (texts.map some ++ List.replicate (names.length - texts.length) none)
  | _ => none

def buildOf? (value : Toml) : Option BuildParameters := do
  let [platform, arch] ← fields? ["platform".toList, "arch".toList] value | none
  let default : BuildParameters := {}
  some { platform := platform.getD default.platform, arch := arch.getD default.arch }

def toolsOf? (value : Toml) : Option ToolDefaults := do
  let names := ["nasm_prefix", "openssl_path", "iasl_prefix"].map String.toList
  let [nasm, openssl, iasl] ← fields? names value | none
  let default : ToolDefaults := {}
  some
    { nasmPrefix := nasm.getD default.nasmPrefix
      opensslPath := openssl.getD default.opensslPath
      iaslPrefix := iasl.getD default.iaslPrefix }

/-- What a table under a key sets, and the default where there is none. -/
def sectionOf? {α : Type} (read : Toml → Option α) (default : α) (entries : Toml.Entries)
    (key : Text) : Option α :=
  match entries.lookup key with
  | none => some default
  | some value => read value

def ofEntries? (entries : Toml.Entries) : Option Settings :=
  if entries.all fun entry => ["build".toList, "tools".toList].contains entry.1 then do
    let build ← sectionOf? buildOf? {} entries "build".toList
    let tools ← sectionOf? toolsOf? {} entries "tools".toList
    some { build, tools }
  else none

def read? (text : Text) : Option Settings := (Toml.read? text).bind ofEntries?

/-- The settings of a workspace, all of them default where it has no file. -/
def load (root : Bytes) : Run Settings := do
  let path := Pathname.join root (Utf8.encode fileName)
  let disk := (← get).disk
  unless disk.pathExists path do return {}
  match disk.readText path with
  | .error cause => throw (.io .read path cause)
  | .ok text =>
    match read? text with
    | some settings => return settings
    | none => throw (.settings path)

end FirmwareBuild.Settings
