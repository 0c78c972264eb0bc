/-!
# Settings of an audit

A bundle keeps its descriptors below one folder and declares them in one header of its manifest.
The settings name the folder, the header and the rest of this layout.

## Main definitions

* `Settings` — the seven settings with their defaults.
* `Settings.includeAll` — the declaration that includes every descriptor.
* `Settings.manifestFileName` — the last part of the manifest's path.
* `SettingName` — the names of the settings, as documents write them.
-/

namespace BundleAudit

/-- The layout of a bundle as an audit expects it. -/
structure Settings where
  /-- The folder that holds the descriptors. -/
  descriptorsFolder : String := "OSGI-INF"
  /-- What the name of a descriptor ends with. -/
  descriptorExtension : String := ".xml"
  /-- The base name that stands for every descriptor. -/
  includeAllToken : String := "*.xml"
  /-- Files below the descriptors folder are left out if the path of their folder contains one of
  these. -/
  excludedFragments : List String := []
  /-- The manifest header with the declarations. -/
  header : String := "Service-Component"
  /-- The path of the manifest inside a bundle. -/
  manifestPath : String := "META-INF/MANIFEST.MF"
  /-- Folders of these names are never searched. -/
  skippedFolders : List String := [".git", "target"]
deriving DecidableEq, Repr

namespace Settings

/-- The declaration that includes every descriptor. -/
def includeAll (s : Settings) : String := s.descriptorsFolder ++ "/" ++ s.includeAllToken

/-- Whether a character separates the parts of the manifest's path. -/
def isSeparator (c : Char) : Bool := c = '/' || c = '\\'

/-- The last part of the manifest's path. -/
def manifestFileName (s : Settings) : String :=
  String.ofList (s.manifestPath.toList.reverse.takeWhile (!isSeparator ·)).reverse

end Settings

/-- The names of the settings. -/
inductive SettingName where
  /-- Names `Settings.descriptorsFolder`. -/
  | descriptorsFolder
  /-- Names `Settings.descriptorExtension`. -/
  | descriptorExtension
  /-- Names `Settings.includeAllToken`. -/
  | includeAllToken
  /-- Names `Settings.excludedFragments`. -/
  | excludedFragments
  /-- Names `Settings.header`. -/
  | header
  /-- Names `Settings.manifestPath`. -/
  | manifestPath
  /-- Names `Settings.skippedFolders`. -/
  | skippedFolders
deriving DecidableEq, Repr

namespace SettingName

/-- All names, in the order in which documents list them. -/
def all : List SettingName :=
  [.descriptorsFolder, .descriptorExtension, .includeAllToken, .excludedFragments, .header,
    .manifestPath, .skippedFolders]

/-- A name as a document writes it. -/
def text : SettingName → String
  | .descriptorsFolder => "descriptors_folder"
  | .descriptorExtension => "descriptor_extension"
  | .includeAllToken => "global_wildcard_token"
  | .excludedFragments => "excluded_subfolders"
  | .header => "header"
  | .manifestPath => "manifest_path"
  | .skippedFolders => "skip_dirs"

/-- The setting that a key of a document names. -/
def ofText? (key : String) : Option SettingName := all.find? fun name => name.text == key

/-- All names are listed. -/
theorem mem_all (name : SettingName) : name ∈ all := by
  cases name <;> decide

/-- Settings are told apart by their names. -/
theorem ofText?_text (name : SettingName) : ofText? name.text = some name := by
  cases name <;> decide

end SettingName

end BundleAudit
