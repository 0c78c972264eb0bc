import BundleAudit.Settings.Basic
import BundleAudit.Text.Blank
import BundleAudit.Text.Quoted

/-!
# Acceptable settings

Not all settings make sense: a name may be blank, or the base name that stands for every descriptor
may lack the descriptor extension.  The settings are checked one after the other, and the first
fault counts.

## Main definitions

* `SettingFault` — why settings are refused, with its message.
* `Settings.faults s` — all faults, in the order in which the settings are checked.
* `Settings.fault? s` — the first of them.

## Main results

* `Settings.fault?_eq_none_iff` — settings are accepted exactly if they satisfy
  `Settings.Acceptable`.
-/

namespace BundleAudit

open Text

/-- Why settings are refused. -/
inductive SettingFault where
  /-- A setting that has to name something is white space. -/
  | blank (name : SettingName)
  /-- The descriptors folder is a path of several parts. -/
  | nestedFolder (folder : String)
  /-- The descriptor extension does not start with a point, or is nothing else. -/
  | extensionShape (extension : String)
  /-- The base name that stands for every descriptor lacks the descriptor extension. -/
  | tokenWithoutExtension (token extension : String)
  /-- The header name contains a colon. -/
  | colonInHeader
  /-- A fragment of excluded paths is white space. -/
  | blankFragment
deriving DecidableEq, Repr

namespace SettingFault

/-- The setting that is at fault. -/
def name : SettingFault → SettingName
  | .blank name => name
  | .nestedFolder _ => .descriptorsFolder
  | .extensionShape _ => .descriptorExtension
  | .tokenWithoutExtension _ _ => .includeAllToken
  | .colonInHeader => .header
  | .blankFragment => .excludedFragments

/-- What is wrong with it. -/
def reason : SettingFault → String
  | .blank _ => "must be non-empty"
  | .nestedFolder folder => "must be a single directory name, got " ++ quotedString folder
  | .extensionShape extension => "must look like \".xml\", got " ++ quotedString extension
  | .tokenWithoutExtension token extension =>
    quotedString token ++ " must end with the descriptor extension " ++ quotedString extension
  | .colonInHeader => "must not contain ':'"
  | .blankFragment => "entries must be non-empty"

/-- The message of a fault. -/
def message (f : SettingFault) : String :=
  "invalid config field " ++ f.name.text ++ ": " ++ f.reason

end SettingFault

namespace Settings

/-- The descriptor extension is a point with something after it. -/
def HasExtensionShape (s : Settings) : Prop :=
  s.descriptorExtension.toList.head? = some '.' ∧ 2 ≤ s.descriptorExtension.utf8ByteSize

/-- The descriptors folder is a single name. -/
def HasSingleFolder (s : Settings) : Prop := ∀ c ∈ s.descriptorsFolder.toList, !isSeparator c

/-- The base name that stands for every descriptor has the descriptor extension. -/
def TokenHasExtension (s : Settings) : Prop :=
  s.descriptorExtension.toList.isSuffixOf s.includeAllToken.toList

/-- No fragment of excluded paths is white space. -/
def HasFragments (s : Settings) : Prop := ∀ f ∈ s.excludedFragments, ¬ IsBlank f.toList

instance (s : Settings) : Decidable s.HasExtensionShape := by
  unfold HasExtensionShape; infer_instance

instance (s : Settings) : Decidable s.HasSingleFolder :=
  List.decidableBAll _ s.descriptorsFolder.toList

instance (s : Settings) : Decidable s.TokenHasExtension := by
  unfold TokenHasExtension; infer_instance

instance (s : Settings) : Decidable s.HasFragments := by
  unfold HasFragments; infer_instance

/-- A fault, unless a condition holds. -/
def require (p : Prop) [Decidable p] (f : SettingFault) : List SettingFault := if p then [] else [f]

@[simp] theorem require_eq_nil_iff {p : Prop} [Decidable p] {f : SettingFault} :
    require p f = [] ↔ p := by
  unfold require
  split <;> simp_all

/-- All faults of settings, in the order in which the settings are checked. -/
def faults (s : Settings) : List SettingFault :=
  require (¬ IsBlank s.descriptorsFolder.toList) (.blank .descriptorsFolder) ++
  require s.HasSingleFolder (.nestedFolder s.descriptorsFolder) ++
  require (¬ IsBlank s.descriptorExtension.toList) (.blank .descriptorExtension) ++
  require s.HasExtensionShape (.extensionShape s.descriptorExtension) ++
  require (¬ IsBlank s.includeAllToken.toList) (.blank .includeAllToken) ++
  require s.TokenHasExtension (.tokenWithoutExtension s.includeAllToken s.descriptorExtension) ++
  require (¬ IsBlank s.header.toList) (.blank .header) ++
  require (':' ∉ s.header.toList) .colonInHeader ++
  require (¬ IsBlank s.manifestPath.toList) (.blank .manifestPath) ++
  require s.HasFragments .blankFragment

/-- The first fault of settings. -/
def fault? (s : Settings) : Option SettingFault := s.faults.head?

/-- What acceptable settings satisfy. -/
structure Acceptable (s : Settings) : Prop where
  /-- The descriptors folder has a name. -/
  folder : ¬ IsBlank s.descriptorsFolder.toList
  /-- It is a single name. -/
  singleFolder : s.HasSingleFolder
  /-- There is a descriptor extension. -/
  extension : ¬ IsBlank s.descriptorExtension.toList
  /-- It is a point with something after it. -/
  extensionShape : s.HasExtensionShape
  /-- There is a base name that stands for every descriptor. -/
  token : ¬ IsBlank s.includeAllToken.toList
  /-- It has the descriptor extension. -/
  tokenHasExtension : s.TokenHasExtension
  /-- The header has a name. -/
  header : ¬ IsBlank s.header.toList
  /-- Its name has no colon. -/
  headerColon : ':' ∉ s.header.toList
  /-- The manifest has a path. -/
  manifest : ¬ IsBlank s.manifestPath.toList
  /-- Every fragment of excluded paths says something. -/
  fragments : s.HasFragments

/-- Settings are accepted exactly if they are acceptable. -/
theorem fault?_eq_none_iff {s : Settings} : s.fault? = none ↔ s.Acceptable := by
  simp only [fault?, List.head?_eq_none_iff, faults, List.append_eq_nil_iff, require_eq_nil_iff]
  constructor
  · rintro ⟨⟨⟨⟨⟨⟨⟨⟨⟨h₁, h₂⟩, h₃⟩, h₄⟩, h₅⟩, h₆⟩, h₇⟩, h₈⟩, h₉⟩, h₁₀⟩
    exact ⟨h₁, h₂, h₃, h₄, h₅, h₆, h₇, h₈, h₉, h₁₀⟩
  · rintro ⟨h₁, h₂, h₃, h₄, h₅, h₆, h₇, h₈, h₉, h₁₀⟩
    exact ⟨⟨⟨⟨⟨⟨⟨⟨⟨h₁, h₂⟩, h₃⟩, h₄⟩, h₅⟩, h₆⟩, h₇⟩, h₈⟩, h₉⟩, h₁₀⟩

/-- The settings as they are without any document are acceptable. -/
theorem acceptable_default : Acceptable {} := fault?_eq_none_iff.1 (by decide +kernel)

end Settings

end BundleAudit
