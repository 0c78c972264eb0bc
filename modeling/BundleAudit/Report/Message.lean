import BundleAudit.Finding
import BundleAudit.Settings.Basic

/-!
# Messages of findings

Every kind of finding has one sentence.  It speaks of the names that the finding is about and of the
layout that the settings describe; a name that a finding lacks is left empty.

## Main definitions

* `Finding.message s f` — the message of a finding.
-/

namespace BundleAudit

/-- The message of a finding. -/
def Finding.message (s : Settings) (f : Finding) : String :=
  match f.kind with
  | .wrongDirectory =>
    "Incorrect directory for services - " ++ f.param 0 ++
      ". The services metadata files must be placed directly in " ++ s.descriptorsFolder ++
      " directory."
  | .wrongExtension =>
    "The service " ++ f.param 0 ++ " is with invalid extension. Only " ++ s.descriptorExtension ++
      " metadata files for services description are expected in the " ++ s.descriptorsFolder ++
      " directory."
  | .matchesNothing =>
    "The service component " ++ f.param 0 ++ " does not match any of the existing services."
  | .includeAllAdvised =>
    "A good approach is to use " ++ s.includeAll ++
      " instead of including the services metadata files separately."
  | .repeatedService =>
    "If you are using " ++ s.includeAll ++
      ", do not include any of the services explicitly. " ++
      "Otherwise they will be included more than once."
  | .missingService =>
    "The service " ++ f.param 0 ++ " does not exist in the " ++ s.descriptorsFolder ++ " folder."
  | .undeclaredService =>
    "The service " ++ f.param 0 ++ " is not included in the " ++ s.manifestFileName ++
      " file. Are you sure that there is no need to be included?"
  | .unreadableFile => "Could not read " ++ f.param 0 ++ ": " ++ f.param 1

end BundleAudit
