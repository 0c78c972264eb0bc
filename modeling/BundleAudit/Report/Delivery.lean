import BundleAudit.Report.Basic

/-!
# Delivering reports

A reporter receives what a report has to say as a sequence of events: the manifest is started, its
findings come in order, and the manifest is finished.  A reporter may fail at an event, and then the
delivery of that report ends there.

## Main definitions

* `Event` — what a reporter receives.
* `BundleReport.events` — the events of a report.
* `Reporter` — a state and what an event makes of it, or a failure.
* `Reporter.deliver`, `Reporter.deliverAll` — the delivery of one report, or of several in turn.
* `collector`, `textWriter`, `recorder` — the reporters that keep records, that write lines, and
  that keep events up to a limit.
-/

namespace BundleAudit

/-- What a reporter receives. -/
inductive Event where
  /-- The findings of a manifest are about to come. -/
  | started (file : Path)
  /-- A finding in a manifest. -/
  | finding (file : Path) (f : Finding)
  /-- The findings of a manifest have come. -/
  | finished (file : Path)
deriving DecidableEq, Repr

/-- The events of a report. -/
def BundleReport.events (r : BundleReport) : List Event :=
  .started r.manifest :: (r.findings.map (.finding r.manifest) ++ [.finished r.manifest])

/-- A receiver of events with states in `σ`.  An event is accepted, which leads to a new state, or
it is refused. -/
structure Reporter (σ : Type) where
  /-- The state after an event, if it is accepted. -/
  receive : σ → Event → Option σ

namespace Reporter

variable {σ : Type}

/-- The state after events that come until one is refused, and whether all of them were accepted. -/
def receiveAll (rep : Reporter σ) : σ → List Event → σ × Bool
  | state, [] => (state, true)
  | state, event :: events =>
    match rep.receive state event with
    -- nothing is sent after a refusal
    | none => (state, false)
    | some state => rep.receiveAll state events

/-- The state after the delivery of a report, and whether it was delivered whole. -/
def deliver (rep : Reporter σ) (state : σ) (r : BundleReport) : σ × Bool :=
  rep.receiveAll state r.events

/-- The state after the delivery of reports in turn, and whether each was delivered whole. -/
def deliverAll (rep : Reporter σ) : σ → List BundleReport → σ × List Bool
  | state, [] => (state, [])
  | state, r :: rs =>
    let (state, whole) := rep.deliver state r
    let (state, others) := rep.deliverAll state rs
    (state, whole :: others)

end Reporter

/-- Keeps the record of every finding. -/
def collector (s : Settings) : Reporter (List Record) where
  receive
    | records, .finding file f => some (records ++ [Record.ofFinding s file f])
    | records, _ => some records

/-- Writes a line for every finding. -/
def textWriter (s : Settings) : Reporter String where
  receive
    | text, .finding file f => some (text ++ f.lineText s file)
    | text, _ => some text

/-- Keeps every event as long as it has not yet kept `limit` of them, and refuses all others.
Without a limit it keeps all. -/
def recorder (limit : Option Nat) : Reporter (List Event) where
  receive kept event := if limit = some kept.length then none else some (kept ++ [event])

end BundleAudit
