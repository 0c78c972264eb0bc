import BundleAudit.Report.Delivery
import Mathlib.Data.List.Basic

/-!
# What gets delivered

A reporter that never refuses folds over the findings of the reports, one report after the other.
One that has had enough at some point accepts what comes before that point and nothing after it.
The second kind is followed by what has been sent: the events accepted are always the first ones of
all events sent so far, and from the first refusal on no event makes a difference, be it one of the
same report or of a later one.

## Main definitions

* `Reporter.Folds` — a reporter takes findings one by one and never refuses.
* `Reporter.StopsAt` — a reporter accepts a number of events and refuses all others.

## Main results

* `Reporter.Folds.deliverAll` — what a reporter that never refuses makes of reports.
* `Reporter.StopsAt.receiveAll`, `Reporter.StopsAt.deliverAll` — what one that stops accepts of some
  events, and of all events of some reports.
* `Reporter.deliverAll_stopsAt` — **what is delivered is the start of what there is to say**.
-/

namespace BundleAudit

/-- The findings of a report, each with the manifest that it is in. -/
def BundleReport.located (r : BundleReport) : List (Path × Finding) :=
  r.findings.map fun f => (r.manifest, f)

theorem BundleReport.map_located (s : Settings) (r : BundleReport) :
    (r.located.map fun x => Record.ofFinding s x.1 x.2) = r.records s := by
  rw [located, records, List.map_map]
  rfl

namespace Reporter

variable {σ : Type} {rep : Reporter σ}

/-! ### Reporters that fold -/

section

variable {step : σ → Path → Finding → σ}

/-- A reporter takes findings one by one.  It refuses nothing, and what comes between the findings
makes no difference. -/
def Folds (rep : Reporter σ) (step : σ → Path → Finding → σ) : Prop :=
  ∀ state event, rep.receive state event =
    some (match event with
      | .finding file f => step state file f
      | _ => state)

theorem Folds.receiveAll_findings (h : rep.Folds step) (state : σ) (file : Path)
    (findings : List Finding) (events : List Event) :
    rep.receiveAll state (findings.map (.finding file) ++ events) =
      rep.receiveAll (findings.foldl (fun st f => step st file f) state) events := by
  induction findings generalizing state with
  | nil => rfl
  | cons f findings ih =>
    rw [List.map_cons, List.cons_append, receiveAll, h, List.foldl_cons]
    exact ih _

/-- A report is taken whole. -/
theorem Folds.deliver (h : rep.Folds step) (state : σ) (r : BundleReport) :
    rep.deliver state r = (r.located.foldl (fun st x => step st x.1 x.2) state, true) := by
  rw [Reporter.deliver, BundleReport.events, receiveAll, h]
  dsimp only
  rw [h.receiveAll_findings, receiveAll, h, BundleReport.located, List.foldl_map]
  rfl

/-- So are reports in turn. -/
theorem Folds.deliverAll (h : rep.Folds step) (state : σ) (rs : List BundleReport) :
    rep.deliverAll state rs =
      ((rs.flatMap BundleReport.located).foldl (fun st x => step st x.1 x.2) state,
        rs.map fun _ => true) := by
  induction rs generalizing state with
  | nil => rfl
  | cons r rs ih =>
    rw [Reporter.deliverAll, h.deliver, List.flatMap_cons, List.foldl_append, List.map_cons]
    dsimp only
    rw [ih]

end

/-! ### Reporters that stop -/

section

variable {accepted : σ → List Event} {limit : Nat} {state : σ} {sent : List Event}

/-- A reporter accepts `limit` events and refuses an event exactly if it has accepted that many
already.  The events accepted so far can be told from its state. -/
structure StopsAt (rep : Reporter σ) (accepted : σ → List Event) (limit : Nat) : Prop where
  /-- It refuses if it has accepted enough. -/
  refuses : ∀ state event, (accepted state).length = limit → rep.receive state event = none
  /-- Else it accepts. -/
  accepts : ∀ state event, (accepted state).length ≠ limit → ∃ state',
    rep.receive state event = some state' ∧ accepted state' = accepted state ++ [event]

/-- If the events accepted are the first ones of those sent, they still are after further events,
and all of these were accepted if there was room for them. -/
theorem StopsAt.receiveAll (h : rep.StopsAt accepted limit)
    (hsent : accepted state = sent.take limit) (events : List Event) :
    accepted (rep.receiveAll state events).1 = (sent ++ events).take limit ∧
      ((rep.receiveAll state events).2 = true ↔
        events = [] ∨ (sent ++ events).length ≤ limit) := by
  induction events generalizing state sent with
  | nil =>
    rw [Reporter.receiveAll, List.append_nil]
    exact ⟨hsent, iff_of_true rfl (Or.inl rfl)⟩
  | cons event events ih =>
    have hlength := congrArg List.length hsent
    rw [List.length_take] at hlength
    rw [Reporter.receiveAll]
    by_cases hfull : (accepted state).length = limit
    · -- nothing fits any more, so the events accepted stay as they are
      rw [h.refuses state event hfull]
      refine ⟨?_, iff_of_false Bool.false_ne_true ?_⟩
      · rw [hsent, List.take_append_of_le_length (by omega)]
      · rintro (hnil | hroom)
        · cases hnil
        · rw [List.length_append, List.length_cons] at hroom
          omega
    · obtain ⟨state', hreceive, haccepted⟩ := h.accepts state event hfull
      have hall : sent.take limit = sent := List.take_of_length_le (by omega)
      have hsent' : accepted state' = (sent ++ [event]).take limit := by
        rw [haccepted, hsent, hall, List.take_of_length_le]
        rw [List.length_append, List.length_singleton]
        omega
      have happend : sent ++ event :: events = (sent ++ [event]) ++ events := by simp
      obtain ⟨hstate, hwhole⟩ := ih hsent'
      rw [hreceive, happend]
      refine ⟨hstate, hwhole.trans ?_⟩
      constructor
      · rintro (rfl | hroom)
        · right
          simp only [List.length_append, List.length_singleton, List.length_nil]
          omega
        · exact Or.inr hroom
      · rintro (hnil | hroom)
        · cases hnil
        · exact Or.inr hroom

/-- The same for reports: each was delivered whole if there was room for all events up to its
end. -/
theorem StopsAt.deliverAll (h : rep.StopsAt accepted limit)
    (hsent : accepted state = sent.take limit) (rs : List BundleReport) :
    accepted (rep.deliverAll state rs).1 = (sent ++ rs.flatMap BundleReport.events).take limit ∧
      (rep.deliverAll state rs).2.length = rs.length ∧
      ∀ i < rs.length, (rep.deliverAll state rs).2[i]? = some (decide
        ((sent ++ (rs.take (i + 1)).flatMap BundleReport.events).length ≤ limit)) := by
  induction rs generalizing state sent with
  | nil =>
    rw [Reporter.deliverAll, List.flatMap_nil, List.append_nil]
    exact ⟨hsent, rfl, fun i hi => absurd hi (Nat.not_lt_zero i)⟩
  | cons r rs ih =>
    obtain ⟨hstate, hwhole⟩ := h.receiveAll hsent r.events
    obtain ⟨hstate', hlength, hflags⟩ := ih hstate
    have hne : r.events ≠ [] := List.cons_ne_nil _ _
    rw [Reporter.deliverAll, Reporter.deliver, List.flatMap_cons, ← List.append_assoc]
    refine ⟨hstate', congrArg Nat.succ hlength, fun i hi => ?_⟩
    cases i with
    | zero =>
      have hflag : (rep.receiveAll state r.events).2 =
          decide ((sent ++ r.events).length ≤ limit) := by
        rw [Bool.eq_iff_iff, decide_eq_true_iff, hwhole]
        exact or_iff_right hne
      simpa using hflag
    | succ i =>
      rw [List.getElem?_cons_succ, hflags i (Nat.lt_of_succ_lt_succ hi), List.take_succ_cons,
        List.flatMap_cons, List.append_assoc]

end

end Reporter

/-! ### The reporters there are -/

theorem folds_collector (s : Settings) : (collector s).Folds fun records file f =>
    records ++ [Record.ofFinding s file f] := by
  intro records event
  cases event <;> rfl

theorem folds_textWriter (s : Settings) : (textWriter s).Folds fun text file f =>
    text ++ f.lineText s file := by
  intro text event
  cases event <;> rfl

/-- The lines of findings are those that their records say. -/
theorem foldl_lineText (s : Settings) (xs : List (Path × Finding)) :
    xs.foldl (fun text x => text ++ x.2.lineText s x.1) "" =
      String.join ((xs.map fun x => Record.ofFinding s x.1 x.2).map Record.lineText) := by
  rw [String.join, List.map_map, List.foldl_map]
  simp only [Function.comp_apply, Record.lineText_ofFinding]

theorem stopsAt_recorder (limit : Nat) : (recorder (some limit)).StopsAt id limit where
  refuses _ _ hfull := if_pos (congrArg some (Eq.symm hfull))
  accepts kept event hroom :=
    ⟨kept ++ [event], if_neg fun hfull => hroom (Option.some.inj hfull).symm, rfl⟩

/-- The records of all findings of reports, in order. -/
theorem deliverAll_collector (s : Settings) (rs : List BundleReport) :
    (collector s).deliverAll [] rs =
      (rs.flatMap (BundleReport.records s), rs.map fun _ => true) := by
  rw [(folds_collector s).deliverAll, List.foldl_append_eq_append, ← List.flatMap_def,
    ← List.map_eq_flatMap, List.nil_append, List.map_flatMap]
  simp only [BundleReport.map_located]

/-- **What is delivered is the start of what there is to say.**  There is to say for each report in
turn that its manifest is started, then its findings in order, and that it is finished.  A reporter
that stops after some events has accepted the first ones of these, and a report was delivered whole
exactly if the events up to its end are not too many.  A collector, which never stops, has the
records of all findings in that order. -/
theorem Reporter.deliverAll_stopsAt {σ : Type} {rep : Reporter σ} {accepted : σ → List Event}
    {limit : Nat} {start : σ} (h : rep.StopsAt accepted limit) (hstart : accepted start = [])
    (s : Settings) (rs : List BundleReport) :
    let said := fun rs : List BundleReport => rs.flatMap fun r =>
      [Event.started r.manifest] ++ r.findings.map (.finding r.manifest) ++ [.finished r.manifest]
    (accepted (rep.deliverAll start rs).1 = (said rs).take (min limit (said rs).length) ∧
      (rep.deliverAll start rs).2.length = rs.length ∧
      ∀ i < rs.length, ((rep.deliverAll start rs).2[i]? = some false ↔
        limit < (said (rs.take (i + 1))).length)) ∧
    (collector s).deliverAll [] rs =
      (rs.flatMap fun r => r.findings.map (Record.ofFinding s r.manifest),
        rs.map fun _ => true) := by
  intro said
  have hsaid : ∀ rs : List BundleReport, said rs = rs.flatMap BundleReport.events := fun rs => by
    congr 1
  have hsent : accepted start = List.take limit [] := by rw [hstart, List.take_nil]
  obtain ⟨haccepted, hlength, hflags⟩ := h.deliverAll hsent rs
  refine ⟨⟨?_, hlength, fun i hi => ?_⟩, deliverAll_collector s rs⟩
  · rw [haccepted, List.nil_append, hsaid, ← List.take_eq_take_min]
  · rw [hflags i hi, List.nil_append, hsaid, Option.some.injEq, decide_eq_false_iff_not, Nat.not_le]

/-- A reporter with room for four events refuses the first finding of the second of two reports. -/
theorem Reporter.deliverAll_stopsAt_second :
    let a : BundleReport := ⟨⟨"a"⟩, ⟨"a/M"⟩, [⟨3, .wrongDirectory, ["x"]⟩]⟩
    let b : BundleReport := ⟨⟨"b"⟩, ⟨"b/M"⟩, [⟨0, .undeclaredService, ["y.xml"]⟩]⟩
    (recorder (some 4)).StopsAt id 4 ∧ id ([] : List Event) = [] ∧
      ((recorder (some 4)).deliverAll [] [a, b]).1 =
        [.started ⟨"a/M"⟩, .finding ⟨"a/M"⟩ ⟨3, .wrongDirectory, ["x"]⟩, .finished ⟨"a/M"⟩,
          .started ⟨"b/M"⟩] ∧
      1 < [a, b].length ∧ ((recorder (some 4)).deliverAll [] [a, b]).2[1]? = some false := by
  intro a b
  have hstart : id ([] : List Event) = [] := rfl
  have hall := Reporter.deliverAll_stopsAt (stopsAt_recorder 4) hstart {} [a, b]
  exact ⟨stopsAt_recorder 4, hstart, hall.1.1, by decide, (hall.1.2.2 1 (by decide)).2 (by decide)⟩

end BundleAudit
