import BundleAudit.Proofs.Json.RoundTrip
import BundleAudit.Proofs.Settings.Members

/-!
# Settings that are loaded

A file gives settings if it holds a document of an object with the right version, none of whose
members is at fault, and if the settings that the members give are acceptable.  Otherwise it is
refused for the first reason that applies: it holds no document, the version is another one or there
is none, a member is at fault, the settings are not acceptable.

What is read from an object are the last values of its keys.  So documents that differ in the order
of members, in values that are overwritten and in white space give the same settings, or are refused
for the same reason.

## Main definitions

* `DeclaresVersion v got` — the version of a value, empty if it has none.
* `Verdict bytes result` — what the bytes of a file are taken for.
* `Json.Alike v w` — the values differ in the order of members and in overwritten members only.

## Main results

* `Settings.ofBytes_eq_iff_verdict` — what a file is taken for is what is loaded.
* `Settings.Verdict.of_alike` — alike documents are taken for the same.
* `Settings.load_verdict` — **settings are loaded from exactly the documents that give them, and
  every other file is refused for the first reason that applies**.
-/

namespace BundleAudit

open Json (lastMember?)

/-! ### Values that are read alike -/

namespace Json

theorem string?_eq_some_iff {v : Json} {x : String} : v.string? = some x ↔ v = .string x := by
  cases v <;> simp [string?]

theorem members?_eq_some_iff {v : Json} {ms : List (String × Json)} :
    v.members? = some ms ↔ v = .object ms := by
  cases v <;> simp [members?]

/-- Values that differ in the order of members and in overwritten members only. -/
inductive Alike : Json → Json → Prop where
  | refl (v : Json) : Alike v v
  /-- Arrays are alike item by item. -/
  | array {items items' : List Json} (hlength : items.length = items'.length)
    (h : ∀ (n : Nat) (v w : Json), items[n]? = some v → items'[n]? = some w → Alike v w) :
    Alike (.array items) (.array items')
  /-- Objects are alike if they have the same keys, with alike last values. -/
  | object {ms ms' : List (String × Json)}
    (hkeys : ∀ key, lastMember? key ms = none ↔ lastMember? key ms' = none)
    (h : ∀ key v w, lastMember? key ms = some v → lastMember? key ms' = some w → Alike v w) :
    Alike (.object ms) (.object ms')

namespace Alike

variable {v w : Json}

theorem symm (h : Alike v w) : Alike w v := by
  induction h with
  | refl v => exact .refl v
  | array hlength _ ih => exact .array hlength.symm fun n v w hv hw => ih n w v hw hv
  | object hkeys _ ih =>
    exact .object (fun key => (hkeys key).symm) fun key v w hv hw => ih key w v hw hv

/-- A string is alike to nothing else. -/
theorem eq_string {x : String} (h : Alike (.string x) w) : w = .string x := by
  cases h
  rfl

theorem kindText_eq (h : Alike v w) : v.kindText = w.kindText := by
  cases h <;> rfl

/-- Values of a type that a setting takes are alike to nothing else. -/
theorem eq_of_admits {t : ValueType} (h : Alike v w) (hv : t.Admits v) : w = v := by
  cases hv with
  | string x => exact h.eq_string
  | strings xs =>
    generalize hitems : xs.map Json.string = items at h
    cases h with
    | refl => rfl
    | array hlength h =>
      subst hitems
      refine congrArg Json.array (List.ext_getElem hlength.symm fun n hn hn' => ?_)
      rw [List.getElem_map]
      refine (h n _ _ ?_ (List.getElem?_eq_getElem hn)).eq_string
      rw [List.getElem?_eq_getElem hn', List.getElem_map]

/-- Alike values are refused for the same reason. -/
theorem refuses {t : ValueType} {fault : MemberFault} (h : Alike v w) (hv : t.Refuses v fault) :
    t.Refuses w fault := by
  cases hv with
  | string hv =>
    rw [h.kindText_eq]
    refine .string fun x hw => ?_
    subst hw
    exact hv x h.symm.eq_string
  | strings hv =>
    rw [h.kindText_eq]
    refine .strings fun items hw => ?_
    subst hw
    cases h with
    | refl => exact hv items rfl
    | array => exact hv _ rfl
  | @item before after item hbefore hitem =>
    cases h with
    | refl => exact .item hbefore hitem
    | @array _ items' hlength h =>
      -- the items up to the one at fault stand at the same places
      have hlt : before.length < items'.length := by
        rw [← hlength, List.length_append, List.length_cons]
        omega
      have hsplit : items' = items'.take before.length ++
          items'[before.length] :: items'.drop (before.length + 1) := by
        rw [← List.drop_eq_getElem_cons hlt, List.take_append_drop]
      have halike : Alike item items'[before.length] :=
        h before.length _ _ (by simp) (List.getElem?_eq_getElem hlt)
      rw [hsplit, halike.kindText_eq]
      refine .item (fun w hw => ?_) fun x hx => ?_
      · obtain ⟨n, hn, rfl⟩ := List.mem_iff_getElem.1 hw
        rw [List.length_take] at hn
        have hn' : n < before.length := by omega
        obtain ⟨x, hx⟩ := hbefore _ (List.getElem_mem hn')
        have hw : Alike before[n] items'[n] := by
          refine h n _ _ ?_ (List.getElem?_eq_getElem (by omega))
          rw [List.getElem?_append_left hn', List.getElem?_eq_getElem hn']
        rw [List.getElem_take]
        exact ⟨x, (hx ▸ hw).eq_string⟩
      · rw [hx] at halike
        exact hitem x halike.symm.eq_string

theorem isFaulty {key : String} {fault : MemberFault} (h : Alike v w) (hv : IsFaulty key v fault) :
    IsFaulty key w fault := by
  cases hv with
  | unknown hkey => exact .unknown hkey
  | value hname hv => exact .value hname (h.refuses hv)

/-- Objects with the same last values are alike, in whatever order their members stand. -/
theorem of_lastMember?_eq {ms ms' : List (String × Json)}
    (h : ∀ key, lastMember? key ms = lastMember? key ms') : Alike (.object ms) (.object ms') := by
  refine .object (fun key => by rw [h]) fun key v w hv hw => ?_
  rw [h, hw] at hv
  cases hv
  exact .refl v

theorem exists_object {ms : List (String × Json)} (h : Alike (.object ms) w) :
    ∃ ms', w = .object ms' := by
  cases h with
  | refl => exact ⟨ms, rfl⟩
  | object => exact ⟨_, rfl⟩

/-- The last values of a key in alike objects are alike. -/
theorem exists_lastMember? {ms ms' : List (String × Json)} (h : Alike (.object ms) (.object ms'))
    {key : String} (hv : lastMember? key ms = some v) :
    ∃ w, lastMember? key ms' = some w ∧ Alike v w := by
  cases h with
  | refl => exact ⟨v, hv, .refl v⟩
  | object hkeys h =>
    cases hw : lastMember? key ms' with
    | none =>
      rw [(hkeys key).2 hw] at hv
      cases hv
    | some w => exact ⟨w, rfl, h key v w hv hw⟩

end Alike

end Json

namespace Settings

/-! ### Verdicts -/

/-- The version of a value: the string that an object has last for it, and nothing if it has none or
is no object. -/
inductive DeclaresVersion : Json → String → Prop where
  | given {ms : List (String × Json)} {got : String}
    (h : lastMember? versionKey ms = some (.string got)) : DeclaresVersion (.object ms) got
  | none {v : Json}
    (h : ∀ ms got, v = .object ms → lastMember? versionKey ms ≠ some (.string got)) :
    DeclaresVersion v ""

/-- What the bytes of a file are taken for. -/
inductive Verdict (bytes : ByteArray) : Except DocumentFault Settings → Prop where
  /-- They are no document. -/
  | notJson (h : ∀ v, ¬ Json.IsDocument bytes v) : Verdict bytes (.error .notJson)
  /-- They are a document of another version. -/
  | version {v : Json} {got : String} (h : Json.IsDocument bytes v) (hgot : DeclaresVersion v got)
    (hne : got ≠ schemaVersion) : Verdict bytes (.error (.version got))
  /-- A member of the document is at fault. -/
  | member {ms : List (String × Json)} {key : String} {fault : MemberFault}
    (h : Json.IsDocument bytes (.object ms))
    (hversion : lastMember? versionKey ms = some (.string schemaVersion))
    (hleast : IsLeastFaulty ms key fault) : Verdict bytes (.error (.member fault))
  /-- The settings that it gives are not acceptable. -/
  | setting {ms : List (String × Json)} {s : Settings} {fault : SettingFault}
    {others : List SettingFault} (h : Json.IsDocument bytes (.object ms))
    (hversion : lastMember? versionKey ms = some (.string schemaVersion)) (hfit : AllFit ms)
    (hs : IsOverlay ms s) (hfault : s.faults = fault :: others) :
    Verdict bytes (.error (.setting fault))
  /-- They are a document of acceptable settings. -/
  | settings {ms : List (String × Json)} {s : Settings} (h : Json.IsDocument bytes (.object ms))
    (hversion : lastMember? versionKey ms = some (.string schemaVersion)) (hfit : AllFit ms)
    (hs : IsOverlay ms s) (haccept : s.Acceptable) : Verdict bytes (.ok s)

variable {bytes bytes' : ByteArray} {v w : Json} {got : String}
  {result : Except DocumentFault Settings}

/-- A string is found as the version exactly if an object has it last for it. -/
theorem version_eq_some_iff : (v.member? versionKey).bind Json.string? = some got ↔
    ∃ ms, v = .object ms ∧ lastMember? versionKey ms = some (.string got) := by
  constructor
  · intro h
    obtain ⟨w, hw, hstring⟩ := Option.bind_eq_some_iff.1 h
    obtain ⟨ms, hms, hlast⟩ := Option.bind_eq_some_iff.1 hw
    rw [Json.string?_eq_some_iff.1 hstring] at hlast
    exact ⟨ms, Json.members?_eq_some_iff.1 hms, hlast⟩
  · rintro ⟨ms, rfl, hlast⟩
    rw [Json.member?, Json.members?, Option.bind_some, hlast, Option.bind_some, Json.string?]

/-- The version that is looked at is the one that a value declares. -/
theorem versionOf_eq_iff : versionOf v = got ↔ DeclaresVersion v got := by
  constructor
  · rintro rfl
    rw [versionOf]
    cases hfound : (v.member? versionKey).bind Json.string? with
    | some got =>
      obtain ⟨ms, rfl, hlast⟩ := version_eq_some_iff.1 hfound
      exact .given hlast
    | none =>
      refine .none fun ms got hv hlast => ?_
      rw [version_eq_some_iff.2 ⟨ms, hv, hlast⟩] at hfound
      cases hfound
  · intro h
    cases h with
    | given hlast => rw [versionOf, version_eq_some_iff.2 ⟨_, rfl, hlast⟩, Option.getD_some]
    | none hnone =>
      rw [versionOf]
      cases hfound : (v.member? versionKey).bind Json.string? with
      | none => rfl
      | some got =>
        obtain ⟨ms, hv, hlast⟩ := version_eq_some_iff.1 hfound
        exact absurd hlast (hnone ms got hv)

/-- A value of the right version is an object. -/
theorem DeclaresVersion.exists_object (h : DeclaresVersion v schemaVersion) :
    ∃ ms, v = .object ms ∧ lastMember? versionKey ms = some (.string schemaVersion) := by
  generalize hgot : schemaVersion = got at h
  cases h with
  | given h => exact ⟨_, rfl, h⟩
  | none => exact absurd hgot (by decide)

theorem ofBytes_of_isDocument (h : Json.IsDocument bytes v) : ofBytes bytes = ofJson v := by
  rw [ofBytes, Json.readBytes?_eq_some_iff.2 h]

theorem ofJson_of_ne (h : DeclaresVersion v got) (hne : got ≠ schemaVersion) :
    ofJson v = .error (.version got) := by
  rw [ofJson, versionOf_eq_iff.2 h, if_pos hne]

section

variable {ms : List (String × Json)} {s : Settings} {fault : SettingFault}

theorem versionOf_of_lastMember? (h : lastMember? versionKey ms = some (.string schemaVersion)) :
    ¬ versionOf (.object ms) ≠ schemaVersion :=
  not_not_intro (versionOf_eq_iff.2 (.given h))

/-- With the right version a member at fault is what counts. -/
theorem ofJson_of_overlay_error {fault : MemberFault}
    (h : lastMember? versionKey ms = some (.string schemaVersion))
    (hoverlay : overlay (.object ms) = .error fault) :
    ofJson (.object ms) = .error (.member fault) := by
  rw [ofJson, if_neg (versionOf_of_lastMember? h), hoverlay]

/-- With no member at fault it is up to the settings. -/
theorem ofJson_of_refused (h : lastMember? versionKey ms = some (.string schemaVersion))
    (hoverlay : overlay (.object ms) = .ok s) (hfault : s.fault? = some fault) :
    ofJson (.object ms) = .error (.setting fault) := by
  rw [ofJson, if_neg (versionOf_of_lastMember? h), hoverlay]
  dsimp only
  rw [hfault]

theorem ofJson_of_accepted (h : lastMember? versionKey ms = some (.string schemaVersion))
    (hoverlay : overlay (.object ms) = .ok s) (hfault : s.fault? = none) :
    ofJson (.object ms) = .ok s := by
  rw [ofJson, if_neg (versionOf_of_lastMember? h), hoverlay]
  dsimp only
  rw [hfault]

end

/-- A document is taken for what it gives. -/
theorem Verdict.of_isDocument (h : Json.IsDocument bytes v) : Verdict bytes (ofJson v) := by
  have hgot : DeclaresVersion v (versionOf v) := versionOf_eq_iff.1 rfl
  by_cases hversion : versionOf v = schemaVersion
  · rw [hversion] at hgot
    obtain ⟨ms, rfl, hlast⟩ := hgot.exists_object
    cases hoverlay : overlay (.object ms) with
    | error fault =>
      obtain ⟨key, hleast⟩ := overlay_eq_error_iff.1 hoverlay
      rw [ofJson_of_overlay_error hlast hoverlay]
      exact .member h hlast hleast
    | ok s =>
      obtain ⟨hfit, hs⟩ := overlay_eq_ok_iff.1 hoverlay
      cases hfault : s.fault? with
      | some fault =>
        obtain ⟨others, hfaults⟩ := List.head?_eq_some_iff.1 hfault
        rw [ofJson_of_refused hlast hoverlay hfault]
        exact .setting h hlast hfit hs hfaults
      | none =>
        rw [ofJson_of_accepted hlast hoverlay hfault]
        exact .settings h hlast hfit hs (fault?_eq_none_iff.1 hfault)
  · rw [ofJson_of_ne hgot hversion]
    exact .version h hgot hversion

/-- What a file is taken for is what is loaded. -/
theorem ofBytes_eq_iff_verdict : ofBytes bytes = result ↔ Verdict bytes result := by
  constructor
  · rintro rfl
    cases hread : Json.readBytes? bytes with
    | none =>
      rw [ofBytes, hread]
      refine .notJson fun v hv => ?_
      rw [Json.readBytes?_eq_some_iff.2 hv] at hread
      cases hread
    | some v =>
      have hv : Json.IsDocument bytes v := Json.readBytes?_eq_some_iff.1 hread
      rw [ofBytes_of_isDocument hv]
      exact .of_isDocument hv
  · intro h
    cases h with
    | notJson hnone =>
      cases hread : Json.readBytes? bytes with
      | none => rw [ofBytes, hread]
      | some v => exact absurd (Json.readBytes?_eq_some_iff.1 hread) (hnone v)
    | version hv hgot hne => rw [ofBytes_of_isDocument hv, ofJson_of_ne hgot hne]
    | member hv hversion hleast =>
      rw [ofBytes_of_isDocument hv]
      exact ofJson_of_overlay_error hversion (overlay_eq_error_iff.2 ⟨_, hleast⟩)
    | @setting ms s fault others hv hversion hfit hs hfaults =>
      have hfault : s.fault? = some fault := by rw [fault?, hfaults, List.head?_cons]
      rw [ofBytes_of_isDocument hv]
      exact ofJson_of_refused hversion (overlay_eq_ok_iff.2 ⟨hfit, hs⟩) hfault
    | settings hv hversion hfit hs haccept =>
      rw [ofBytes_of_isDocument hv]
      exact ofJson_of_accepted hversion (overlay_eq_ok_iff.2 ⟨hfit, hs⟩)
        (fault?_eq_none_iff.2 haccept)

/-! ### Alike documents -/

variable {ms ms' : List (String × Json)} {key : String} {fault : MemberFault} {s : Settings}

theorem DeclaresVersion.of_alike (h : Json.Alike v w) (hv : DeclaresVersion v got) :
    DeclaresVersion w got := by
  cases hv with
  | @given ms got hlast =>
    obtain ⟨ms', rfl⟩ := h.exists_object
    obtain ⟨value, hvalue, halike⟩ := h.exists_lastMember? hlast
    rw [halike.eq_string] at hvalue
    exact .given hvalue
  | none hv =>
    refine .none fun ms' got heq hlast => ?_
    subst heq
    obtain ⟨ms, rfl⟩ := h.symm.exists_object
    obtain ⟨value, hvalue, halike⟩ := h.symm.exists_lastMember? hlast
    rw [halike.eq_string] at hvalue
    exact hv ms got rfl hvalue

theorem IsLeastFaulty.of_alike (h : Json.Alike (.object ms) (.object ms'))
    (hms : IsLeastFaulty ms key fault) : IsLeastFaulty ms' key fault := by
  obtain ⟨hversion, ⟨value, hvalue, hfault⟩, hleast⟩ := hms
  obtain ⟨value', hvalue', halike⟩ := h.exists_lastMember? hvalue
  refine ⟨hversion, ⟨value', hvalue', halike.isFaulty hfault⟩, fun other w f hother hne hw hf => ?_⟩
  obtain ⟨v, hv, halike⟩ := h.symm.exists_lastMember? hw
  exact hleast other v f hother hne hv (halike.isFaulty hf)

/-- If no member is at fault, alike objects have the same last values but for the version. -/
theorem AllFit.lastMember?_eq (hfit : AllFit ms) (h : Json.Alike (.object ms) (.object ms'))
    (hkey : key ≠ versionKey) : lastMember? key ms' = lastMember? key ms := by
  cases hv : lastMember? key ms with
  | some v =>
    obtain ⟨w, hw, halike⟩ := h.exists_lastMember? hv
    obtain ⟨name, -, hadmits⟩ := hfit key v hkey hv
    rw [hw, halike.eq_of_admits hadmits]
  | none =>
    cases hw : lastMember? key ms' with
    | none => rfl
    | some w =>
      obtain ⟨v, hv', -⟩ := h.symm.exists_lastMember? hw
      rw [hv] at hv'
      cases hv'

theorem AllFit.of_alike (hfit : AllFit ms) (h : Json.Alike (.object ms) (.object ms')) :
    AllFit ms' := by
  intro key value hkey hvalue
  rw [hfit.lastMember?_eq h hkey] at hvalue
  exact hfit key value hkey hvalue

theorem IsOverlay.of_alike (hs : IsOverlay ms s) (hfit : AllFit ms)
    (h : Json.Alike (.object ms) (.object ms')) : IsOverlay ms' s := by
  intro name
  rw [hfit.lastMember?_eq h (text_ne_versionKey name)]
  exact hs name

/-- Alike documents are taken for the same. -/
theorem Verdict.of_alike (hv : Json.IsDocument bytes v) (hw : Json.IsDocument bytes' w)
    (h : Json.Alike v w) (hresult : Verdict bytes result) : Verdict bytes' result := by
  -- all that the verdict on the first file says of a document it says of this value
  have hsame : ∀ {u}, Json.IsDocument bytes u → u = v := fun hu => hu.unique hv
  have hversion : ∀ {ms}, lastMember? versionKey ms = some (.string schemaVersion) →
      v = .object ms → ∃ ms', w = .object ms' ∧ Json.Alike (.object ms) (.object ms') ∧
        lastMember? versionKey ms' = some (.string schemaVersion) := by
    rintro ms hlast rfl
    obtain ⟨ms', rfl⟩ := h.exists_object
    obtain ⟨value, hvalue, halike⟩ := h.exists_lastMember? hlast
    rw [halike.eq_string] at hvalue
    exact ⟨ms', rfl, h, hvalue⟩
  cases hresult with
  | notJson hnone => exact absurd hv (hnone v)
  | version hu hgot hne =>
    rw [hsame hu] at hgot
    exact .version hw (hgot.of_alike h) hne
  | member hu hlast hleast =>
    obtain ⟨ms', rfl, halike, hlast'⟩ := hversion hlast (hsame hu).symm
    exact .member hw hlast' (hleast.of_alike halike)
  | setting hu hlast hfit hs hfault =>
    obtain ⟨ms', rfl, halike, hlast'⟩ := hversion hlast (hsame hu).symm
    exact .setting hw hlast' (hfit.of_alike halike) (hs.of_alike hfit halike) hfault
  | settings hu hlast hfit hs haccept =>
    obtain ⟨ms', rfl, halike, hlast'⟩ := hversion hlast (hsame hu).symm
    exact .settings hw hlast' (hfit.of_alike halike) (hs.of_alike hfit halike) haccept

/-! ### Files -/

/-- **Settings are loaded from exactly the documents that give them, and every other file is refused
for the first reason that applies.**  Documents that differ in the order of members, in overwritten
members and in white space only are taken for the same. -/
theorem load_verdict {fs : FileSystem} {path : Path} (hread : fs.read path = .ok bytes) :
    (∀ s, load fs path = .ok s ↔ Verdict bytes (.ok s)) ∧
    (∀ e, load fs path = .error e ↔ ∃ fault, e = .document fault ∧ Verdict bytes (.error fault)) ∧
    ∀ (fs' : FileSystem) (path' : Path) (bytes' : ByteArray) (v w : Json),
      fs'.read path' = .ok bytes' → Json.IsDocument bytes v → Json.IsDocument bytes' w →
      Json.Alike v w → load fs' path' = load fs path := by
  refine ⟨fun s => ?_, fun e => ?_, fun fs' path' bytes' v w hread' hv hw halike => ?_⟩
  · rw [load, hread, ← ofBytes_eq_iff_verdict]
    dsimp only
    cases ofBytes bytes <;> simp
  · rw [load, hread]
    dsimp only
    constructor
    · intro h
      cases hbytes : ofBytes bytes with
      | error fault =>
        rw [hbytes] at h
        cases h
        exact ⟨fault, rfl, ofBytes_eq_iff_verdict.1 hbytes⟩
      | ok s =>
        rw [hbytes] at h
        cases h
    · rintro ⟨fault, rfl, hfault⟩
      rw [ofBytes_eq_iff_verdict.2 hfault]
  · have hsame : ofBytes bytes' = ofBytes bytes :=
      ofBytes_eq_iff_verdict.2 ((ofBytes_eq_iff_verdict.1 rfl).of_alike hv hw halike)
    rw [load, load, hread, hread']
    dsimp only
    rw [hsame]

/-- The header has no value that is a string, once after an overwritten one that is. -/
theorem load_verdict_reordered :
    let version : String × Json := (versionKey, .string schemaVersion)
    let v := Json.object [version, ("header", .null)]
    let w := Json.object [("header", .string "H"), (versionKey, .null), ("header", .null), version]
    let fs := ((FileSystem.emptyAt []).putFile [⟨"v", by decide⟩] v.spreadLines.toUTF8).putFile
      [⟨"w", by decide⟩] w.spreadLines.toUTF8
    fs.read ⟨"v"⟩ = .ok v.spreadLines.toUTF8 ∧
      load fs ⟨"v"⟩ = .error (.document (.member (.wrongType "null" .string))) ∧
      load fs ⟨"w"⟩ = load fs ⟨"v"⟩ := by
  intro version v w fs
  have hread : fs.read ⟨"v"⟩ = .ok v.spreadLines.toUTF8 := by rfl
  have hread' : fs.read ⟨"w"⟩ = .ok w.spreadLines.toUTF8 := by rfl
  have htextual : ∀ {ms : List (String × Json)},
      (∀ m ∈ ms, m.2 = .null ∨ ∃ x, m.2 = .string x) → Json.Textual Json.maxDepth (.object ms) := by
    intro ms hms
    refine .object fun m hm => ?_
    rcases hms m hm with heq | ⟨x, heq⟩
    · rw [heq]
      exact .null 126
    · rw [heq]
      exact .string 126 x
  have hv : Json.IsDocument v.spreadLines.toUTF8 v :=
    Json.readBytes?_eq_some_iff.1 (Json.readBytes?_spreadLines (htextual (by simp [version])))
  have hw : Json.IsDocument w.spreadLines.toUTF8 w :=
    Json.readBytes?_eq_some_iff.1 (Json.readBytes?_spreadLines (htextual (by simp [version])))
  have halike : Json.Alike v w := by
    refine .of_lastMember?_eq fun key => ?_
    simp only [Json.lastMember?_cons, version]
    by_cases hheader : "header" = key
    · simp [← hheader, versionKey, lastMember?]
    · by_cases hkey : versionKey = key <;> simp [hheader, hkey, lastMember?]
  have hleast : IsLeastFaulty [version, ("header", .null)] "header"
      (.wrongType "null" .string) := by
    have hfault : SettingName.header.valueType.Refuses .null (.wrongType "null" .string) := by
      refine .string fun x hx => ?_
      cases hx
    refine ⟨by decide, ⟨.null, rfl, .value rfl hfault⟩, fun other value f hother hne hlast _ => ?_⟩
    have hmem := Json.mem_of_lastMember? hlast
    simp [version, hother, hne] at hmem
  obtain ⟨-, herror, hsame⟩ := load_verdict hread
  exact ⟨hread, (herror _).2 ⟨_, rfl, .member hv rfl hleast⟩,
    hsame fs ⟨"w"⟩ _ v w hread' hv hw halike⟩

end Settings

end BundleAudit
