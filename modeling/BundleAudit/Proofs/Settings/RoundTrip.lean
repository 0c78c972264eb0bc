import BundleAudit.Proofs.Settings.Loading

/-!
# Settings written and read again

The document of acceptable settings gives these settings again.  It names each setting once, with a
value of the right type, so no member is at fault and nothing is left of the defaults.

## Main results

* `Settings.allFit_members`, `Settings.isOverlay_members` — the members of a document give the
  settings that it is the document of.
* `Settings.ofBytes_spreadLines` — **acceptable settings are read as they were written**.
-/

namespace BundleAudit.Settings

open Json

variable {s : Settings} {m : String × Json}

/-! ### Members -/

/-- The member of a document that gives a setting. -/
def memberOf (s : Settings) (name : SettingName) : String × Json := (name.text, s.value name)

/-- The members of the document of settings, the version included. -/
def allMembers (s : Settings) : List (String × Json) :=
  (versionKey, .string schemaVersion) :: s.members

theorem mem_members : m ∈ s.members ↔ ∃ name, m = s.memberOf name := by
  rw [members, List.mem_map]
  constructor
  · rintro ⟨name, -, rfl⟩
    exact ⟨name, rfl⟩
  · rintro ⟨name, rfl⟩
    exact ⟨name, SettingName.mem_all name, rfl⟩

theorem lastMember?_version (s : Settings) :
    lastMember? versionKey s.allMembers = some (.string schemaVersion) := by
  have hnone : lastMember? versionKey s.members = none := by
    refine lastMember?_eq_none_iff.2 fun m hm => ?_
    obtain ⟨name, rfl⟩ := mem_members.1 hm
    exact text_ne_versionKey name
  rw [allMembers, lastMember?_cons, hnone, Option.none_or, if_pos rfl]

/-- Each setting has its value, since its name comes up once. -/
theorem lastMember?_text (s : Settings) (name : SettingName) :
    lastMember? name.text s.allMembers = some (s.value name) := by
  cases hlast : lastMember? name.text s.allMembers with
  | none =>
    have hmem : s.memberOf name ∈ s.allMembers :=
      List.mem_cons_of_mem _ (mem_members.2 ⟨name, rfl⟩)
    exact absurd rfl (lastMember?_eq_none_iff.1 hlast _ hmem)
  | some v =>
    rcases List.mem_cons.1 (mem_of_lastMember? hlast) with heq | hmem
    · exact absurd (congrArg Prod.fst heq) (text_ne_versionKey name)
    · obtain ⟨name', heq⟩ := mem_members.1 hmem
      have hname : name = name' := text_injective (congrArg Prod.fst heq)
      have hvalue : v = s.value name' := congrArg Prod.snd heq
      rw [hvalue, hname]

theorem allFit_members (s : Settings) : AllFit s.allMembers := by
  intro key value hkey hlast
  rcases List.mem_cons.1 (mem_of_lastMember? hlast) with heq | hmem
  · exact absurd (congrArg Prod.fst heq) hkey
  · obtain ⟨name, heq⟩ := mem_members.1 hmem
    cases heq
    exact ⟨name, rfl, s.admits_value name⟩

theorem isOverlay_members (s : Settings) : IsOverlay s.allMembers s := by
  intro name
  rw [lastMember?_text, Option.getD_some]

/-! ### Documents -/

theorem textual_json (s : Settings) (n : Nat) : Textual (n + 2) s.json := by
  refine .object fun m hm => ?_
  rcases List.mem_cons.1 hm with rfl | hm
  · exact .string (n + 1) _
  · obtain ⟨name, rfl⟩ := mem_members.1 hm
    show Textual (n + 1) (s.value name)
    have hvalue := s.admits_value name
    generalize name.valueType = t, s.value name = v at hvalue ⊢
    cases hvalue with
    | string x => exact .string (n + 1) x
    | strings xs =>
      refine .array fun v hv => ?_
      obtain ⟨x, -, rfl⟩ := List.mem_map.1 hv
      exact .string n x

/-- **Acceptable settings are read as they were written.** -/
theorem ofBytes_spreadLines (h : s.fault? = none) : ofBytes s.json.spreadLines.toUTF8 = .ok s := by
  have hread : readBytes? s.json.spreadLines.toUTF8 = some s.json :=
    readBytes?_spreadLines (s.textual_json 125)
  have hdocument : IsDocument s.json.spreadLines.toUTF8 (.object s.allMembers) :=
    readBytes?_eq_some_iff.1 hread
  exact ofBytes_eq_iff_verdict.2 (.settings hdocument s.lastMember?_version s.allFit_members
    s.isOverlay_members (fault?_eq_none_iff.1 h))

end BundleAudit.Settings
