import BundleAudit.Proofs.Files.Extension
import BundleAudit.Proofs.Text.ByteOrder
import BundleAudit.Settings.Document

/-!
# The members of a settings document

A member of a document is at fault if its key names no setting or its value is of another type than
the setting takes.  Of a repeated key only the last value counts.  If no member is at fault, the
document changes each setting that it names to the value that it gives; otherwise it is refused for
the member at fault whose key comes first in the order of bytes.  Neither depends on the order in
which the members stand.

## Main definitions

* `SettingName.valueType` — what a setting takes as its value.
* `ValueType.Admits` — a value is of a type.
* `IsFaulty key value fault` — what is wrong with a member.
* `Settings.AllFit ms`, `Settings.IsOverlay ms s` — no member of an object is at fault, and the
  settings that its members give.
* `Settings.IsLeastFaulty ms key fault` — `key` is the least key at fault, with this fault.

## Main results

* `setMember_eq_error_iff` — a member is refused exactly if it is at fault.
* `setMembers_eq_error_iff` — members are refused for the first one at fault.
* `mem_sortedMembers_iff` — the members that are looked at are those that count.
* `overlay_eq_error_iff`, `overlay_eq_ok_iff` — **a document is refused for the least key at fault,
  and gives its settings otherwise**.
-/

namespace BundleAudit

open Json (lastMember?)

/-! ### What settings take -/

/-- What a setting takes as its value. -/
def SettingName.valueType : SettingName → ValueType
  | .excludedFragments | .skippedFolders => .strings
  | .descriptorsFolder | .descriptorExtension | .includeAllToken | .header | .manifestPath =>
    .string

/-- A value is of a type. -/
inductive ValueType.Admits : ValueType → Json → Prop where
  | string (x : String) : Admits .string (.string x)
  | strings (xs : List String) : Admits .strings (.array (xs.map .string))

/-- What is wrong with a value that is not of a type. -/
inductive ValueType.Refuses : ValueType → Json → MemberFault → Prop where
  /-- It should be a string. -/
  | string {v : Json} (h : ∀ x, v ≠ .string x) :
    Refuses .string v (.wrongType v.kindText .string)
  /-- It should be a list. -/
  | strings {v : Json} (h : ∀ items, v ≠ .array items) :
    Refuses .strings v (.wrongType v.kindText .strings)
  /-- An item of it should be a string; those before it are. -/
  | item {before after : List Json} {item : Json} (hbefore : ∀ v ∈ before, ∃ x, v = .string x)
    (hitem : ∀ x, item ≠ .string x) :
    Refuses .strings (.array (before ++ item :: after)) (.wrongType item.kindText .string)

/-- A value of a type is not refused. -/
theorem ValueType.Admits.not_refuses {t : ValueType} {v : Json} {fault : MemberFault}
    (hv : t.Admits v) : ¬ t.Refuses v fault := by
  intro h
  cases hv with
  | string x =>
    cases h with
    | string hv => exact hv x rfl
  | strings xs =>
    generalize hitems : xs.map Json.string = items at h
    cases h with
    | strings hv => exact hv items rfl
    | @item before after item _ hitem =>
      have hmem : item ∈ xs.map Json.string := by
        rw [hitems]
        exact List.mem_append_right _ List.mem_cons_self
      obtain ⟨x, -, hx⟩ := List.mem_map.1 hmem
      exact hitem x hx.symm

/-- What is wrong with a member. -/
inductive IsFaulty (key : String) (value : Json) : MemberFault → Prop where
  /-- The key names no setting. -/
  | unknown (hkey : ∀ name : SettingName, name.text ≠ key) : IsFaulty key value (.unknown key)
  /-- The value is of another type than the setting takes. -/
  | value {name : SettingName} {fault : MemberFault} (hkey : name.text = key)
    (h : name.valueType.Refuses value fault) : IsFaulty key value fault

/-! ### The last value of a key -/

namespace Json

variable {key : String} {value : Json} {ms : List (String × Json)}

/-- The last value of a key is one of its values. -/
theorem mem_of_lastMember? (h : lastMember? key ms = some value) : (key, value) ∈ ms := by
  obtain ⟨m, hfind, rfl⟩ := Option.map_eq_some_iff.1 h
  have hfound := List.find?_some hfind
  rw [← beq_iff_eq.1 hfound]
  exact List.mem_reverse.1 (List.mem_of_find?_eq_some hfind)

theorem lastMember?_eq_none_iff : lastMember? key ms = none ↔ ∀ m ∈ ms, m.1 ≠ key := by
  simp [lastMember?]

/-- The first member counts only if its key does not come up again. -/
theorem lastMember?_cons (key : String) (m : String × Json) (ms : List (String × Json)) :
    lastMember? key (m :: ms) =
      (lastMember? key ms).or (if m.1 = key then some m.2 else none) := by
  rw [lastMember?, List.reverse_cons, List.find?_append, List.find?_singleton, Option.map_or,
    lastMember?]
  by_cases h : m.1 = key <;> simp [h]

end Json

namespace Settings

variable {s s' : Settings} {v value : Json} {key : String} {m : String × Json}
  {ms : List (String × Json)} {fault : MemberFault}

/-! ### Values -/

/-- Settings are what their values in a document say. -/
theorem eq_of_value_eq (h : ∀ name, s.value name = s'.value name) : s = s' := by
  have hstrings : ∀ {xs ys : List String},
      Json.array (xs.map .string) = .array (ys.map .string) → xs = ys := fun hxy =>
    (List.map_inj_right fun _ _ => Json.string.inj).1 (Json.array.inj hxy)
  have hfolder := Json.string.inj (h .descriptorsFolder)
  have hextension := Json.string.inj (h .descriptorExtension)
  have htoken := Json.string.inj (h .includeAllToken)
  have hfragments := hstrings (h .excludedFragments)
  have hheader := Json.string.inj (h .header)
  have hmanifest := Json.string.inj (h .manifestPath)
  have hskipped := hstrings (h .skippedFolders)
  cases s
  cases s'
  simp_all

theorem text_injective {a b : SettingName} (h : a.text = b.text) : a = b := by
  have hoption := SettingName.ofText?_text a
  rw [h, SettingName.ofText?_text, Option.some.injEq] at hoption
  exact hoption.symm

/-- No setting goes by the name of the version. -/
theorem text_ne_versionKey (name : SettingName) : name.text ≠ versionKey := by
  cases name <;> decide

/-- The value of a setting is of the type that the setting takes. -/
theorem admits_value (s : Settings) (name : SettingName) :
    name.valueType.Admits (s.value name) := by
  cases name
  case excludedFragments | skippedFolders => exact .strings _
  all_goals exact .string _

theorem expectString_eq_ok_iff {x : String} : expectString v = .ok x ↔ v = .string x := by
  cases v <;> simp [expectString]

theorem expectString_eq_error_iff : expectString v = .error fault ↔
    (∀ x, v ≠ .string x) ∧ fault = .wrongType v.kindText .string := by
  cases v <;> simp [expectString, eq_comm]

theorem mapM_expectString_eq_ok_iff {items : List Json} {xs : List String} :
    items.mapM expectString = .ok xs ↔ items = xs.map .string := by
  induction items generalizing xs with
  | nil => cases xs <;> simp [pure, Except.pure]
  | cons item items ih =>
    rw [List.mapM_cons, FileSystem.bind_eq_ok_iff]
    constructor
    · rintro ⟨x, hx, h⟩
      obtain ⟨rest, hrest, h⟩ := FileSystem.bind_eq_ok_iff.1 h
      cases h
      rw [expectString_eq_ok_iff.1 hx, ih.1 hrest, List.map_cons]
    · intro h
      obtain ⟨x, rest, rfl, rfl, rfl⟩ := List.map_eq_cons_iff.1 h.symm
      refine ⟨x, rfl, FileSystem.bind_eq_ok_iff.2 ⟨rest, ih.2 rfl, rfl⟩⟩

/-- The first item that is no string is what is wrong with a list. -/
theorem mapM_expectString_eq_error_iff {items : List Json} :
    items.mapM expectString = .error fault ↔ ∃ before item after,
      items = before ++ item :: after ∧ (∀ v ∈ before, ∃ x, v = .string x) ∧
        (∀ x, item ≠ .string x) ∧ fault = .wrongType item.kindText .string := by
  induction items with
  | nil => simp [pure, Except.pure]
  | cons item items ih =>
    rw [List.mapM_cons, FileSystem.bind_eq_error_iff]
    constructor
    · rintro (h | ⟨x, hx, h⟩)
      · obtain ⟨hitem, rfl⟩ := expectString_eq_error_iff.1 h
        exact ⟨[], item, items, rfl, fun v hv => absurd hv List.not_mem_nil, hitem, rfl⟩
      · rcases FileSystem.bind_eq_error_iff.1 h with h | ⟨rest, -, h⟩
        · obtain ⟨before, item', after, rfl, hbefore, hitem, rfl⟩ := ih.1 h
          refine ⟨item :: before, item', after, rfl, ?_, hitem, rfl⟩
          exact List.forall_mem_cons.2 ⟨⟨x, expectString_eq_ok_iff.1 hx⟩, hbefore⟩
        · cases h
    · rintro ⟨before, item', after, heq, hbefore, hitem, rfl⟩
      cases before with
      | nil =>
        cases heq
        exact Or.inl (expectString_eq_error_iff.2 ⟨hitem, rfl⟩)
      | cons v before =>
        cases heq
        obtain ⟨⟨x, rfl⟩, hrest⟩ := List.forall_mem_cons.1 hbefore
        refine Or.inr ⟨x, rfl, FileSystem.bind_eq_error_iff.2 (Or.inl ?_)⟩
        exact ih.2 ⟨before, item', after, rfl, hrest, hitem, rfl⟩

/-! ### One member -/

/-- A setting that takes a string is changed to the string that is given. -/
theorem setValue_string {name : SettingName} (hname : name.valueType = .string) (s : Settings)
    (v : Json) : ∃ set : String → Settings, s.setValue name v = (expectString v).map set ∧
      ∀ x, (set x).value name = .string x ∧
        ∀ other, other ≠ name → (set x).value other = s.value other := by
  cases name
  case excludedFragments | skippedFolders => cases hname
  all_goals
    refine ⟨_, rfl, fun x => ⟨rfl, fun other hother => ?_⟩⟩
    cases other <;> first | rfl | exact absurd rfl hother

/-- A setting that takes a list is changed to the list that is given. -/
theorem setValue_strings {name : SettingName} (hname : name.valueType = .strings) (s : Settings)
    (v : Json) : ∃ set : List String → Settings, s.setValue name v = (expectStrings v).map set ∧
      ∀ xs, (set xs).value name = .array (xs.map .string) ∧
        ∀ other, other ≠ name → (set xs).value other = s.value other := by
  cases name
  case excludedFragments | skippedFolders =>
    refine ⟨_, rfl, fun x => ⟨rfl, fun other hother => ?_⟩⟩
    cases other <;> first | rfl | exact absurd rfl hother
  all_goals cases hname

theorem map_eq_error_iff {ε α β : Type} {x : Except ε α} {f : α → β} {e : ε} :
    x.map f = .error e ↔ x = .error e := by
  cases x <;> simp [Except.map]

theorem map_eq_ok_iff {ε α β : Type} {x : Except ε α} {f : α → β} {b : β} :
    x.map f = .ok b ↔ ∃ a, x = .ok a ∧ f a = b := by
  cases x <;> simp [Except.map]

/-- A value is refused exactly if something is wrong with it. -/
theorem setValue_eq_error_iff {name : SettingName} :
    s.setValue name v = .error fault ↔ name.valueType.Refuses v fault := by
  cases hname : name.valueType with
  | string =>
    obtain ⟨set, hset, -⟩ := setValue_string hname s v
    rw [hset, map_eq_error_iff, expectString_eq_error_iff]
    constructor
    · rintro ⟨hv, rfl⟩
      exact .string hv
    · rintro ⟨hv⟩
      exact ⟨hv, rfl⟩
  | strings =>
    obtain ⟨set, hset, -⟩ := setValue_strings hname s v
    rw [hset, map_eq_error_iff]
    constructor
    · intro h
      unfold expectStrings at h
      split at h
      · obtain ⟨before, item, after, rfl, hbefore, hitem, rfl⟩ := mapM_expectString_eq_error_iff.1 h
        exact .item hbefore hitem
      · next hv =>
        cases h
        exact .strings hv
    · intro h
      cases h with
      | strings hv =>
        unfold expectStrings
        split
        · next items => exact absurd rfl (hv items)
        · rfl
      | item hbefore hitem =>
        exact mapM_expectString_eq_error_iff.2 ⟨_, _, _, rfl, hbefore, hitem, rfl⟩

/-- A value that is taken is of the type of the setting, which it becomes; the others stay. -/
theorem of_setValue_eq_ok {name : SettingName} (h : s.setValue name v = .ok s') :
    name.valueType.Admits v ∧ s'.value name = v ∧
      ∀ other, other ≠ name → s'.value other = s.value other := by
  cases hname : name.valueType with
  | string =>
    obtain ⟨set, hset, hvalue⟩ := setValue_string hname s v
    obtain ⟨x, hx, rfl⟩ := map_eq_ok_iff.1 (hset ▸ h)
    rw [expectString_eq_ok_iff.1 hx]
    exact ⟨.string x, hvalue x⟩
  | strings =>
    obtain ⟨set, hset, hvalue⟩ := setValue_strings hname s v
    obtain ⟨xs, hxs, rfl⟩ := map_eq_ok_iff.1 (hset ▸ h)
    unfold expectStrings at hxs
    split at hxs
    · rw [mapM_expectString_eq_ok_iff.1 hxs]
      exact ⟨.strings xs, hvalue xs⟩
    · cases hxs

theorem ofText?_eq_some_iff {name : SettingName} :
    SettingName.ofText? key = some name ↔ name.text = key := by
  constructor
  · intro h
    rw [SettingName.ofText?] at h
    have hfound := List.find?_some h
    exact beq_iff_eq.1 hfound
  · rintro rfl
    exact SettingName.ofText?_text name

/-- A member is refused exactly if it is at fault. -/
theorem setMember_eq_error_iff : s.setMember m = .error fault ↔ IsFaulty m.1 m.2 fault := by
  unfold setMember
  split
  · next hnone =>
    have hkey : ∀ name : SettingName, name.text ≠ m.1 := fun name hname => by
      rw [ofText?_eq_some_iff.2 hname] at hnone
      cases hnone
    constructor
    · intro h
      cases h
      exact .unknown hkey
    · intro h
      cases h with
      | unknown => rfl
      | value hname => exact absurd hname (hkey _)
  · next name hname =>
    rw [setValue_eq_error_iff]
    constructor
    · exact .value (ofText?_eq_some_iff.1 hname)
    · intro h
      cases h with
      | unknown hkey => exact absurd (ofText?_eq_some_iff.1 hname) (hkey name)
      | value hname' h =>
        rw [text_injective ((ofText?_eq_some_iff.1 hname).trans hname'.symm)]
        exact h

/-- A member that is taken changes the setting that it names to its value. -/
theorem of_setMember_eq_ok (h : s.setMember m = .ok s') :
    ∃ name : SettingName, name.text = m.1 ∧ name.valueType.Admits m.2 ∧ s'.value name = m.2 ∧
      ∀ other, other ≠ name → s'.value other = s.value other := by
  unfold setMember at h
  split at h
  · cases h
  · next name hname => exact ⟨name, ofText?_eq_some_iff.1 hname, of_setValue_eq_ok h⟩

/-! ### Members one after the other -/

/-- Members are refused for the first one at fault. -/
theorem setMembers_eq_error_iff : s.setMembers ms = .error fault ↔
    ∃ before m after, ms = before ++ m :: after ∧
      (∀ m' ∈ before, ∀ f, ¬ IsFaulty m'.1 m'.2 f) ∧ IsFaulty m.1 m.2 fault := by
  induction ms generalizing s with
  | nil => simp [setMembers, pure, Except.pure]
  | cons m ms ih =>
    rw [setMembers, List.foldlM_cons, FileSystem.bind_eq_error_iff, setMember_eq_error_iff]
    constructor
    · rintro (h | ⟨s₁, hs₁, h⟩)
      · exact ⟨[], m, ms, rfl, fun m' hm' => absurd hm' List.not_mem_nil, h⟩
      · obtain ⟨before, m', after, rfl, hbefore, hfault⟩ := ih.1 h
        have hfirst : ∀ f, ¬ IsFaulty m.1 m.2 f := by
          intro f hf
          rw [setMember_eq_error_iff.2 hf] at hs₁
          cases hs₁
        exact ⟨m :: before, m', after, rfl, List.forall_mem_cons.2 ⟨hfirst, hbefore⟩, hfault⟩
    · rintro ⟨before, m', after, heq, hbefore, hfault⟩
      cases before with
      | nil =>
        cases heq
        exact Or.inl hfault
      | cons first before =>
        cases heq
        obtain ⟨hfirst, hrest⟩ := List.forall_mem_cons.1 hbefore
        cases hset : s.setMember m with
        | error f => exact absurd (setMember_eq_error_iff.1 hset) (hfirst f)
        | ok s₁ => exact Or.inr ⟨s₁, rfl, ih.2 ⟨before, m', after, rfl, hrest, hfault⟩⟩

/-- Members that are taken are all of the right type. -/
theorem admits_of_setMembers (h : s.setMembers ms = .ok s') :
    ∀ m ∈ ms, ∃ name : SettingName, name.text = m.1 ∧ name.valueType.Admits m.2 := by
  induction ms generalizing s with
  | nil => exact fun m hm => absurd hm List.not_mem_nil
  | cons m ms ih =>
    rw [setMembers, List.foldlM_cons, FileSystem.bind_eq_ok_iff] at h
    obtain ⟨s₁, hset, hrest⟩ := h
    obtain ⟨name, hname, hadmits, -⟩ := of_setMember_eq_ok hset
    exact List.forall_mem_cons.2 ⟨⟨name, hname, hadmits⟩, ih hrest⟩

/-- Members that are taken change each setting to the last value with its name. -/
theorem value_of_setMembers (h : s.setMembers ms = .ok s') (name : SettingName) :
    s'.value name = (lastMember? name.text ms).getD (s.value name) := by
  induction ms generalizing s with
  | nil =>
    cases h
    rfl
  | cons m ms ih =>
    rw [setMembers, List.foldlM_cons, FileSystem.bind_eq_ok_iff] at h
    obtain ⟨s₁, hset, hrest⟩ := h
    obtain ⟨first, hfirst, -, hvalue, hother⟩ := of_setMember_eq_ok hset
    rw [ih hrest, Json.lastMember?_cons]
    cases lastMember? name.text ms with
    | some v => rfl
    | none =>
      rw [Option.none_or, Option.getD_none]
      by_cases hname : m.1 = name.text
      · rw [if_pos hname, Option.getD_some, ← hvalue, text_injective (hfirst.trans hname)]
      · rw [if_neg hname, Option.getD_none]
        exact hother name fun heq => hname (heq ▸ hfirst.symm)

/-! ### The members that count -/

/-- Members are told apart by their keys. -/
theorem compareOn_fst_eq_iff {m m' : String × Json} :
    compareOn Prod.fst m m' = .eq ↔ m'.1 = m.1 := by
  show compare m.1 m'.1 = .eq ↔ m'.1 = m.1
  rw [Std.LawfulEqCmp.compare_eq_iff_eq, eq_comm]

theorem find?_reverse_of_mem_sortedMembers (h : m ∈ sortedMembers ms) :
    ms.reverse.find? (fun m' => m'.1 == m.1) = some m := by
  have hfirst : ms.reverse.find? (fun m' => compareOn Prod.fst m m' == .eq) = some m :=
    Ordered.find?_of_mem_ofList h
  have hsame : (fun m' : String × Json => compareOn Prod.fst m m' == .eq) =
      fun m' => m'.1 == m.1 := by
    funext m'
    rw [Bool.eq_iff_iff, beq_iff_eq, beq_iff_eq, compareOn_fst_eq_iff]
  rwa [hsame] at hfirst

/-- The members that are looked at are those that count. -/
theorem mem_sortedMembers_iff : m ∈ sortedMembers ms ↔ lastMember? m.1 ms = some m.2 := by
  constructor
  · intro h
    rw [lastMember?, find?_reverse_of_mem_sortedMembers h, Option.map_some]
  · intro h
    obtain ⟨m', hfind, hvalue⟩ := Option.map_eq_some_iff.1 h
    have hfound := List.find?_some hfind
    have hkey : m'.1 = m.1 := beq_iff_eq.1 hfound
    have hm : m' = m := Prod.ext hkey hvalue
    obtain ⟨z, hz, hcompare⟩ : ∃ z ∈ sortedMembers ms, compareOn Prod.fst m z = .eq :=
      Ordered.exists_mem_ofList (hm ▸ List.mem_of_find?_eq_some hfind)
    have hfirst := find?_reverse_of_mem_sortedMembers hz
    rw [compareOn_fst_eq_iff.1 hcompare, hfind, Option.some.injEq] at hfirst
    rw [← hm, hfirst]
    exact hz

/-- They are each the last of their key, so they have the same values. -/
theorem lastMember?_sortedMembers (key : String) (ms : List (String × Json)) :
    lastMember? key (sortedMembers ms) = lastMember? key ms := by
  have hsome : ∀ {v}, lastMember? key (sortedMembers ms) = some v → lastMember? key ms = some v :=
    fun h => mem_sortedMembers_iff.1 (Json.mem_of_lastMember? h)
  cases hsorted : lastMember? key (sortedMembers ms) with
  | some v => exact (hsome hsorted).symm
  | none =>
    cases hlast : lastMember? key ms with
    | none => rfl
    | some v =>
      have hmem : (key, v) ∈ sortedMembers ms := mem_sortedMembers_iff.2 hlast
      exact absurd rfl (Json.lastMember?_eq_none_iff.1 hsorted _ hmem)

/-! ### Objects -/

/-- No member of an object is at fault: but for the version, the last value of each key is of the
type that the setting of this name takes. -/
def AllFit (ms : List (String × Json)) : Prop :=
  ∀ key value, key ≠ versionKey → lastMember? key ms = some value →
    ∃ name : SettingName, name.text = key ∧ name.valueType.Admits value

/-- The settings that the members of an object give: the last value with the name of a setting, and
the default if there is none. -/
def IsOverlay (ms : List (String × Json)) (s : Settings) : Prop :=
  ∀ name : SettingName, s.value name =
    (lastMember? name.text ms).getD (({} : Settings).value name)

/-- The fault of the member of an object that is at fault and has the least key. -/
structure IsLeastFaulty (ms : List (String × Json)) (key : String) (fault : MemberFault) :
    Prop where
  /-- The version is no setting. -/
  ne_version : key ≠ versionKey
  /-- The last value of the key is at fault. -/
  faulty : ∃ value, lastMember? key ms = some value ∧ IsFaulty key value fault
  /-- Every other key at fault has greater bytes. -/
  least : ∀ other value f, other ≠ versionKey → other ≠ key → lastMember? other ms = some value →
    IsFaulty other value f → key.toUTF8.data.toList < other.toUTF8.data.toList

/-- What is of the right type is not at fault. -/
theorem not_isFaulty_of_admits {name : SettingName} (hname : name.text = key)
    (hvalue : name.valueType.Admits value) : ¬ IsFaulty key value fault := by
  intro h
  cases h with
  | unknown hkey => exact hkey name hname
  | value hname' h =>
    rw [← text_injective (hname.trans hname'.symm)] at h
    exact hvalue.not_refuses h

/-- Without the version the last values of the other keys stay. -/
theorem lastMember?_filter (key : String) (ms : List (String × Json)) :
    lastMember? key (ms.filter fun m => m.1 ≠ versionKey) =
      if key = versionKey then none else lastMember? key ms := by
  rw [lastMember?, ← List.filter_reverse, List.find?_filter]
  split
  · next hkey =>
    rw [List.find?_eq_none.2, Option.map_none]
    simp [hkey]
  · next hkey =>
    have hsame : (fun m : String × Json =>
        decide (decide (m.1 ≠ versionKey) = true ∧ (m.1 == key) = true)) = fun m => m.1 == key := by
      funext m
      by_cases hm : m.1 = key
      · simp [hm, hkey]
      · simp [hm]
    rw [hsame, lastMember?]

/-- The members of a document that are looked at. -/
theorem mem_members_iff : m ∈ sortedMembers (ms.filter fun m => m.1 ≠ versionKey) ↔
    m.1 ≠ versionKey ∧ lastMember? m.1 ms = some m.2 := by
  rw [mem_sortedMembers_iff, lastMember?_filter]
  split
  · next hkey => simp [hkey]
  · next hkey => simp [hkey]

theorem pairwise_bytes (ms : List (String × Json)) :
    (sortedMembers ms).Pairwise fun m m' =>
      m.1.toUTF8.data.toList < m'.1.toUTF8.data.toList := by
  have hascending : Ordered.Ascending (compareOn Prod.fst) (sortedMembers ms) :=
    Ordered.ascending_ofList _
  exact hascending.imp fun hlt => Text.bytes_lt (compareOfLessAndEq_eq_lt.1 hlt)

/-- **A document is refused for the least key at fault.** -/
theorem overlay_eq_error_iff :
    overlay (.object ms) = .error fault ↔ ∃ key, IsLeastFaulty ms key fault := by
  rw [overlay, Json.members?, Option.getD_some, setMembers_eq_error_iff]
  have hpairwise := pairwise_bytes (ms.filter fun m => m.1 ≠ versionKey)
  have hmem : ∀ m, m ∈ sortedMembers (ms.filter fun m => m.1 ≠ versionKey) ↔
      m.1 ≠ versionKey ∧ lastMember? m.1 ms = some m.2 := fun m => mem_members_iff
  generalize sortedMembers (ms.filter fun m => m.1 ≠ versionKey) = members at hpairwise hmem
  constructor
  · rintro ⟨before, m, after, rfl, hbefore, hfault⟩
    obtain ⟨hversion, hlast⟩ := (hmem m).1 (List.mem_append_right _ List.mem_cons_self)
    refine ⟨m.1, hversion, ⟨m.2, hlast, hfault⟩, fun other value f hother hne hvalue hf => ?_⟩
    have hin := (hmem (other, value)).2 ⟨hother, hvalue⟩
    rcases List.mem_append.1 hin with hin | hin
    · exact absurd hf (hbefore _ hin f)
    · rcases List.mem_cons.1 hin with heq | hin
      · exact absurd (congrArg Prod.fst heq) hne
      · exact List.rel_of_pairwise_cons (List.pairwise_append.1 hpairwise).2.1 hin
  · rintro ⟨key, hversion, ⟨value, hlast, hfault⟩, hleast⟩
    obtain ⟨before, after, rfl⟩ := List.append_of_mem ((hmem (key, value)).2 ⟨hversion, hlast⟩)
    refine ⟨before, (key, value), after, rfl, fun m hm f hf => ?_, hfault⟩
    obtain ⟨hother, hvalue⟩ := (hmem m).1 (List.mem_append_left _ hm)
    have hlt := (List.pairwise_append.1 hpairwise).2.2 m hm _ List.mem_cons_self
    have hne : m.1 ≠ key := fun heq => List.lt_irrefl _ (heq ▸ hlt)
    exact List.lt_asymm hlt (hleast m.1 m.2 f hother hne hvalue hf)

/-- **A document with no member at fault gives its settings.** -/
theorem overlay_eq_ok_iff : overlay (.object ms) = .ok s ↔ AllFit ms ∧ IsOverlay ms s := by
  have hoverlay : ∀ {s}, overlay (.object ms) = .ok s → IsOverlay ms s := by
    intro s h name
    rw [overlay, Json.members?, Option.getD_some] at h
    rw [value_of_setMembers h name, lastMember?_sortedMembers, lastMember?_filter,
      if_neg (text_ne_versionKey name)]
  constructor
  · intro h
    refine ⟨fun key value hversion hlast => ?_, hoverlay h⟩
    rw [overlay, Json.members?, Option.getD_some] at h
    exact admits_of_setMembers h (key, value) (mem_members_iff.2 ⟨hversion, hlast⟩)
  · rintro ⟨hfit, hs⟩
    cases h : overlay (.object ms) with
    | error fault =>
      obtain ⟨key, hversion, ⟨value, hlast, hfault⟩, -⟩ := overlay_eq_error_iff.1 h
      obtain ⟨name, hname, hvalue⟩ := hfit key value hversion hlast
      exact absurd hfault (not_isFaulty_of_admits hname hvalue)
    | ok s' =>
      have heq : s' = s := eq_of_value_eq fun name => (hoverlay h name).trans (hs name).symm
      rw [heq]

end Settings

end BundleAudit
