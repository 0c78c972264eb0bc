import BundleAudit.Declaration
import BundleAudit.Proofs.Text.Trimming

/-!
# Spacing of a header value

Only the commas of a header value tell its declarations apart.  So two values that are joined by a
comma declare what the one declares and then what the other does, and a value may be written with
any white space around its declarations and with any blank segments between them.

## Main definitions

* `tokens cs` — the texts of the declarations of a value.
* `IsToken cs` — the text can be one of them.
* `Spaced texts segments` — the segments are the texts with white space around them, and blank ones.

## Main results

* `tokens_append_cons`, `tokens_intercalate` — the tokens on the two sides of a comma.
* `tokens_trim` — white space at the ends of a value does not matter.
* `Spaced.tokens_intercalate` — the tokens of spaced segments.
* `declarations_respaced` — **a value can be cut at its commas and spaced anew**.
-/

namespace BundleAudit

open Text

variable {s : Settings} {value : String} {d : Declaration} {cs front back token : List Char}
  {texts segments : List (List Char)}

/-! ### Tokens -/

/-- The texts of the declarations of a value: what stands between its commas, trimmed, unless that
is nothing. -/
def tokens (cs : List Char) : List (List Char) := ((cs.splitOn ',').map trim).filter (· ≠ [])

/-- A text that can be the text of a declaration. -/
structure IsToken (cs : List Char) : Prop where
  /-- It is not empty. -/
  ne_nil : cs ≠ []
  /-- It is a single segment. -/
  comma_not_mem : ',' ∉ cs
  /-- It has no white space at its ends. -/
  trim_eq : trim cs = cs

theorem isToken_of_mem_tokens (h : token ∈ tokens cs) : IsToken token := by
  obtain ⟨hmem, hne⟩ := List.mem_filter.1 h
  obtain ⟨piece, hpiece, rfl⟩ := List.mem_map.1 hmem
  exact ⟨of_decide_eq_true hne,
    fun hcomma => not_mem_of_mem_splitOn hpiece (mem_of_mem_trim hcomma), trim_trim piece⟩

/-- The tokens of a value are made of its characters. -/
theorem mem_of_mem_tokens {c : Char} (h : token ∈ tokens cs) (hc : c ∈ token) : c ∈ cs := by
  obtain ⟨piece, hpiece, rfl⟩ := List.mem_map.1 (List.mem_filter.1 h).1
  exact (mem_of_mem_splitOn hpiece (mem_of_mem_trim hc)).1

theorem IsToken.not_isBlank_of_head? (h : IsToken cs) : ∀ c ∈ cs.head?, ¬ isBlank c := by
  intro c hc
  rw [← h.trim_eq] at hc
  exact not_isBlank_of_head?_trim hc

theorem IsToken.not_isBlank_of_getLast? (h : IsToken cs) : ∀ c ∈ cs.getLast?, ¬ isBlank c := by
  intro c hc
  rw [← h.trim_eq] at hc
  exact not_isBlank_of_getLast?_trim hc

theorem tokens_of_comma_not_mem (h : ',' ∉ cs) : tokens cs = [trim cs].filter (· ≠ []) := by
  rw [tokens, List.splitOn_eq_singleton h, List.map_singleton]

/-- A comma is no white space. -/
theorem comma_not_mem_of_isBlank (h : IsBlank cs) : ',' ∉ cs := by
  intro hmem
  have hcomma := h ',' hmem
  simp [isBlank] at hcomma

theorem tokens_eq_nil_of_isBlank (h : IsBlank cs) : tokens cs = [] := by
  rw [tokens_of_comma_not_mem (comma_not_mem_of_isBlank h), trim_eq_nil_of_isBlank h]
  rfl

/-- The tokens on the two sides of a comma. -/
theorem tokens_append_cons (a b : List Char) : tokens (a ++ ',' :: b) = tokens a ++ tokens b := by
  rw [tokens, List.splitOn_append_cons_self, List.map_append, List.filter_append]
  rfl

/-- The tokens of joined segments are the tokens of each. -/
theorem tokens_intercalate (segments : List (List Char)) :
    tokens ([','].intercalate segments) = segments.flatMap tokens := by
  induction segments with
  | nil => rfl
  | cons segment segments ih =>
    cases segments with
    | nil => simp
    | cons next segments =>
      rw [List.intercalate_cons_cons, List.append_assoc, List.singleton_append,
        tokens_append_cons, ih, ← List.flatMap_cons]

/-! ### White space at the ends

White space in front of a value stands in its first segment, and white space behind it in its last,
and each segment is trimmed. -/

theorem tokens_append_of_isBlank_left (h : IsBlank front) (cs : List Char) :
    tokens (front ++ cs) = tokens cs := by
  have hfirst (first : List Char) (hcomma : ',' ∉ first) :
      tokens (front ++ first) = tokens first := by
    have hboth : ',' ∉ front ++ first := by simp [comma_not_mem_of_isBlank h, hcomma]
    rw [tokens_of_comma_not_mem hboth, tokens_of_comma_not_mem hcomma,
      trim_append_of_isBlank_left h]
  cases hcut : cutFirst? ',' cs with
  | none => exact hfirst cs (cutFirst?_eq_none_iff.1 hcut)
  | some p =>
    obtain ⟨hcs, hcomma⟩ := cutFirst?_eq_some_iff.1 hcut
    rw [hcs, ← List.append_assoc, tokens_append_cons, tokens_append_cons, hfirst p.1 hcomma]

theorem tokens_append_of_isBlank_right (h : IsBlank back) (cs : List Char) :
    tokens (cs ++ back) = tokens cs := by
  have hlast (last : List Char) (hcomma : ',' ∉ last) : tokens (last ++ back) = tokens last := by
    have hboth : ',' ∉ last ++ back := by simp [comma_not_mem_of_isBlank h, hcomma]
    rw [tokens_of_comma_not_mem hboth, tokens_of_comma_not_mem hcomma,
      trim_append_of_isBlank_right h]
  cases hcut : cutLast? ',' cs with
  | none => exact hlast cs (cutLast?_eq_none_iff.1 hcut)
  | some p =>
    obtain ⟨hcs, hcomma⟩ := cutLast?_eq_some_iff.1 hcut
    rw [hcs, List.append_assoc, List.cons_append, tokens_append_cons, tokens_append_cons,
      hlast p.2 hcomma]

/-- A value need not be trimmed before it is cut at its commas. -/
theorem tokens_trim (cs : List Char) : tokens (trim cs) = tokens cs := by
  obtain ⟨front, back, hfront, hback, hcs⟩ := exists_append_trim_append cs
  conv_rhs => rw [hcs, tokens_append_of_isBlank_right hback, tokens_append_of_isBlank_left hfront]

/-! ### Spaced segments -/

/-- The segments hold the given texts in order, each with white space around it, and between them
there may be blank segments. -/
inductive Spaced : List (List Char) → List (List Char) → Prop where
  /-- No segments hold no texts. -/
  | nil : Spaced [] []
  /-- A blank segment holds nothing. -/
  | blank {texts segments : List (List Char)} {segment : List Char}
      (segment_blank : IsBlank segment) (rest : Spaced texts segments) :
      Spaced texts (segment :: segments)
  /-- A segment holds a text with white space around it. -/
  | text {texts segments : List (List Char)} {front back : List Char} (text : List Char)
      (front_blank : IsBlank front) (back_blank : IsBlank back) (rest : Spaced texts segments) :
      Spaced (text :: texts) ((front ++ text ++ back) :: segments)

/-- White space around a token does not belong to it. -/
theorem IsToken.tokens_append_append (h : IsToken token) (hfront : IsBlank front)
    (hback : IsBlank back) : tokens (front ++ token ++ back) = [token] := by
  rw [tokens_append_of_isBlank_right hback, tokens_append_of_isBlank_left hfront,
    tokens_of_comma_not_mem h.comma_not_mem, h.trim_eq]
  simp [h.ne_nil]

/-- Spaced segments give back the texts that they hold. -/
theorem Spaced.tokens_intercalate (h : Spaced texts segments) (htexts : ∀ t ∈ texts, IsToken t) :
    tokens ([','].intercalate segments) = texts := by
  rw [BundleAudit.tokens_intercalate]
  induction h with
  | nil => rfl
  | blank hblank _ ih =>
    rw [List.flatMap_cons, tokens_eq_nil_of_isBlank hblank, List.nil_append, ih htexts]
  | text token hfront hback _ ih =>
    obtain ⟨htoken, htexts⟩ := List.forall_mem_cons.1 htexts
    rw [List.flatMap_cons, htoken.tokens_append_append hfront hback, List.singleton_append,
      ih htexts]

/-! ### Declarations -/

/-- A header value has one declaration for each token. -/
theorem declarations_eq_map_tokens (s : Settings) (value : String) :
    declarations s value =
      (tokens value.toList).map fun token => Declaration.ofText s (String.ofList token) := by
  rw [← tokens_trim]
  rfl

/-- The texts of the declarations are the tokens. -/
theorem map_raw_declarations (s : Settings) (value : String) :
    (declarations s value).map (fun d => d.raw.toList) = tokens value.toList := by
  rw [declarations_eq_map_tokens, List.map_map]
  conv_rhs => rw [← List.map_id (tokens value.toList)]
  refine List.map_congr_left fun token htoken => ?_
  simp only [Function.comp_apply, id_eq, Declaration.ofText, String.toList_ofList]
  exact (isToken_of_mem_tokens htoken).trim_eq

/-! ### Parts of a declaration -/

theorem mem_of_mem_lastFolder {c : Char} (h : c ∈ lastFolder cs) : c ∈ cs := by
  rw [lastFolder, List.mem_reverse] at h
  exact List.mem_reverse.1 ((List.dropWhile_sublist _).subset ((List.takeWhile_sublist _).subset h))

/-- What stands before and behind the last slash is part of the entry. -/
theorem Declaration.mem_of_mem_split {c : Char} (h : c ∈ (split cs).1 ∨ c ∈ (split cs).2) :
    c ∈ cs := by
  rw [split] at h
  cases hcut : cutLast? '/' cs with
  | none =>
    rw [hcut] at h
    exact h.resolve_left List.not_mem_nil
  | some p =>
    rw [hcut] at h
    rw [(cutLast?_eq_some_iff.1 hcut).1]
    exact List.mem_append.2 (h.imp_right (List.mem_cons_of_mem _))

/-- The folder and the base name of a declaration are parts of its text. -/
theorem mem_raw_of_mem_declarations {c : Char} (h : d ∈ declarations s value)
    (hc : c ∈ d.parentDirectory.toList ∨ c ∈ d.baseName.toList) : c ∈ d.raw.toList := by
  rw [declarations_eq_map_tokens] at h
  obtain ⟨token, -, rfl⟩ := List.mem_map.1 h
  simp only [Declaration.ofText, String.toList_ofList] at hc ⊢
  exact Declaration.mem_of_mem_split (hc.imp_left mem_of_mem_lastFolder)

theorem raw_mem_tokens (h : d ∈ declarations s value) : d.raw.toList ∈ tokens value.toList := by
  rw [← map_raw_declarations s]
  exact List.mem_map_of_mem h

theorem isToken_raw_of_mem_declarations (h : d ∈ declarations s value) : IsToken d.raw.toList :=
  isToken_of_mem_tokens (raw_mem_tokens h)

/-! ### Spacing a value anew -/

/-- **A header value can be cut at its commas and spaced anew.**  Two values joined by a comma
declare what each of them declares.  The text of a declaration is never empty, has no comma in it
and no white space at its ends.  And if the texts of the declarations of a value are written down
again in order, with white space around them and blank segments between them, all separated by
commas, the declarations are the same. -/
theorem declarations_respaced (s : Settings) :
    (∀ a b : String, declarations s (a ++ "," ++ b) = declarations s a ++ declarations s b) ∧
      (∀ value, ∀ d ∈ declarations s value, d.raw ≠ "" ∧ ',' ∉ d.raw.toList ∧
        (∀ c ∈ d.raw.toList.head?, ¬ isBlank c) ∧ ∀ c ∈ d.raw.toList.getLast?, ¬ isBlank c) ∧
      ∀ value segments, Spaced ((declarations s value).map fun d => d.raw.toList) segments →
        declarations s (String.ofList ([','].intercalate segments)) = declarations s value := by
  refine ⟨fun a b => ?_, fun value d hd => ?_, fun value segments hspaced => ?_⟩
  · have hjoined : (a ++ "," ++ b).toList = a.toList ++ ',' :: b.toList := by simp
    rw [declarations_eq_map_tokens, hjoined, tokens_append_cons, List.map_append,
      ← declarations_eq_map_tokens, ← declarations_eq_map_tokens]
  · have htoken := isToken_raw_of_mem_declarations hd
    refine ⟨?_, htoken.comma_not_mem, htoken.not_isBlank_of_head?, htoken.not_isBlank_of_getLast?⟩
    intro hempty
    exact htoken.ne_nil (by rw [hempty]; rfl)
  · rw [map_raw_declarations] at hspaced
    rw [declarations_eq_map_tokens, declarations_eq_map_tokens s value, String.toList_ofList,
      hspaced.tokens_intercalate fun t ht => isToken_of_mem_tokens ht]

/-- A header value spaced anew with an ideographic space, a no-break space, a line feed and two
segments that declare nothing. -/
theorem declarations_respaced_ideographic :
    let s : Settings := {}
    let value := "OSGI-INF/a.xml , b*.xml"
    let texts := ["OSGI-INF/a.xml".toList, "b*.xml".toList]
    let segments := [['\u3000'] ++ "OSGI-INF/a.xml".toList ++ [], [], ['\u00a0'],
      ['\t'] ++ "b*.xml".toList ++ [' ', '\n']]
    (declarations s value).map (fun d => d.raw.toList) = texts ∧ Spaced texts segments ∧
      declarations s (String.ofList ([','].intercalate segments)) = declarations s value ∧
      declarations s ("OSGI-INF/a.xml " ++ "," ++ " b*.xml") =
        declarations s "OSGI-INF/a.xml " ++ declarations s " b*.xml" ∧
      Declaration.ofText s "b*.xml" ∈ declarations s value ∧
      (Declaration.ofText s "b*.xml").raw ≠ "" := by
  intro s value texts segments
  have htexts : (declarations s value).map (fun d => d.raw.toList) = texts := by decide +kernel
  have hspaced : Spaced texts segments :=
    .text _ (by decide) (by decide)
      (.blank (by decide) (.blank (by decide) (.text _ (by decide) (by decide) .nil)))
  have hmem : Declaration.ofText s "b*.xml" ∈ declarations s value := by decide +kernel
  exact ⟨htexts, hspaced, (declarations_respaced s).2.2 _ segments (by rwa [htexts]),
    (declarations_respaced s).1 _ _, hmem, ((declarations_respaced s).2.1 _ _ hmem).1⟩

end BundleAudit
