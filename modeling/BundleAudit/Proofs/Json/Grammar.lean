import BundleAudit.Json.Reader
import BundleAudit.Proofs.Json.Layout

/-!
# Which texts are documents

A document is a layout of the tokens of a value that is nested no deeper than the reader goes.  The
reader finds this value, and it finds none in any other text.

One half follows the value: its tokens lead the reader to it, whatever is open around it.  The other
half follows the reader: in each of its states the tokens that it has read are those of the arrays
and objects that are still open, and the values in them fit into the room that is left.

## Main definitions

* `Json.tokens v` — the tokens that `v` is written with.
* `Json.Nested n v` — `v` is nested at most `n` deep.
* `Json.IsDocument bytes v` — the bytes are a document of `v`.
* `Json.ReaderState.Reads n v` — the reader takes the tokens of `v` for `v`, with room for `n` more
  levels.
* `Json.ReaderState.consumed s` — the tokens that lead to the state `s`.
* `Json.ReaderState.Fits s` — the values that the reader has in the state `s` fit.

## Main results

* `ReaderState.reads_of_nested` — a value is read from its tokens.
* `ReaderState.consumed_step`, `ReaderState.fits_step` — what a step of the reader keeps.
* `ofTokens?_eq_some_iff` — the tokens that denote a value are those of the value.
* `readBytes?_eq_some_iff` — **the reader takes exactly the documents**.
-/

namespace BundleAudit.Json

/-! ### The tokens of a value -/

mutual

/-- The tokens that a value is written with. -/
def tokens : Json → List Token
  | .null => [.null]
  | .bool b => [.bool b]
  | .number n => [.number n]
  | .string s => [.string s]
  | .array [] => [.openBracket, .closeBracket]
  | .array (v :: vs) => .openBracket :: (tokens v ++ itemTokens vs)
  | .object [] => [.openBrace, .closeBrace]
  | .object ((k, v) :: ms) =>
    .openBrace :: .string k :: .colon :: (tokens v ++ memberTokens ms)

/-- The tokens of the items after the first one and of the end of the array. -/
def itemTokens : List Json → List Token
  | [] => [.closeBracket]
  | v :: vs => .comma :: (tokens v ++ itemTokens vs)

/-- The tokens of the members after the first one and of the end of the object. -/
def memberTokens : List (String × Json) → List Token
  | [] => [.closeBrace]
  | (k, v) :: ms => .comma :: .string k :: .colon :: (tokens v ++ memberTokens ms)

end

/-- A value nested at most `n` deep. -/
inductive Nested : Nat → Json → Prop where
  | null (n : Nat) : Nested n .null
  | bool (n : Nat) (b : Bool) : Nested n (.bool b)
  | number (n : Nat) (x : Number) : Nested n (.number x)
  | string (n : Nat) (s : String) : Nested n (.string s)
  | array {n : Nat} {items : List Json} (h : ∀ v ∈ items, Nested n v) :
    Nested (n + 1) (.array items)
  | object {n : Nat} {members : List (String × Json)} (h : ∀ m ∈ members, Nested n m.2) :
    Nested (n + 1) (.object members)

/-- A document of a value: text in UTF-8 that holds its tokens in order, with white space anywhere
between them. -/
structure IsDocument (bytes : ByteArray) (v : Json) : Prop where
  /-- The value is not nested too deep. -/
  nested : Nested maxDepth v
  /-- The text. -/
  layout : ∃ text : String, bytes = text.toUTF8 ∧ Layout (tokens v) text.toList

/-! ### Numbers stand apart -/

theorem apart_itemTokens {items : List Json} (h : ∀ v ∈ items, Apart (tokens v)) {ts : List Token}
    (hts : Apart ts) : Apart (ts ++ itemTokens items) := by
  -- each comma, colon, bracket and key is no number, whatever stands beside it
  induction items generalizing ts with
  | nil => exact hts.append (.cons Bool.false_ne_true .nil) (by simp [itemTokens, Token.isNumber])
  | cons v vs ih =>
    obtain ⟨hv, hvs⟩ := List.forall_mem_cons.1 h
    exact hts.append (.cons Bool.false_ne_true (ih hvs hv)) (by simp [itemTokens, Token.isNumber])

theorem apart_memberTokens {members : List (String × Json)} (h : ∀ m ∈ members, Apart (tokens m.2))
    {ts : List Token} (hts : Apart ts) : Apart (ts ++ memberTokens members) := by
  induction members generalizing ts with
  | nil => exact hts.append (.cons Bool.false_ne_true .nil) (by simp [memberTokens, Token.isNumber])
  | cons m ms ih =>
    obtain ⟨hm, hms⟩ := List.forall_mem_cons.1 h
    have hmember : Apart (memberTokens (m :: ms)) :=
      .cons Bool.false_ne_true (.cons Bool.false_ne_true (.cons Bool.false_ne_true (ih hms hm)))
    exact hts.append hmember (by simp [memberTokens, Token.isNumber])

/-- In the tokens of a value no two numbers stand side by side. -/
theorem Nested.apart_tokens {n : Nat} {v : Json} (h : Nested n v) : Apart (tokens v) := by
  induction h with
  | null => exact .singleton _
  | bool => exact .singleton _
  | number => exact .singleton _
  | string => exact .singleton _
  | @array n items h ih =>
    cases items with
    | nil => exact .cons Bool.false_ne_true (.singleton _)
    | cons v vs =>
      obtain ⟨hv, hvs⟩ := List.forall_mem_cons.1 ih
      exact .cons Bool.false_ne_true (apart_itemTokens hvs hv)
  | @object n members h ih =>
    cases members with
    | nil => exact .cons Bool.false_ne_true (.singleton _)
    | cons m ms =>
      obtain ⟨hm, hms⟩ := List.forall_mem_cons.1 ih
      exact .cons Bool.false_ne_true (.cons Bool.false_ne_true
        (.cons Bool.false_ne_true (apart_memberTokens hms hm)))

/-! ### From the tokens to the value -/

namespace ReaderState

/-- The reader takes the tokens of a value for that value, whatever is open around it, if there is
room for `n` more levels. -/
def Reads (n : Nat) (v : Json) : Prop :=
  ∀ above : List Frame, above.length + n ≤ maxDepth →
    (value above).run (tokens v) = some (complete v above)

/-- No value starts with the end of an array, so the first item is read like any other. -/
theorem run_firstItem (above : List Frame) (v : Json) :
    (firstItem above).run (tokens v) = (value (.array [] :: above)).run (tokens v) := by
  cases v with
  | array items => cases items <;> rfl
  | object members => cases members <;> rfl
  | _ => rfl

theorem run_openBracket {above : List Frame} (h : above.length < maxDepth) (ts : List Token) :
    (value above).run (.openBracket :: ts) = (firstItem above).run ts := by
  rw [run_cons, step, start, if_pos h, Option.bind_some]

theorem run_openBrace {above : List Frame} (h : above.length < maxDepth) (ts : List Token) :
    (value above).run (.openBrace :: ts) = (firstKey above).run ts := by
  rw [run_cons, step, start, if_pos h, Option.bind_some]

/-- From a complete item on, the other items are read and put behind it. -/
theorem run_itemTokens {n : Nat} {items : List Json} (h : ∀ v ∈ items, Reads n v)
    {above : List Frame} (hdepth : above.length + (n + 1) ≤ maxDepth) (before : List Json)
    (v : Json) :
    (complete v (.array before :: above)).run (itemTokens items) =
      some (complete (.array (before.reverse ++ v :: items)) above) := by
  induction items generalizing before v with
  | nil => simp [itemTokens, step]
  | cons w ws ih =>
    obtain ⟨hw, hws⟩ := List.forall_mem_cons.1 h
    have hread : (value (.array (v :: before) :: above)).run (tokens w) =
        some (complete w (.array (v :: before) :: above)) :=
      hw _ (by rw [List.length_cons]; omega)
    rw [itemTokens, run_cons, step, Option.bind_some, run_append, hread, Option.bind_some, ih hws]
    simp

/-- From a complete member on, the other members are read and put behind it. -/
theorem run_memberTokens {n : Nat} {members : List (String × Json)}
    (h : ∀ m ∈ members, Reads n m.2) {above : List Frame}
    (hdepth : above.length + (n + 1) ≤ maxDepth) (before : List (String × Json)) (k : String)
    (v : Json) :
    (complete v (.object before k :: above)).run (memberTokens members) =
      some (complete (.object (before.reverse ++ (k, v) :: members)) above) := by
  induction members generalizing before k v with
  | nil => simp [memberTokens, step]
  | cons m ms ih =>
    obtain ⟨l, w⟩ := m
    obtain ⟨hw, hms⟩ := List.forall_mem_cons.1 h
    have hread : (value (.object ((k, v) :: before) l :: above)).run (tokens w) =
        some (complete w (.object ((k, v) :: before) l :: above)) :=
      hw _ (by rw [List.length_cons]; omega)
    rw [memberTokens, run_cons, step, Option.bind_some, run_cons, step, Option.bind_some, run_cons,
      step, Option.bind_some, run_append, hread, Option.bind_some, ih hms]
    simp

theorem reads_of_nested {n : Nat} {v : Json} (h : Nested n v) : Reads n v := by
  induction h with
  | null => exact fun above _ => rfl
  | bool => exact fun above _ => rfl
  | number => exact fun above _ => rfl
  | string => exact fun above _ => rfl
  | @array n items h ih =>
    intro above hdepth
    have hroom : above.length < maxDepth := by omega
    cases items with
    | nil =>
      rw [tokens, run_openBracket hroom]
      rfl
    | cons v vs =>
      obtain ⟨hv, hvs⟩ := List.forall_mem_cons.1 ih
      have hread := hv (.array [] :: above) (by rw [List.length_cons]; omega)
      rw [tokens, run_openBracket hroom, run_append, run_firstItem, hread, Option.bind_some,
        run_itemTokens hvs hdepth]
      rfl
  | @object n members h ih =>
    intro above hdepth
    have hroom : above.length < maxDepth := by omega
    cases members with
    | nil =>
      rw [tokens, run_openBrace hroom]
      rfl
    | cons m ms =>
      obtain ⟨k, v⟩ := m
      obtain ⟨hv, hms⟩ := List.forall_mem_cons.1 ih
      have hread := hv (.object [] k :: above) (by rw [List.length_cons]; omega)
      rw [tokens, run_openBrace hroom, run_cons, step, Option.bind_some, run_cons, step,
        Option.bind_some, run_append, hread, Option.bind_some, run_memberTokens hms hdepth]
      rfl

end ReaderState

/-! ### From the reader to the value -/

/-- The tokens of an array up to its last item. -/
theorem itemTokens_concat (items : List Json) (v : Json) :
    itemTokens (items ++ [v]) =
      .comma :: (items.flatMap (tokens · ++ [.comma]) ++ (tokens v ++ [.closeBracket])) := by
  induction items with
  | nil => rfl
  | cons w ws ih =>
    rw [List.cons_append, itemTokens, ih]
    simp

theorem tokens_array_concat (items : List Json) (v : Json) :
    tokens (.array (items ++ [v])) =
      .openBracket :: (items.flatMap (tokens · ++ [.comma]) ++ (tokens v ++ [.closeBracket])) := by
  cases items with
  | nil => simp [tokens, itemTokens]
  | cons w ws =>
    rw [List.cons_append, tokens, itemTokens_concat]
    simp

/-- The tokens of a member with the comma after it. -/
def memberComma (m : String × Json) : List Token :=
  .string m.1 :: .colon :: (tokens m.2 ++ [.comma])

theorem memberTokens_concat (members : List (String × Json)) (k : String) (v : Json) :
    memberTokens (members ++ [(k, v)]) =
      .comma :: (members.flatMap memberComma ++
        .string k :: .colon :: (tokens v ++ [.closeBrace])) := by
  induction members with
  | nil => rfl
  | cons m ms ih =>
    obtain ⟨l, w⟩ := m
    rw [List.cons_append, memberTokens, ih]
    simp [memberComma]

theorem tokens_object_concat (members : List (String × Json)) (k : String) (v : Json) :
    tokens (.object (members ++ [(k, v)])) =
      .openBrace :: (members.flatMap memberComma ++
        .string k :: .colon :: (tokens v ++ [.closeBrace])) := by
  cases members with
  | nil => simp [tokens, memberTokens]
  | cons m ms =>
    obtain ⟨l, w⟩ := m
    rw [List.cons_append, tokens, memberTokens_concat]
    simp [memberComma]

/-- The tokens of an array or an object up to the present item or the present value. -/
def Frame.consumed : Frame → List Token
  | .array before => .openBracket :: before.reverse.flatMap (tokens · ++ [.comma])
  | .object before key =>
    .openBrace :: (before.reverse.flatMap memberComma ++ [.string key, .colon])

/-- The tokens of the arrays and objects that are still open, the outermost first. -/
def opened (above : List Frame) : List Token := above.reverse.flatMap Frame.consumed

@[simp] theorem opened_cons (f : Frame) (above : List Frame) :
    opened (f :: above) = opened above ++ f.consumed := by
  simp [opened]

/-- The values that are complete inside open arrays and objects leave room for `n` more levels. -/
inductive Inside : Nat → List Frame → Prop where
  | top : Inside maxDepth []
  | array {n : Nat} {before : List Json} {above : List Frame} (habove : Inside (n + 1) above)
    (h : ∀ v ∈ before, Nested n v) : Inside n (.array before :: above)
  | object {n : Nat} {before : List (String × Json)} {key : String} {above : List Frame}
    (habove : Inside (n + 1) above) (h : ∀ m ∈ before, Nested n m.2) :
    Inside n (.object before key :: above)

theorem Inside.add_length {n : Nat} {above : List Frame} (h : Inside n above) :
    n + above.length = maxDepth := by
  induction h with
  | top => rfl
  | array _ _ ih =>
    rw [List.length_cons]
    omega
  | object _ _ ih =>
    rw [List.length_cons]
    omega

/-- Another array or object may be opened as long as there is room. -/
theorem Inside.exists_succ {n : Nat} {above : List Frame} (h : Inside n above)
    (hroom : above.length < maxDepth) : ∃ m, Inside (m + 1) above := by
  have hlength := h.add_length
  cases n with
  | zero => omega
  | succ m => exact ⟨m, h⟩

namespace ReaderState

variable {s s' : ReaderState} {t : Token} {ts : List Token}

/-- The tokens that lead to a state. -/
def consumed : ReaderState → List Token
  | .value above => opened above
  | .firstItem above => opened above ++ [.openBracket]
  | .firstKey above => opened above ++ [.openBrace]
  | .key before above => opened above ++ .openBrace :: before.reverse.flatMap memberComma
  | .colon before k above =>
    opened above ++ .openBrace :: (before.reverse.flatMap memberComma ++ [.string k])
  | .complete v above => opened above ++ tokens v

/-- The values that the reader has in a state are not nested too deep. -/
def Fits : ReaderState → Prop
  | .value above => ∃ n, Inside n above
  | .firstItem above => ∃ n, Inside (n + 1) above
  | .firstKey above => ∃ n, Inside (n + 1) above
  | .key before above => ∃ n, Inside (n + 1) above ∧ ∀ m ∈ before, Nested n m.2
  | .colon before _ above => ∃ n, Inside (n + 1) above ∧ ∀ m ∈ before, Nested n m.2
  | .complete v above => ∃ n, Inside n above ∧ Nested n v

theorem consumed_start {above : List Frame} (h : start above t = some s) :
    s.consumed = opened above ++ [t] := by
  unfold start at h
  split at h
  case h_5 =>
    split at h
    · cases h; rfl
    · contradiction
  case h_6 =>
    split at h
    · cases h; rfl
    · contradiction
  case h_7 => contradiction
  all_goals
    cases h
    rfl

theorem fits_start {n : Nat} {above : List Frame} (habove : Inside n above)
    (h : start above t = some s) : s.Fits := by
  unfold start at h
  split at h
  case h_5 =>
    split at h
    · next hroom => cases h; exact habove.exists_succ hroom
    · contradiction
  case h_6 =>
    split at h
    · next hroom => cases h; exact habove.exists_succ hroom
    · contradiction
  case h_7 => contradiction
  all_goals cases h
  · exact ⟨n, habove, .null n⟩
  · exact ⟨n, habove, .bool n _⟩
  · exact ⟨n, habove, .number n _⟩
  · exact ⟨n, habove, .string n _⟩

/-- A step reads its token. -/
theorem consumed_step (h : s.step t = some s') : s'.consumed = s.consumed ++ [t] := by
  unfold step at h
  split at h
  case h_1 above t => exact consumed_start h
  case h_2 above =>
    cases h
    simp [consumed, tokens]
  case h_3 above t _ =>
    rw [consumed_start h]
    simp [consumed, Frame.consumed]
  case h_4 above =>
    cases h
    simp [consumed, tokens]
  case h_9 v before above =>
    cases h
    simp [consumed, Frame.consumed, tokens_array_concat]
  case h_11 v before k above =>
    cases h
    simp [consumed, Frame.consumed, tokens_object_concat]
  case h_12 => contradiction
  -- what has been read is put into the frame of an object or an array that stays open
  all_goals
    cases h
    simp [consumed, Frame.consumed, memberComma]

/-- A step keeps within the room that there is. -/
theorem fits_step (hs : s.Fits) (h : s.step t = some s') : s'.Fits := by
  unfold step at h
  split at h
  case h_1 above t =>
    obtain ⟨n, habove⟩ := hs
    exact fits_start habove h
  case h_2 above =>
    cases h
    obtain ⟨n, habove⟩ := hs
    exact ⟨n + 1, habove, .array nofun⟩
  case h_3 above t _ =>
    obtain ⟨n, habove⟩ := hs
    exact fits_start (habove.array fun _ hv => absurd hv List.not_mem_nil) h
  case h_4 above =>
    cases h
    obtain ⟨n, habove⟩ := hs
    exact ⟨n + 1, habove, .object nofun⟩
  case h_5 above k =>
    cases h
    obtain ⟨n, habove⟩ := hs
    exact ⟨n, habove, fun m hm => absurd hm List.not_mem_nil⟩
  case h_6 before above k =>
    cases h
    exact hs
  case h_7 before k above =>
    cases h
    obtain ⟨n, habove, hbefore⟩ := hs
    exact ⟨n, habove.object hbefore⟩
  case h_8 v before above =>
    cases h
    obtain ⟨n, hinside, hv⟩ := hs
    cases hinside with
    | array habove hbefore => exact ⟨n, habove.array (List.forall_mem_cons.2 ⟨hv, hbefore⟩)⟩
  case h_9 v before above =>
    cases h
    obtain ⟨n, hinside, hv⟩ := hs
    cases hinside with
    | array habove hbefore =>
      refine ⟨n + 1, habove, .array fun w hw => ?_⟩
      rcases List.mem_cons.1 (List.mem_reverse.1 hw) with rfl | hw
      · exact hv
      · exact hbefore w hw
  case h_10 v before k above =>
    cases h
    obtain ⟨n, hinside, hv⟩ := hs
    cases hinside with
    | object habove hbefore => exact ⟨n, habove, List.forall_mem_cons.2 ⟨hv, hbefore⟩⟩
  case h_11 v before k above =>
    cases h
    obtain ⟨n, hinside, hv⟩ := hs
    cases hinside with
    | object habove hbefore =>
      refine ⟨n + 1, habove, .object fun m hm => ?_⟩
      rcases List.mem_cons.1 (List.mem_reverse.1 hm) with rfl | hm
      · exact hv
      · exact hbefore m hm
  case h_12 => contradiction

theorem consumed_run (h : s.run ts = some s') : s'.consumed = s.consumed ++ ts := by
  induction ts generalizing s with
  | nil =>
    cases h
    exact (List.append_nil _).symm
  | cons t ts ih =>
    rw [run_cons] at h
    obtain ⟨s₁, hstep, hrun⟩ := Option.bind_eq_some_iff.1 h
    rw [ih hrun, consumed_step hstep, List.append_assoc, List.singleton_append]

theorem fits_run (hs : s.Fits) (h : s.run ts = some s') : s'.Fits := by
  induction ts generalizing s with
  | nil =>
    cases h
    exact hs
  | cons t ts ih =>
    rw [run_cons] at h
    obtain ⟨s₁, hstep, hrun⟩ := Option.bind_eq_some_iff.1 h
    exact ih (fits_step hs hstep) hrun

end ReaderState

/-! ### Documents -/

variable {cs : List Char} {ts : List Token} {v : Json} {bytes : ByteArray}

theorem ofTokens?_tokens (h : Nested maxDepth v) : ofTokens? (tokens v) = some v := by
  rw [ofTokens?, ReaderState.reads_of_nested h [] (Nat.le_of_eq (Nat.zero_add _))]
  rfl

/-- The tokens that denote a value are those of the value. -/
theorem ofTokens?_eq_some_iff : ofTokens? ts = some v ↔ Nested maxDepth v ∧ ts = tokens v := by
  constructor
  · intro h
    obtain ⟨s, hrun, hresult⟩ := Option.bind_eq_some_iff.1 h
    unfold ReaderState.result? at hresult
    split at hresult
    · cases hresult
      obtain ⟨n, hinside, hv⟩ := ReaderState.fits_run (s := .value []) ⟨maxDepth, .top⟩ hrun
      cases hinside
      exact ⟨hv, (ReaderState.consumed_run hrun).symm⟩
    · contradiction
  · rintro ⟨hv, rfl⟩
    exact ofTokens?_tokens hv

/-- A text that denotes a value is a layout of its tokens. -/
theorem read?_eq_some_iff : read? cs = some v ↔ Nested maxDepth v ∧ Layout (tokens v) cs := by
  constructor
  · intro h
    obtain ⟨ts, hts, h⟩ := Option.bind_eq_some_iff.1 h
    obtain ⟨hv, rfl⟩ := ofTokens?_eq_some_iff.1 h
    exact ⟨hv, layout_of_tokens? hts⟩
  · rintro ⟨hv, hlayout⟩
    rw [read?, tokens?_of_layout hlayout hv.apart_tokens, Option.bind_some, ofTokens?_tokens hv]

theorem fromUTF8?_toUTF8 (s : String) : String.fromUTF8? s.toUTF8 = some s := by
  have hvalid : s.toUTF8.IsValidUTF8 := s.isValidUTF8
  rw [String.fromUTF8?, dif_pos hvalid]
  rfl

theorem eq_toUTF8_of_fromUTF8? {text : String} (h : String.fromUTF8? bytes = some text) :
    bytes = text.toUTF8 := by
  unfold String.fromUTF8? at h
  split at h
  · cases h
    rfl
  · contradiction

/-- **The reader takes exactly the documents**, and each for its value. -/
theorem readBytes?_eq_some_iff : readBytes? bytes = some v ↔ IsDocument bytes v := by
  constructor
  · intro h
    obtain ⟨text, htext, h⟩ := Option.bind_eq_some_iff.1 h
    obtain ⟨hv, hlayout⟩ := read?_eq_some_iff.1 h
    exact ⟨hv, text, eq_toUTF8_of_fromUTF8? htext, hlayout⟩
  · rintro ⟨hv, text, rfl, hlayout⟩
    rw [readBytes?, fromUTF8?_toUTF8, Option.bind_some]
    exact read?_eq_some_iff.2 ⟨hv, hlayout⟩

/-- Bytes are a document of one value at most. -/
theorem IsDocument.unique {w : Json} (h : IsDocument bytes v) (h' : IsDocument bytes w) :
    v = w := by
  have hread := readBytes?_eq_some_iff.2 h
  rw [readBytes?_eq_some_iff.2 h'] at hread
  exact (Option.some.inj hread).symm

end BundleAudit.Json
