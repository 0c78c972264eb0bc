import BundleAudit.Json.Token

/-!
# Reading a JSON document

The reader goes through the tokens once.  It remembers the arrays and objects that are still open,
innermost first, and what has to come next.  Arrays and objects may be nested 127 deep.

## Main definitions

* `Frame` — an array or an object that is still open.
* `ReaderState` — what has to come next, inside which open arrays and objects.
* `ReaderState.step` — the state after one more token.
* `Json.ofTokens?`, `Json.read?` — the value that tokens, or a text, denote.
-/

namespace BundleAudit

namespace Json

/-- An array or an object that is still open, with what it holds so far, last first. -/
inductive Frame where
  /-- An array with the items before the present one. -/
  | array (before : List Json)
  /-- An object with the members before the present one, and the key of the present one. -/
  | object (before : List (String × Json)) (key : String)

/-- How deep arrays and objects may be nested. -/
def maxDepth : Nat := 127

/-- What the tokens read so far ask for.  In each case `above` holds the open arrays and objects,
innermost first. -/
inductive ReaderState where
  /-- A value has to come. -/
  | value (above : List Frame)
  /-- An array has just been opened: its first item or its end has to come. -/
  | firstItem (above : List Frame)
  /-- An object has just been opened: its first key or its end has to come. -/
  | firstKey (above : List Frame)
  /-- A member has ended: another key has to come. -/
  | key (before : List (String × Json)) (above : List Frame)
  /-- A key has been read: the colon after it has to come. -/
  | colon (before : List (String × Json)) (key : String) (above : List Frame)
  /-- A value is complete: what encloses it has to go on or to end. -/
  | complete (value : Json) (above : List Frame)

namespace ReaderState

/-- The state after a token that starts a value. -/
def start (above : List Frame) : Token → Option ReaderState
  | .null => some (.complete .null above)
  | .bool b => some (.complete (.bool b) above)
  | .number n => some (.complete (.number n) above)
  | .string s => some (.complete (.string s) above)
  | .openBracket => if above.length < maxDepth then some (.firstItem above) else none
  | .openBrace => if above.length < maxDepth then some (.firstKey above) else none
  | _ => none

/-- The state after one more token. -/
def step : ReaderState → Token → Option ReaderState
  | .value above, t => start above t
  | .firstItem above, .closeBracket => some (.complete (.array []) above)
  | .firstItem above, t => start (.array [] :: above) t
  | .firstKey above, .closeBrace => some (.complete (.object []) above)
  | .firstKey above, .string k => some (.colon [] k above)
  | .key before above, .string k => some (.colon before k above)
  | .colon before k above, .colon => some (.value (.object before k :: above))
  | .complete v (.array before :: above), .comma => some (.value (.array (v :: before) :: above))
  | .complete v (.array before :: above), .closeBracket =>
    some (.complete (.array (v :: before).reverse) above)
  | .complete v (.object before k :: above), .comma => some (.key ((k, v) :: before) above)
  | .complete v (.object before k :: above), .closeBrace =>
    some (.complete (.object ((k, v) :: before).reverse) above)
  | _, _ => none

/-- The state after further tokens. -/
def run (s : ReaderState) (ts : List Token) : Option ReaderState := ts.foldlM step s

@[simp] theorem run_nil (s : ReaderState) : s.run [] = some s := rfl

@[simp] theorem run_cons (s : ReaderState) (t : Token) (ts : List Token) :
    s.run (t :: ts) = (s.step t).bind (·.run ts) := by
  simp [run, List.foldlM_cons]

/-- A run can be interrupted. -/
theorem run_append (s : ReaderState) (ts us : List Token) :
    s.run (ts ++ us) = (s.run ts).bind (·.run us) := by
  simp [run, List.foldlM_append]

/-- The value that has been read, if nothing is missing. -/
def result? : ReaderState → Option Json
  | .complete v [] => some v
  | _ => none

end ReaderState

/-- The value that tokens denote. -/
def ofTokens? (ts : List Token) : Option Json :=
  ((ReaderState.value []).run ts).bind ReaderState.result?

/-- The value that a text denotes. -/
def read? (cs : List Char) : Option Json := (tokens? cs).bind ofTokens?

/-- The value that a document of bytes denotes.  It has to be text in UTF-8. -/
def readBytes? (bytes : ByteArray) : Option Json :=
  (String.fromUTF8? bytes).bind fun text => read? text.toList

end Json

end BundleAudit
