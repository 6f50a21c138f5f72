import CakeMonitor.Json.Token
/-!
# Reading JSON

The value of a sequence of tokens, built on a stack of the arrays and objects that are open. This is the
reading of documents that `parse_json_stats` begins with.

* `Json.Machine.step`: what one token does.
* `Json.ofText?`: the value of a text.
* `Json.ofOctets?`: the value of a document in UTF-8, UTF-16 or UTF-32.
-/

namespace CakeMonitor.Json

/-- An open array or object that waits for a value; the latest item comes first. -/
inductive Frame where
  | array (items : List Json)
  | object (fields : List (Text × Json)) (key : Text)

/-- What was read last. -/
inductive Phase where
  /-- something that must be followed by a value -/
  | value
  | openArray
  | openObject
  | inArray (items : List Json)
  | inObject (fields : List (Text × Json))
  /-- a comma in an object -/
  | comma (fields : List (Text × Json))
  | key (fields : List (Text × Json)) (key : Text)
  | done (v : Json)

/-- A document in part: what is open around the place, and what was read last. -/
structure Machine where
  stack : List Frame
  phase : Phase

namespace Machine

/-- Nothing was read yet. -/
def start : Machine := ⟨[], .value⟩

/-- A value is complete: it goes into what is open around it. -/
def complete (v : Json) : List Frame → Machine
  | [] => ⟨[], .done v⟩
  | .array xs :: stack => ⟨stack, .inArray (v :: xs)⟩
  | .object fs k :: stack => ⟨stack, .inObject ((k, v) :: fs)⟩

/-- A token that begins a value. -/
def begin? (stack : List Frame) : Token → Option Machine
  | .scalar v => some (complete v stack)
  | .openArray => some ⟨stack, .openArray⟩
  | .openObject => some ⟨stack, .openObject⟩
  | _ => none

/-- A token that must be a key. -/
def key? (stack : List Frame) (fields : List (Text × Json)) : Token → Option Machine
  | .scalar (.text k) => some ⟨stack, .key fields k⟩
  | _ => none

/-- Read one token. -/
def step (m : Machine) (token : Token) : Option Machine :=
  match m.phase, token with
  | .value, _ => begin? m.stack token
  | .openArray, .closeArray => some (complete (.array []) m.stack)
  | .openArray, _ => begin? (.array [] :: m.stack) token
  | .inArray xs, .comma => some ⟨.array xs :: m.stack, .value⟩
  | .inArray xs, .closeArray => some (complete (.array xs.reverse) m.stack)
  | .openObject, .closeObject => some (complete (.object []) m.stack)
  | .openObject, _ => key? m.stack [] token
  | .inObject fs, .comma => some ⟨m.stack, .comma fs⟩
  | .inObject fs, .closeObject => some (complete (.object fs.reverse) m.stack)
  | .comma fs, _ => key? m.stack fs token
  | .key fs k, .colon => some ⟨.object fs k :: m.stack, .value⟩
  | _, _ => none

/-- The value, when it is complete. -/
def result? (m : Machine) : Option Json :=
  match m.phase with
  | .done v => some v
  | _ => none

end Machine

/-- The value of a sequence of tokens. -/
def ofTokens? (ts : List Token) : Option Json :=
  (ts.foldlM Machine.step Machine.start).bind Machine.result?

/-- The value of a text whose integers have at most `limit` digits. -/
def ofText? (limit : Option Nat) (t : Text) : Option Json := (tokens? limit t).bind ofTokens?

/-- The value of a document. -/
def ofOctets? (limit : Option Nat) (bs : Octets) : Option Json :=
  let (encoding, bs) := Encoding.detect bs
  (encoding.decode? bs).bind (ofText? limit)

end CakeMonitor.Json
