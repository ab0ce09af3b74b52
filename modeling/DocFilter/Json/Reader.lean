import DocFilter.Json.Number

/-!
# Reading JSON

A text is cut into tokens, and a machine with a stack of open containers builds the value from them.  Texts with
more than `Json.depthLimit` nested containers are refused.  Of two members with the same key the last one counts.
-/

namespace DocFilter
namespace Json

/-- Containers may be nested this deep. -/
def depthLimit : Nat :=
  127

inductive Token where
  | beginArray
  | endArray
  | beginObject
  | endObject
  | nameSeparator
  | valueSeparator
  | string (value : String)
  | scalar (value : Json)

namespace Token

/-- Reads the token at the head of a text, which is no blank; the answer is the token and its width. -/
def read : List Char → Except SyntaxError (Token × Nat)
  | '[' :: _ => .ok (beginArray, 1)
  | ']' :: _ => .ok (endArray, 1)
  | '\x7b' :: _ => .ok (beginObject, 1)
  | '\x7d' :: _ => .ok (endObject, 1)
  | ':' :: _ => .ok (nameSeparator, 1)
  | ',' :: _ => .ok (valueSeparator, 1)
  | '"' :: rest => (Quoted.decode rest).map fun (cs, n) => (string (String.ofList cs), n + 1)
  | 'n' :: 'u' :: 'l' :: 'l' :: _ => .ok (scalar null, 4)
  | 't' :: 'r' :: 'u' :: 'e' :: _ => .ok (scalar (bool true), 4)
  | 'f' :: 'a' :: 'l' :: 's' :: 'e' :: _ => .ok (scalar (bool false), 5)
  | [] => .error .unexpectedEnd
  | c :: rest =>
    if c = '-' ∨ c.isDigit then (Number.read (c :: rest)).map fun (n, width) => (scalar (number n), width)
    else .error (.unexpectedChar c)

def isBlank (c : Char) : Bool :=
  c = ' ' || c = '\t' || c = '\n' || c = '\r'

/-- The tokens of a text whose next `skip` characters belong to a token that was read before. -/
def readAllFrom : (skip : Nat) → List Char → Except SyntaxError (List Token)
  | _, [] => .ok []
  | skip + 1, _ :: rest => readAllFrom skip rest
  | 0, c :: rest =>
    if isBlank c then readAllFrom 0 rest
    else do
      let (token, width) ← read (c :: rest)
      return token :: (← readAllFrom (width - 1) rest)

/-- A token at the head of a text and the tokens behind it are the tokens of the text. -/
theorem readAllFrom_of_read {c : Char} {cs : List Char} {token : Token} {width : Nat} {tokens : List Token}
    (hc : isBlank c = false) (htoken : read (c :: cs) = .ok (token, width))
    (htokens : readAllFrom (width - 1) cs = .ok tokens) : readAllFrom 0 (c :: cs) = .ok (token :: tokens) := by
  have hbind : readAllFrom 0 (c :: cs) = (readAllFrom (width - 1) cs).bind fun ts => .ok (token :: ts) := by
    rw [readAllFrom, hc, htoken]
    rfl
  rw [hbind, htokens]
  rfl

/-- The tokens of a text. -/
def readAll (text : List Char) : Except SyntaxError (List Token) :=
  readAllFrom 0 text

end Token

/-- A container that is still open: an array with its items up to now, the last one first, or an object with its
members up to now and the key whose value is being read. -/
inductive Frame where
  | array (items : List Json)
  | object (members : Fields Json) (key : String)

/-- What has been read and what may come next, inside the open containers `frames`, the innermost first. -/
inductive Reader where
  | value (frames : List Frame)
  | itemOrEnd (frames : List Frame)
  | keyOrEnd (frames : List Frame)
  | key (members : Fields Json) (frames : List Frame)
  | nameSeparator (members : Fields Json) (key : String) (frames : List Frame)
  | behindItem (items : List Json) (frames : List Frame)
  | behindMember (members : Fields Json) (frames : List Frame)
  | done (result : Json)

namespace Reader

/-- Hands a complete value to the innermost open container. -/
def complete (j : Json) : List Frame → Reader
  | [] => done j
  | .array items :: frames => behindItem (j :: items) frames
  | .object members k :: frames => behindMember (members.insert k j) frames

/-- Opens a container inside `frames`. -/
def enter (limit : Nat) (frames : List Frame) (inside : Reader) : Except SyntaxError Reader :=
  if frames.length < limit then .ok inside else .error .tooDeep

/-- Begins a value with its first token. -/
def begin (limit : Nat) (frames : List Frame) : Token → Except SyntaxError Reader
  | .beginArray => enter limit frames (itemOrEnd frames)
  | .beginObject => enter limit frames (keyOrEnd frames)
  | .string s => .ok (complete (.string s) frames)
  | .scalar j => .ok (complete j frames)
  | _ => .error .unexpectedToken

/-- Takes one token. -/
def step (limit : Nat) : Reader → Token → Except SyntaxError Reader
  | value frames, token => begin limit frames token
  | itemOrEnd frames, .endArray => .ok (complete (.array []) frames)
  | itemOrEnd frames, token => begin limit (.array [] :: frames) token
  | keyOrEnd frames, .endObject => .ok (complete (.object []) frames)
  | keyOrEnd frames, .string k => .ok (nameSeparator [] k frames)
  | key members frames, .string k => .ok (nameSeparator members k frames)
  | nameSeparator members k frames, .nameSeparator => .ok (value (.object members k :: frames))
  | behindItem items frames, .valueSeparator => .ok (value (.array items :: frames))
  | behindItem items frames, .endArray => .ok (complete (.array items.reverse) frames)
  | behindMember members frames, .valueSeparator => .ok (key members frames)
  | behindMember members frames, .endObject => .ok (complete (.object members) frames)
  | _, _ => .error .unexpectedToken

end Reader

/-- Reads a text with at most `limit` nested containers. -/
def parseWithin (limit : Nat) (text : String) : Except SyntaxError Json := do
  let tokens ← Token.readAll text.toList
  match ← tokens.foldlM (Reader.step limit) (.value []) with
  | .done result => return result
  | _ => throw .unexpectedEnd

/-- The value that a text denotes. -/
def parse (text : String) : Except SyntaxError Json :=
  parseWithin depthLimit text

end Json
end DocFilter
