import DocFilter.Digit

/-!
# JSON strings

Texts between double quotes.  `encode` writes every character as itself, save the quote, the backslash and the
control characters below the blank; `decode` reads every spelling that the format allows.
-/

namespace DocFilter
namespace Json

/-- Why a text is not JSON. -/
inductive SyntaxError where
  | unexpectedEnd
  | unexpectedChar (char : Char)
  | unexpectedToken
  | controlCharacter
  | invalidEscape
  | loneSurrogate
  | invalidNumber
  | numberOutOfRange
  | tooDeep
  deriving DecidableEq, Repr

def SyntaxError.message : SyntaxError → String
  | unexpectedEnd => "unexpected end of text"
  | unexpectedChar c => s!"unexpected character '{c}'"
  | unexpectedToken => "unexpected token"
  | controlCharacter => "control character inside a string"
  | invalidEscape => "invalid escape inside a string"
  | loneSurrogate => "half of a surrogate pair inside a string"
  | invalidNumber => "invalid number"
  | numberOutOfRange => "number out of range"
  | tooDeep => "nesting too deep"

namespace Quoted

/-- A lower-case hexadecimal digit. -/
def hexDigit (n : Nat) : Char :=
  Nat.digitChar (n % 16)

/-- How one character is written. -/
def encodeChar (c : Char) : List Char :=
  match c with
  | '"' => ['\\', '"']
  | '\\' => ['\\', '\\']
  | '\x08' => ['\\', 'b']
  | '\t' => ['\\', 't']
  | '\n' => ['\\', 'n']
  | '\x0c' => ['\\', 'f']
  | '\r' => ['\\', 'r']
  | c => if c.toNat < 32 then ['\\', 'u', '0', '0', hexDigit (c.toNat / 16), hexDigit c.toNat] else [c]

/-- A text between quotes. -/
def encode (text : String) : String :=
  String.ofList ('"' :: text.toList.flatMap encodeChar ++ ['"'])

/-- The number that four hexadecimal digits of either case write. -/
def codeUnit? (a b c d : Char) : Option Nat := do
  let a ← digitValue? a
  let b ← digitValue? b
  let c ← digitValue? c
  let d ← digitValue? d
  return ((a * 16 + b) * 16 + c) * 16 + d

def isHighSurrogate (unit : Nat) : Bool :=
  0xD800 ≤ unit && unit < 0xDC00

def isLowSurrogate (unit : Nat) : Bool :=
  0xDC00 ≤ unit && unit < 0xE000

/-- The character of a surrogate pair. -/
def ofPair (high low : Nat) : Char :=
  Char.ofNat (0x10000 + (high - 0xD800) * 0x400 + (low - 0xDC00))

/-- The character that a backslash and the given one stand for. -/
def unescape? : Char → Option Char
  | '"' => some '"'
  | '\\' => some '\\'
  | '/' => some '/'
  | 'b' => some '\x08'
  | 'f' => some '\x0c'
  | 'n' => some '\n'
  | 'r' => some '\r'
  | 't' => some '\t'
  | _ => none

/-- Puts a character in front of what was decoded behind the `width` characters that spell it. -/
def push (c : Char) (width : Nat) : List Char × Nat → List Char × Nat
  | (cs, n) => (c :: cs, width + n)

/-- Reads a string behind its opening quote: its characters, and how many characters it takes with the closing
quote.  A character beyond 16 bits may be written as a surrogate pair of escapes, and half a pair is an error. -/
def decode : List Char → Except SyntaxError (List Char × Nat)
  | [] => .error .unexpectedEnd
  | '"' :: _ => .ok ([], 1)
  | '\\' :: 'u' :: a :: b :: c :: d :: rest =>
    match codeUnit? a b c d with
    | none => .error .invalidEscape
    | some unit =>
      if isHighSurrogate unit then
        match rest with
        | '\\' :: 'u' :: e :: f :: g :: h :: rest =>
          match codeUnit? e f g h with
          | none => .error .invalidEscape
          | some low =>
            if isLowSurrogate low then (decode rest).map (push (ofPair unit low) 12)
            else .error .loneSurrogate
        | _ => .error .loneSurrogate
      else if isLowSurrogate unit then .error .loneSurrogate
      else (decode rest).map (push (Char.ofNat unit) 6)
  | '\\' :: e :: rest =>
    match unescape? e with
    | none => .error .invalidEscape
    | some c => (decode rest).map (push c 2)
  | c :: rest =>
    if c.toNat < 32 then .error .controlCharacter else (decode rest).map (push c 1)

end Quoted
end Json
end DocFilter
