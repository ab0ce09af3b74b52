import DocFilter.Json.Number

/-!
# Writing JSON

`Json.compact` writes a value without any blank, `Json.pretty` with one item or member a line.
-/

namespace DocFilter
namespace Json

mutual

/-- The text of a value without blanks. -/
def compact : Json → String
  | null => "null"
  | bool b => if b then "true" else "false"
  | number n => n.write
  | string s => Quoted.encode s
  | array items => "[" ++ ",".intercalate (compactItems items) ++ "]"
  | object members => "\x7b" ++ ",".intercalate (compactMembers members) ++ "\x7d"

def compactItems : List Json → List String
  | [] => []
  | item :: rest => compact item :: compactItems rest

def compactMembers : List (String × Json) → List String
  | [] => []
  | (key, j) :: rest => (Quoted.encode key ++ ":" ++ compact j) :: compactMembers rest

end

/-- A line break and the blanks of a line inside `depth` containers. -/
def newline (depth : Nat) : String :=
  "\n" ++ String.ofList (List.replicate (2 * depth) ' ')

/-- Items between brackets, one a line inside `depth` containers; nothing stands between the brackets of no items. -/
def block (opening closing : String) (depth : Nat) : List String → String
  | [] => opening ++ closing
  | items =>
    opening ++ newline (depth + 1) ++ ("," ++ newline (depth + 1)).intercalate items ++ newline depth ++ closing

mutual

/-- The text of a value that stands inside `depth` containers, its own items indented by two blanks a level. -/
def prettyAt (depth : Nat) : Json → String
  | array items => block "[" "]" depth (prettyItems (depth + 1) items)
  | object members => block "\x7b" "\x7d" depth (prettyMembers (depth + 1) members)
  | null => "null"
  | bool b => if b then "true" else "false"
  | number n => n.write
  | string s => Quoted.encode s

def prettyItems (depth : Nat) : List Json → List String
  | [] => []
  | item :: rest => prettyAt depth item :: prettyItems depth rest

def prettyMembers (depth : Nat) : List (String × Json) → List String
  | [] => []
  | (key, j) :: rest => (Quoted.encode key ++ ": " ++ prettyAt depth j) :: prettyMembers depth rest

end

/-- The text of a value over several lines. -/
def pretty (j : Json) : String :=
  j.prettyAt 0

end Json
end DocFilter
