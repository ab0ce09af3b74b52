import DocFilter.Parser.Rule

/-!
# Arguments

What the words of a command line ask for.  Options stand before or behind the positional words: long ones as
`--name value` or `--name=value`, short ones joined behind one dash, with their value attached or in the next word.
After `--` every word is positional.  No option may be repeated at its level, and a value that is a word of its own
does not begin with a dash unless it is only a dash.

`Arguments.read` gives an `Invocation`, or the reason to run nothing.
-/

namespace DocFilter

/-- Why no command is run: the version was asked for, or the words make no sense. -/
inductive Halt where
  | version
  | usage
  deriving DecidableEq, Repr

/-- A command and the data it is given. -/
inductive Action where
  | check (query : String) (input? : Option String) (syntaxOnly : Bool)
  | filter (query : String) (input? : Option String) (pretty : Bool)
  | overview
  | manual (category : String)
  deriving DecidableEq, Repr

/-- A command and the nesting that expressions may have. -/
structure Invocation where
  action : Action
  maxDepth : Nat
  deriving DecidableEq, Repr

namespace Arguments

/-! ### Options -/

/-- The options of all commands. -/
inductive OptionName where
  | maxDepth
  | input
  | syntaxOnly
  | pretty
  | version
  deriving DecidableEq, Repr

/-- How an option is spelled and whether a value belongs to it. -/
structure OptionSpec where
  name : OptionName
  long : String
  short? : Option Char
  takesValue : Bool
  deriving DecidableEq, Repr

def maxDepthSpec : OptionSpec :=
  ⟨.maxDepth, "max-depth", none, true⟩

def inputSpec : OptionSpec :=
  ⟨.input, "input", some 'i', true⟩

/-- The options in front of the command. -/
def leadingSpecs : List OptionSpec :=
  [maxDepthSpec, ⟨.version, "version", some 'V', false⟩]

def checkSpecs : List OptionSpec :=
  [maxDepthSpec, inputSpec, ⟨.syntaxOnly, "syntax-only", none, false⟩]

def filterSpecs : List OptionSpec :=
  [maxDepthSpec, inputSpec, ⟨.pretty, "pretty", some 'p', false⟩]

/-- A bound on nesting: decimal digits, perhaps behind a plus sign, for a number of at most 64 bits. -/
def readDepth? (text : String) : Option Nat :=
  let digits :=
    match text.toList with
    | '+' :: digits => digits
    | digits => digits
  (Numeral.ofDigits? 10 digits).filter (· < 18446744073709551616)

/-- Options and their values; the value of an option that takes none is empty. -/
abbrev Given :=
  List (OptionName × String)

namespace Given

/-- Adds an option.  The version ends the reading at once; repeating an option or giving no number for the depth is
an error. -/
def add (given : Given) (name : OptionName) (value : String) : Except Halt Given :=
  if name = .version then .error .version
  else if (given.lookup name).isSome then .error .usage
  else if name = .maxDepth ∧ readDepth? value = none then .error .usage
  else .ok ((name, value) :: given)

def has (given : Given) (name : OptionName) : Bool :=
  (given.lookup name).isSome

end Given

/-! ### Words -/

/-- The role of a word by its first characters. -/
inductive Word where
  | positional
  | terminator
  | long (name : List Char) (value? : Option (List Char))
  | short (letters : List Char)
  deriving DecidableEq, Repr

def Word.ofString (text : String) : Word :=
  match text.toList with
  | ['-', '-'] => terminator
  | '-' :: '-' :: rest =>
    match rest.dropWhile (· ≠ '=') with
    | [] => long rest none
    | _ :: value => long (rest.takeWhile (· ≠ '=')) (some value)
  | '-' :: letter :: letters => short (letter :: letters)
  | _ => positional

/-- Adds the options that letters joined behind one dash stand for.  The answer names the last one if its value is
still to come. -/
def addShort (specs : List OptionSpec) (given : Given) : List Char → Except Halt (Given × Option OptionName)
  | [] => .ok (given, none)
  | letter :: rest =>
    match specs.find? (·.short? = some letter) with
    | none => .error .usage
    | some spec =>
      if spec.takesValue then
        match rest with
        | [] => .ok (given, some spec.name)
        | '=' :: value => (given.add spec.name (String.ofList value)).map fun given => (given, none)
        | value => (given.add spec.name (String.ofList value)).map fun given => (given, none)
      else do
        let given ← given.add spec.name ""
        addShort specs given rest

/-- Adds a long option.  The answer names it if its value is still to come. -/
def addLong (specs : List OptionSpec) (given : Given) (name : List Char) (value? : Option (List Char)) :
    Except Halt (Given × Option OptionName) :=
  match specs.find? (·.long.toList = name) with
  | none => .error .usage
  | some spec =>
    match spec.takesValue, value? with
    | true, none => .ok (given, some spec.name)
    | true, some value => (given.add spec.name (String.ofList value)).map fun given => (given, none)
    | false, none => (given.add spec.name "").map fun given => (given, none)
    | false, some _ => .error .usage

/-- Adds options and collects positional words, the last one first.  `awaiting` names an option whose value is the
next word.  With `inFront`, reading ends at the first positional word, and the answer is the words from that one on;
otherwise the answer is all positional words. -/
def readWords (specs : List OptionSpec) (inFront : Bool) (given : Given) (words : List String)
    (awaiting : Option OptionName) : List String → Except Halt (Given × List String)
  | [] => if awaiting = none then .ok (given, words.reverse) else .error .usage
  | word :: rest =>
    match awaiting, Word.ofString word with
    | some name, .positional => do
      let given ← given.add name word
      readWords specs inFront given words none rest
    | some _, _ => .error .usage
    | none, .positional =>
      if inFront then .ok (given, word :: rest) else readWords specs inFront given (word :: words) none rest
    | none, .terminator => if inFront then .error .usage else .ok (given, words.reverse ++ rest)
    | none, .long name value? => do
      let (given, awaiting) ← addLong specs given name value?
      readWords specs inFront given words awaiting rest
    | none, .short letters => do
      let (given, awaiting) ← addShort specs given letters
      readWords specs inFront given words awaiting rest

/-! ### Invocations -/

/-- The bound on nesting.  What stands behind the command counts before what stands in front of it, and the variable
counts only if neither is there.  The variable has to be a number unless both are there. -/
def depth (leading trailing : Given) (environment? : Option String) : Except Halt Nat :=
  let stated := (trailing.lookup .maxDepth).orElse fun _ => leading.lookup .maxDepth
  match environment? with
  | none => .ok ((stated.bind readDepth?).getD Limits.standard.maxDepth)
  | some text =>
    match readDepth? text with
    | some n => .ok ((stated.bind readDepth?).getD n)
    | none =>
      if leading.has .maxDepth ∧ trailing.has .maxDepth then
        .ok ((stated.bind readDepth?).getD Limits.standard.maxDepth)
      else .error .usage

/-- The options that a command understands, by its name. -/
def specsOf? : String → Option (List OptionSpec)
  | "check" => some checkSpecs
  | "filter" => some filterSpecs
  | "docs" => some [maxDepthSpec]
  | "doc" => some [maxDepthSpec]
  | _ => none

/-- The action of a command by its name, options and positional words. -/
def action? (command : String) (given : Given) (words : List String) : Option Action :=
  match command, words with
  | "check", [query] => some (.check query (given.lookup .input) (given.has .syntaxOnly))
  | "filter", [query] => some (.filter query (given.lookup .input) (given.has .pretty))
  | "docs", [] => some .overview
  | "doc", [category] => some (.manual category)
  | _, _ => none

/-- Reads the words of a command line.  `environment?` is the value of the environment variable for the depth. -/
def read (args : List String) (environment? : Option String) : Except Halt Invocation := do
  match ← readWords leadingSpecs true [] [] none args with
  | (_, []) => throw .usage
  | (leading, command :: rest) =>
    match specsOf? command with
    | none => throw .usage
    | some specs => do
      let (trailing, words) ← readWords specs false [] [] none rest
      let maxDepth ← depth leading trailing environment?
      match action? command trailing words with
      | none => throw .usage
      | some action => return { action, maxDepth }

end Arguments

end DocFilter
