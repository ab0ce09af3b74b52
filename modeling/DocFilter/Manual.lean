/-!
# Manual

The texts that describe the filter language to its users, by category.  A category has a name and may have a shorter
one; case does not matter.
-/

namespace DocFilter
namespace Manual

/-- A text of whole lines. -/
def page (lines : List String) : String :=
  String.join (lines.map (· ++ "\n"))

/-- The list of categories. -/
def overview : String :=
  page [
    "MAPQ DOCUMENTATION",
    "",
    "mapq evaluates boolean filter expressions against JSON objects. An expression",
    "names fields by dotted path and combines them with comparison, arithmetic and",
    "logical operators. The whole expression must produce true or false.",
    "",
    "DOCUMENTATION CATEGORIES",
    "",
    "  syntax            Field paths, literals, grouping and whitespace",
    "  operators         Logical, comparison and arithmetic operators with precedence",
    "  types             Value types, numeric coercion and equality rules",
    "",
    "QUICK REFERENCE",
    "",
    "  user.age >= 18                    Compare a nested field",
    "  status == 'active' && !banned     Combine conditions",
    "  (price + tax) * qty > 100         Arithmetic with grouping",
    "  email == null                     Test for an absent field",
    "",
    "Run 'mapq doc <category>' for detailed documentation."]

/-- Field paths, literals, grouping and blanks. -/
def grammarText : String :=
  page [
    "SYNTAX - Expressions and Literals",
    "",
    "FIELD PATHS",
    "  name",
    "  user.address.city",
    "    A field path is one or more identifiers joined by dots. Each identifier",
    "    starts with an ASCII letter followed by letters, digits or underscores.",
    "",
    "    Example:",
    "      Input:  \x7b\"user\": \x7b\"address\": \x7b\"city\": \"Oslo\"\x7d\x7d\x7d",
    "      Query:  user.address.city == 'Oslo'",
    "      Output: true",
    "",
    "    Constraints:",
    "      - A missing final segment reads as null",
    "      - A missing or non-object intermediate segment is an error",
    "      - Field names are case-sensitive",
    "",
    "LITERALS",
    "  true  false  null",
    "  42  3.5  0x1f  0o17  0b101",
    "  'text'",
    "",
    "    Strings are delimited by single quotes. Supported escapes:",
    "      \\'  \\t  \\n  \\r  \\\\  \\0",
    "",
    "GROUPING",
    "  (a + b) * 2",
    "  !(status == 'closed' || archived)",
    "    Parentheses group arithmetic and boolean sub-expressions.",
    "",
    "WHITESPACE",
    "    Spaces and tabs between tokens are ignored. Newlines are not allowed."]

/-- The operators and their precedence. -/
def operatorsText : String :=
  page [
    "OPERATORS - Logical, Comparison and Arithmetic",
    "",
    "PRECEDENCE (lowest to highest)",
    "  && ||                     Logical, left to right",
    "  == != < > <= >=           Comparison, left to right",
    "  + -                       Additive",
    "  * /                       Multiplicative",
    "  ! unary + unary -         Prefix",
    "",
    "  a == 1 && b == 2 || c     parses as ((a == 1) && (b == 2)) || c",
    "  && and || share one level, so mixing them groups strictly left to right.",
    "",
    "LOGICAL OPERATORS",
    "  &&    Logical AND (short-circuit)",
    "  ||    Logical OR (short-circuit); a single | is accepted as well",
    "  !     Logical NOT (prefix)",
    "",
    "  Constraints:",
    "    - Operands must be booleans, anything else is a type error",
    "    - The right side is not evaluated when the left side decides",
    "",
    "COMPARISON OPERATORS",
    "  ==  !=    Equality",
    "  <  >  <=  >=    Ordering",
    "",
    "  Constraints:",
    "    - Ordering compares numbers; other operands count as 0",
    "    - Chains such as a < b < c compare the boolean result as 0",
    "",
    "ARITHMETIC OPERATORS",
    "  +  -  *  /",
    "",
    "  Constraints:",
    "    - All arithmetic is done in 64-bit floating point",
    "    - Non-numeric operands count as 0",
    "    - Division by zero yields infinity or NaN, never an error"]

/-- Kinds of values, coercion and equality. -/
def typesText : String :=
  page [
    "TYPES - Values and Coercion",
    "",
    "VALUE TYPES",
    "  null        JSON null, or a missing final path segment",
    "  boolean     true or false",
    "  integer     Whole JSON numbers",
    "  float       Fractional JSON numbers",
    "  string      Text",
    "  object      Nested JSON object",
    "",
    "  Arrays are only accepted as the outermost container of a batch. An array",
    "  inside a document is a decode error.",
    "",
    "NUMERIC EQUALITY",
    "  Numbers compare by value regardless of width or kind.",
    "",
    "    Input:  \x7b\"a\": 2\x7d",
    "    Query:  a == 2.0",
    "    Output: true",
    "",
    "  NaN is never equal to anything, including itself.",
    "",
    "OTHER EQUALITY",
    "  Strings, booleans, null and objects compare structurally. Values of",
    "  different types are never equal.",
    "",
    "BATCHES",
    "  When the input is an array, 'mapq check' reports whether any element",
    "  matches and 'mapq filter' prints the matching elements. Elements that are",
    "  not objects are skipped."]

/-- What a text of the manual is about. -/
inductive Category where
  | grammar
  | operators
  | types
  deriving DecidableEq, Repr

namespace Category

/-- The category of a name. -/
def ofName? (name : String) : Option Category :=
  match name.toLower with
  | "syntax" => some grammar
  | "operators" | "ops" => some operators
  | "types" | "type" => some types
  | _ => none

def text : Category → String
  | grammar => grammarText
  | operators => operatorsText
  | types => typesText

end Category

end Manual
end DocFilter
