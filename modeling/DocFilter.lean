import DocFilter.Batch
import DocFilter.Command
import DocFilter.CommandLine
import DocFilter.CommandLine.Arguments
import DocFilter.Decimal
import DocFilter.Decimal.Layout
import DocFilter.Decimal.Shortest
import DocFilter.Digit
import DocFilter.Eval
import DocFilter.Eval.Error
import DocFilter.Expr
import DocFilter.FieldPath
import DocFilter.Fields
import DocFilter.Json
import DocFilter.Json.Number
import DocFilter.Json.Printer
import DocFilter.Json.Quoted
import DocFilter.Json.Reader
import DocFilter.Lexer
import DocFilter.Main
import DocFilter.Manual
import DocFilter.Numeral
import DocFilter.Parser
import DocFilter.Parser.Error
import DocFilter.Parser.Grammar
import DocFilter.Parser.Rule
import DocFilter.Query
import DocFilter.Token
import DocFilter.Token.Lexeme
import DocFilter.Token.Stream
import DocFilter.Value
import DocFilter.Value.Json
import DocFilter.Value.Native
import DocFilter.Proofs.Grammar.Derivation
import DocFilter.Proofs.Grammar.Soundness
import DocFilter.Proofs.Grammar.Completeness
import DocFilter.Proofs.Grammar.Language
import DocFilter.Proofs.Batch.Finding
import DocFilter.Proofs.Command.Agreement
import DocFilter.Proofs.Eval.Meaning
import DocFilter.Proofs.Grammar.Writing
import DocFilter.Proofs.Token.Delimiter
import DocFilter.Proofs.Token.Relocation
import DocFilter.Proofs.Token.Seam
import DocFilter.Proofs.Grammar.Comparison
import DocFilter.Proofs.Grammar.Extent
import DocFilter.Proofs.Grammar.Limits
import DocFilter.Proofs.Grammar.Alternatives
import DocFilter.Proofs.Grammar.Substitution
import DocFilter.Proofs.Value.Finite
import DocFilter.Proofs.Value.Roundtrip
import DocFilter.Proofs.Value.Rounding
import DocFilter.Proofs.Grammar.Composition
import DocFilter.Proofs.Eval.Conjunction
import DocFilter.Proofs.Command.Conjunction
import DocFilter.Proofs.Command.Refiltering
import DocFilter.Proofs.Token.Malformed
import DocFilter.Proofs.Grammar.Reporting
import DocFilter.Proofs.Token.Prolongation
import DocFilter.Proofs.Grammar.Prolongation
import DocFilter.Proofs.Grammar.Unfinished
import DocFilter.Proofs.Grammar.Continuation
import DocFilter.Proofs.Grammar.Layout
import DocFilter.Proofs.Eval.Activations
import DocFilter.Proofs.Grammar.Nesting
import DocFilter.Proofs.Command.SingleDocument
import DocFilter.Proofs.Eval.Safety
import DocFilter.Proofs.Value.NotANumber
import DocFilter.Proofs.Token.Numeral
import DocFilter.Proofs.Query.StoredInteger
import DocFilter.Proofs.Token.Cursor
import DocFilter.Proofs.Parser.Procedure
import DocFilter.Proofs.Parser.Production
import DocFilter.Proofs.Parser.Backtracking
import DocFilter.Proofs.Parser.Calls
import DocFilter.Proofs.Eval.Width
import DocFilter.Proofs.Value.Access
import DocFilter.Proofs.Eval.Resolution
import DocFilter.Proofs.Value.Decoding
import DocFilter.Proofs.Grammar.Refusal
import DocFilter.Proofs.Grammar.Sticking
import DocFilter.Proofs.Grammar.Fault
import DocFilter.Proofs.Batch.Composition
import DocFilter.Proofs.Command.Negation
import DocFilter.Proofs.Eval.Grouping
import DocFilter.Proofs.Token.Cut
import DocFilter.Proofs.Value.Equality
import DocFilter.Proofs.Eval.Relevance
import DocFilter.Proofs.Token.Quotation
import DocFilter.Proofs.Token.Lexicon
import DocFilter.Proofs.Token.Literal
import DocFilter.Proofs.Grammar.Trailing
import DocFilter.Proofs.Grammar.Regrouping
import DocFilter.Proofs.Token.Tiling
import DocFilter.Proofs.Token.Blanks
import DocFilter.Proofs.Token.Progress
import DocFilter.Proofs.Grammar.Prefix
import DocFilter.Proofs.Token.Radix
import DocFilter.Proofs.Grammar.InvalidNumber
import DocFilter.Proofs.Grammar.Number
import DocFilter.Proofs.FieldPath.Linking
import DocFilter.Proofs.FieldPath.Display
