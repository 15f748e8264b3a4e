import JsoniqLexer.Main
import JsoniqLexer.Proofs.Pattern.Language
import JsoniqLexer.Proofs.Pattern.Layout
import JsoniqLexer.Proofs.Pattern.Closure
import JsoniqLexer.Proofs.Pattern.Search
import JsoniqLexer.Proofs.Pattern.Longest
import JsoniqLexer.Proofs.Pattern.Extent
import JsoniqLexer.Proofs.Jsoniq.Table
import JsoniqLexer.Proofs.Grammar.Select
import JsoniqLexer.Proofs.Jsoniq.MaximalMunch
import JsoniqLexer.Proofs.Lexer.Run
import JsoniqLexer.Proofs.Lexer.Step
import JsoniqLexer.Proofs.Lexer.Tiling
import JsoniqLexer.Proofs.Lexer.Merge
import JsoniqLexer.Proofs.Grammar.Build
import JsoniqLexer.Proofs.Lexer.Coverage
import JsoniqLexer.Proofs.Jsoniq.Selection
import JsoniqLexer.Proofs.Jsoniq.Stack
import JsoniqLexer.Proofs.Jsoniq.Comments
import JsoniqLexer.Proofs.Lexer.Shift
import JsoniqLexer.Proofs.Jsoniq.Strings
import JsoniqLexer.Proofs.Lexer.Openings
import JsoniqLexer.Proofs.Lexer.Restart
import JsoniqLexer.Proofs.Text.Lines
import JsoniqLexer.Proofs.Text.Positions
import JsoniqLexer.Proofs.Jsoniq.Continuation
import JsoniqLexer.Proofs.Jsoniq.Nesting
import JsoniqLexer.Proofs.Jsoniq.Splitting
import JsoniqLexer.Proofs.Jsoniq.Calls
import JsoniqLexer.Proofs.Jsoniq.Opening
import JsoniqLexer.Proofs.Jsoniq.Termination
import JsoniqLexer.Proofs.Text.Beginnings
import JsoniqLexer.Proofs.Render.Markup
import JsoniqLexer.Proofs.Render.Lines
import JsoniqLexer.Proofs.Render.Lossless
import JsoniqLexer.Proofs.Render.Numbering
import JsoniqLexer.Proofs.Render.Seams
import JsoniqLexer.Proofs.Render.Coloring
import JsoniqLexer.Proofs.Render.Colors
import JsoniqLexer.Proofs.Jsoniq.Words
import JsoniqLexer.Proofs.Lexer.Lockstep
import JsoniqLexer.Proofs.Lexer.Memoryless
import JsoniqLexer.Proofs.Lexer.Completion
import JsoniqLexer.Proofs.Pattern.Exchange
import JsoniqLexer.Proofs.Jsoniq.Mirror
import JsoniqLexer.Proofs.Jsoniq.Blanks
import JsoniqLexer.Proofs.Text.Numerals
import JsoniqLexer.Proofs.Text.Quotation
import JsoniqLexer.Proofs.Text.JsonReader
import JsoniqLexer.Proofs.Render.Dump
import JsoniqLexer.Proofs.Jsoniq.Constructs
import JsoniqLexer.Proofs.Lexer.Stretches
import JsoniqLexer.Proofs.Jsoniq.Incremental
import JsoniqLexer.Proofs.Grammar.Violations
import JsoniqLexer.Proofs.Jsoniq.CatchAll
import JsoniqLexer.Proofs.Lexer.Failure
import JsoniqLexer.Proofs.Grammar.EmptyMatches
import JsoniqLexer.Proofs.Grammar.Literals
import JsoniqLexer.Proofs.Lexer.Requests
