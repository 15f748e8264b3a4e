import JsoniqLexer.Cli.Command

/-!
# Parameters and usage errors

The parameters that commands take, what is said about each command, and what is said about a command
line that is not understood.
-/

set_option autoImplicit false

namespace JsoniqLexer.Cli

/-- The parameters of commands. -/
inductive Param where
  | file
  | source
  | color
  | cssClass
  | raw
  | spans
  | json
  | noWrap
  | lineNumbers
deriving DecidableEq, Repr

namespace Param

/-- The long name of an option; the file has none. -/
def long? : Param → Option String
  | file => none
  | source => some "source"
  | color => some "color"
  | cssClass => some "class"
  | raw => some "raw"
  | spans => some "spans"
  | json => some "json"
  | noWrap => some "no-wrap"
  | lineNumbers => some "line-numbers"

/-- The one-letter name of an option, if it has one. -/
def short? : Param → Option Char
  | source => some 's'
  | _ => none

/-- The parameter carries a value. -/
def takesValue : Param → Bool
  | file | source | color | cssClass => true
  | raw | spans | json | noWrap | lineNumbers => false

/-- A parameter as messages show it. -/
def shown : Param → String
  | file => "[FILE]"
  | source => "--source <TEXT>"
  | color => "--color <WHEN>"
  | cssClass => "--class <NAME>"
  | raw => "--raw"
  | spans => "--spans"
  | json => "--json"
  | noWrap => "--no-wrap"
  | lineNumbers => "--line-numbers"

end Param

/-- The parameters of a command. -/
def CommandName.params : CommandName → List Param
  | .tokens => [.raw, .spans, .json, .file, .source]
  | .html => [.noWrap, .lineNumbers, .cssClass, .file, .source]
  | .highlight => [.color, .file, .source]
  | .words => []

/-- What help can be given about. -/
inductive Topic where
  | program
  | command (name : CommandName)
  | help
deriving DecidableEq, Repr

/-- The help about a topic. -/
def Topic.text : Topic → String
  | .program => "Tokenize and highlight JSONiq queries

Usage: jsoniq <COMMAND>

Commands:
  tokens     Show the token stream of a query
  html       Render a query as highlighted HTML
  highlight  Print a query with terminal colors
  words      List keywords and builtins
  help       Print this message or the help of the given subcommand(s)

Options:
  -h, --help  Print help
"
  | .command .tokens => "Show the token stream of a query

Usage: jsoniq tokens <FILE>
  jsoniq tokens -s <TEXT>

Arguments:
  [FILE]  JSONiq file to read ('-' for stdin)

Options:
      --raw            One token per rule match (don't merge same-category neighbours)
      --spans          Show source positions
      --json           Print tokens as a JSON array
  -s, --source <TEXT>  Inline JSONiq text
  -h, --help           Print help

EXAMPLES:
  jsoniq tokens query.jq                 # one token per line
  jsoniq tokens query.jq --spans         # with line:column ranges
  jsoniq tokens -s 'let $x := 1' --raw   # one token per rule match
  cat query.jq | jsoniq tokens - --json  # JSON array from stdin
"
  | .command .html => "Render a query as highlighted HTML

Usage: jsoniq html [OPTIONS] [FILE]

Arguments:
  [FILE]  JSONiq file to read ('-' for stdin)

Options:
      --no-wrap        Don't wrap output in <pre><code>
      --line-numbers   Prefix each line with its number
      --class <NAME>   CSS class of the wrapping <pre> [default: highlight]
  -s, --source <TEXT>  Inline JSONiq text
  -h, --help           Print help

EXAMPLES:
  jsoniq html query.jq                   # <pre class=\"highlight\"><code>...
  jsoniq html query.jq --line-numbers
  jsoniq html -s '$$.name' --no-wrap     # spans only
"
  | .command .highlight => "Print a query with terminal colors

Usage: jsoniq highlight [OPTIONS] [FILE]

Arguments:
  [FILE]  JSONiq file to read ('-' for stdin)

Options:
      --color <WHEN>   Colorize output [default: auto] [possible values: auto, always, never]
  -s, --source <TEXT>  Inline JSONiq text
  -h, --help           Print help

EXAMPLES:
  jsoniq highlight query.jq
  jsoniq highlight query.jq --color always | less -R
"
  | .command .words => "List keywords and builtins

Usage: jsoniq words

Options:
  -h, --help  Print help
"
  | .help => "Print this message or the help of the given subcommand(s)

Usage: jsoniq help [COMMAND]...

Arguments:
  [COMMAND]...  Print help for the subcommand(s)
"

/-- Why a command line names no command to carry out. -/
inductive UsageError where
  /-- Help is asked for. -/
  | helpWanted (topic : Topic)
  /-- Nothing is asked for. -/
  | noCommand
  | unknownCommand (word : Text)
  | unexpectedArgument (shown : Text)
  | missingValue (param : Param)
  | invalidColor (value : Text)
  /-- Two parameters exclude each other. -/
  | excludedBy (param other : Param)
  | repeated (param : Param)
  /-- A value is attached to an option that carries none. -/
  | unexpectedValue (value shown : Text)
deriving DecidableEq, Repr

namespace UsageError

/-- Help that was asked for is no failure. -/
def exitCode : UsageError → Nat
  | helpWanted _ => 0
  | _ => 2

/-- A text in single quotes. -/
def quoted (text : Text) : Text := '\'' :: text ++ ['\'']

/-- What is said about the command line, in one line; nothing where help is shown instead. -/
def message? : UsageError → Option Text
  | helpWanted _ => none
  | noCommand => none
  | unknownCommand word => some ("unrecognized subcommand ".toList ++ quoted word)
  | unexpectedArgument shown =>
      some ("unexpected argument ".toList ++ quoted shown ++ " found".toList)
  | missingValue param =>
      some ("a value is required for ".toList ++ quoted param.shown.toList ++
        " but none was supplied".toList)
  | invalidColor value =>
      some ("invalid value ".toList ++ quoted value ++ " for ".toList ++
        quoted Param.color.shown.toList)
  | excludedBy param other =>
      some ("the argument ".toList ++ quoted param.shown.toList ++ " cannot be used with ".toList ++
        quoted other.shown.toList)
  | repeated param =>
      some ("the argument ".toList ++ quoted param.shown.toList ++
        " cannot be used multiple times".toList)
  | unexpectedValue value shown =>
      some ("unexpected value ".toList ++ quoted value ++ " for ".toList ++ quoted shown ++
        " found; no more were expected".toList)

end UsageError

end JsoniqLexer.Cli
