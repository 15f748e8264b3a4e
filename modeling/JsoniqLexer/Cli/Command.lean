import JsoniqLexer.Text.Utf8

/-!
# Commands

What the program can be asked to do: a command, with where its source text comes from and how its
output is to look.
-/

set_option autoImplicit false

namespace JsoniqLexer.Cli

/-- The commands by name. -/
inductive CommandName where
  | tokens
  | html
  | highlight
  | words
deriving DecidableEq, Repr

namespace CommandName

/-- The commands in the order in which they are listed. -/
def all : List CommandName := [tokens, html, highlight, words]

/-- The word for a command. -/
def word : CommandName → String
  | tokens => "tokens"
  | html => "html"
  | highlight => "highlight"
  | words => "words"

/-- The command for a word. -/
def ofWord? (word : Text) : Option CommandName := all.find? fun name => name.word.toList == word

end CommandName

/-- Where the source text comes from: a file, or the command line itself. -/
structure SourceArgs where
  path : Option Text
  inline : Option Text
deriving DecidableEq, Repr

/-- When output is colored. -/
inductive ColorChoice where
  | auto
  | always
  | never
deriving DecidableEq, Repr

namespace ColorChoice

/-- The choices in the order in which they are listed. -/
def all : List ColorChoice := [auto, always, never]

/-- The word for a choice. -/
def word : ColorChoice → String
  | auto => "auto"
  | always => "always"
  | never => "never"

/-- The choice for a word, letter for letter. -/
def ofWord? (word : Text) : Option ColorChoice :=
  all.find? fun choice => choice.word.toList == word

/-- The choice where it does not depend on where the output goes. -/
def fixed? : ColorChoice → Option Bool
  | auto => none
  | always => some true
  | never => some false

/-- The output is colored; `terminal` tells whether it goes to one. -/
def enabled (choice : ColorChoice) (terminal : Bool) : Bool := choice.fixed?.getD terminal

end ColorChoice

/-- A command with its arguments. -/
inductive Command where
  /-- Shows the tokens of the source. -/
  | tokens (source : SourceArgs) (raw spans json : Bool)
  /-- Shows the source as markup. -/
  | html (source : SourceArgs) (wrap lineNumbers : Bool) (cssClass : Text)
  /-- Shows the source in colors. -/
  | highlight (source : SourceArgs) (color : ColorChoice)
  /-- Lists the keywords and builtins. -/
  | words
deriving DecidableEq, Repr

/-- Where the source text of a command comes from, if it has one. -/
def Command.source? : Command → Option SourceArgs
  | .tokens source _ _ _ => some source
  | .html source _ _ _ => some source
  | .highlight source _ => some source
  | .words => none

end JsoniqLexer.Cli
