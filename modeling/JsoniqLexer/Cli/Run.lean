import JsoniqLexer.Cli.Load
import JsoniqLexer.Cli.Parse
import JsoniqLexer.Render.Ansi
import JsoniqLexer.Render.Html
import JsoniqLexer.Render.Listing

/-!
# Running a command

A command line is answered by an exit code and what is written to the two outputs. The output of a
command depends on the source text alone, and on whether colors are wanted; a source that ends inside
a comment or a string is shown all the same, and a warning follows.
-/

set_option autoImplicit false

namespace JsoniqLexer.Cli

/-- What a process leaves behind. -/
structure Outcome where
  exitCode : Nat
  stdout : Text
  stderr : Text
deriving DecidableEq, Repr

namespace Outcome

/-- The answer to a command line that is not understood. Help that was asked for is the output, help
that was not is an error. -/
def ofUsageError (e : UsageError) : Outcome :=
  match e with
  | .helpWanted topic => ⟨e.exitCode, topic.text.toList, []⟩
  | _ =>
      match e.message? with
      | none => ⟨e.exitCode, [], (Topic.text .program).toList⟩
      | some message =>
          ⟨e.exitCode, [],
            "error: ".toList ++ message ++ "\n\nFor more information, try '--help'.\n".toList⟩

/-- The answer when nothing could be done. -/
def failure (message : Text) : Outcome := ⟨1, [], "error: ".toList ++ message ++ ['\n']⟩

/-- The answer when a promise of the program was broken. -/
def ofFault (f : Fault) : Outcome :=
  ⟨101, [], ((f.message?.getD "the tokens do not belong to the source") ++ "\n").toList⟩

/-- The answer with some output, and a warning if there is one. -/
def shown (output : Text) (warning? : Option String) : Outcome :=
  ⟨0, output, match warning? with
    | none => []
    | some warning => ("warning: " ++ warning ++ "\n").toList⟩

end Outcome

/-- A word on a line of its own, indented. -/
def wordLine (word : Text) : Text := "  ".toList ++ word ++ ['\n']

/-- The list of words. -/
def listWords (classifier : Classifier) : Text :=
  "Keywords:\n".toList ++ classifier.keywords.flatMap wordLine ++ "\nBuiltins:\n".toList ++
    classifier.builtins.flatMap wordLine

/-- The source in colors. A line break is added unless the output ends in one. -/
def inColor (tokens : List Token) (palette : Ansi.Palette) : Text :=
  let output := Ansi.render tokens palette
  if output.getLast? = some '\n' then output else output ++ ['\n']

/-- The output of a command for a source text; `terminal` tells whether it goes to one. -/
def Command.output (command : Command) (terminal : Bool) (source : Text) (tokens : List Token) :
    Except Fault Text :=
  match command with
  | .tokens _ _ spans json =>
      if json then (JsonRecord.ofTokens source tokens).map (· ++ ['\n'])
      else Listing.lines source spans tokens
  | .html _ wrap lineNumbers cssClass =>
      .ok (Html.render tokens { wrap, lineNumbers, cssClass } ++ ['\n'])
  | .highlight _ color =>
      .ok (inColor tokens (.ofEnabled (color.enabled terminal)))
  | .words => .ok (listWords Grammar.jsoniq.classifier)

/-- The tokens of a command are not merged. -/
def Command.isRaw : Command → Bool
  | .tokens _ raw _ _ => raw
  | _ => false

/-- The answer to a command for a source text. -/
def Command.respond (command : Command) (terminal : Bool) (source : Text) : Outcome :=
  let answer : Except Fault Outcome := do
    let scan ← Scan.of source command.isRaw
    let output ← command.output terminal source scan.tokens
    let warning? ← scan.termination.warning? source
    pure (.shown output warning?)
  match answer with
  | .ok outcome => outcome
  | .error f => .ofFault f

/-- The answer to a command line without the program's name. -/
def run {m : Type → Type} [Monad m] (host : Host m) (words : List Text) : m Outcome :=
  match parse words with
  | .error e => pure (.ofUsageError e)
  | .ok command =>
      match command.source? with
      | none => pure (command.respond false [])
      | some args => do
          match ← load host args with
          | .error e => pure (.failure e.message)
          | .ok source =>
              let terminal ← host.isTerminal
              pure (command.respond terminal source)

end JsoniqLexer.Cli
