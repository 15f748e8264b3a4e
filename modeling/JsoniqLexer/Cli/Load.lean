import JsoniqLexer.Cli.Command
import JsoniqLexer.Cli.Directory

/-!
# Loading the source text

A text on the command line is used as it is. Otherwise the path names a file, or with a single hyphen
the standard input, and the bytes read there have to be UTF-8. `Host` is what the program asks of its
surroundings, in any monad, so that loading means the same in a test and in a process.
-/

set_option autoImplicit false

namespace JsoniqLexer.Cli

/-- What surrounds the program. A reading that fails gives the reason in words. -/
structure Host (m : Type → Type) where
  /-- Reads the file at a path. -/
  readFile : Text → m (Except String ByteArray)
  /-- Reads the standard input to its end. -/
  readInput : m (Except String ByteArray)
  /-- The standard output is a terminal. -/
  isTerminal : m Bool

/-- A host with files and an input held in memory. -/
def Host.inMemory (root : Node) (input : ByteArray) : Host Id where
  readFile path := (root.read path).mapError FileError.message
  readInput := .ok input
  isTerminal := false

/-- Why there is no source text. -/
inductive LoadError where
  /-- No source was given. -/
  | missing
  | input (reason : String)
  | file (path : Text) (reason : String)
deriving DecidableEq, Repr

/-- The wording of an error. -/
def LoadError.message : LoadError → Text
  | .missing =>
      "source is required: use positional argument, '-' for stdin, or -s/--source".toList
  | .input reason => "failed to read stdin: ".toList ++ reason.toList
  | .file path reason =>
      "failed to read '".toList ++ path ++ "': ".toList ++ reason.toList

/-- Bytes as a text. -/
def decode (bytes : ByteArray) : Except String Text :=
  match String.fromUTF8? bytes with
  | some text => .ok text.toList
  | none => .error "stream did not contain valid UTF-8"

/-- The source text. -/
def load {m : Type → Type} [Monad m] (host : Host m) (args : SourceArgs) :
    m (Except LoadError Text) :=
  match args.inline, args.path with
  | some text, _ => pure (.ok text)
  | none, none => pure (.error .missing)
  | none, some path =>
      if path = ['-'] then do
        let bytes ← host.readInput
        pure ((bytes.bind decode).mapError .input)
      else do
        let bytes ← host.readFile path
        pure ((bytes.bind decode).mapError (.file path))

end JsoniqLexer.Cli
