import JsoniqLexer.Cli.Usage

/-!
# Reading the command line

The words after the program's name are read from left to right. The first names a command, the
others are its options and the file. An option whose value is the next word is settled when the next
option or file comes, or at the end; only then a missing, repeated or bad value is noticed. Words that
mean nothing are reported before that.
-/

set_option autoImplicit false

namespace JsoniqLexer.Cli

/-- A word of the command line, by its beginning. -/
inductive Word where
  /-- `--` alone: every word after it is plain. -/
  | separator
  /-- `--name` or `--name=value`. -/
  | long (name : Text) (value : Option Text)
  /-- `-` and one or more letters. -/
  | short (letters : Text)
  /-- Anything else, a lone `-` and the empty word included. -/
  | plain (text : Text)
deriving DecidableEq, Repr

/-- What a word is. -/
def Word.of (word : Text) : Word :=
  match word with
  | ['-', '-'] => .separator
  | '-' :: '-' :: text =>
      match text.dropWhile (· != '=') with
      | '=' :: value => .long (text.takeWhile (· != '=')) (some value)
      | _ => .long text none
  | '-' :: letter :: letters => .short (letter :: letters)
  | _ => .plain word

/-- A command line of one command, as far as it has been read: the parameters settled so far, first
one first, and one that may still wait for its value. -/
structure Reading where
  settled : List (Param × Text)
  pending : Option (Param × Option Text)
deriving DecidableEq, Repr

namespace Reading

/-- Nothing has been read. -/
def start : Reading := ⟨[], none⟩

/-- The value of a parameter. -/
def value? (r : Reading) (param : Param) : Option Text :=
  (r.settled.find? fun entry => entry.1 = param).map fun entry => entry.2

/-- The parameter was given. -/
def has (r : Reading) (param : Param) : Bool := (r.value? param).isSome

/-- A value that a parameter cannot have: the empty file name, and a color that is none. -/
def badValue? (param : Param) (value : Text) : Option UsageError :=
  match param with
  | .file => if value = [] then some (.missingValue .file) else none
  | .color =>
      if value = [] then some (.missingValue .color)
      else if (ColorChoice.ofWord? value).isNone then some (.invalidColor value)
      else none
  | _ => none

/-- Settles a parameter. A parameter is given once, and then its value is looked at. -/
def settle (r : Reading) (param : Param) (value : Text) : Except UsageError Reading :=
  if r.has param then .error (.repeated param)
  else
    match badValue? param value with
    | some e => .error e
    | none => .ok { r with settled := r.settled ++ [(param, value)] }

/-- Settles the parameter that waits for its value. -/
def resolve (r : Reading) : Except UsageError Reading :=
  match r.pending with
  | none => .ok r
  | some (param, none) => .error (.missingValue param)
  | some (param, some value) => settle { r with pending := none } param value

/-- Settles what waits, and then one more parameter. -/
def give (r : Reading) (param : Param) (value : Text) : Except UsageError Reading :=
  r.resolve.bind fun r => r.settle param value

/-- Settles what waits, and lets one more parameter wait. -/
def await (r : Reading) (param : Param) (value : Option Text) : Except UsageError Reading :=
  r.resolve.bind fun r => .ok { r with pending := some (param, value) }

/-- Help is shown unless what waits has no value. -/
def showHelp (r : Reading) (name : CommandName) : Except UsageError Reading :=
  r.resolve.bind fun _ => .error (.helpWanted (.command name))

/-- Reads an option by its long name. -/
def readLong (name : CommandName) (r : Reading) (long : Text) (value : Option Text) :
    Except UsageError Reading :=
  if long = "help".toList then
    match value with
    | none => r.showHelp name
    | some value => .error (.unexpectedValue value "--help".toList)
  else
    match name.params.find? fun param => param.long?.map String.toList == some long with
    | none => .error (.unexpectedArgument ("--".toList ++ long))
    | some param =>
        match param.takesValue, value with
        | true, none => r.await param none
        | true, some value => r.give param value
        | false, none => r.give param []
        | false, some value => .error (.unexpectedValue value param.shown.toList)

/-- Reads one-letter options. What follows a letter that takes a value is the value, an equals sign
between them left out. -/
def readShort (name : CommandName) (r : Reading) : Text → Except UsageError Reading
  | [] => .ok r
  | letter :: letters =>
      if letter = 'h' then r.showHelp name
      else
        match name.params.find? fun param => param.short? = some letter with
        | none => .error (.unexpectedArgument ['-', letter])
        | some param =>
            match letters with
            | [] => r.await param none
            | '=' :: value => r.give param value
            | value => r.give param value

/-- Reads a word that is not an option: the value that is waited for, or the file. -/
def readPlain (name : CommandName) (r : Reading) (trailing : Bool) (word : Text) :
    Except UsageError Reading :=
  let waiting := match r.pending with
    | some (param, none) => if trailing then none else some param
    | _ => none
  match waiting with
  | some param => .ok { r with pending := some (param, some word) }
  | none =>
      let taken := r.has .file || r.pending.any fun entry => entry.1 = .file
      if .file ∈ name.params ∧ !taken then r.await .file (some word)
      else .error (.unexpectedArgument word)

/-- Reads the words after the name of a command; `trailing` tells whether `--` has been read. -/
def readWords (name : CommandName) (trailing : Bool) (r : Reading) :
    List Text → Except UsageError Reading
  | [] => r.resolve
  | word :: words =>
      let next : Except UsageError (Bool × Reading) :=
        if trailing then (readPlain name r true word).map fun r => (true, r)
        else
          match Word.of word with
          | .separator => .ok (true, r)
          | .long long value => (readLong name r long value).map fun r => (false, r)
          | .short letters => (readShort name r letters).map fun r => (false, r)
          | .plain text => (readPlain name r false text).map fun r => (false, r)
      match next with
      | .error e => .error e
      | .ok (trailing, r) => readWords name trailing r words

/-- A source text comes from one place only. -/
def checkSource (r : Reading) : Except UsageError Unit :=
  match (r.settled.map Prod.fst).filter fun param => param = .file || param = .source with
  | param :: other :: _ => .error (.excludedBy param other)
  | _ => .ok ()

/-- Where the source text comes from. -/
def source (r : Reading) : SourceArgs := ⟨r.value? .file, r.value? .source⟩

/-- The command that has been read. -/
def command (r : Reading) : CommandName → Command
  | .tokens => .tokens r.source (r.has .raw) (r.has .spans) (r.has .json)
  | .html =>
      .html r.source (!r.has .noWrap) (r.has .lineNumbers)
        ((r.value? .cssClass).getD "highlight".toList)
  | .highlight =>
      .highlight r.source (((r.value? .color).bind ColorChoice.ofWord?).getD .auto)
  | .words => .words

end Reading

/-- Reads the words after the name of a command. -/
def CommandName.parse (name : CommandName) (words : List Text) : Except UsageError Command :=
  match Reading.readWords name false .start words with
  | .error e => .error e
  | .ok r =>
      match r.checkSource with
      | .error e => .error e
      | .ok () => .ok (r.command name)

/-- What help is wanted after the word `help`: the words name a command, and nothing below it. -/
def parseHelp : List Text → UsageError
  | [] => .helpWanted .program
  | word :: words =>
      let topic? : Option Topic :=
        if word = "help".toList then some .help else (CommandName.ofWord? word).map .command
      match topic?, words with
      | none, _ => .unknownCommand word
      | some topic, [] => .helpWanted topic
      | some _, below :: _ => .unknownCommand below

/-- The word names a command, `help` included. -/
def isCommandWord (word : Text) : Bool :=
  word = "help".toList || (CommandName.ofWord? word).isSome

/-- Reads the words after `--`, where no command can be named. -/
def parseTrailing : List Text → UsageError
  | [] => .noCommand
  | word :: _ => if isCommandWord word then .unexpectedArgument word else .unknownCommand word

/-- Reads the words after the program's name. -/
def parse (words : List Text) : Except UsageError Command :=
  match words with
  | [] => .error .noCommand
  | word :: words =>
      match Word.of word with
      | .separator => .error (parseTrailing words)
      | .long name value =>
          if name = "help".toList then
            match value with
            | none => .error (.helpWanted .program)
            | some value => .error (.unexpectedValue value "--help".toList)
          else .error (.unexpectedArgument ("--".toList ++ name))
      | .short letters =>
          match letters with
          | 'h' :: _ => .error (.helpWanted .program)
          | letter :: _ => .error (.unexpectedArgument ['-', letter])
          | [] => .error (.unknownCommand word)
      | .plain text =>
          if text = "help".toList then .error (parseHelp words)
          else
            match CommandName.ofWord? text with
            | some name => name.parse words
            | none => .error (.unknownCommand text)

end JsoniqLexer.Cli
