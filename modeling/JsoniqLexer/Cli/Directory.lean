import JsoniqLexer.Text.Utf8

/-!
# Directories and paths

A directory tree held in memory, and what it means to read the file at a path: the components of the
path are followed one by one, `.` stays, `..` goes up, and only directories can be followed further.
What lies outside of the tree is taken to be empty.
-/

set_option autoImplicit false

namespace JsoniqLexer.Cli

/-- Why a file cannot be read. -/
inductive FileError where
  | notFound
  | notADirectory
  | isADirectory
  /-- No file has a name with a NUL character. -/
  | nulInPath
deriving DecidableEq, Repr

/-- The wording of the operating system. -/
def FileError.message : FileError → String
  | .notFound => "No such file or directory (os error 2)"
  | .notADirectory => "Not a directory (os error 20)"
  | .isADirectory => "Is a directory (os error 21)"
  | .nulInPath => "file name contained an unexpected NUL byte"

/-- A file with its bytes, or a directory with its entries. -/
inductive Node where
  | file (bytes : ByteArray)
  | directory (entries : List (Text × Node))

namespace Node

/-- The entries of a directory; a file has none. -/
def entries : Node → List (Text × Node)
  | file _ => []
  | directory entries => entries

/-- The entry of a name. -/
def lookup? (node : Node) (name : Text) : Option Node :=
  (node.entries.find? fun entry => entry.1 == name).map fun entry => entry.2

/-- The components of a path, between its slashes. -/
def components : Text → List Text
  | [] => [[]]
  | c :: rest =>
      if c = '/' then [] :: components rest
      else
        match components rest with
        | [] => [[c]]
        | name :: names => (c :: name) :: names

/-- Follows components from `here`, `above` being the directories on the way to it, the nearest
first. -/
def follow (here : Node) (above : List Node) : List Text → Except FileError Node
  | [] => .ok here
  | name :: names =>
      match here with
      | file _ => .error .notADirectory
      | directory _ =>
          if name = [] ∨ name = ['.'] then follow here above names
          else if name = ['.', '.'] then
            match above with
            | [] => follow (directory []) [] names
            | parent :: above => follow parent above names
          else
            match here.lookup? name with
            | some node => follow node (here :: above) names
            | none => .error .notFound

/-- What a path leads to, from a directory. -/
def resolve (root : Node) (path : Text) : Except FileError Node :=
  if '\x00' ∈ path then .error .nulInPath
  else
    match path with
    | [] => .error .notFound
    | '/' :: _ => follow (directory []) [] (components path)
    | _ => follow root [] (components path)

/-- The bytes of the file at a path. -/
def read (root : Node) (path : Text) : Except FileError ByteArray :=
  match root.resolve path with
  | .error e => .error e
  | .ok (file bytes) => .ok bytes
  | .ok (directory _) => .error .isADirectory

end Node

end JsoniqLexer.Cli
