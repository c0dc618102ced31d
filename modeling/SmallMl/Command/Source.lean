/-!
# Sources of the command

Where the source of a run comes from and why it cannot be had. A directory is shown by the files in
it; a path is followed in it component by component, and what lies above it holds nothing that is
known.
-/

namespace SmallMl

/-- The reason why a source cannot be read. -/
inductive SourceError where
  | notFound
  | isDirectory
  | notDirectory
  | notUtf8
  /-- Another failure, in the words of the system. -/
  | system (reason : String)
  deriving DecidableEq, Repr

namespace SourceError

/-- The reason in the words of the system. -/
def reason : SourceError → String
  | notFound => "No such file or directory (os error 2)"
  | isDirectory => "Is a directory (os error 21)"
  | notDirectory => "Not a directory (os error 20)"
  | notUtf8 => "stream did not contain valid UTF-8"
  | system reason => reason

/-- The message that the command prints. -/
def message (error : SourceError) : String :=
  "Error on opening source: " ++ error.reason ++ "\n"

end SourceError

/-- The text that bytes stand for. -/
def decodedSource (bytes : ByteArray) : Except SourceError String :=
  match String.fromUTF8? bytes with
  | some text => .ok text
  | none => .error .notUtf8

/-- The files of a directory, by name. -/
abbrev Directory := List (String × ByteArray)

namespace Directory

/-- Where a path leads: to the directory itself, to a directory above it, or to a file in it. -/
inductive Place where
  | here
  | above
  | file (content : ByteArray)

/-- Follows the components of a path. -/
def follow (directory : Directory) : Place → List String → Except SourceError Place
  | place, [] => .ok place
  | .file _, _ :: _ => .error .notDirectory
  | .here, component :: rest =>
      if component = "" ∨ component = "." then follow directory .here rest
      else if component = ".." then follow directory .above rest
      else
        match directory.lookup component with
        | some content => follow directory (.file content) rest
        | none => .error .notFound
  | .above, component :: rest =>
      if component = "" ∨ component = "." ∨ component = ".." then follow directory .above rest
      else .error .notFound

/-- The bytes of the file that a path leads to. -/
def read (directory : Directory) (path : String) : Except SourceError ByteArray :=
  let start := if path.startsWith "/" then Place.above else .here
  match directory.follow start (path.splitOn "/") with
  | .ok (.file content) => .ok content
  | .ok _ => .error .isDirectory
  | .error error => .error error

end Directory

end SmallMl
