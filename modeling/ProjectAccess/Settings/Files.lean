/-
Reading the files that settings name, and a directory to try settings on.

The program asks for nothing but a reader, which for a path gives the content of the file
or says why there is none (`FileError`). It does not know where files are kept, and what
is proved of settings is proved for every reader.

`WorkingDirectory` is one such reader, and not a part of the program: it stands in for
the file system where settings are tried without one, and in the cases of blank paths.
In it a path is resolved step by step from the working directory, or from the root if it
begins with a slash. Every step but the last has to be a directory; a slash at the end
asks for a directory; two dots lead back. What is read has to be a file, and its content
text. Of what is outside of the working directory nothing can be read.
-/

namespace ProjectAccess

/-- Why a file cannot be read. -/
inductive FileError where
  | notFound
  | notDirectory
  | isDirectory
  | nameTooLong
  | nulInName
  /-- The content is not encoded as UTF-8. -/
  | notText
  /-- Anything else the system reports. -/
  | other (detail : String)
  deriving DecidableEq, Repr

/-- The text of an error. -/
def FileError.message : FileError → String
  | .notFound => "No such file or directory (os error 2)"
  | .notDirectory => "Not a directory (os error 20)"
  | .isDirectory => "Is a directory (os error 21)"
  | .nameTooLong => "File name too long (os error 36)"
  | .nulInName => "file name contained an unexpected NUL byte"
  | .notText => "stream did not contain valid UTF-8"
  | .other detail => detail

/-- What a directory holds under a name. -/
inductive FileNode where
  /-- A file with its content, if that is text. -/
  | file (content : Option String)
  /-- A directory that holds nothing. -/
  | directory
  deriving DecidableEq, Repr

-- ========================================================== a stand-in

/-- The working directory: files and empty directories under names. -/
structure WorkingDirectory where
  nodes : List (String × FileNode)
  deriving DecidableEq, Repr

namespace WorkingDirectory

/-- A place that a path leads to. -/
inductive Location where
  /-- The working directory itself. -/
  | here
  /-- A directory above it. -/
  | above
  /-- A file or a directory in it. -/
  | node (node : FileNode)
  deriving DecidableEq, Repr

/-- The names of a path. Empty names come from slashes side by side or at an end. -/
def names (path : List Char) : List (List Char) :=
  let (last, others) := path.foldr (fun c (current, rest) =>
    if c = '/' then ([], current :: rest) else (c :: current, rest)) ([], [])
  last :: others

/-- The longest name that a directory may hold, in bytes. -/
def longestName : Nat := 255

/-- The longest path that the system takes, in bytes. -/
def longestPath : Nat := 4095

/-- One step of a path. -/
def step (d : WorkingDirectory) (origin : Location) (name : List Char) :
    Except FileError Location :=
  if origin matches .node (.file _) then .error .notDirectory
  else if name.isEmpty ∨ name = ['.'] then .ok origin
  else if name = ['.', '.'] then
    match origin with
    | .node _ => .ok .here
    | .here | .above => .ok .above
  else if longestName < (String.ofList name).utf8ByteSize then .error .nameTooLong
  else match origin, d.nodes.lookup (String.ofList name) with
    | .here, some node => .ok (.node node)
    | _, _ => .error .notFound

/-- The place that a path leads to. The root is above the working directory. -/
def locate (d : WorkingDirectory) (path : List Char) : Except FileError Location :=
  match path with
  | [] => .error .notFound
  | '/' :: rest => (names rest).foldlM (step d) .above
  | _ => (names path).foldlM (step d) .here

/-- The content of the file at a path. -/
def read (d : WorkingDirectory) (path : String) : Except FileError String :=
  if '\x00' ∈ path.toList then .error .nulInName
  else if longestPath < path.utf8ByteSize then .error .nameTooLong
  else match d.locate path.toList with
    | .error error => .error error
    | .ok (.node (.file (some content))) => .ok content
    | .ok (.node (.file none)) => .error .notText
    | .ok _ => .error .isDirectory

end WorkingDirectory

end ProjectAccess
