/-!
# Files and the paths that name them

A `FileTree` holds texts under absolute places; every place above one of them is a
directory. A path is followed segment by segment, and the first segment that cannot be
followed is the fault: nothing goes on behind a file, a name that is too long is not looked
up, and a name that is looked up has to be there. A path may end at a directory, whose
content cannot be read (`FileTree.read`).
-/

set_option autoImplicit false

namespace FormFlow

namespace CommandLine

/-- Why a file cannot be read. -/
inductive FileFault where
  /-- Nothing has this name. -/
  | absent
  | accessDenied
  /-- The path goes on behind something that is no directory. -/
  | notDirectory
  | isDirectory
  /-- The path or one of its names is too long. -/
  | nameTooLong
  /-- The content is not text. -/
  | notText
  /-- Another reason, in words. -/
  | other (reason : String)
deriving DecidableEq, Repr, Inhabited

namespace FileFault

/-- The fault with a number. -/
def ofNumber? (number : Nat) : Option FileFault :=
  match number with
  | 2 => some .absent
  | 13 => some .accessDenied
  | 20 => some .notDirectory
  | 21 => some .isDirectory
  | 36 => some .nameTooLong
  | _ => none

/-- A reason and its number. -/
def withNumber (reason : String) (number : Nat) : String :=
  reason ++ " (os error " ++ toString number ++ ")"

/-- The wording of a fault. -/
def message : FileFault → String
  | .absent => withNumber "No such file or directory" 2
  | .accessDenied => withNumber "Permission denied" 13
  | .notDirectory => withNumber "Not a directory" 20
  | .isDirectory => withNumber "Is a directory" 21
  | .nameTooLong => withNumber "File name too long" 36
  | .notText => "stream did not contain valid UTF-8"
  | .other reason => reason

end FileFault

/-- The names on the way from the root. -/
abbrev Place := List String

/-- Texts in directories, seen from one of the directories. -/
structure FileTree where
  /-- The place that a path starts from if it does not start with a slash. -/
  workingPlace : Place
  files : List (Place × String)
deriving DecidableEq, Repr, Inhabited

namespace FileTree

/-- A path has fewer bytes than this. -/
def pathLimit : Nat := 4096

/-- A name has at most this many bytes. -/
def nameLimit : Nat := 255

/-- The segments between the slashes of a path. -/
def segments (path : String) : List String := path.splitOn "/"

/-- The names in a path, the empty segments left out. -/
def names (path : String) : Place := (segments path).filter fun name => !name.isEmpty

/-- Files in a working directory, by their paths from there. -/
def ofWorkingFiles (workingPlace : Place) (files : List (String × String)) : FileTree where
  workingPlace := workingPlace
  files := files.map fun (path, text) => (workingPlace ++ names path, text)

/-- The text of the file at a place. -/
def text? (tree : FileTree) (place : Place) : Option String := tree.files.lookup place

/-- Whether there is a file or a directory at a place. -/
def occupied (tree : FileTree) (place : Place) : Bool :=
  place.isPrefixOf tree.workingPlace || tree.files.any fun entry => place.isPrefixOf entry.1

/-- Follows segments from a place. An empty segment and a dot stay there, two dots go up, and
the root is above itself. -/
def follow (tree : FileTree) : List String → Place → Except FileFault Place
  | [], place => .ok place
  | segment :: rest, place =>
    if (tree.text? place).isSome then .error .notDirectory
    else if segment = "" ∨ segment = "." then tree.follow rest place
    else if segment = ".." then tree.follow rest place.dropLast
    else if nameLimit < segment.utf8ByteSize then .error .nameTooLong
    else if tree.occupied (place ++ [segment]) then tree.follow rest (place ++ [segment])
    else .error .absent

/-- The place that a path leads to. -/
def locate (tree : FileTree) (path : String) : Except FileFault Place :=
  if path = "" then .error .absent
  else if pathLimit ≤ path.utf8ByteSize then .error .nameTooLong
  else tree.follow (segments path) (if path.startsWith "/" then [] else tree.workingPlace)

/-- The text that a path leads to. -/
def read (tree : FileTree) (path : String) : Except FileFault String := do
  let place ← tree.locate path
  match tree.text? place with
  | some text => return text
  | none => .error .isDirectory

end FileTree

end CommandLine

end FormFlow
