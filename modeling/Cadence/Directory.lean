/-!
# Directories

A directory held in memory, for rehearsals of what is read from files and written to them: texts
under relative paths. Directories inside it exist as far as files lie in them. A path is walked name
by name, so every name but the last has to be a directory.
-/

namespace Cadence

/-- Why a file cannot be opened. -/
inductive PathFault where
  | notFound
  | notDirectory
  | isDirectory
  /-- A name has more than 255 bytes. -/
  | nameTooLong
  /-- A path holds the character that ends names. -/
  | nulCharacter
  deriving Repr, DecidableEq

/-- What the operating system says about it. -/
def PathFault.message : PathFault → String
  | notFound => "No such file or directory (os error 2)"
  | notDirectory => "Not a directory (os error 20)"
  | isDirectory => "Is a directory (os error 21)"
  | nameTooLong => "File name too long (os error 36)"
  | nulCharacter => "file name contained an unexpected NUL byte"

/-- The texts of files, under the names that lead to them. -/
structure Directory where
  files : List (List String × String)
  deriving Repr, Inhabited

namespace Directory

/-- The names in a path. -/
def names (path : String) : List String := path.splitOn "/"

/-- Whether a name stands for the directory itself. -/
def isHere (name : String) : Bool := name.isEmpty || name == "."

def empty : Directory := ⟨[]⟩

/-- The text of the file that a list of names leads to. -/
def file? (directory : Directory) (place : List String) : Option String :=
  directory.files.lookup place

/-- Whether a list of names leads to a directory. -/
def isDirectory (directory : Directory) (place : List String) : Bool :=
  place.isEmpty || directory.files.any fun (other, _) => place.isPrefixOf other && place != other

/-- What is wrong with going on from a place. -/
def obstacle? (directory : Directory) (place : List String) : Option PathFault :=
  if directory.isDirectory place then none
  else if (directory.file? place).isSome then some .notDirectory
  else some .notFound

/-- Walks names from a place on. The place they lead to need not exist. -/
def walk (directory : Directory) (place : List String) :
    List String → Except PathFault (List String)
  | [] => .ok place
  | name :: rest =>
    match directory.obstacle? place with
    | some fault => .error fault
    | none =>
      if isHere name then directory.walk place rest
      else if name = ".." then
        if place.isEmpty then .error .notFound else directory.walk place.dropLast rest
      else if 255 < name.utf8ByteSize then .error .nameTooLong
      else directory.walk (place ++ [name]) rest

/-- Walks a whole path. -/
def resolve (directory : Directory) (path : String) : Except PathFault (List String) :=
  if path.contains '\x00' then .error .nulCharacter
  else if path.isEmpty || path.startsWith "/" then .error .notFound
  else directory.walk [] (names path)

/-- The text of the file at a path, if there is one. -/
def read? (directory : Directory) (path : String) : Option String :=
  match directory.resolve path with
  | .ok place => directory.file? place
  | .error _ => none

/-- Puts a text in the place of what a list of names led to. -/
def put (directory : Directory) (place : List String) (text : String) : Directory :=
  ⟨(place, text) :: directory.files.filter fun (other, _) => other != place⟩

/-- A path without the slashes at its end. -/
def withoutEnd (path : String) : String := (path.dropEndWhile '/').toString

/-- Writes a file, which is created if it is not there. -/
def write (directory : Directory) (path text : String) : Except PathFault Directory := do
  let place ← directory.resolve (if path.endsWith "/" then withoutEnd path else path)
  match directory.obstacle? place.dropLast with
  | some fault => .error fault
  | none =>
    if path.endsWith "/" || directory.isDirectory place then .error .isDirectory
    else .ok (directory.put place text)

/-- A directory of texts under paths. -/
def ofFiles (files : List (String × String)) : Directory :=
  ⟨files.map fun (path, text) => ((names path).filter (!isHere ·), text)⟩

end Directory

end Cadence
