/-!
# File trees

A directory held in memory, from which scripts can be read by path.  A path is
followed component by component; where it leads through a file, or nowhere,
the reading fails as it does on a disk.
-/

namespace TinyScript

inductive ReadError where
  | notFound
  | notDirectory
  | isDirectory
  | nameTooLong
  | notText
  | other (message : String)
  deriving DecidableEq, Repr

namespace ReadError

def message : ReadError → String
  | notFound => "No such file or directory (os error 2)"
  | notDirectory => "Not a directory (os error 20)"
  | isDirectory => "Is a directory (os error 21)"
  | nameTooLong => "File name too long (os error 36)"
  | notText => "stream did not contain valid UTF-8"
  | other message => message

end ReadError

def textOf (bytes : ByteArray) : Except ReadError String :=
  match String.fromUTF8? bytes with
  | some text => .ok text
  | none => .error .notText

/-- Files and directories by the names that lead to them from the top, which is a directory. -/
structure FileTree where
  files : List (List String × ByteArray) := []
  directories : List (List String) := []

namespace FileTree

def components (path : String) : List String := path.splitOn "/"

def isIdle (name : String) : Bool := name == "" || name == "."

/--
Where components lead from a place, and the places they enter on the way, the
last one first.  Nothing has to exist there yet.
-/
def trace (here : List String) (entered : List (List String)) :
    List String → List String × List (List String)
  | [] => (here, entered)
  | name :: rest =>
      if isIdle name then trace here entered rest
      else if name = ".." then trace here.dropLast entered rest
      else trace (here ++ [name]) ((here ++ [name]) :: entered) rest

def write (tree : FileTree) (path : String) (bytes : ByteArray) : FileTree :=
  let (place, entered) := trace [] [] (components path)
  ⟨(place, bytes) :: tree.files, entered.filter (· != place) ++ tree.directories⟩

def ofFiles (files : List (String × ByteArray)) : FileTree :=
  files.foldl (fun tree (path, bytes) => tree.write path bytes) {}

def file? (tree : FileTree) (place : List String) : Option ByteArray := tree.files.lookup place

def isDirectory (tree : FileTree) (place : List String) : Bool :=
  place.isEmpty || tree.directories.contains place

def pathLengthEnd : Nat := 4096

def maxNameLength : Nat := 255

/--
Follow the components of a path from a directory of the tree, or from one that
lies `above` levels over the tree, where nothing is known to exist.  Empty
components and single dots stay where they are, two dots lead one level up.
-/
def follow (tree : FileTree) (above : Nat) (here : List String) :
    List String → Except ReadError ByteArray
  | [] => .error .isDirectory
  | name :: rest =>
      if isIdle name then follow tree above here rest
      else if name = ".." then
        if here.isEmpty then follow tree (above + 1) [] rest
        else follow tree above here.dropLast rest
      else if maxNameLength < name.utf8ByteSize then .error .nameTooLong
      else if 0 < above then .error .notFound
      else
        let there := here ++ [name]
        match tree.file? there with
        | some bytes => if rest.isEmpty then .ok bytes else .error .notDirectory
        | none => if tree.isDirectory there then follow tree above there rest else .error .notFound

/-- The content of a path; one that begins with a slash leads out of the tree. -/
def read (tree : FileTree) (path : String) : Except ReadError ByteArray :=
  if path = "" then .error .notFound
  else if pathLengthEnd ≤ path.utf8ByteSize then .error .nameTooLong
  else tree.follow (if path.startsWith "/" then 1 else 0) [] (components path)

end FileTree

end TinyScript
