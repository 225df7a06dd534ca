import HeapEngine.Failure
import HeapEngine.Text.Utf8

/-!
File names, followed from one directory.

The directory holds files and no other directory. A name may lead out of it, where nothing is known
but the files that were made there.
-/

namespace HeapEngine.FileName

/-- The parts of a name between slashes, of which several in a row are as good as one. -/
def parts (name : String) : List (List Char) :=
  let pieces := name.toList.foldr
    (fun c found =>
      match found with
      | [] => [[c]]
      | part :: rest => if c = '/' then [] :: part :: rest else (c :: part) :: rest)
    [[]]
  pieces.filter fun part => !part.isEmpty

/-- Whether a name ends in a slash, so that it can only stand for a directory. -/
def endsInSlash (name : String) : Bool := name.toList.getLast? = some '/'

/-- The part that stays in the directory where it stands. -/
def here : List Char := ['.']

/-- The part that leads out of the directory where it stands. -/
def out : List Char := ['.', '.']

/-- The longest part in bytes. -/
def longestPart : Nat := 255

/-- The longest path in bytes. -/
def longestPath : Nat := 4095

/-- Whether a name starts at the root of all directories. -/
def isAbsolute (name : String) : Bool := name.toList.head? = some '/'

/-- The path of a name in a directory, where a name that starts at the root is a path by itself. -/
def pathIn (directory name : String) : String :=
  if isAbsolute name then name else directory ++ "/" ++ name

/-- The path of a temporary directory: a label, and letters that were drawn for this one. -/
def temporary (label letters : String) : String := pathIn "/tmp" (label ++ letters)

/-- Whether a part is longer than the name of a file can be. -/
def isTooLong (part : List Char) : Bool :=
  longestPart < (Text.encode (String.ofList part)).length

/--
Follows the parts of a name from the directory that `place` leads to, up to the file that the last
of them names.

`existing` tells which names are those of files, and `closed` whether a slash ends the name.
-/
def follow (existing : String → Bool) (closed : Bool) (place : String) :
    List (List Char) → Except StorageFailure String
  | [] => .error .isADirectory
  -- What ends the name is not looked for if it can only be a directory.
  | [last] =>
    if last = here || last = out || closed then .error .isADirectory
    else if isTooLong last then .error .nameTooLong
    else .ok (place ++ String.ofList last)
  -- Nothing can be below a part that names a file or nothing at all.
  | part :: rest =>
    if part = here then follow existing closed place rest
    else if part = out then follow existing closed (place ++ "../") rest
    else if isTooLong part then .error .nameTooLong
    else if existing (place ++ String.ofList part) then .error .notADirectory
    else .error .noSuchFile

/-- The file a name in a directory stands for, or why it stands for none that could be opened. -/
def resolve (directory : String) (existing : String → Bool) (name : String) :
    Except StorageFailure String :=
  if name.toList.contains '\x00' then .error .zeroInName
  -- What is too long counts from the root, wherever the name starts.
  else if longestPath < (Text.encode (pathIn directory name)).length then .error .nameTooLong
  else follow existing (endsInSlash name) (if isAbsolute name then "/" else "") (parts name)

/-- A name without the slashes and the steps in place that it begins with. -/
def dropFront : List Char → List Char
  | '.' :: '/' :: rest => dropFront rest
  | '/' :: rest => dropFront rest
  | name => name

/-- A name as it is told by somebody who stands in the directory. -/
def trimFront (name : String) : String := String.ofList (dropFront name.toList)

/-- The last part of a name. -/
def last? (name : String) : Option String := (parts name).getLast?.map String.ofList

end HeapEngine.FileName
