import DalvikFacts.Tool.Files

/-!
# Folders

Files and directories in memory, with what was printed.  A tool that runs on a folder is a pure
function of its command line and of the folder.

Paths are followed name by name.  Everything on the way must be a directory that exists, also
where a later `..` leaves it again, and the directory around the root is the root itself.
-/

namespace DalvikFacts

/-- The names that lead to a place from the root. -/
abbrev Place := List String

/-- Why a path leads nowhere. -/
inductive PathError
  /-- Something on the way does not exist. -/
  | missing
  /-- Something on the way is no directory, or a name or the whole path is not accepted. -/
  | refused
  deriving DecidableEq

/-- What a path leads to. -/
inductive Target
  /-- A directory. -/
  | directory
  /-- A file, at its place. -/
  | file (place : Place)
  /-- Nothing yet, but a directory around the place exists. -/
  | free (place : Place)
  deriving DecidableEq

/-- Files and directories, seen from one of the directories. -/
structure Folder where
  /-- Where paths start that do not start at the root. -/
  here : Place
  directories : List Place
  files : List (Place × String)
  printed : String

namespace Folder

/-- A folder without files, seen from a directory among temporary ones. -/
def empty : Folder where
  here := ["tmp", "work"]
  directories := [[], ["dev"], ["tmp"], ["tmp", "work"]]
  files := [(["dev", "null"], "")]
  printed := ""

/-- Whether a place is a directory. -/
def isDirectory (folder : Folder) (place : Place) : Bool :=
  folder.directories.contains place

/-- The text of the file at a place. -/
def textAt? (folder : Folder) (place : Place) : Option String :=
  folder.files.lookup place

/-- The files by name in a directory that is named from here, without those further down. -/
def filesIn (folder : Folder) (directory : String) : List (String × String) :=
  folder.files.filterMap fun (place, text) =>
    match place.getLast? with
    | some name => if place.dropLast = folder.here ++ [directory] then some (name, text) else none
    | none => none

/-- The text of a file that is named from here. -/
def fileNamed? (folder : Folder) (name : String) : Option String :=
  folder.textAt? (folder.here ++ [name])

/-- The most bytes that a name may have. -/
def longestName : Nat := 255

/-- The most bytes that a path may have. -/
def longestPath : Nat := 4095

/-- Whether a path can be followed at all: it is neither too long nor broken by a null character. -/
def accepts (path : String) : Bool :=
  path.utf8ByteSize ≤ longestPath && !path.toList.contains '\x00'

/-- What a name leads to in a directory. -/
def look (folder : Folder) (place : Place) (name : String) : Except PathError Target :=
  if name.utf8ByteSize > longestName then .error .refused
  else if folder.isDirectory (place ++ [name]) then .ok .directory
  else if (folder.textAt? (place ++ [name])).isSome then .ok (.file (place ++ [name]))
  else .ok (.free (place ++ [name]))

/-- Goes from a directory to another one by a name. -/
def enter (folder : Folder) (place : Place) (name : String) : Except PathError Place :=
  if name = "." then .ok place
  else if name = ".." then .ok place.dropLast
  else
    match folder.look place name with
    | .ok .directory => .ok (place ++ [name])
    | .ok (.file _) => .error .refused
    | .ok (.free _) => .error .missing
    | .error error => .error error

/-- Where a path starts. -/
def start (folder : Folder) (path : String) : Place :=
  if path.startsWith "/" then [] else folder.here

/-- The names in a path. -/
def names (path : String) : List String :=
  (path.splitOn "/").filter (· != "")

/-- What the last name of a path leads to.  A file is no directory, so no slash may follow it. -/
def arrive (folder : Folder) (path : String) (place : Place) (name : String) :
    Except PathError Target := do
  if name = "." ∨ name = ".." then return .directory
  match ← folder.look place name with
  | .file place => if path.endsWith "/" then throw .refused else return .file place
  | target => return target

/-- What a path leads to. -/
def follow (folder : Folder) (path : String) : Except PathError Target := do
  if path = "" then throw .missing
  if !accepts path then throw .refused
  let place ← (names path).dropLast.foldlM folder.enter (folder.start path)
  match (names path).getLast? with
  | none => return .directory
  | some name => folder.arrive path place name

/-- The text that a path leads to. -/
def read? (folder : Folder) (path : String) : Option String :=
  match folder.follow path with
  | .ok .directory => some ""
  | .ok (.file place) => folder.textAt? place
  | _ => none

/-- Makes a directory in one that exists. -/
def makeDirectory (folder : Folder) (path : String) : Making × Folder :=
  match folder.follow path with
  | .ok .directory => (.present, folder)
  | .ok (.free place) => (.present, { folder with directories := place :: folder.directories })
  | .ok (.file _) | .error .refused => (.failed, folder)
  | .error .missing => (.orphaned, folder)

/-- Writes a file at a place. -/
def put (folder : Folder) (place : Place) (text : String) : Folder :=
  { folder with files := (place, text) :: folder.files.filter (·.1 != place) }

/-- Writes a file in place of an earlier one, and tells whether it could. -/
def write (folder : Folder) (path text : String) : Bool × Folder :=
  match folder.follow path with
  | .ok (.file place) => (true, folder.put place text)
  | .ok (.free place) =>
    if path.endsWith "/" then (false, folder) else (true, folder.put place text)
  | _ => (false, folder)

/-- A folder that holds files with the given paths. -/
def ofFiles (files : List (String × String)) : Folder :=
  files.foldl (fun folder file => (folder.write file.1 file.2).2) empty

instance : Files (StateM Folder) where
  read? path := do return (← get).read? path
  makeDirectory path := modifyGet (·.makeDirectory path)
  write path text := modifyGet (·.write path text)
  print text := modify fun folder => { folder with printed := folder.printed ++ text }

end Folder
end DalvikFacts
