import SessionShell.Text.Utf8

namespace SessionShell

open Text.Utf8 (Bytes)

inductive FileError
  | notFound
  | notDirectory
  | isDirectory
  | nameTooLong
  | tooManyLinks
  | nulInPath
  | notText
  /-- Any other refusal of the system. -/
  | other (reason : String)
deriving DecidableEq, Repr

def FileError.message : FileError → String
  | notFound => "No such file or directory (os error 2)"
  | notDirectory => "Not a directory (os error 20)"
  | isDirectory => "Is a directory (os error 21)"
  | nameTooLong => "File name too long (os error 36)"
  | tooManyLinks => "Too many levels of symbolic links (os error 40)"
  | nulInPath => "file name contained an unexpected NUL byte"
  | notText => "stream did not contain valid UTF-8"
  | other reason => reason

/-- What reading each path gives. It gives the same throughout a run: that files are written while
sessions are open is left out. -/
structure Files where
  read : String → Except FileError Bytes

namespace Files

/-- Files that were read before, and the error that every other path gives. -/
def ofList (known : List (String × Except FileError Bytes)) (otherwise : FileError) : Files :=
  ⟨fun path => (known.lookup path).getD (.error otherwise)⟩

def readText (files : Files) (path : String) : Except FileError String := do
  match Text.Utf8.decode? (← files.read path) with
  | some text => return text
  | none => throw .notText

def join (dir name : String) : String :=
  if dir.isEmpty || dir.toList.getLast? = some '/' then dir ++ name else dir ++ "/" ++ name

end Files

/-- Names with what stands under them, of which the first counts. The system may refuse to read a
directory, or to look for a name in it, for a reason of its own: that a permission is missing, say.
-/
structure DirectoryOf (α : Type) where
  entries : List (String × α)
  unreadable : Option String := none
  unsearchable : Option String := none

inductive FileNode
  /-- Reading a file may be refused, too. -/
  | file (content : Except String Bytes)
  | directory (d : DirectoryOf FileNode)
  | link (target : String)

abbrev Directory := DirectoryOf FileNode

namespace Directory

def empty : Directory := { entries := [] }

/-- The directory under a name; one that is not there is empty. -/
def sub (d : Directory) (name : String) : Directory :=
  match d.entries.lookup name with
  | some (.directory below) => below
  | _ => empty

/-- Puts an entry in place of the one with its name. -/
def set (name : String) (t : FileNode) (d : Directory) : Directory :=
  { d with entries := (name, t) :: d.entries.filter (·.1 ≠ name) }

/-- Makes a file below a row of names, or a directory where no content is given, and the directories
above it. -/
def make (content : Option Bytes) : List String → Directory → Directory
  | [], d => d
  | name :: rest, d =>
    match content, rest with
    | some bytes, [] => d.set name (.file (.ok bytes))
    | _, _ => d.set name (.directory (make content rest (d.sub name)))

end Directory

/-- Where names lead: to a file, or to a directory with those above it, the nearest first. -/
inductive Place
  | file (content : Except String Bytes)
  | directory (d : Directory) (above : List Directory)

namespace Place

inductive Lead
  | place (p : Place)
  | link (target : String)

def enter (d : Directory) (above : List Directory) : Option FileNode → Except FileError Lead
  | none => .error .notFound
  | some (.file content) => .ok (.place (.file content))
  | some (.directory below) => .ok (.place (.directory below (d :: above)))
  | some (.link target) => .ok (.link target)

/-- What one name leads to. Nothing is above the root. -/
def next : Place → String → Except FileError Lead
  | .file _, _ => .error .notDirectory
  | .directory d above, name =>
    if name = "" then .ok (.place (.directory d above))
    else
      match d.unsearchable with
      | some reason => .error (.other reason)
      | none =>
        if name = "." then .ok (.place (.directory d above))
        else if name = ".." then
          match above with
          | [] => .ok (.place (.directory d []))
          | parent :: above => .ok (.place (.directory parent above))
        else if 255 < name.utf8ByteSize then .error .nameTooLong
        else enter d above (d.entries.lookup name)

def content : Place → Except FileError Bytes
  | .file (.ok bytes) => .ok bytes
  | .file (.error reason) => .error (.other reason)
  | .directory d _ => .error (d.unreadable.elim .isDirectory .other)

end Place

/-- The files of a system, and the names that lead from its root to the current directory. Names are
taken as they are spelled: mounts and foreign spellings of a name are left out. -/
structure FileTree where
  root : Directory
  current : List String

namespace FileTree

def components (path : String) : List String := (path.toList.splitOn '/').map String.ofList

/-- Goes down directories; one that was removed is empty. -/
def descend : (above : List Directory) → Directory → List String → Place
  | above, d, [] => .directory d above
  | above, d, name :: rest => descend (d :: above) (d.sub name) rest

def here (tree : FileTree) : Place := descend [] tree.root tree.current

/-- Where a path begins that is met at a place. -/
def start (tree : FileTree) (p : Place) (path : String) : Place :=
  if path.toList.head? = some '/' then .directory tree.root [] else p

/-- Takes names one by one. From the first link, `follow` takes those of its target and the rest. -/
def along (tree : FileTree) (follow : Place → List String → Except FileError Place) :
    Place → List String → Except FileError Place
  | p, [] => .ok p
  | p, name :: rest =>
    match p.next name with
    | .error e => .error e
    | .ok (.place q) => tree.along follow q rest
    | .ok (.link target) => follow (tree.start p target) (components target ++ rest)

/-- Takes names one by one, over `n` links at most. -/
def walk (tree : FileTree) : (n : Nat) → Place → List String → Except FileError Place
  | 0 => tree.along fun _ _ => .error .tooManyLinks
  | n + 1 => tree.along (tree.walk n)

def maxLinks : Nat := 40

def find (tree : FileTree) (path : String) : Except FileError Place :=
  if path.toList.contains '\x00' then .error .nulInPath
  else if path.isEmpty then .error .notFound
  else if 4096 ≤ path.utf8ByteSize then .error .nameTooLong
  else tree.walk maxLinks (tree.start tree.here path) (components path)

def read (tree : FileTree) (path : String) : Except FileError Bytes := do (← tree.find path).content

def files (tree : FileTree) : Files := ⟨tree.read⟩

/-- Follows a path from the directory `reached`, given by its names with the last first, and makes
what the path ends at. A directory that the path leaves again by `..` is made too. -/
def put (content : Option Bytes) : (reached : List String) → List String → Directory → Directory
  | reached, [], root => root.make content reached.reverse
  | reached, name :: rest, root =>
    if name = "" || name = "." then put content reached rest root
    else if name = ".." then put content reached.tail rest (root.make none reached.reverse)
    else put content (name :: reached) rest root

/-- Files below a current directory of its own. -/
def ofList (entries : List (String × Option Bytes)) : FileTree where
  root := entries.foldl (fun root e => put e.2 ["work", "tmp"] (components e.1) root)
    (Directory.empty.make none ["tmp", "work"])
  current := ["tmp", "work"]

end FileTree
end SessionShell
