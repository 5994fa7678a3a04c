/-
SceneScript.Files — a tree of directories and files, and four operations on it.

Scripts can ask whether a path leads anywhere, make an empty file, delete a file
and rename a file or directory. Each operation answers true or false and never
fails in another way; where it answers false it has changed nothing. The rules
are those of POSIX: a path is walked name by name, from the root if it begins with
a slash and from the working directory otherwise, every name but the last has to be
a directory, a path that ends in a slash has to mean a directory, and a directory
never takes the place of anything but an empty directory.
-/
import SceneScript.Text.Blank

namespace SceneScript

/-! ## §1 Trees -/

/-- A place in a tree: the names that lead to it from the root. -/
abbrev Place := List String

/-- Whether a name comes before another: the first character that differs decides, by its code
point, and a name comes before every longer one that begins with it. This is the order of UTF-8
bytes. -/
def nameIsBefore (a b : String) : Bool :=
  a.toList.lex b.toList fun c d => Nat.blt c.toNat d.toNat

/-- Whether a place comes before another: the first name that differs decides, and a place comes
before all that is below it. -/
def Place.isBefore (p q : Place) : Bool := p.lex q nameIsBefore

/-- One step from a directory. The root is its own parent. -/
def Place.step (place : Place) (name : String) : Place :=
  if name = "." then place
  else if name = ".." then place.dropLast
  else place ++ [name]

/-- What is at a place. -/
inductive FileEntry
  | directory
  | file (contents : String)
deriving DecidableEq, Repr

/-- A tree of directories and files, as the places that are taken, and the working directory. The
root is always there and is not listed. -/
structure Tree where
  entries : List (Place × FileEntry) := []
  /-- Where paths begin that do not begin with a slash. Operations leave it alone: where the working
  directory is when an operation is carried out is said from outside, also after it has been moved
  itself. -/
  base : Place := []
deriving DecidableEq, Repr

namespace Tree

/-- What is at a place. -/
def lookup (t : Tree) (place : Place) : Option FileEntry :=
  if place = [] then some .directory
  else (t.entries.find? fun (p, _) => p == place).map (·.2)

/-- The tree with a new entry. -/
def insert (t : Tree) (place : Place) (entry : FileEntry) : Tree :=
  { t with entries := t.entries ++ [(place, entry)] }

/-- The tree without the entry at a place. -/
def erase (t : Tree) (place : Place) : Tree :=
  { t with entries := t.entries.filter fun (p, _) => p != place }

/-- Whether a directory has nothing in it. -/
def isEmptyAt (t : Tree) (place : Place) : Bool :=
  t.entries.all fun (p, _) => !(place.isPrefixOf p && place.length < p.length)

/-- The tree with everything at and below one place moved to another. -/
def move (t : Tree) (source target : Place) : Tree :=
  { t with
    entries := t.entries.map fun (p, entry) =>
      (if source.isPrefixOf p then target ++ p.drop source.length else p, entry) }

/-- The tree with another working directory. -/
def rebase (t : Tree) (base : Place) : Tree := { t with base := base }

/-- The places in order, each directory before what is in it and names by their bytes. -/
def sorted (t : Tree) : List (Place × FileEntry) :=
  t.entries.mergeSort fun (p, _) (q, _) => !Place.isBefore q p

end Tree

/-! ## §2 Paths -/

/-- No name has more bytes than this. -/
def nameLimit : Nat := 255

/-- Every path has fewer bytes than this. -/
def pathLimit : Nat := 4096

/-- A path as a script gives it, taken apart: whether it begins with a slash, the names on the way,
the last name, and whether a slash follows it. -/
structure FilePath where
  absolute : Bool
  way : List String
  last : String
  slash : Bool
deriving DecidableEq, Repr

/-- The names in a path, between its slashes. -/
def pathNames (text : String) : List String :=
  ((Text.split (· == '/') text.toList).map String.ofList).filter (· ≠ "")

namespace FilePath

/-- Takes a path apart. There is no path with a NUL character in it, and no empty one. -/
def parse? (text : String) : Option FilePath :=
  let names := pathNames text
  let absolute := text.toList.head? == some '/'
  if '\x00' ∈ text.toList ∨ pathLimit ≤ text.utf8ByteSize ∨ text.isEmpty then none
  else if names.any fun name => decide (nameLimit < name.utf8ByteSize) then none
  else
    match names.reverse with
    | [] => some ⟨absolute, [], ".", true⟩
    | last :: way => some ⟨absolute, way.reverse, last, text.toList.getLast? == some '/'⟩

end FilePath

namespace Tree

/-- Walks through directories from a place. -/
def walk (t : Tree) (place : Place) : List String → Option Place
  | [] => if t.lookup place = some .directory then some place else none
  | name :: rest =>
    if t.lookup place = some .directory then t.walk (place.step name) rest else none

/-- The place where a path begins. -/
def start (t : Tree) (path : FilePath) : Place := if path.absolute then [] else t.base

/-- The place that a path means, whether or not anything is there, if its directory exists. -/
def locate (t : Tree) (path : FilePath) : Option Place :=
  (t.walk (t.start path) path.way).map fun place => place.step path.last

/-- What a path leads to. -/
def resolve (t : Tree) (path : FilePath) : Option (Place × FileEntry) :=
  match t.locate path with
  | none => none
  | some place =>
    match t.lookup place with
    | none => none
    | some entry => if path.slash ∧ entry ≠ .directory then none else some (place, entry)

end Tree

/-! ## §3 Filling a tree -/

namespace Tree

/-- The tree with a directory wherever the given steps from a place come by, if nothing is there
yet. -/
def addDirectories (t : Tree) (place : Place) : List String → Tree
  | [] => t
  | name :: rest =>
    let next := place.step name
    let t := if (t.lookup next).isSome then t else t.insert next .directory
    t.addDirectories next rest

/-- The tree with a directory at a path, and with those on the way to it. -/
def addDirectory (t : Tree) (path : String) : Tree := t.addDirectories [] (pathNames path)

/-- The tree with a file of the given contents at a path; a file that was there is gone. -/
def addFile (t : Tree) (path contents : String) : Tree :=
  let place := (pathNames path).foldl Place.step []
  (t.erase place).insert place (.file contents)

end Tree

/-- Whether a name stands for a directory by its position and is no name of its own. -/
def isDots (name : String) : Bool := name == "." || name == ".."

/-! ## §4 Operations -/

/-- What a script can ask of files. -/
inductive FileOp
  | present (path : String)
  | touch (path : String)
  | delete (path : String)
  | rename (source target : String)
deriving DecidableEq, Repr

namespace Tree

/-- Makes an empty file where there is nothing, and leaves a file alone. -/
def touch (t : Tree) (path : FilePath) : Bool × Tree :=
  if path.slash then (false, t)
  else
    match t.locate path with
    | none => (false, t)
    | some place =>
      match t.lookup place with
      | some .directory => (false, t)
      | some (.file _) => (true, t)
      | none => (true, t.insert place (.file ""))

/-- Deletes a file. -/
def delete (t : Tree) (path : FilePath) : Bool × Tree :=
  match t.resolve path with
  | some (place, .file _) => (true, t.erase place)
  | _ => (false, t)

/-- Moves a file or directory, over a file or an empty directory respectively. -/
def rename (t : Tree) (source target : FilePath) : Bool × Tree :=
  if isDots source.last || isDots target.last then (false, t)
  else
    match t.resolve source, t.locate target with
    | some (place, entry), some place' =>
      if entry ≠ .directory ∧ target.slash then (false, t)
      else if place = place' then (true, t)
      else if place.isPrefixOf place' then (false, t)
      else
        match entry, t.lookup place' with
        | _, none => (true, t.move place place')
        | .file _, some (.file _) => (true, (t.erase place').move place place')
        | .directory, some .directory =>
          if t.isEmptyAt place' then (true, (t.erase place').move place place') else (false, t)
        | _, _ => (false, t)
    | _, _ => (false, t)

/-- Carries out an operation. -/
def perform (t : Tree) : FileOp → Bool × Tree
  | .present path => (((FilePath.parse? path).bind t.resolve).isSome, t)
  | .touch path =>
    match FilePath.parse? path with
    | some path => t.touch path
    | none => (false, t)
  | .delete path =>
    match FilePath.parse? path with
    | some path => t.delete path
    | none => (false, t)
  | .rename source target =>
    match FilePath.parse? source, FilePath.parse? target with
    | some source, some target => t.rename source target
    | _, _ => (false, t)

end Tree

end SceneScript
