import EffectChain.Bytes

/-!
# Files and paths

A folder holds files by name. A path leads through it part by part: an empty part or a dot stays,
two dots go back, and a name goes on to a file or to a folder; behind a file no path goes on. So a
path leads to a file, to a folder or nowhere (`Folder.find?`), and of what it leads to only a file
can be read, if it holds text. A file can be written where a file stands, or nothing does in a
folder that is there (`Folder.write?`).
-/

namespace EffectChain

/-- What a path leads to. -/
inductive Entry
  /-- A file with its contents. -/
  | file (contents : Bytes)
  /-- A folder. -/
  | folder

/-- Why nothing can be read at the end of a path. -/
inductive ReadError
  /-- The file holds no text. -/
  | notText
  /-- It is a folder. -/
  | isFolder
  deriving DecidableEq

def ReadError.message : ReadError → String
  | notText => "stream did not contain valid UTF-8"
  | isFolder => "Is a directory (os error 21)"

def Entry.text : Entry → Except ReadError String
  | folder => .error .isFolder
  | file contents =>
    match String.fromUTF8? contents with
    | some text => .ok text
    | none => .error .notText

/-- Files by name. A name with slashes is that of a file in a folder within. -/
structure Folder where
  /-- The files, each with its name. -/
  files : List (String × Bytes)

namespace Folder

/-- Where a path has come. -/
inductive Place
  /-- Somewhere in the folder, by the names on the way. -/
  | inside (names : List String)
  /-- In a folder around it, of which nothing else is known. -/
  | outside

def entryAt (f : Folder) : Place → Option Entry
  | .outside => some .folder
  | .inside [] => some .folder
  | .inside names =>
    let name := "/".intercalate names
    match f.files.lookup name with
    | some contents => some (.file contents)
    | none => if f.files.any fun file ↦ (name ++ "/").isPrefixOf file.1 then some .folder else none

/-- Goes on by one part of a path, which takes a folder to start from. -/
def follow (f : Folder) (place : Place) (part : String) : Option Place :=
  match f.entryAt place with
  | some .folder =>
    if part = "" ∨ part = "." then some place
    else
      match place with
      | .outside => if part = ".." then some .outside else none
      | .inside names =>
        if part = ".." then some (if names.isEmpty then .outside else .inside names.dropLast)
        else some (.inside (names ++ [part]))
  | _ => none

/-- What a path leads to. A path that starts with a slash does not start in the folder. -/
def find? (f : Folder) (path : String) : Option Entry :=
  let start := if "/".isPrefixOf path then Place.outside else .inside []
  ((path.splitOn "/").foldlM f.follow start).bind f.entryAt

/-- Where a path leads, which may be to a name that nothing has yet. -/
def place? (f : Folder) (path : String) : Option Place :=
  (path.splitOn "/").foldlM f.follow (if "/".isPrefixOf path then .outside else .inside [])

theorem find?_eq_bind (f : Folder) (path : String) :
    f.find? path = (f.place? path).bind f.entryAt :=
  rfl

/-- The folder with a file of a name, in place of the one that had it. -/
def put (f : Folder) (name : String) (contents : Bytes) : Folder :=
  { files := (name, contents) :: f.files.filter (·.1 ≠ name) }

/-- The folder with a file where a path leads, `none` if no file can be there. -/
def write? (f : Folder) (path : String) (contents : Bytes) : Option Folder :=
  match f.place? path with
  | some (.inside names) =>
    match f.entryAt (.inside names) with
    | some .folder => none
    | some (.file _) | none => some (f.put ("/".intercalate names) contents)
  | some .outside | none => none

end Folder

end EffectChain
