import Schematron.Failure
import Schematron.Location.Path
import Schematron.Text.Encoding
import Schematron.Text.Quoted

/-! A file system as a value: the files, directories and symbolic links below the root, and what a
look at a path comes to. -/

namespace Schematron

inductive AccessError
  | missing
  | forbidden
  | notDirectory
  | isDirectory
  | longName
  | linkLoop
  -- A text with a null character is no path at all; no system is asked.
  | nullCharacter
deriving DecidableEq, Repr

inductive Entry
  | file (bytes : ByteArray)
  | directory

structure FileTree where
  files : List (List String × ByteArray)
  -- Directories that need not hold anything.
  directories : List (List String)
  links : List (List String × String)
  -- Directories that may not be searched and files that may not be read.
  locked : List (List String)

namespace AccessError

def code : AccessError → Nat
  | missing => 2
  | forbidden => 13
  | notDirectory => 20
  | isDirectory => 21
  | longName => 36
  | linkLoop => 40
  | nullCharacter => 0

def reason : AccessError → String
  | missing => "No such file or directory"
  | forbidden => "Permission denied"
  | notDirectory => "Not a directory"
  | isDirectory => "Is a directory"
  | longName => "File name too long"
  | linkLoop => "Too many levels of symbolic links"
  | nullCharacter => "embedded null byte"

def kind : AccessError → String
  | missing => "FileNotFoundError"
  | forbidden => "PermissionError"
  | notDirectory => "NotADirectoryError"
  | isDirectory => "IsADirectoryError"
  | longName | linkLoop => "OSError"
  | nullCharacter => "ValueError"

def ofSystem : List AccessError :=
  [missing, forbidden, notDirectory, isDirectory, longName, linkLoop]

def isAbsence : AccessError → Bool
  | missing | notDirectory | linkLoop | nullCharacter => true
  | forbidden | isDirectory | longName => false

def message (error : AccessError) (path : String) : String :=
  match error with
  | nullCharacter => error.reason
  | _ => "[Errno " ++ toString error.code ++ "] " ++ error.reason ++ ": " ++ Text.quoted path

def failure (error : AccessError) (path : String) : Failure :=
  .foreign error.kind (error.message path)

end AccessError

namespace FileTree

-- In bytes; a path stays below its limit.
def nameLimit : Nat := 255
def pathLimit : Nat := 4096
def linkLimit : Nat := 40

def empty : FileTree := ⟨[], [], [], []⟩

def file? (tree : FileTree) (parts : List String) : Option ByteArray := tree.files.lookup parts

def isDirectory (tree : FileTree) (parts : List String) : Bool :=
  parts.isEmpty || tree.directories.any (parts.isPrefixOf ·) ||
    (tree.files.map (·.1) ++ tree.links.map (·.1)).any fun found =>
      parts.isPrefixOf found && parts.length < found.length

def entry? (tree : FileTree) (parts : List String) : Option Entry :=
  match tree.file? parts with
  | some bytes => some (.file bytes)
  | none => if tree.isDirectory parts then some .directory else none

def link? (tree : FileTree) (parts : List String) : Option String := tree.links.lookup parts

def enter (tree : FileTree) (found : List String) (part : String) :
    Except AccessError (List String) :=
  match tree.entry? found with
  | none => .error .missing
  | some (.file _) => .error .notDirectory
  | some .directory =>
      if tree.locked.contains found then .error .forbidden
      else if part == ".." then .ok found.dropLast
      else if !Path.isPart part then .ok found
      else if nameLimit < part.utf8ByteSize then .error .longName
      else .ok (found ++ [part])

def linkStart (link : List String) (target : String) : List String :=
  if (Path.ofString target).isAbsolute then [] else link.dropLast

def walkWith (tree : FileTree)
    (follow : List String → List String → Except AccessError (List String)) :
    List String → List String → Except AccessError (List String)
  | found, [] => .ok found
  | found, part :: rest => do
      let next ← tree.enter found part
      match tree.link? next with
      -- An empty part at the end of a target asks for a directory.
      | some target => follow (linkStart next target) (Text.splitString '/' target ++ rest)
      | none => walkWith tree follow next rest

def walk (tree : FileTree) : Nat → List String → List String → Except AccessError (List String)
  | 0 => tree.walkWith fun _ _ => .error .linkLoop
  | budget + 1 => tree.walkWith (walk tree budget)

end FileTree

namespace Path

def access? (path : Path) : Option AccessError :=
  if path.parts.any (·.toList.contains '\x00') then some .nullCharacter
  else if FileTree.pathLimit ≤ path.toString.utf8ByteSize then some .longName
  else none

end Path

namespace FileTree

def locate (tree : FileTree) (directory : List String) (path : Path) :
    Except AccessError (List String) :=
  match path.access? with
  | some error => .error error
  | none => tree.walk linkLimit (if path.isAbsolute then [] else directory) path.parts

def find (tree : FileTree) (directory : List String) (path : Path) : Except AccessError Entry := do
  match tree.entry? (← tree.locate directory path) with
  | some entry => .ok entry
  | none => .error .missing

def read (tree : FileTree) (directory : List String) (path : Path) :
    Except AccessError ByteArray := do
  let found ← tree.locate directory path
  match tree.entry? found with
  | none => .error .missing
  | some .directory => .error .isDirectory
  | some (.file bytes) => if tree.locked.contains found then .error .forbidden else .ok bytes

/-- Looks whether an entry is one that is asked for; not every error means that it is not. -/
def look (tree : FileTree) (directory : List String) (path : Path) (asked : Entry → Bool) :
    Except Failure Bool :=
  match tree.find directory path with
  | .ok entry => .ok (asked entry)
  | .error error => if error.isAbsence then .ok false else .error (error.failure path.toString)

def exists? (tree : FileTree) (directory : List String) (path : Path) : Except Failure Bool :=
  tree.look directory path fun _ => true

def isFile (tree : FileTree) (directory : List String) (path : Path) : Except Failure Bool :=
  tree.look directory path fun
    | .file _ => true
    | .directory => false

/-! Resolution of links -/

structure Resolution where
  parts : List String
  isComplete : Bool

def target? (tree : FileTree) (parts : List String) : Option String :=
  let path : Path := ⟨.slash, parts⟩
  match path.access?, parts.getLast? with
  | none, some name =>
      match tree.walk linkLimit [] parts.dropLast >>= (tree.enter · name) with
      | .ok found => tree.link? found
      | .error _ => none
  | _, _ => none

def resolveWith (tree : FileTree)
    (replace : List String → String → Except AccessError Resolution) :
    List String → List String → Except AccessError Resolution
  | found, [] => .ok ⟨found, true⟩
  | found, part :: rest =>
      if part == ".." then resolveWith tree replace found.dropLast rest
      else if part.toList.contains '\x00' then .error .nullCharacter
      else
        match tree.target? (found ++ [part]) with
        | none => resolveWith tree replace (found ++ [part]) rest
        | some target => do
            let replaced ← replace (found ++ [part]) target
            if replaced.isComplete then resolveWith tree replace replaced.parts rest
            else .ok ⟨replaced.parts ++ rest, false⟩

/-- Replaces the links along parts, and those along their targets. A link that is met while its own
target is being resolved stays, with all that comes after it. -/
def resolveLinks (tree : FileTree) :
    Nat → List (List String) → List String → List String → Except AccessError Resolution
  | 0, _ => fun found rest => .ok ⟨found ++ rest, false⟩
  | depth + 1, within => tree.resolveWith fun link target =>
      if within.contains link then .ok ⟨link, false⟩
      else resolveLinks tree depth (link :: within) (linkStart link target)
        (Path.ofString target).parts

-- More than the links that can be met within each other.
def linkDepth (tree : FileTree) : Nat := tree.links.length + linkLimit + 1

def resolve (tree : FileTree) (surroundings : Surroundings) (path : Path) :
    Except Failure Path := do
  -- The absolute path without links and dots that a path stands for, whether it leads anywhere
  -- or not.
  let path := path.absolute surroundings
  let failure (error : AccessError) := error.failure path.toString
  let found ← (tree.resolveLinks tree.linkDepth [] [] path.parts).mapError failure
  let resolved : Path := ⟨.slash, Path.withoutDots found.parts⟩
  match tree.find [] resolved with
  | .error .linkLoop =>
      .error (.foreign "RuntimeError" ("Symlink loop from " ++ Text.quoted resolved.toString))
  | .error .nullCharacter => .error (failure .nullCharacter)
  | _ => .ok resolved

def text (tree : FileTree) (surroundings : Surroundings) (path : String) :
    Except Failure String :=
  -- An empty path names nothing, not the working directory.
  let found := if path.isEmpty then .error .missing
    else tree.read surroundings.workingDirectory.parts (Path.ofString path)
  match found with
  | .error error => .error (error.failure path)
  | .ok bytes =>
      match Text.ofUtf8 bytes.toList with
      | .ok chars => .ok (String.ofList (Text.unifyLines chars))
      | .error fault => .error (.foreign "UnicodeDecodeError" fault.message)

def write (tree : FileTree) (parts : List String) (bytes : ByteArray) : FileTree :=
  { tree with files := (parts, bytes) :: tree.files.filter (·.1 != parts) }

def delete (tree : FileTree) (parts : List String) : FileTree :=
  { tree with
    files := tree.files.filter (·.1 != parts)
    directories := parts.dropLast :: tree.directories }

def addDirectory (tree : FileTree) (parts : List String) : FileTree :=
  { tree with directories := parts :: tree.directories }

end FileTree

end Schematron
