import Schematron.FileTree
import Schematron.Settings.Model

/-! Configuration files: the nearest one upward from a directory, and what it says. -/

namespace Schematron.Settings

def fileName : String := ".schemagate.json"

def searchUpward (files : FileTree) (name : String) : List String → Except Failure (Option Path)
  | [] => do
      let candidate : Path := ⟨.slash, [name]⟩
      if ← files.exists? [] candidate then return some candidate else return none
  | last :: above => do
      let candidate : Path := ⟨.slash, (last :: above).reverse ++ [name]⟩
      if ← files.exists? [] candidate then return some candidate
      else searchUpward files name above

def findFile (files : FileTree) (surroundings : Surroundings) (start : Path) :
    Except Failure (Option Path) := do
  let start ← files.resolve surroundings start
  searchUpward files fileName start.parts.reverse

inductive FileFault
  | malformed (error : Json.ReadError)
  | unreadable (failure : Failure)
  | notAnObject (kind : String)
  | invalid (faults : List FieldFault)

structure FileError where
  path : String
  fault : FileFault

def countText (count : Nat) (one many : String) : String :=
  toString count ++ " " ++ if count == 1 then one else many

def invalidMessage (title : String) (faults : List FieldFault) : String :=
  countText faults.length "validation error" "validation errors" ++ " for " ++ title

def notAnObjectMessage (title kind : String) : String :=
  "schemagate.config." ++ title ++ "() argument after ** must be a mapping, not " ++ kind

namespace FileFault

def isSyntax : FileFault → Bool
  | malformed (.malformed ..) => true
  | _ => false

def message : FileFault → String
  | malformed error => error.message
  | unreadable failure => failure.message.toStringLossy
  | notAnObject kind => notAnObjectMessage Section.whole.title kind
  | invalid faults => invalidMessage Section.whole.title faults

def kind : FileFault → String
  | malformed (.malformed ..) => "JSONDecodeError"
  | malformed (.longInteger _) => "ValueError"
  | malformed (.deepNesting _) => "RecursionError"
  | unreadable (.foreign kind _) => kind
  | unreadable _ => "OSError"
  | notAnObject _ => "TypeError"
  | invalid _ => "ValidationError"

end FileFault

def FileError.message (error : FileError) : String :=
  (if error.fault.isSyntax then "Invalid JSON in config file " else "Failed to load config from ")
    ++ error.path ++ ": " ++ error.fault.message

def ofText (source : String) : Except FileFault Settings :=
  match Json.read source with
  | .error error => .error (.malformed error)
  | .ok (.object members) => (ofMembers members).mapError .invalid
  | .ok value => .error (.notAnObject value.kind)

inductive LoadError
  | file (error : FileError)
  | access (failure : Failure)

def loadFile (files : FileTree) (surroundings : Surroundings) (path : Path) :
    Except LoadError Settings := do
  if !(← (files.exists? surroundings.workingDirectory.parts path).mapError .access) then
    return standard
  match files.text surroundings path.toString with
  | .error failure => .error (.file ⟨path.toString, .unreadable failure⟩)
  | .ok source => (ofText source).mapError fun fault => .file ⟨path.toString, fault⟩

def load (files : FileTree) (surroundings : Surroundings) (given : Option String) :
    Except LoadError Settings := do
  match given with
  | some path => loadFile files surroundings (.ofString path)
  | none =>
      match ← (findFile files surroundings surroundings.workingDirectory).mapError .access with
      | some path => loadFile files surroundings path
      | none => return standard

end Schematron.Settings
