import Schematron.Location.Uri

/-! Paths in a file system, and the resolution of rule-set locations to absolute paths. -/

namespace Schematron

inductive PathRoot
  | relative
  | slash
  | doubleSlash
deriving DecidableEq, Repr, Inhabited

/-- A path as its root and its parts, none of them empty or a single dot. -/
structure Path where
  root : PathRoot
  parts : List String
deriving DecidableEq, Repr, Inhabited

namespace PathRoot

def written : PathRoot → String
  | relative => ""
  | slash => "/"
  | doubleSlash => "//"

end PathRoot

namespace Path

def isPart (part : String) : Bool := part != "" && part != "."

def ofString (source : String) : Path :=
  let slashes := (source.toList.takeWhile (· == '/')).length
  let root := match slashes with
    | 0 => .relative
    | 2 => .doubleSlash
    | _ => .slash
  ⟨root, (Text.splitString '/' source).filter isPart⟩

def isAbsolute (path : Path) : Bool := path.root != .relative

def toString (path : Path) : String :=
  if path.root == .relative && path.parts.isEmpty then "."
  else path.root.written ++ "/".intercalate path.parts

instance : ToString Path := ⟨toString⟩

def name (path : Path) : String := path.parts.getLast?.getD ""

def join (base path : Path) : Path :=
  if path.isAbsolute then path else ⟨base.root, base.parts ++ path.parts⟩

def child (path : Path) (part : String) : Path := ⟨path.root, path.parts ++ [part]⟩

def parent (path : Path) : Path := ⟨path.root, path.parts.dropLast⟩

def uri (path : Path) : String := Uri.ofPath path.toString

def withoutDots (parts : List String) : List String :=
  -- The parts of a path without dots: two dots take the part before them away.
  parts.foldl (fun kept part => if part == ".." then kept.dropLast else kept ++ [part]) []

end Path

structure Surroundings where
  workingDirectory : Path
  home : String → Option String

inductive LocationError
  | noHome
deriving DecidableEq, Repr

namespace LocationError

def message : LocationError → String
  | noHome => "Could not determine home directory."

end LocationError

namespace Path

def expandHome (surroundings : Surroundings) (path : Path) : Except LocationError Path :=
  match path.root, path.parts with
  | .relative, first :: rest =>
      match first.toList with
      | '~' :: user =>
          match surroundings.home (String.ofList user) with
          | some home => .ok (Path.join (.ofString home) ⟨.relative, rest⟩)
          | none => .error .noHome
      | _ => .ok path
  | _, _ => .ok path

def absolute (surroundings : Surroundings) (path : Path) : Path :=
  surroundings.workingDirectory.join path

end Path

def forwardSlashes (source : String) : String :=
  String.ofList (source.toList.map fun char => if char == '\\' then '/' else char)

/-- The absolute path of a location. A relative one is seen from `base`, or from the working
directory without a base. -/
def resolveLocation (surroundings : Surroundings) (base : Option String) (location : String) :
    Except LocationError Path := do
  let path ← (Path.ofString location).expandHome surroundings
  if path.isAbsolute then return path
  let base ← match base with
    | some base => (Path.ofString base).expandHome surroundings
    | none => pure surroundings.workingDirectory
  return (base.join path).absolute surroundings

structure RuleSource where
  path : Path
deriving DecidableEq, Repr, Inhabited

namespace RuleSource

def resolve (surroundings : Surroundings) (base : Option String) (location : String) :
    Except LocationError RuleSource :=
  (resolveLocation surroundings base location).map RuleSource.mk

def uri (source : RuleSource) : String := source.path.uri

def name (source : RuleSource) : String := source.path.name

def toString (source : RuleSource) : String := source.path.toString

end RuleSource

inductive RuleLocation
  | written (location : String)
  | resolved (source : RuleSource)

namespace RuleLocation

def resolve (surroundings : Surroundings) (base : Option String) :
    RuleLocation → Except LocationError RuleSource
  | written location => RuleSource.resolve surroundings base location
  | resolved source => .ok source

def resolveAll (surroundings : Surroundings) (base : Option String)
    (locations : List RuleLocation) : Except LocationError (List RuleSource) :=
  locations.mapM (resolve surroundings base)

end RuleLocation

end Schematron
