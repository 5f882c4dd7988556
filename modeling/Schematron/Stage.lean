import Schematron.Collector
import Schematron.Xml.Node

/-! The three stages of a compilation, and what a stage leaves behind. -/

namespace Schematron

inductive Stage
  | inclusion
  | expansion
  | compilation
deriving DecidableEq, Repr, Inhabited

namespace Stage

def all : List Stage := [inclusion, expansion, compilation]

def name : Stage → String
  | inclusion => "include"
  | expansion => "expand"
  | compilation => "compile"

def ofName? (name : String) : Option Stage := all.find? (·.name == name)

theorem ofName?_name (stage : Stage) : ofName? stage.name = some stage := by
  cases stage <;> rfl

theorem name_of_ofName? {name : String} {stage : Stage} (found : ofName? name = some stage) :
    stage.name = name := by
  simpa using List.find?_some found

end Stage

inductive StageResult
  | tree (document : Xml.Document)
  | nothing
  | failure (detail : String)

structure StageRun where
  result : StageResult
  log : List LogEntry

namespace LogEntry

/-- A message that a transformation writes itself counts as an error, and has no line. -/
def ofMessage (message : String) : LogEntry := ⟨message, "ERROR", none⟩

end LogEntry

namespace StageRun

def ofNodes (nodes : List Xml.Node) (messages : List String) : StageRun :=
  let document : Xml.Document := ⟨nodes⟩
  ⟨if document.root?.isSome then .tree document else .nothing, messages.map LogEntry.ofMessage⟩

end StageRun

abbrev Staged := ExceptT String (StateM (List String))

namespace Staged

def say (message : String) : Staged Unit := modify fun messages => message :: messages

def toRun (work : Staged (List Xml.Node)) : StageRun :=
  match work.run [] with
  | (.ok nodes, messages) => StageRun.ofNodes nodes messages.reverse
  | (.error detail, messages) => ⟨.failure detail, messages.reverse.map LogEntry.ofMessage⟩

end Staged

end Schematron
