import Schematron.Log
import Schematron.Text.Blank

/-! Messages that the stages of one compilation produce, in order. -/

namespace Schematron

inductive MessageLevel
  | fatal
  | error
  | warning
  | info
deriving DecidableEq, Repr, Inhabited

namespace MessageLevel

def all : List MessageLevel := [fatal, error, warning, info]

def name : MessageLevel → String
  | fatal => "fatal"
  | error => "error"
  | warning => "warning"
  | info => "info"

def label : MessageLevel → String
  | fatal => "FATAL"
  | error => "ERROR"
  | warning => "WARNING"
  | info => "INFO"

def ofName? (name : String) : Option MessageLevel := all.find? (·.name == name)

def ofLogName (name : String) : MessageLevel :=
  -- The level of an entry in a transformation's log; whatever it does not know is information.
  match name with
  | "FATAL" => fatal
  | "ERROR" => error
  | "WARNING" => warning
  | _ => info

def isError : MessageLevel → Bool
  | fatal | error => true
  | warning | info => false

end MessageLevel

structure StageMessage where
  stage : String
  level : MessageLevel
  message : String
  line : Option Int
deriving DecidableEq, Repr

namespace StageMessage

/-- One line for reading; a line number of zero is no line number. -/
def summary (entry : StageMessage) : String :=
  let place := match entry.line with
    | none | some 0 => ""
    | some line => " (line " ++ toString line ++ ")"
  "[" ++ entry.level.label ++ "] " ++ entry.stage ++ ": " ++ entry.message ++ place

end StageMessage

structure LogEntry where
  message : String
  levelName : String
  line : Option Int
deriving DecidableEq, Repr

structure Collector where
  source : String
  messages : List StageMessage
deriving DecidableEq, Repr

namespace Collector

def empty (source : String) : Collector := ⟨source, []⟩

def entry (stage : String) (level : MessageLevel) (message : String) (line : Option Int) :
    StageMessage :=
  ⟨stage, level, Text.trimString message, line⟩

def add (collector : Collector) (message : StageMessage) : Collector :=
  { collector with messages := collector.messages ++ [message] }

def records (collector : Collector) (message : StageMessage) : List LogRecord :=
  if message.level.isError then
    [⟨.info, .collector,
      "Stage " ++ message.stage ++ " error on " ++ collector.source ++ ": " ++ message.message⟩]
  else []

def ofLogEntry (stage : String) (logged : LogEntry) : StageMessage :=
  entry stage (.ofLogName logged.levelName) logged.message
    (logged.line.bind fun line => if line == 0 then none else some line)

def collect (collector : Collector) (stage : String) (log : List LogEntry) : Collector :=
  (log.map (ofLogEntry stage)).foldl add collector

def collectRecords (collector : Collector) (stage : String) (log : List LogEntry) :
    List LogRecord :=
  (log.map (ofLogEntry stage)).flatMap collector.records

def warnings (collector : Collector) : List String :=
  (collector.messages.filter (!·.level.isError)).map (·.message)

def errors (collector : Collector) : List String :=
  (collector.messages.filter (·.level.isError)).map (·.message)

def forStage (collector : Collector) (stage : String) : List StageMessage :=
  collector.messages.filter (·.stage == stage)

def count (collector : Collector) (level : MessageLevel) : Nat :=
  collector.messages.countP (·.level == level)

def summary (collector : Collector) : String :=
  "\n".intercalate (collector.messages.map StageMessage.summary)

end Collector

end Schematron
