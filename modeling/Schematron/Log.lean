/-! Log records: what the library notes about its own work. -/

namespace Schematron

inductive LogLevel
  | info
  | warning
  | error
deriving DecidableEq, Repr

inductive LogSource
  | collector
  | pipeline
  | pool
  | registry
  | service
deriving DecidableEq, Repr

structure LogRecord where
  level : LogLevel
  source : LogSource
  message : String
deriving DecidableEq, Repr

namespace LogLevel

def label : LogLevel → String
  | info => "INFO"
  | warning => "WARNING"
  | error => "ERROR"

end LogLevel

namespace LogSource

def name : LogSource → String
  | collector => "schemagate.diagnostics.collector"
  | pipeline => "schemagate.compiler.pipeline"
  | pool => "schemagate.engine.pool"
  | registry => "schemagate.engine.registry"
  | service => "schemagate.service"

end LogSource

def LogRecord.line (record : LogRecord) : String :=
  record.level.label ++ " " ++ record.source.name ++ ": " ++ record.message

end Schematron
