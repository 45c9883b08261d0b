/-!
# Log entries

What is worth telling about a run is recorded as a list of entries, oldest first. Each entry names
the part of the library that speaks, its level and its message.
-/

namespace SchemaBaseline

/-- How much an entry matters. -/
inductive LogLevel
  | debug
  | info
  | warning
  | error
deriving Repr, DecidableEq

def LogLevel.label : LogLevel → String
  | .debug => "DEBUG"
  | .info => "INFO"
  | .warning => "WARNING"
  | .error => "ERROR"

/-- The part that speaks. -/
inductive LogSource
  | introspection
  | baseline
  | gate
  | settings
  | commandLine
deriving Repr, DecidableEq

/-- The name under which a part speaks. -/
def LogSource.label : LogSource → String
  | .introspection => "schemawatch.services.introspection"
  | .baseline => "schemawatch.storage.baseline"
  | .gate => "schemawatch.services.runtime"
  | .settings => "schemawatch.config"
  | .commandLine => "schemawatch"

structure LogEntry where
  level : LogLevel
  source : LogSource
  message : String
deriving Repr, DecidableEq

end SchemaBaseline
