/-!
# Log records

What a step of the work has to say about itself: a level, the part of the program that speaks, and a
message. A record is written on one line behind the time at which it was made.
-/

namespace ArtifactIdentity

inductive LogLevel where
  | debug
  | info
  | warning
deriving DecidableEq, Repr

def LogLevel.name : LogLevel → String
  | .debug => "DEBUG"
  | .info => "INFO"
  | .warning => "WARNING"

structure LogRecord where
  level : LogLevel
  speaker : String
  message : String
deriving DecidableEq, Repr

/-- Records in the order in which they were made. -/
abbrev Log : Type := List LogRecord

def LogRecord.line (r : LogRecord) (time : String) : String :=
  time ++ " - " ++ r.speaker ++ " - " ++ r.level.name ++ " - " ++ r.message

end ArtifactIdentity
