import SchemaUnnest.Text

namespace SchemaUnnest

inductive Level where
  | debug
  | info
  | warning
  | error
deriving DecidableEq

namespace Level

def name : Level → Text
  | .debug => "DEBUG"
  | .info => "INFO"
  | .warning => "WARNING"
  | .error => "ERROR"

def rank : Level → Nat
  | .debug => 0
  | .info => 1
  | .warning => 2
  | .error => 3

end Level

structure LogLine where
  level : Level
  text : Text
deriving DecidableEq

abbrev Log := List LogLine

namespace Log

def atLeast (level : Level) (log : Log) : Log := log.filter fun line => level.rank ≤ line.level.rank

end Log
end SchemaUnnest
