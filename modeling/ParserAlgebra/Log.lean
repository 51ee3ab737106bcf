/-!
# Log records

Runs report on themselves in records of two levels. A record is made only if the verbosity in force
asks for its level.
-/

namespace ParserAlgebra

inductive LogLevel where
  | debug
  | trace
  deriving DecidableEq

structure LogRecord where
  level : LogLevel
  message : String
  deriving DecidableEq

/-- Which records are made: none, those of level `debug`, or all. -/
inductive Verbosity where
  | off
  | debug
  | trace
  deriving DecidableEq

namespace Verbosity

def shows : Verbosity → LogLevel → Bool
  | .off, _ => false
  | .debug, level => level = .debug
  | .trace, _ => true

/-- The record of a message, if it is asked for. -/
def record (v : Verbosity) (level : LogLevel) (message : String) : List LogRecord :=
  if v.shows level then [⟨level, message⟩] else []

@[simp] theorem record_off (level : LogLevel) (message : String) :
    off.record level message = [] := rfl

end Verbosity

end ParserAlgebra
