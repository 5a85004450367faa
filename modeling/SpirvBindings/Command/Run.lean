import SpirvBindings.Command.Arguments
import SpirvBindings.Failure

/-!
What a command leaves behind: the lines of its log, and how it ended. The exit status is 0 for a
command that saved its output or showed its help, 1 for one that failed and 2 for one that was
misused. -/

namespace SpirvBindings.Command

inductive LogLevel
  | debug | info | warn
  deriving DecidableEq, Repr

def LogLevel.name : LogLevel → String
  | .debug => "DEBUG"
  | .info => "INFO"
  | .warn => "WARN"

structure LogLine where
  level : LogLevel
  text : String
  deriving DecidableEq, Repr

/-- A character of a log line. The controls that a terminal acts on are named by their codes. -/
def logged (c : Char) : List Char :=
  if c ∈ ['\x07', '\x08', '\x0c', '\x1b', '\x7f'] then
    ['\\', 'x', Nat.digitChar (c.toNat / 16), Nat.digitChar (c.toNat % 16)]
  else if 0x80 ≤ c.toNat ∧ c.toNat < 0xA0 then
    ['\\', 'u', '\x7b'] ++ Nat.toDigits 16 c.toNat ++ ['\x7d']
  else [c]

def LogLine.render (l : LogLine) : String :=
  l.level.name ++ " " ++ String.ofList (l.text.toList.flatMap logged)

inductive Conclusion
  | saved (path : String)
  | failed (failure : Failure)
  | misused
  /-- The help was asked for, and is shown. -/
  | helped (text : String)
  deriving DecidableEq, Repr

structure Run where
  log : List LogLine
  conclusion : Conclusion
  deriving DecidableEq, Repr

namespace Run

def exitStatus (r : Run) : Nat :=
  match r.conclusion with
  | .saved _ => 0
  | .failed _ => 1
  | .misused => 2
  | .helped _ => 0

/-- What is written to the standard output. -/
def output (r : Run) : String :=
  match r.conclusion with
  | .saved path => "Saved to '" ++ path ++ "'\n"
  | .helped text => text
  | _ => ""

def failure? (r : Run) : Option Failure :=
  match r.conclusion with
  | .failed failure => some failure
  | _ => none

/-- The run of a command whose arguments were refused, given its help. -/
def ofRefusal (help : String) : Refusal → Run
  | .misused => ⟨[], .misused⟩
  | .helpAsked => ⟨[], .helped help⟩

end Run

end SpirvBindings.Command
