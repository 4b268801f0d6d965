import PageCompiler.Project.Config

/-! # Log filters

Which log lines are let through. Every line has a target, a name made of words and `::`, and a
level. The lines of a phase have targets that start with the phase's own target and are filtered by
the level of that phase; all others are filtered by the general level.
-/

namespace PageCompiler

def LogLevel.rank : LogLevel → Nat
  | silent => 0
  | error => 1
  | warn => 2
  | info => 3
  | debug => 4
  | trace => 5

/-- Whether a filter at this level lets a line of level `line` through. -/
def LogLevel.lets (level line : LogLevel) : Bool :=
  line.rank ≤ level.rank

structure LogFilter where
  general : LogLevel
  targets : LogTargets
deriving DecidableEq

namespace LogFilter

/-- The level that the command line asks for at least, by the number of requests for more lines. -/
def floorLevel : Nat → LogLevel
  | 0 => .silent
  | 1 => .info
  | 2 => .debug
  | _ => .trace

/-- The filter of a project; `level?` replaces its general level, and `verbosity` can raise it. -/
def make (logging : LoggingConfig) (level? : Option LogLevel) (verbosity : Nat) : LogFilter :=
  let level := level?.getD logging.level
  let floor := floorLevel verbosity
  ⟨if level.rank < floor.rank then floor else level, logging.targets⟩

def levelFor (filter : LogFilter) (phase : Phase) : LogLevel :=
  (filter.targets.levelFor phase).getD filter.general

/-- The level that filters the lines with a target. -/
def levelAt (filter : LogFilter) (target : Text) : LogLevel :=
  match Phase.all.find? fun phase => phase.target.isPrefixOf target with
  | some phase => filter.levelFor phase
  | none => filter.general

def lets (filter : LogFilter) (target : Text) (line : LogLevel) : Bool :=
  (filter.levelAt target).lets line

end LogFilter

end PageCompiler
