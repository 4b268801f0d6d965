import PageCompiler.Error.Build

/-! # Reports

A run of the compiler ends with a build error or with an error in its configuration. A `Report` is
what other tools get to see of it: phase, kind, place, message, exit code, and details for the kinds
that have some.
-/

namespace PageCompiler

/-- Why a run of the compiler failed. -/
inductive Failure where
  | build (error : BuildError)
  | config (message : Text)
deriving DecidableEq

/-- What a report adds about some kinds of error. -/
inductive ReportDetails where
  | notFound (name : Text) (searched : List Text)
  | cycle (chain : List Text)
  | duplicate (name existing conflicting : Text)
deriving DecidableEq

structure Report where
  phase : Text
  kind : Text
  path? : Option Text
  line? : Option Nat
  column? : Option Nat
  message : Text
  exitCode : Nat
  details? : Option ReportDetails
deriving DecidableEq

namespace Failure

def message : Failure → Text
  | build error => error.message
  | config message => "Config error: ".toList ++ message

def phase : Failure → Text
  | build error => (error.phase?.map Phase.word).getD "io".toList
  | config _ => "config".toList

def kind : Failure → Text
  | build (.malformed ..) => "MalformedBlock".toList
  | build (.moduleNotFound ..) => "ModuleNotFound".toList
  | build (.circularImport ..) => "CircularImport".toList
  | build (.duplicateModule ..) => "DuplicateModule".toList
  | build (.unresolvedImport ..) => "UnresolvedImport".toList
  | build (.nestingLimit ..) => "NestingLimit".toList
  | build (.file ..) => "Io".toList
  | build (.notUtf8 ..) => "InvalidUtf8".toList
  | config _ => "Config".toList

def exitCode : Failure → Nat
  | build (.malformed ..) => 2
  | build (.moduleNotFound ..) => 3
  | build (.circularImport ..) => 4
  | build (.duplicateModule ..) => 5
  | build (.file ..) | build (.notUtf8 ..) => 6
  | build (.unresolvedImport ..) | build (.nestingLimit ..) => 70
  | config _ => 64

def path? : Failure → Option Path
  | build error => error.path?
  | config _ => none

def line? : Failure → Option Nat
  | build error => error.line?
  | config _ => none

def column? : Failure → Option Nat
  | build error => error.column?
  | config _ => none

def details? : Failure → Option ReportDetails
  | build (.moduleNotFound name _ _ searched) => some (.notFound name (searched.map Path.text))
  | build (.circularImport chain) => some (.cycle chain)
  | build (.duplicateModule name existing conflicting) =>
    some (.duplicate name existing.text conflicting.text)
  | _ => none

def report (failure : Failure) : Report where
  phase := failure.phase
  kind := failure.kind
  path? := failure.path?.map Path.text
  line? := failure.line?
  column? := failure.column?
  message := failure.message
  exitCode := failure.exitCode
  details? := failure.details?

end Failure

namespace Report

/-- The place of an error as far as it is known. -/
def place? (report : Report) : Option Text :=
  match report.path?, report.line?, report.column? with
  | some path, some line, some column =>
    some (path ++ ":".toList ++ Text.ofNat line ++ ":".toList ++ Text.ofNat column)
  | some path, some line, none => some (path ++ ":".toList ++ Text.ofNat line)
  | _, _, _ => none

def line (report : Report) : Text :=
  match report.place? with
  | some place =>
    "[".toList ++ place ++ "] ".toList ++ report.phase ++ " error: ".toList ++ report.message
  | none => "[".toList ++ report.phase ++ "] error: ".toList ++ report.message

end Report

end PageCompiler
