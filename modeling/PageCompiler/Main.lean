import PageCompiler.CommandLine.Run

/-! # The program

The command line on the files of the operating system.
-/

namespace PageCompiler

/-! ## Errors of the operating system -/

/-- The number and the words that the operating system gives for a failed call. -/
def systemCode : IO.Error → UInt32 × String
  | .alreadyExists _ code words | .otherError code words | .resourceBusy code words
  | .resourceVanished code words | .unsupportedOperation code words | .hardwareFault code words
  | .unsatisfiedConstraints code words | .illegalOperation code words
  | .protocolError code words | .timeExpired code words | .interrupted _ code words
  | .noFileOrDirectory _ code words | .invalidArgument _ code words
  | .permissionDenied _ code words | .resourceExhausted _ code words
  | .inappropriateType _ code words | .noSuchThing _ code words => (code, words)
  | .unexpectedEof => (0, "unexpected end of file")
  | .userError words => (0, words)

/-- The number of a failed call. Some calls give it negated. -/
def systemNumber (error : IO.Error) : Nat :=
  let code := (systemCode error).1.toNat
  if code < Nat.pow 2 31 then code else Nat.pow 2 32 - code

/-- The errors whose words do not depend on the call. -/
def knownError? : Nat → Option SystemError
  | 2 => some .missing
  | 17 => some .alreadyExists
  | 20 => some .notDirectory
  | 21 => some .isDirectory
  | 36 => some .nameTooLong
  | _ => none

/-- The words for a failed call, with its number if there is one. -/
def systemMessage (error : IO.Error) : Text :=
  let words := (systemCode error).2.toList
  match knownError? (systemNumber error), systemNumber error with
  | some known, _ => known.message
  | none, 0 => words
  | none, number => words ++ " (os error ".toList ++ Text.ofNat number ++ ")".toList

/-- What kind of failure the number of a failed call stands for. -/
def systemKind (error : IO.Error) : SystemErrorKind :=
  match systemNumber error with
  | 2 => .missing
  | 1 | 13 => .denied
  | _ => .other

def systemCall {α : Type} (path : Path) (call : String → IO α) : IO (Except FileError α) := do
  try
    return .ok (← call (String.ofList path.text))
  catch error => return .error (.ofSystem path (systemKind error) (systemMessage error))

/-! ## Files -/

def isSystemFile (text : String) : IO Bool := do
  if text.isEmpty then return false
  try
    let found ← ((← IO.currentDir) / text).metadata
    return found.type == .file
  catch _ => return false

def isSystemDirectory (text : String) : IO Bool := do
  if text.isEmpty then return false
  ((← IO.currentDir) / text).isDir

def ensureSystemDirectory (text : String) : IO Unit := do
  try IO.FS.createDir text
  catch error => unless ← isSystemDirectory text do throw error

def makeSystemDirectories (text : String) : IO Unit := do
  try ensureSystemDirectory text
  catch error =>
    if systemNumber error = 2 then
      (Disk.ancestors text.toList).forM fun ancestor =>
        ensureSystemDirectory (String.ofList ancestor)
    else throw error

def namesInSystemDirectory (text : String) : IO (List Text) := do
  let found ← ((← IO.currentDir) / text).readDir
  let names := found.toList.map fun entry => entry.fileName.toList
  return names.mergeSort fun a b => compare a b != .gt

/-- More bytes than the files of a disk can have. -/
def systemSizeBound : Nat := Nat.pow 2 64

instance : CommandLine.Host IO where
  read path := systemCall path fun text => IO.FS.readBinFile text
  write path content := systemCall path fun text => IO.FS.writeBinFile text content
  rename source target :=
    systemCall source fun text => IO.FS.rename text (String.ofList target.text)
  remove path := systemCall path fun text => IO.FS.removeFile text
  makeDirectories path := systemCall path makeSystemDirectories
  isFile path := isSystemFile (String.ofList path.text)
  listDirectory path := do
    let names ← systemCall path namesInSystemDirectory
    return names.map (List.map fun name => path.join ⟨name⟩)
  sizeBound := return systemSizeBound
  currentDirectory := return .ofString (← IO.currentDir).toString
  openLog path := do
    try
      IO.FS.withFile (String.ofList path.text) .append fun _ => pure ()
      return .ok ()
    catch error => return .error (systemMessage error)
  writeLog file? line := do
    let line := String.ofList (line ++ ['\n'])
    (← IO.getStderr).putStr line
    if let some path := file? then
      IO.FS.withFile (String.ofList path.text) .append fun file => file.putStr line

/-! ## Help -/

def usage : String :=
  "Usage: weave [OPTIONS] build [ENTRY] [OPTIONS]\n"
    ++ "       weave [OPTIONS] list [ENTRY] [OPTIONS]\n"
    ++ "\n"
    ++ "build compiles an entry file into a page; list prints the files of a page,\n"
    ++ "module files in dependency order and the entry last.\n"

end PageCompiler

open PageCompiler in
def main (arguments : List String) : IO UInt32 := do
  let outcome ← (CommandLine.run (arguments.map String.toList) : IO CommandLine.Outcome)
  match outcome with
  | .help => IO.print usage
  | .version => IO.println "weave"
  | .misuse => IO.eprint usage
  | .finished output => IO.print (String.ofList output)
  | .failed _ diagnostic => IO.eprint (String.ofList diagnostic)
  return UInt32.ofNat outcome.exitCode
