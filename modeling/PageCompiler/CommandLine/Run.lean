import PageCompiler.CommandLine.Request
import PageCompiler.Error.Json
import PageCompiler.FileSystem.Disk
import PageCompiler.Json.Writer
import PageCompiler.Project.Load
import PageCompiler.Source.Excerpt

/-! # Running the command line

A run loads the project, lets the command line override it, and then builds the page or lists the
files. A failure ends the run with a diagnostic: the message with an excerpt of the source it is
about, or the report as JSON if the log is written so.
-/

namespace PageCompiler.CommandLine

/-! ## What a run needs -/

/-- What a command needs of the system beside its files. -/
class Host (m : Type → Type) extends FileSystem m where
  currentDirectory : m Path
  /-- Opens a log file, which is created if it does not exist; the error is in the words of the
  operating system. -/
  openLog : Path → m (Except Text Unit)
  /-- Writes a log line, also to the log file if there is one. -/
  writeLog : Option Path → Text → m Unit

structure Log where
  filter : LogFilter
  format : LogFormat
  file? : Option Path

inductive Outcome where
  | help
  | version
  | misuse
  | finished (output : Text)
  | failed (failure : Failure) (diagnostic : Text)

def Outcome.exitCode : Outcome → Nat
  | help | version | finished _ => 0
  | misuse => 64
  | failed failure _ => failure.exitCode

/-! ## Overriding the project -/

def addOptions (project added : BuildOptions) : BuildOptions where
  stripLines := project.stripLines ++ added.stripLines
  keepLines := project.keepLines || added.keepLines
  stripBlocks := project.stripBlocks ++ added.stripBlocks
  excludeMarkers := project.excludeMarkers ++ added.excludeMarkers
  cssToScript := project.cssToScript || added.cssToScript
  markupToScript := project.markupToScript || added.markupToScript

/-- The build configuration with what the command line says about the sources. -/
def SourceArguments.override (source : SourceArguments) (config : BuildConfig) : BuildConfig :=
  { config with
    moduleSearchPaths :=
      if source.searchPaths.isEmpty then config.moduleSearchPaths else source.searchPaths
    modules := config.modules ++ source.modules
    nameMatching := source.nameMatching?.getD config.nameMatching
    namespaceLayout := source.namespaceLayout?.getD config.namespaceLayout
    scriptExtension := source.scriptExtension?.getD config.scriptExtension }

def PageArguments.override (page : PageArguments) (config : BuildConfig) : BuildConfig :=
  { config with
    outputPath := page.output?.getD config.outputPath
    outputMode := page.mode?.getD config.outputMode
    title? := page.title?.or config.title?
    options := addOptions config.options page.options }

/-- The entry file: that of the command line, else that of the project. -/
def SourceArguments.entry (source : SourceArguments) (project : ProjectConfig) :
    Except Failure Path :=
  match source.entry?.or project.entry? with
  | some entry => .ok entry
  | none =>
    .error (.config
      "no entry file: pass one on the command line or set 'entry' in weave.json".toList)

/-! ## Logging -/

def logLine (format : LogFormat) (target : Text) (level : LogLevel) (message : Text) : Text :=
  match format with
  | .json =>
    (Json.Value.ofMembers [
      ("level".toList, .ofText (LogLevel.option.wordOf level)),
      ("target".toList, .ofText target),
      ("message".toList, .ofText message)]).render
  | .pretty | .compact =>
    LogLevel.option.wordOf level ++ ' ' :: target ++ ": ".toList ++ message

section

variable {m : Type → Type} [Monad m] [Host m]

def openLog (file? : Option Path) : BuildM m Unit := do
  if let some path := file? then
    match ← (Host.openLog path : m (Except Text Unit)) with
    | .ok () => return
    | .error message =>
      throw (.config
        ("cannot open log file '".toList ++ path.text ++ "': ".toList ++ message))

/-- Writes a log line of the command line itself, if the filter lets it through. -/
def note (log : Log) (level : LogLevel) (message : Text) : m Unit := do
  let target := "weave::cli".toList
  if log.filter.lets target level then
    Host.writeLog log.file? (logLine log.format target level message)

/-! ## Commands -/

/-- Carries out a command; gives its output. -/
def perform (log : Log) (project : ProjectConfig) (command : Command) : BuildM m Text := do
  match command with
  | .build source page =>
    let entry ← source.entry project
    (note log .info ("building ".toList ++ entry.text) : m Unit)
    let built ← build (page.override (source.override project.build)) entry
    return built.artifacts.flatMap fun artifact => "wrote ".toList ++ artifact.path.text ++ ['\n']
  | .list source lines =>
    let current ← (Host.currentDirectory : m Path)
    let entry ← source.entry project
    (note log .info ("listing ".toList ++ entry.text) : m Unit)
    let base? := if lines.absolute then some current else none
    let shown ← listFiles (source.override project.build) ⟨lines.before, lines.after, base?⟩ entry
    return shown.flatMap fun line => line ++ ['\n']

/-! ## Diagnostics -/

/-- The place of a failure with the lines around it, if its source can be read. -/
def sourceExcerpt (failure : Failure) : m Text := do
  match failure.path?, failure.line? with
  | some path, some line =>
    match ← FileSystem.readText path with
    | .error _ => return []
    | .ok text =>
      return "  --> ".toList ++ path.text ++ ":".toList ++ Text.ofNat line ++ ['\n']
        ++ excerpt text line failure.column?
  | _, _ => return []

def diagnostic (format : LogFormat) (failure : Failure) : m Text := do
  match format with
  | .json => return failure.report.toJson.render ++ ['\n']
  | .pretty | .compact =>
    return "❌ ".toList ++ failure.message ++ ['\n'] ++ (← sourceExcerpt failure)

def fail (format : LogFormat) (failure : Failure) : m Outcome := do
  return .failed failure (← diagnostic format failure)

/-! ## Runs -/

/-- Carries out a command with the project that the general options name. -/
def execute (general : GeneralArguments) (command : Command) : m Outcome := do
  match ← (Project.load general.projectFile?).run with
  | .error failure => fail (general.logFormat?.getD .compact) failure
  | .ok project =>
    let format := general.logFormat?.getD project.logging.format
    let filter := LogFilter.make project.logging general.logLevel? general.verbosity
    let steps : BuildM m Text := do
      openLog project.logging.file?
      perform ⟨filter, format, project.logging.file?⟩ project command
    match ← steps.run with
    | .error failure => fail format failure
    | .ok output => return .finished output

def run (arguments : List Text) : m Outcome := do
  match request arguments with
  | .help => return .help
  | .version => return .version
  | .misuse => return .misuse
  | .run general command => execute general command

end

/-! ## Runs on a model of a disk -/

/-- A disk without a place for log lines. -/
instance : Host (StateM Disk) where
  currentDirectory := fun disk => (⟨Disk.textOf disk.current⟩, disk)
  openLog path := fun disk =>
    match disk.touch path.text with
    | .ok after => (.ok (), after)
    | .error error => (.error error.message, disk)
  writeLog _ _ := fun disk => ((), disk)

end PageCompiler.CommandLine
