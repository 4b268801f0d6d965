import PageCompiler.Json.Value
import PageCompiler.Project.Config

/-! # Writing project files

A project as the JSON object that a project file holds, with every member written out. Reading it
back with an empty base directory gives the project again.
-/

namespace PageCompiler

open Json (Value)

namespace Project

def texts (items : List Text) : Value :=
  .array (items.map Value.ofText)

def paths (items : List Path) : Value :=
  texts (items.map Path.text)

/-- A value or `null`. -/
def orNull {α : Type} (write : α → Value) : Option α → Value
  | some value => write value
  | none => .null

def canonicalWord {α : Type} [DecidableEq α] (option : WordOption α) (value : α) : Value :=
  .ofText (option.wordOf value)

/-- An object whose member names are given as strings. -/
def object (members : List (String × Value)) : Value :=
  .ofMembers (members.map fun (name, value) => (name.toList, value))

end Project

open Project

def BuildOptions.toJson (options : BuildOptions) : Value :=
  object [
    ("stripLines", texts options.stripLines),
    ("keepLines", .bool options.keepLines),
    ("stripBlocks", texts options.stripBlocks),
    ("excludeMarkers", texts options.excludeMarkers),
    ("cssToScript", .bool options.cssToScript),
    ("markupToScript", .bool options.markupToScript)]

def ModuleBinding.toJson (binding : ModuleBinding) : Value :=
  object [("name", .ofText binding.name), ("path", .ofText binding.path.text)]

def BuildConfig.jsonMembers (config : BuildConfig) : List (String × Value) := [
  ("moduleSearchPaths", paths config.moduleSearchPaths),
  ("outputMode", canonicalWord OutputMode.option config.outputMode),
  ("outputPath", .ofText config.outputPath.text),
  ("scriptExtension", .ofText config.scriptExtension),
  ("nameMatching", canonicalWord NameMatching.option config.nameMatching),
  ("namespaceLayout", canonicalWord NamespaceLayout.option config.namespaceLayout),
  ("title", orNull Value.ofText config.title?),
  ("modules", .array (config.modules.map ModuleBinding.toJson)),
  ("options", config.options.toJson)]

def LogTargets.toJson (targets : LogTargets) : Value :=
  object (Phase.all.map fun phase =>
    (String.ofList phase.word, orNull (canonicalWord LogLevel.option) (targets.levelFor phase)))

def LoggingConfig.toJson (logging : LoggingConfig) : Value :=
  object [
    ("level", canonicalWord LogLevel.option logging.level),
    ("format", canonicalWord LogFormat.option logging.format),
    ("file", orNull (fun path => .ofText path.text) logging.file?),
    ("targets", logging.targets.toJson)]

def ProjectConfig.toJson (project : ProjectConfig) : Value :=
  object (
    [("entry", orNull (fun path => .ofText path.text) project.entry?)]
      ++ project.build.jsonMembers
      ++ [("logging", project.logging.toJson)])

end PageCompiler
