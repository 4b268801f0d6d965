import PageCompiler.Json.Reader
import PageCompiler.Project.Config

/-! # Reading project files

A project file is a JSON object. A member that is not known is passed over, a known one may come
once, and one that is missing has its default. A record can also be written as an array of its
members in order, and a word as an object with the word as its only name.

Everything but the entry and the logging configuration is kept before it is looked at, so it has to
be sound and must not nest too deep, even where its name is not known.
-/

namespace PageCompiler.Project

open Json (Value)

/-- Reads a value from a document; none if the document is none of its kind. -/
abbrev Decoder (α : Type) := Value → Option α

/-- The members of a record. -/
abbrev Members := List (Text × Value)

/-! ## Simple values -/

def text : Decoder Text
  | .string text? => text?
  | _ => none

def path : Decoder Path
  | .string text? => text?.map Path.mk
  | _ => none

def bool : Decoder Bool
  | .bool value => some value
  | _ => none

def listOf {α : Type} (item : Decoder α) : Decoder (List α)
  | .array items => items.mapM item
  | _ => none

/-- A value or nothing, written `null`. -/
def optional {α : Type} (value : Decoder α) : Decoder (Option α)
  | .null => some none
  | document => (value document).map some

/-- Whether a document can stand behind a word that is written as an object. `kept` says whether the
document was kept before it was looked at; then an empty object is as good as `null`. -/
def isNothing (kept : Bool) : Value → Bool
  | .null => true
  | .object [] => kept
  | _ => false

/-- A canonical word of an option. -/
def word {α : Type} (option : WordOption α) (kept : Bool) : Decoder α
  | .string (some word) => option.words.lookup word
  | .object [(some word, content)] =>
    if isNothing kept content then option.words.lookup word else none
  | _ => none

/-! ## Records -/

def members : Decoder Members
  | .object members => members.mapM fun (name?, content) => name?.map fun name => (name, content)
  | _ => none

/-- The members of a record with the given names, which an array gives by their order. -/
def record (names : List Text) : Decoder Members
  | .array items => if items.length ≤ names.length then some (names.zip items) else none
  | document => members document

/-- The contents of the members with a name. -/
def contents (members : Members) (name : Text) : List Value :=
  (members.filter fun member => member.1 = name).map Prod.snd

/-- A member that has to be there. -/
def required {α : Type} (members : Members) (name : String) (value : Decoder α) : Option α :=
  match contents members name.toList with
  | [content] => value content
  | _ => none

/-- A member that has a default. -/
def member {α : Type} (members : Members) (name : String) (value : Decoder α) (default : α) :
    Option α :=
  match contents members name.toList with
  | [] => some default
  | [content] => value content
  | _ => none

/-! ## Build configuration -/

def options : Decoder BuildOptions := fun document => do
  let members ← record
    ["stripLines".toList, "keepLines".toList, "stripBlocks".toList, "excludeMarkers".toList,
      "cssToScript".toList, "markupToScript".toList] document
  return {
    stripLines := ← member members "stripLines" (listOf text) []
    keepLines := ← member members "keepLines" bool false
    stripBlocks := ← member members "stripBlocks" (listOf text) []
    excludeMarkers := ← member members "excludeMarkers" (listOf text) []
    cssToScript := ← member members "cssToScript" bool false
    markupToScript := ← member members "markupToScript" bool false }

def binding : Decoder ModuleBinding := fun document => do
  let members ← record ["name".toList, "path".toList] document
  return { name := ← required members "name" text, path := ← required members "path" path }

/-- The build configuration among the members of a project file. -/
def buildConfig (members : Members) : Option BuildConfig := do
  let default : BuildConfig := {}
  return {
    moduleSearchPaths := ← member members "moduleSearchPaths" (listOf path) []
    outputMode := ← member members "outputMode" (word OutputMode.option true) default.outputMode
    outputPath := ← member members "outputPath" path default.outputPath
    scriptExtension := ← member members "scriptExtension" text default.scriptExtension
    nameMatching :=
      ← member members "nameMatching" (word NameMatching.option true) default.nameMatching
    namespaceLayout :=
      ← member members "namespaceLayout" (word NamespaceLayout.option true) default.namespaceLayout
    title? := ← member members "title" (optional text) none
    modules := ← member members "modules" (listOf binding) []
    options := ← member members "options" options {} }

/-! ## Logging configuration -/

def level : Decoder LogLevel :=
  word LogLevel.option false

def targets : Decoder LogTargets := fun document => do
  let members ← record
    ["scan".toList, "resolve".toList, "assemble".toList, "emit".toList] document
  return {
    scan := ← member members "scan" (optional level) none
    resolve := ← member members "resolve" (optional level) none
    assemble := ← member members "assemble" (optional level) none
    emit := ← member members "emit" (optional level) none }

def logging : Decoder LoggingConfig := fun document => do
  let members ← record
    ["level".toList, "format".toList, "file".toList, "targets".toList] document
  let default : LoggingConfig := {}
  return {
    level := ← member members "level" level default.level
    format := ← member members "format" (word LogFormat.option false) default.format
    file? := ← member members "file" (optional path) none
    targets := ← member members "targets" targets {} }

/-! ## Project files -/

/-- How deep a kept member of a project file may nest. -/
def depthLimit : Nat := 126

def canBeKept (member : Text × Value) : Bool :=
  member.1 = "entry".toList || member.1 = "logging".toList
    || (member.2.isSound && member.2.depth ≤ depthLimit)

def project : Decoder ProjectConfig := fun document => do
  let members ← members document
  guard (members.all canBeKept)
  return {
    entry? := ← member members "entry" (optional path) none
    build := ← buildConfig members
    logging := ← member members "logging" logging {} }

/-- Reads the text of a project file in the directory `base`. -/
def read? (text : Text) (base : Path) : Option ProjectConfig := do
  return (← project (← Json.parse? text)).rebase base

end PageCompiler.Project
