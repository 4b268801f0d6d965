import PageCompiler.CommandLine.Grammar
import PageCompiler.Project.LogFilter
import PageCompiler.Text.Space

/-! # Requests

What a command line asks for. An option that has one value or none may come once; an option with
several values may come any number of times. The general options can stand on either side of the
command; those behind it win.
-/

namespace PageCompiler.CommandLine

/-! ## Arguments -/

structure GeneralArguments where
  projectFile? : Option Path := none
  logLevel? : Option LogLevel := none
  logFormat? : Option LogFormat := none
  /-- How many times more log lines were asked for. -/
  verbosity : Nat := 0
deriving DecidableEq

structure SourceArguments where
  entry? : Option Path := none
  searchPaths : List Path := []
  modules : List ModuleBinding := []
  nameMatching? : Option NameMatching := none
  namespaceLayout? : Option NamespaceLayout := none
  scriptExtension? : Option Text := none
deriving DecidableEq

structure PageArguments where
  output? : Option Path := none
  mode? : Option OutputMode := none
  title? : Option Text := none
  options : BuildOptions := {}
deriving DecidableEq

structure LineArguments where
  before : Text := []
  after : Text := []
  absolute : Bool := false
deriving DecidableEq

inductive Command where
  | build (source : SourceArguments) (page : PageArguments)
  | list (source : SourceArguments) (lines : LineArguments)
deriving DecidableEq

inductive Request where
  | run (general : GeneralArguments) (command : Command)
  | help
  | version
  /-- A command line that makes no sense. -/
  | misuse
deriving DecidableEq

/-! ## Values of options -/

def valuesOf (items : List Item) (name : OptionName) : List Text :=
  items.filterMap fun item =>
    match item with
    | .option other value => if other = name then some value else none
    | _ => none

/-- The values of an option that may come any number of times. -/
def many? {α : Type} (items : List Item) (name : OptionName) (value? : Text → Option α) :
    Option (List α) :=
  (valuesOf items name).mapM value?

/-- The value of an option that may come once. -/
def atMostOne? {α : Type} (items : List Item) (name : OptionName) (value? : Text → Option α) :
    Option (Option α) :=
  match valuesOf items name with
  | [] => some none
  | [value] => (value? value).map some
  | _ => none

def switched? (items : List Item) (name : OptionName) : Option Bool :=
  (atMostOne? items name some).map Option.isSome

/-- A path, which is not empty. -/
def path? (value : Text) : Option Path :=
  if value.isEmpty then none else some ⟨value⟩

def choice? {α : Type} (option : WordOption α) (value : Text) : Option α :=
  (option.parse value).toOption

/-- A module name and a path around an equals sign, neither of them blank. -/
def moduleBinding? (value : Text) : Option ModuleBinding :=
  match Text.cut? ['='] value with
  | some (name, path) =>
    if Text.isBlank name || Text.isBlank path then none
    else some ⟨Text.trim name, ⟨Text.trim path⟩⟩
  | none => none

def entry? (items : List Item) : Option (Option Path) :=
  let words := items.filterMap fun item =>
    match item with
    | .word text => some text
    | _ => none
  match words with
  | [] => some none
  | [word] => (path? word).map some
  | _ => none

/-! ## Reading requests -/

def generalArguments? (items : List Item) : Option GeneralArguments := do
  return {
    projectFile? := ← atMostOne? items .projectFile path?
    logLevel? := ← atMostOne? items .logLevel (choice? LogLevel.option)
    logFormat? := ← atMostOne? items .logFormat (choice? LogFormat.option)
    verbosity := (valuesOf items .verbose).length }

/-- What the general options in front of the command say, where those behind it say nothing. -/
def GeneralArguments.orElse (behind front : GeneralArguments) : GeneralArguments where
  projectFile? := behind.projectFile?.or front.projectFile?
  logLevel? := behind.logLevel?.or front.logLevel?
  logFormat? := behind.logFormat?.or front.logFormat?
  verbosity := if behind.verbosity = 0 then front.verbosity else behind.verbosity

def sourceArguments? (items : List Item) : Option SourceArguments := do
  return {
    entry? := ← entry? items
    searchPaths := ← many? items .searchPath path?
    modules := ← many? items .moduleBinding moduleBinding?
    nameMatching? := ← atMostOne? items .nameMatching (choice? NameMatching.option)
    namespaceLayout? := ← atMostOne? items .namespaceLayout (choice? NamespaceLayout.option)
    scriptExtension? := ← atMostOne? items .scriptExtension some }

def pageArguments? (items : List Item) : Option PageArguments := do
  return {
    output? := ← atMostOne? items .output path?
    mode? := ← atMostOne? items .mode (choice? OutputMode.option)
    title? := ← atMostOne? items .title some
    options := {
      stripLines := valuesOf items .stripLines
      keepLines := ← switched? items .keepLines
      stripBlocks := valuesOf items .stripBlocks
      excludeMarkers := valuesOf items .excludeFiles
      cssToScript := ← switched? items .cssToScript
      markupToScript := ← switched? items .markupToScript } }

def lineArguments? (items : List Item) : Option LineArguments := do
  return {
    before := (← atMostOne? items .linePrefix some).getD []
    after := (← atMostOne? items .lineSuffix some).getD []
    absolute := ← switched? items .absolute }

def command? (name : CommandName) (items : List Item) : Option Command := do
  let source ← sourceArguments? items
  match name with
  | .build => return .build source (← pageArguments? items)
  | .list => return .list source (← lineArguments? items)

/-- The items in front of the command, the command, and the items behind it. -/
def splitAtCommand? : List Item → Option (List Item × CommandName × List Item)
  | [] => none
  | .command name :: others => some ([], name, others)
  | item :: others => (splitAtCommand? others).map fun (front, found) => (item :: front, found)

/-- What a command line that does not ask for help asks for. -/
def invocation? (items : List Item) : Option Request := do
  let (front, name, behind) ← splitAtCommand? items
  let general := (← generalArguments? behind).orElse (← generalArguments? front)
  return .run general (← command? name behind)

def request (arguments : List Text) : Request :=
  match readItems? none none arguments with
  | none => .misuse
  | some items =>
    if items.any fun item => item = .option .version [] then .version
    else if items.any fun item => item = .option .help [] then .help
    else (invocation? items).getD .misuse

end PageCompiler.CommandLine
