import PageCompiler.Registry.Basic
import PageCompiler.Script.Literal

/-! # Scripts of source files

The script of a source file is its text with every segment that is not script replaced: a string
template by a literal, an import by the variables that the imported module exports, and everything
else by its line feeds alone, so that the remaining script stays on its lines. A module wraps its
script into a function that is called once and whose result is stored under the module's name.
-/

namespace PageCompiler

/-! ## Imports -/

/-- The statements that give the exports of a module to the script that imports it. -/
def importStatements (compiled : CompiledModule) : Text :=
  let qualified := compiled.name.qualified
  match compiled.exports with
  | [only] => "var ".toList ++ only ++ " = ".toList ++ qualified ++ ";".toList
  | exports =>
    Text.join [' '] (exports.map fun name =>
      "var ".toList ++ name ++ " = ".toList ++ qualified ++ ".".toList ++ name ++ ";".toList)

def indentation (line : Text) : Text :=
  line.takeWhile Text.isIndent

/-- The line feed of a line, if it has one. -/
def lineEnd (line : Text) : Text :=
  if Text.endsLine line then ['\n'] else []

/-! ## Script of a file -/

/-- What a segment of the file `path` becomes in script. -/
def segmentScript (registry : Registry) (path : Path) (segment : Segment) :
    Except BuildError Text :=
  match segment.content with
  | .script text => .ok text
  | .block .template payload => .ok (Script.stringLiteral payload)
  | .block .markup _ | .block .stylesheet _ => .ok (Text.lineFeeds segment.raw)
  | .directive (.importModule name) =>
    match registry.lookup? name with
    | some compiled =>
      .ok (indentation segment.raw ++ importStatements compiled ++ lineEnd segment.raw)
    | none => .error (.unresolvedImport name.qualified path)
  | .directive (.exportNames _) | .directive (.includeFile _) | .directive (.includeStylesheet _) =>
    .ok (lineEnd segment.raw)

def sourceScript (registry : Registry) (source : SourceFile) : Except BuildError Text :=
  (source.segments.mapM (segmentScript registry source.path)).map List.flatten

/-! ## Module definitions -/

/-- The statements that create the namespaces of a module where they do not exist yet. -/
def namespaceStatements (name : ModuleName) : Text :=
  (List.range name.qualifier.length).flatMap fun outer =>
    let space := Text.join ['.'] (name.qualifier.take (outer + 1))
    (if outer = 0 then "var ".toList else [])
      ++ space ++ " = ".toList ++ space ++ " || \x7b\x7d;\n".toList

/-- A text without the line feeds at either end. -/
def trimLineFeeds (text : Text) : Text :=
  ((text.dropWhile (· == '\n')).reverse.dropWhile (· == '\n')).reverse

/-- The body of a module as lines of a function, nothing if it is blank. -/
def definitionBody (body : Text) : Text :=
  let body := trimLineFeeds body
  if Text.isBlank body then [] else body ++ ['\n']

/-- The statement that gives back the exports of a module. -/
def returnStatement (exports : List Text) : Text :=
  match exports with
  | [only] => "return ".toList ++ only ++ ";\n".toList
  | exports =>
    "return \x7b ".toList
      ++ Text.join ", ".toList (exports.map fun name => name ++ ": ".toList ++ name)
      ++ " \x7d;\n".toList

def moduleDefinition (name : ModuleName) (exports : List Text) (body : Text) : Text :=
  namespaceStatements name
    ++ name.qualified ++ " = (function () \x7b\n".toList
    ++ definitionBody body
    ++ returnStatement exports
    ++ "\x7d());".toList

/-! ## Compiled modules -/

/-- The name that a module without export directives exports: its identifier, in the spelling of the
file name where names are compared without their case. -/
def defaultExport (matching : NameMatching) (name : ModuleName) (path : Path) : Text :=
  match matching with
  | .exact => name.identifier
  | .ignoreCase =>
    let last := (((path.fileStem?.getD []).splitOn '.').getLast?).getD []
    if isIdentifier last && Text.eqIgnoringAsciiCase last name.identifier then last
    else name.identifier

def moduleExports (matching : NameMatching) (name : ModuleName) (source : SourceFile) : List Text :=
  if source.exports.isEmpty then [defaultExport matching name source.path] else source.exports

/-- The modules that a source file imports, each one once. -/
def dependenciesOf (source : SourceFile) : List ModuleName :=
  source.imports.foldl
    (fun names (name, _) => if name ∈ names then names else names ++ [name]) []

/-- Compiles the source file of a module whose imports are registered. -/
def compileModule (registry : Registry) (name : ModuleName) (source : SourceFile) :
    Except BuildError CompiledModule := do
  let exports := moduleExports registry.matching name source
  let body ← sourceScript registry source
  return {
    name := name
    path := source.path
    exports := exports
    dependencies := dependenciesOf source
    markup := source.blocks .markup
    stylesheet := source.blocks .stylesheet
    script := moduleDefinition name exports body }

end PageCompiler
