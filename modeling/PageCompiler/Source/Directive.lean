import PageCompiler.Name.Basic
import PageCompiler.Text.Lines

/-! # Directives

A directive is a line of its own: a keyword behind optional blanks and an optional `//`, then its
argument, then an optional semicolon. `//= require` is another way to write an include. A line is a
directive line by its keyword alone; whether its argument makes sense is a second question, so that
a bad argument is an error and not script.
-/

namespace PageCompiler

/-- What a directive line asks for. -/
inductive Directive where
  | importModule (name : ModuleName)
  | exportNames (names : List Text)
  | includeFile (path : Text)
  | includeStylesheet (name : ModuleName)
deriving DecidableEq

namespace Directive

inductive Keyword where
  | importKeyword
  | exportKeyword
  | includeKeyword
  | cssKeyword
  | requireKeyword
deriving DecidableEq

namespace Keyword

/-- The keywords that a line may start with. -/
def leading : List Keyword :=
  [importKeyword, exportKeyword, includeKeyword, cssKeyword]

def word : Keyword → Text
  | importKeyword => ":import".toList
  | exportKeyword => ":export".toList
  | includeKeyword => ":include".toList
  | cssKeyword => ":css".toList
  | requireKeyword => "require".toList

end Keyword

/-- Why the argument of a directive line makes no sense. -/
inductive Fault where
  | badName (keyword : Keyword) (error : NameError)
  | includesNothing
  | exportsNothing
  | badExport (name : Text)
  | requiresNothing
deriving DecidableEq

namespace Fault

def message : Fault → Text
  | badName keyword error =>
    "invalid ".toList ++ keyword.word ++ " directive: ".toList ++ error.message
  | includesNothing => ":include directive names no file".toList
  | exportsNothing => ":export directive names nothing".toList
  | badExport name =>
    "invalid :export directive: '".toList ++ name ++ "' is not an identifier".toList
  | requiresNothing => "require directive names no file".toList

end Fault

/-! ## Recognising a directive line -/

/-- A directive line as far as its keyword shows it: where the keyword stands in the line, in bytes,
and what follows it. -/
structure Line where
  keyword : Keyword
  offset : Nat
  argument : Text
deriving DecidableEq

/-- Whether a keyword may end where `rest` begins. -/
def endsKeyword (rest : Text) : Bool :=
  rest.head?.all Text.isSpace

/-- Whether the word `require` may end where `rest` begins. -/
def endsRequire (rest : Text) : Bool :=
  rest.head?.all fun c => Text.isSpace c || c == '<'

/-- What follows the keyword `require`, if `rest` starts with it behind optional white space. -/
def requireArgument? (rest : Text) : Option Text :=
  (Keyword.requireKeyword.word.isPrefixOf? (Text.trimStart rest)).filter endsRequire

/-- The leading keyword that `body` starts with, and what follows it. -/
def leadingKeyword? (body : Text) : Option (Keyword × Text) :=
  (Keyword.leading.findSome? fun keyword =>
    (keyword.word.isPrefixOf? body).map fun rest => (keyword, rest)).filter
      fun (_, rest) => endsKeyword rest

def line? (line : Text) : Option Line :=
  let indented : Text := line.dropWhile Text.isIndent
  let uncommented := ['/', '/'].isPrefixOf? indented
  let body : Text := uncommented.getD indented
  let offset := line.byteSize - body.byteSize
  match uncommented, body with
  | some _, '=' :: rest =>
    (requireArgument? rest).map fun argument => ⟨.requireKeyword, offset, argument⟩
  | _, _ => (leadingKeyword? body).map fun (keyword, rest) => ⟨keyword, offset, rest⟩

/-! ## Reading the argument -/

/-- `text` without one semicolon at its end. -/
def withoutSemicolon (text : Text) : Text :=
  (Text.withoutSuffix? [';'] text).getD text

/-- The argument of a leading keyword. -/
def argumentText (rest : Text) : Text :=
  Text.trimEnd (withoutSemicolon (Text.trim rest))

/-- The names in the argument of an export, which commas or white space keep apart. -/
def exportedNames (argument : Text) : List Text :=
  (argument.splitOnP fun c => c == ',' || Text.isSpace c).filter fun name => !name.isEmpty

/-- The path in the argument of a `require`, in angle brackets or as a bare word. -/
def requiredPath (rest : Text) : Text :=
  withoutSemicolon <|
    match Text.trim rest with
    | '<' :: quoted => Text.trim (quoted.takeWhile (· != '>'))
    | bare => (Text.words bare).headD []

def moduleName (keyword : Keyword) (argument : Text) : Except Fault ModuleName :=
  (ModuleName.parse argument).mapError (.badName keyword)

namespace Line

def directive (line : Line) : Except Fault Directive :=
  match line.keyword with
  | .importKeyword =>
    (moduleName .importKeyword (argumentText line.argument)).map .importModule
  | .cssKeyword =>
    (moduleName .cssKeyword (argumentText line.argument)).map .includeStylesheet
  | .includeKeyword =>
    match Text.words (argumentText line.argument) with
    | path :: _ => .ok (.includeFile path)
    | [] => .error .includesNothing
  | .exportKeyword =>
    let names := exportedNames (argumentText line.argument)
    if names.isEmpty then .error .exportsNothing
    else
      match names.find? fun name => !isIdentifier name with
      | some name => .error (.badExport name)
      | none => .ok (.exportNames names)
  | .requireKeyword =>
    let path := requiredPath line.argument
    if path.isEmpty then .error .requiresNothing
    else .ok (.includeFile (path ++ ".js".toList))

end Line

end Directive

end PageCompiler
