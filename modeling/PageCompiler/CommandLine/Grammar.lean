import PageCompiler.Text.Basic

/-! # The grammar of the command line

A command line is a command word with options around it. A long option is `--name`, `--name=value`
or `--name value`; short options are single letters behind one dash, and the last of them can take
the rest of its argument or the next argument as its value. A next argument is a value only if it
does not look like an option. Behind the command, `--` makes everything after it plain words.

`readItems?` cuts a command line into its items; what the items mean is not looked at here.
-/

namespace PageCompiler.CommandLine

/-! ## Options -/

inductive OptionName where
  | projectFile
  | logLevel
  | logFormat
  | verbose
  | searchPath
  | moduleBinding
  | nameMatching
  | namespaceLayout
  | scriptExtension
  | output
  | mode
  | stripLines
  | keepLines
  | stripBlocks
  | excludeFiles
  | cssToScript
  | markupToScript
  | title
  | linePrefix
  | lineSuffix
  | absolute
  | help
  | version
deriving DecidableEq

structure OptionForm where
  name : OptionName
  long : Text
  short? : Option Char
  takesValue : Bool

inductive CommandName where
  | build
  | list
deriving DecidableEq

namespace CommandName

def ofWord? (word : Text) : Option CommandName :=
  if word = "build".toList then some build
  else if word = "list".toList then some list
  else none

end CommandName

/-- An option that takes a value. -/
def valued (name : OptionName) (long : String) (short? : Option Char := none) : OptionForm :=
  ⟨name, long.toList, short?, true⟩

def switch (name : OptionName) (long : String) (short? : Option Char := none) : OptionForm :=
  ⟨name, long.toList, short?, false⟩

/-- The options that can stand anywhere. -/
def generalForms : List OptionForm := [
  valued .projectFile "config",
  valued .logLevel "log-level",
  valued .logFormat "log-format",
  switch .verbose "verbose" (some 'v'),
  switch .help "help" (some 'h')]

/-- The options of every command. -/
def sourceForms : List OptionForm := [
  valued .searchPath "search-path" (some 's'),
  valued .moduleBinding "module",
  valued .nameMatching "name-matching",
  valued .namespaceLayout "namespace-layout",
  valued .scriptExtension "script-extension"]

def buildForms : List OptionForm := [
  valued .output "out" (some 'o'),
  valued .mode "mode",
  valued .stripLines "strip-lines",
  switch .keepLines "keep-lines",
  valued .stripBlocks "strip-blocks",
  valued .excludeFiles "exclude-files",
  switch .cssToScript "css-to-script",
  switch .markupToScript "markup-to-script",
  valued .title "title"]

def listForms : List OptionForm := [
  valued .linePrefix "prefix",
  valued .lineSuffix "suffix",
  switch .absolute "absolute"]

/-- The options that can stand in front of the command, or behind it. -/
def formsAt : Option CommandName → List OptionForm
  | none => switch .version "version" (some 'V') :: generalForms
  | some .build => generalForms ++ sourceForms ++ buildForms
  | some .list => generalForms ++ sourceForms ++ listForms

/-! ## Items -/

/-- An item of a command line. The value of an option that takes none is empty. -/
inductive Item where
  | option (name : OptionName) (value : Text)
  | command (name : CommandName)
  | word (text : Text)
deriving DecidableEq

/-- The options in one argument, and the option that waits for its value in the next one. -/
abbrev Found := List Item × Option OptionName

/-- Whether an argument is read as options; a dash alone is a word. -/
def looksLikeOption (argument : Text) : Bool :=
  argument.head? = some '-' && argument ≠ ['-']

/-- Reads what follows the two dashes of a long option. -/
def longOption? (forms : List OptionForm) (body : Text) : Option Found := do
  let (long, value?) :=
    match Text.cut? ['='] body with
    | some (long, value) => (long, some value)
    | none => (body, none)
  let form ← forms.find? fun form => form.long = long
  match form.takesValue, value? with
  | true, some value => return ([.option form.name value], none)
  | true, none => return ([], some form.name)
  | false, none => return ([.option form.name []], none)
  | false, some _ => none

/-- Reads what follows the dash of short options. -/
def shortOptions? (forms : List OptionForm) : Text → Option Found
  | [] => some ([], none)
  | letter :: rest => do
    let form ← forms.find? fun form => form.short? = some letter
    if form.takesValue then
      match rest with
      | [] => return ([], some form.name)
      | '=' :: value => return ([.option form.name value], none)
      | value => return ([.option form.name value], none)
    else
      let (items, waiting?) ← shortOptions? forms rest
      return (.option form.name [] :: items, waiting?)

def options? (forms : List OptionForm) (argument : Text) : Option Found :=
  match argument with
  | '-' :: '-' :: body => longOption? forms body
  | _ => shortOptions? forms (argument.drop 1)

def asksForHelp : Item → Bool
  | .option .help _ | .option .version _ => true
  | _ => false

/-- Reads the command `help`, which can name a command. -/
def helpItems? : List Text → Option (List Item)
  | [] => some [.option .help []]
  | [word] =>
    if word = "help".toList ∨ (CommandName.ofWord? word).isSome then some [.option .help []]
    else none
  | _ => none

/-- The items of a command line. `command?` is the command if it has been read, `waiting?` the
option whose value is still to come. -/
def readItems? (command? : Option CommandName) (waiting? : Option OptionName) :
    List Text → Option (List Item)
  | [] => if waiting?.isSome then none else some []
  | argument :: others =>
    match waiting? with
    | some name =>
      if looksLikeOption argument then none
      else (readItems? command? none others).map (.option name argument :: ·)
    | none =>
      if looksLikeOption argument then
        if argument = ['-', '-'] then
          if command?.isSome then some (others.map .word)
          else if others.isEmpty then some []
          else none
        else
          match options? (formsAt command?) argument with
          | none => none
          | some (items, waiting?) =>
            if items.any asksForHelp then some items
            else (readItems? command? waiting? others).map (items ++ ·)
      else if command?.isSome then
        (readItems? command? none others).map (.word argument :: ·)
      else if argument = "help".toList then helpItems? others
      else
        match CommandName.ofWord? argument with
        | some command =>
          (readItems? (some command) none others).map (.command command :: ·)
        | none => none

end PageCompiler.CommandLine
