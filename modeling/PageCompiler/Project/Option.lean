import PageCompiler.Build

/-! # Option words

The words for the choices that a user can make. Every value has one canonical word; on the command
line some values have further words, and the case of letters does not matter there.
-/

namespace PageCompiler

/-! ## Logging choices -/

inductive LogLevel where
  | silent
  | error
  | warn
  | info
  | debug
  | trace
deriving DecidableEq, Inhabited

inductive LogFormat where
  | pretty
  | compact
  | json
deriving DecidableEq, Inhabited

/-! ## Reading words -/

/-- A word that names no value of an option. -/
structure OptionError where
  option : Text
  word : Text
deriving DecidableEq

def OptionError.message (error : OptionError) : Text :=
  "invalid ".toList ++ error.option ++ " '".toList ++ error.word ++ "'".toList

/-- An option: what it is called in messages, and the words for its values. -/
structure WordOption (α : Type) where
  title : Text
  words : List (Text × α)
  /-- Further words that the command line accepts. -/
  aliases : List (Text × α) := []

namespace WordOption

variable {α : Type}

/-- The value that a word names on the command line, in any letter case. -/
def parse (option : WordOption α) (word : Text) : Except OptionError α :=
  match (option.words ++ option.aliases).lookup (Text.lowercase word) with
  | some value => .ok value
  | none => .error ⟨option.title, word⟩

/-- The canonical word of a value. -/
def wordOf [DecidableEq α] (option : WordOption α) (value : α) : Text :=
  ((option.words.find? fun entry => entry.2 = value).map Prod.fst).getD []

end WordOption

/-! ## The options -/

def OutputMode.option : WordOption OutputMode where
  title := "output mode".toList
  words := [("single-file".toList, singleFile), ("split".toList, split)]
  aliases := [("single".toList, singleFile), ("html".toList, singleFile)]

def NameMatching.option : WordOption NameMatching where
  title := "name matching".toList
  words := [("exact".toList, exact), ("ignore-case".toList, ignoreCase)]

def NamespaceLayout.option : WordOption NamespaceLayout where
  title := "namespace layout".toList
  words := [("nested".toList, nested), ("flat".toList, flat)]

def LogLevel.option : WordOption LogLevel where
  title := "log level".toList
  words := [("silent".toList, silent), ("error".toList, error), ("warn".toList, warn),
    ("info".toList, info), ("debug".toList, debug), ("trace".toList, trace)]

def LogFormat.option : WordOption LogFormat where
  title := "log format".toList
  words := [("pretty".toList, pretty), ("compact".toList, compact), ("json".toList, json)]

end PageCompiler
