import PageCompiler.Text.LetterCase

/-! # Paths

A path keeps the text it was written with, because that text is what a report prints. What a path
means are its components: repeated and trailing slashes say nothing, and neither does a `.` that is
not in front of a relative path. Two paths name the same place when their components agree; `key` is
one text for all such paths.
-/

namespace PageCompiler

/-- A file path as written, with `/` between its parts. -/
structure Path where
  text : Text
deriving DecidableEq, Inhabited

namespace Path

/-! ## Components -/

inductive Component where
  /-- The slash in front of an absolute path. -/
  | root
  /-- A `.` in front of a relative path. -/
  | current
  /-- A `..` anywhere. -/
  | parent
  | normal (name : Text)
deriving DecidableEq

namespace Component

def text : Component → Text
  | root => ['/']
  | current => ['.']
  | parent => ['.', '.']
  | normal name => name

/-- What a piece between two slashes stands for; an empty piece and a `.` stand for nothing. -/
def ofPiece? (piece : Text) : Option Component :=
  if piece = [] ∨ piece = ['.'] then none
  else if piece = ['.', '.'] then some parent
  else some (normal piece)

end Component

def ofString (text : String) : Path :=
  ⟨text.toList⟩

def isAbsolute (path : Path) : Bool :=
  path.text.head? == some '/'

def components (path : Path) : List Component :=
  if path.isAbsolute then
    .root :: (path.text.splitOn '/').filterMap Component.ofPiece?
  else
    match path.text.splitOn '/' with
    | first :: others =>
      (if first = ['.'] then [.current] else (Component.ofPiece? first).toList)
        ++ others.filterMap Component.ofPiece?
    | [] => []

/-- The shortest way to write down `components`. -/
def ofComponents : List Component → Path
  | .root :: others => ⟨'/' :: Text.join ['/'] (others.map Component.text)⟩
  | others => ⟨Text.join ['/'] (others.map Component.text)⟩

/-- One text for all paths with the same components. -/
def key (path : Path) : Text :=
  (ofComponents path.components).text

def same (a b : Path) : Bool :=
  a.components == b.components

/-- A text without the slashes at its end; one slash alone stays. -/
def dropEndSlashes (text : Text) : Text :=
  match text.reverse.dropWhile (· == '/') with
  | [] => text.take 1
  | kept => kept.reverse

/-! ## Taking paths apart -/

/-- Whether a piece stands for no component. -/
def isIdle (piece : Text) : Bool :=
  (Component.ofPiece? piece).isNone

/-- `pieces` without the last one that counts and without the idle ones around it. -/
def dropLastPiece? (pieces : List Text) : Option (List Text) :=
  match pieces.reverse.dropWhile isIdle with
  | _ :: others => some (others.dropWhile isIdle).reverse
  | [] => none

/-- The path without its last component; none if it has no component or is the root. -/
def parent? (path : Path) : Option Path :=
  match path.text with
  | '/' :: rest =>
    (dropLastPiece? (rest.splitOn '/')).map fun pieces => ⟨'/' :: Text.join ['/'] pieces⟩
  | text =>
    match text.splitOn '/' with
    | first :: others =>
      match dropLastPiece? others with
      | some pieces => some ⟨Text.join ['/'] (first :: pieces)⟩
      | none => if first = [] then none else some ⟨[]⟩
    | [] => none

/-- The last component, if it is a name. -/
def fileName? (path : Path) : Option Text :=
  match path.components.getLast? with
  | some (.normal name) => some name
  | _ => none

/-- A file name cut at its last dot; a dot in front of the name does not count. -/
def splitExtension (name : Text) : Text × Option Text :=
  match (name.splitOn '.').reverse with
  | extension :: stem@(_ :: _) =>
    let stem := Text.join ['.'] stem.reverse
    if stem = [] then (name, none) else (stem, some extension)
  | _ => (name, none)

def fileStem? (path : Path) : Option Text :=
  path.fileName?.map fun name => (splitExtension name).1

def extension? (path : Path) : Option Text :=
  path.fileName?.bind fun name => (splitExtension name).2

/-- The extension in small letters, empty if there is none. -/
def extensionKey (path : Path) : Text :=
  Text.asciiLowercase (path.extension?.getD [])

/-! ## Putting paths together -/

/-- `path` seen from `base`; an absolute path stays what it is. -/
def join (base path : Path) : Path :=
  if path.isAbsolute then path
  else if base.text.isEmpty || base.text.getLast? == some '/' then ⟨base.text ++ path.text⟩
  else ⟨base.text ++ '/' :: path.text⟩

/-- The path with another file name; a path without a file name gets one. -/
def withFileName (path : Path) (name : Text) : Path :=
  match path.fileName?, path.parent? with
  | some _, some parent => parent.join ⟨name⟩
  | _, _ => path.join ⟨name⟩

/-- The file beside `path` whose name is longer by `suffix`. -/
def sibling (path : Path) (suffix : Text) : Path :=
  path.withFileName (path.fileName?.getD [] ++ suffix)

/-- The directory that `path` lies in, `.` if the path does not say. -/
def directory (path : Path) : Path :=
  match path.parent? with
  | some parent => if parent.text = [] then ⟨['.']⟩ else parent
  | none => ⟨['.']⟩

end Path

end PageCompiler
