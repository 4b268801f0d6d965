import PageCompiler.Error.Build
import Std.Data.TreeMap

/-! # The registry of a build

The registry knows every module that was compiled, by the key of its name, and every attachment that
was read, by its path. For each source file it also keeps which attachments that file pulls in, in
the order of its directives. An entry is never replaced: a second module of one name is the same
file or an error, and a second attachment with one path is the first one.
-/

namespace PageCompiler

/-! ## Entries -/

/-- A part of the page. -/
inductive Section where
  | script
  | stylesheet
  | markup
deriving DecidableEq

namespace Section

def word : Section → Text
  | script => "script".toList
  | stylesheet => "stylesheet".toList
  | markup => "markup".toList

/-- The section that an included file belongs to, by its extension. -/
def ofPath (path : Path) : Section :=
  if path.extensionKey = "css".toList then stylesheet
  else if path.extensionKey = "html".toList ∨ path.extensionKey = "htm".toList then markup
  else script

end Section

structure CompiledModule where
  name : ModuleName
  path : Path
  exports : List Text
  /-- The imported modules in the order of their directives, each one once. -/
  dependencies : List ModuleName
  markup : List Text
  stylesheet : List Text
  /-- The script that defines the module under its name. -/
  script : Text
deriving DecidableEq

/-- A file that goes into the page as it is. -/
structure Attachment where
  path : Path
  kind : Section
  text : Text
deriving DecidableEq

structure Registry where
  matching : NameMatching
  /-- The modules by the keys of their names. -/
  modules : Std.TreeMap Text CompiledModule compare
  /-- The attachments by the keys of their paths. -/
  attachments : Std.TreeMap Text Attachment compare
  /-- The attachments that a source file pulls in, by the key of that file's path. -/
  links : Std.TreeMap Text (List Path) compare

namespace Registry

def empty (matching : NameMatching) : Registry :=
  ⟨matching, ∅, ∅, ∅⟩

/-! ## Modules -/

def keyOf (registry : Registry) (name : ModuleName) : Text :=
  name.key registry.matching

def lookup? (registry : Registry) (name : ModuleName) : Option CompiledModule :=
  registry.modules[registry.keyOf name]?

def contains (registry : Registry) (name : ModuleName) : Bool :=
  registry.modules.contains (registry.keyOf name)

def size (registry : Registry) : Nat :=
  registry.modules.size

/-- The modules in the order of their keys. -/
def toList (registry : Registry) : List CompiledModule :=
  registry.modules.values

/-- The module registered for `name`, if there is one; it must be the file `path`. -/
def check (registry : Registry) (name : ModuleName) (path : Path) :
    Except BuildError (Option CompiledModule) :=
  match registry.lookup? name with
  | none => .ok none
  | some existing =>
    if existing.path.same path then .ok (some existing)
    else .error (.duplicateModule name.qualified existing.path path)

/-- Registers a module, unless its file already is; gives the registered module. -/
def register (registry : Registry) (compiled : CompiledModule) :
    Except BuildError (CompiledModule × Registry) :=
  match registry.check compiled.name compiled.path with
  | .error error => .error error
  | .ok (some existing) => .ok (existing, registry)
  | .ok none =>
    .ok (compiled, { registry with
      modules := registry.modules.insert (registry.keyOf compiled.name) compiled })

/-! ## Attachments -/

def attachment? (registry : Registry) (path : Path) : Option Attachment :=
  registry.attachments[path.key]?

def linksOf (registry : Registry) (source : Path) : List Path :=
  registry.links[source.key]?.getD []

/-- Notes that `source` pulls in an attachment that has been read; none if it has not. -/
def link? (registry : Registry) (source path : Path) : Option Registry :=
  if registry.attachments.contains path.key then
    let linked := registry.linksOf source
    if linked.any path.same then some registry
    else some { registry with links := registry.links.insert source.key (linked ++ [path]) }
  else none

/-- Stores an attachment, unless its path has one, and notes that `source` pulls it in. -/
def attach (registry : Registry) (source : Path) (attachment : Attachment) : Registry :=
  let stored := { registry with
    attachments := registry.attachments.insertIfNew attachment.path.key attachment }
  (stored.link? source attachment.path).getD stored

/-- The attachments that a source file pulls in, in the order of its directives. -/
def attachmentsOf (registry : Registry) (source : Path) : List Attachment :=
  (registry.linksOf source).filterMap registry.attachment?

end Registry

end PageCompiler
