import PageCompiler.Path.Basic
import PageCompiler.Source.Block
import PageCompiler.Source.Directive
import PageCompiler.Source.Position

/-! # Segments

A scanned source file is its text cut into segments: passages of script, blocks and directive lines.
Every segment keeps the text it was cut from, so that the segments together are the file.
-/

namespace PageCompiler

/-- What a segment says. -/
inductive Content where
  | script (text : Text)
  | block (kind : BlockKind) (payload : Text)
  | directive (directive : Directive)
deriving DecidableEq

namespace Content

def label : Content → Text
  | script _ => "script".toList
  | block .markup _ => "markup".toList
  | block .stylesheet _ => "stylesheet".toList
  | block .template _ => "js.string".toList
  | directive (.importModule _) => "import".toList
  | directive (.exportNames _) => "export".toList
  | directive (.includeFile _) => "include".toList
  | directive (.includeStylesheet _) => "css".toList

end Content

structure Segment where
  content : Content
  /-- The passage of the source text that the segment covers. -/
  raw : Text
  /-- The byte offset at which the passage starts. -/
  start : Nat
deriving DecidableEq

namespace Segment

def stop (segment : Segment) : Nat :=
  segment.start + segment.raw.byteSize

end Segment

structure SourceFile where
  path : Path
  text : Text
  segments : List Segment

namespace SourceFile

/-- The line, counted from one, that a segment starts on. -/
def lineOf (source : SourceFile) (segment : Segment) : Nat :=
  (Position.locate source.text segment.start).line

/-- The imported modules in the order of their directives, each with its segment. -/
def imports (source : SourceFile) : List (ModuleName × Segment) :=
  source.segments.filterMap fun segment =>
    match segment.content with
    | .directive (.importModule name) => some (name, segment)
    | _ => none

/-- The segments that pull in other files as they are. -/
def attachments (source : SourceFile) : List Segment :=
  source.segments.filter fun segment =>
    match segment.content with
    | .directive (.includeFile _) | .directive (.includeStylesheet _) => true
    | _ => false

/-- The exported names, each one at its first mention. -/
def exports (source : SourceFile) : List Text :=
  source.segments.foldl
    (fun names segment =>
      match segment.content with
      | .directive (.exportNames more) =>
        more.foldl (fun names name => if names.contains name then names else names ++ [name]) names
      | _ => names)
    []

def blocks (source : SourceFile) (kind : BlockKind) : List Text :=
  source.segments.filterMap fun segment =>
    match segment.content with
    | .block other payload => if other = kind then some payload else none
    | _ => none

end SourceFile

end PageCompiler
