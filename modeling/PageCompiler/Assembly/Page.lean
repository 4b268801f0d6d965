import PageCompiler.Assembly.Document
import PageCompiler.Assembly.Options
import PageCompiler.Assembly.Script
import PageCompiler.Registry.Order
import PageCompiler.Script.Injection
import PageCompiler.Script.Strip

/-! # Assembling a page

The document of an entry file: first the modules it reaches, dependencies first, then the entry
itself. Each of them comes with its attachments in front, and every attachment comes once. At the
end marked script is left out and sections are moved into script, as the options ask for.
-/

namespace PageCompiler

/-! ## Collecting fragments -/

/-- A document on the way, with the keys of the attachments that are in it. -/
structure Draft where
  document : Document
  attached : List Text

namespace Draft

def empty : Draft :=
  ⟨.empty, []⟩

/-- Adds an attachment that is not in the document yet. -/
def pushAttachment (draft : Draft) (attachment : Attachment) : Draft :=
  if draft.attached.contains attachment.path.key then draft
  else {
    document := draft.document.push attachment.kind attachment.path.text attachment.text
    attached := draft.attached ++ [attachment.path.key] }

/-- Adds what a source file contributes: its attachments, its blocks and its script. -/
def pushSource (registry : Registry) (draft : Draft) (path : Path) (origin : Text)
    (markup stylesheet : List Text) (script : Text) : Draft :=
  let draft := (registry.attachmentsOf path).foldl pushAttachment draft
  { draft with
    document :=
      ((draft.document.pushAll .markup origin markup).pushAll .stylesheet origin stylesheet).push
        .script origin script }

def pushModule (registry : Registry) (draft : Draft) (compiled : CompiledModule) : Draft :=
  draft.pushSource registry compiled.path compiled.name.qualified compiled.markup
    compiled.stylesheet compiled.script

end Draft

/-! ## Moving sections into script -/

/-- Moves the markup into one script that runs the script after it. -/
def moveMarkup (document : Document) : Document :=
  if document.markup.isEmpty then document
  else
    { document with markup := [], script := [] }.push .script "markup-to-script".toList
      (Script.Injection.markup.script document.markupText document.scriptText)

/-- Moves the stylesheets into one script that runs the script after it. -/
def moveStylesheet (document : Document) : Document :=
  if document.stylesheet.isEmpty then document
  else
    { document with stylesheet := [], script := [] }.push .script "css-to-script".toList
      (Script.Injection.stylesheet.script document.stylesheetText document.scriptText)

namespace BuildOptions

def strip (options : BuildOptions) (document : Document) : Document :=
  let document :=
    if options.stripBlocks.isEmpty then document
    else document.mapScript (Script.stripBlocks options.stripBlocks options.keepLines)
  if options.stripLines.isEmpty then document
  else document.mapScript (Script.stripLines options.stripLines options.keepLines)

def apply (options : BuildOptions) (document : Document) : Document :=
  let document := options.strip document
  let document := if options.markupToScript then moveMarkup document else document
  if options.cssToScript then moveStylesheet document else document

end BuildOptions

/-! ## Assembling -/

/-- The modules that a source file imports, in the order of its directives. -/
def importedNames (source : SourceFile) : List ModuleName :=
  source.imports.map Prod.fst

/-- The document of an entry file whose imports are registered. -/
def assemble (registry : Registry) (options : BuildOptions) (entry : SourceFile) :
    Except BuildError Document := do
  let modules ← registry.order (importedNames entry) entry.path
  let draft := modules.foldl (Draft.pushModule registry) Draft.empty
  let script ← sourceScript registry entry
  let draft := draft.pushSource registry entry.path entry.path.text (entry.blocks .markup)
    (entry.blocks .stylesheet) script
  return options.apply draft.document

end PageCompiler
