import PageCompiler.Assembly.Document
import PageCompiler.Markup.Escape

/-! # Artifacts

What is written for a document: one page that holds everything, or a page, a stylesheet and a script
that refer to each other by name. An `EmitPlan` says where they go and what the page is called.
-/

namespace PageCompiler

/-- A file to be written. -/
structure Artifact where
  path : Path
  contentType : Text
  content : Text
deriving DecidableEq

/-- How a document is divided into files. -/
inductive OutputMode where
  | singleFile
  /-- A page, a stylesheet and a script. -/
  | split
deriving DecidableEq, Inhabited

/-! ## Plans -/

structure EmitPlan where
  /-- A directory, or the page itself if the extension says so. -/
  output : Path
  /-- The name of the files in a directory, without their extensions. -/
  stem : Text
  title : Text
deriving DecidableEq

def isPagePath (path : Path) : Bool :=
  path.extensionKey = "html".toList || path.extensionKey = "htm".toList

namespace EmitPlan

/-- The plan for an entry file, whose name is also the title if none is given. -/
def forEntry (entry output : Path) (title? : Option Text) : EmitPlan :=
  let stem := entry.fileStem?.getD "index".toList
  ⟨output, stem, title?.getD stem⟩

def layout (plan : EmitPlan) : Path × Text :=
  if isPagePath plan.output then
    (plan.output.parent?.getD ⟨[]⟩, plan.output.fileStem?.getD plan.stem)
  else (plan.output, plan.stem)

def pathFor (plan : EmitPlan) (extension : Text) : Path :=
  plan.layout.1.join ⟨plan.layout.2 ++ '.' :: extension⟩

end EmitPlan

/-! ## Pages -/

/-- A page up to the content of its head. -/
def pageHead (title : Text) : Text :=
  "<!DOCTYPE html>\n<html>\n<head>\n<meta charset=\"utf-8\">\n<title>".toList
    ++ Markup.escapeText title ++ "</title>\n".toList

/-- A text on lines of its own, nothing if it is empty. -/
def paragraph (text : Text) : Text :=
  if text.isEmpty then [] else text ++ ['\n']

/-- An element around a text that cannot close it, nothing if the text is empty. -/
def element (tag text : Text) : Text :=
  if text.isEmpty then []
  else
    "<".toList ++ tag ++ ">\n".toList ++ Markup.escapeClosingTag tag text
      ++ "\n</".toList ++ tag ++ ">\n".toList

/-- The page that holds a whole document. -/
def wholePage (title : Text) (document : Document) : Text :=
  pageHead title
    ++ element "style".toList document.stylesheetText
    ++ "</head>\n<body>\n".toList
    ++ paragraph document.markupText
    ++ element "script".toList document.scriptText
    ++ "</body>\n</html>\n".toList

/-- The page that refers to a stylesheet and a script beside it. -/
def linkedPage (title stem : Text) (document : Document) : Text :=
  pageHead title
    ++ "<link rel=\"stylesheet\" href=\"".toList ++ Markup.escapeText (stem ++ ".css".toList)
    ++ "\">\n".toList
    ++ "</head>\n<body>\n".toList
    ++ paragraph document.markupText
    ++ "<script src=\"".toList ++ Markup.escapeText (stem ++ ".js".toList)
    ++ "\"></script>\n".toList
    ++ "</body>\n</html>\n".toList

def serialize (mode : OutputMode) (plan : EmitPlan) (document : Document) : List Artifact :=
  match mode with
  | .singleFile =>
    [⟨plan.pathFor "html".toList, "text/html".toList, wholePage plan.title document⟩]
  | .split => [
      ⟨plan.pathFor "html".toList, "text/html".toList,
        linkedPage plan.title plan.layout.2 document⟩,
      ⟨plan.pathFor "css".toList, "text/css".toList, paragraph document.stylesheetText⟩,
      ⟨plan.pathFor "js".toList, "application/javascript".toList, paragraph document.scriptText⟩]

end PageCompiler
