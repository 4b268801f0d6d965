import PageCompiler.Registry.Basic

/-! # Documents

A document is what a page is made of: for each section a list of fragments, each with the module or
file it comes from. A fragment starts with a line that is not blank and ends with a character that
is not white space; text that is blank makes no fragment.
-/

namespace PageCompiler

structure Fragment where
  /-- The name of a module or the path of a file. -/
  origin : Text
  text : Text
deriving DecidableEq

structure Document where
  markup : List Fragment
  stylesheet : List Fragment
  script : List Fragment
deriving DecidableEq

/-- `text` without the blank lines in front and without the white space at its end. -/
def tidy (text : Text) : Text :=
  ((Text.lines (Text.trimEnd text)).dropWhile Text.isBlank).flatten

/-- The texts of fragments on lines of their own. -/
def joinFragments (fragments : List Fragment) : Text :=
  Text.join ['\n'] (fragments.map Fragment.text)

/-- The fragments and one more, if its text is not blank. -/
def addFragment (fragments : List Fragment) (origin text : Text) : List Fragment :=
  if (tidy text).isEmpty then fragments else fragments ++ [⟨origin, tidy text⟩]

namespace Document

def empty : Document :=
  ⟨[], [], []⟩

def isEmpty (document : Document) : Bool :=
  document.markup.isEmpty && document.stylesheet.isEmpty && document.script.isEmpty

/-- The document with one more fragment at the end of a section. -/
def push (document : Document) (kind : Section) (origin text : Text) : Document :=
  match kind with
  | .markup => { document with markup := addFragment document.markup origin text }
  | .stylesheet => { document with stylesheet := addFragment document.stylesheet origin text }
  | .script => { document with script := addFragment document.script origin text }

/-- The document with fragments of one origin at the end of a section. -/
def pushAll (document : Document) (kind : Section) (origin : Text) (texts : List Text) : Document :=
  texts.foldl (fun document text => document.push kind origin text) document

def markupText (document : Document) : Text :=
  joinFragments document.markup

def stylesheetText (document : Document) : Text :=
  joinFragments document.stylesheet

def scriptText (document : Document) : Text :=
  joinFragments document.script

/-- The document with a function applied to the text of every script fragment. -/
def mapScript (document : Document) (change : Text → Text) : Document :=
  { document with
    script := document.script.foldl
      (fun fragments fragment => addFragment fragments fragment.origin (change fragment.text)) [] }

end Document

end PageCompiler
