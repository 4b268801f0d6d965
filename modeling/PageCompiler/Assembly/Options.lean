import PageCompiler.Text.Basic

/-! # Build options

Switches for what happens to a document after its fragments have been collected.
-/

namespace PageCompiler

structure BuildOptions where
  /-- Script lines that hold one of these markers are left out. -/
  stripLines : List Text := []
  /-- The line feeds of script that is left out stay. -/
  keepLines : Bool := false
  /-- Closing markers of script regions that are left out. -/
  stripBlocks : List Text := []
  /-- Included files that hold one of these markers are left out. -/
  excludeMarkers : List Text := []
  /-- Stylesheets are injected by script. -/
  cssToScript : Bool := false
  /-- Markup is injected by script. -/
  markupToScript : Bool := false
deriving DecidableEq, Inhabited

end PageCompiler
