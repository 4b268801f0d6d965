import PageCompiler.Name.Basic
import PageCompiler.Path.Basic

/-! # From module names to files

A `NamePolicy` says how names are compared and where below a search root the file of a module lies:
nested layouts make a directory of each namespace, flat layouts put the whole name into the file
name.
-/

namespace PageCompiler

inductive NamespaceLayout where
  /-- `ui.Widget` lies in `ui/Widget.js`. -/
  | nested
  /-- `ui.Widget` lies in `ui.Widget.js`. -/
  | flat
deriving DecidableEq, Inhabited

structure NamePolicy where
  matching : NameMatching
  layout : NamespaceLayout
  /-- The extension of module files, without a dot in front. -/
  extension : Text
deriving DecidableEq

namespace NamePolicy

/-- The policy for an extension that may be written with dots in front. -/
def make (matching : NameMatching) (layout : NamespaceLayout) (extension : Text) : NamePolicy :=
  ⟨matching, layout, extension.dropWhile (· == '.')⟩

/-- The path of a module's file below a search root. -/
def relativePath (policy : NamePolicy) (name : ModuleName) : Path :=
  match policy.layout with
  | .nested =>
    ⟨Text.join ['/'] (name.qualifier ++ [name.identifier ++ '.' :: policy.extension])⟩
  | .flat => ⟨name.qualified ++ '.' :: policy.extension⟩

end NamePolicy

end PageCompiler
