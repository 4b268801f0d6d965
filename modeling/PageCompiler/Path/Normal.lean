import PageCompiler.Path.Basic

/-! # Normal paths

`Path.normalize` removes every `.` and lets every `..` take back the name in front of it, without
looking at any file. A `..` at the root stays there, and a relative path may begin with several of
them. The empty result is written `.`.
-/

namespace PageCompiler.Path

/-- Adds a component to a path that is kept with its last component first. -/
def pushNormal : List Component → Component → List Component
  | stack, .current => stack
  | .normal _ :: stack, .parent => stack
  | .root :: stack, .parent => .root :: stack
  | stack, component => component :: stack

/-- The components left when each `..` has taken back a name. -/
def normalComponents (path : Path) : List Component :=
  (path.components.foldl pushNormal []).reverse

/-- The path with neither `.` nor a `..` that can be resolved. -/
def normalize (path : Path) : Path :=
  match path.normalComponents with
  | [] => ⟨['.']⟩
  | components => ofComponents components

end PageCompiler.Path
