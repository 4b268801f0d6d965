import PageCompiler.Registry.Basic

/-! # Dependency order

`Registry.order` lists the modules that some names reach through their dependencies, each one behind
everything it depends on. The search goes depth first and keeps the registered modules that are not
on the way to the current one; a name that is not among them closes a cycle or is not registered.
-/

namespace PageCompiler

/-- The part of a chain of names from the first one with the given key on. -/
def chainFrom? (matching : NameMatching) (chain : List ModuleName) (key : Text) :
    Option (List ModuleName) :=
  match chain.dropWhile fun name => name.key matching != key with
  | [] => none
  | start => some start

/-- The names of a cycle, closed by `last`. -/
def cycleNames (start : List ModuleName) (last : ModuleName) : List Text :=
  start.map ModuleName.qualified ++ [last.qualified]

namespace Registry

/-- Adds to `order` the modules that `name` reaches. The names on the way here are `visiting`, and
the registered modules whose keys are not on it are `idle`. -/
def visit (matching : NameMatching) (idle : List (Text × CompiledModule))
    (visiting : List ModuleName) (importer : Path) (order : List CompiledModule)
    (name : ModuleName) : Except BuildError (List CompiledModule) :=
  let key := name.key matching
  if order.any fun visited => visited.name.key matching == key then .ok order
  else
    match found : idle.find? fun entry => entry.1 == key with
    | some (_, compiled) =>
      have : (idle.eraseP fun entry => entry.1 == key).length < idle.length := by
        have member := List.mem_of_find?_eq_some found
        have accepted := List.find?_some found
        have := List.length_pos_of_mem member
        rw [List.length_eraseP_of_mem member accepted]
        omega
      do
        let order ← compiled.dependencies.foldlM
          (visit matching (idle.eraseP fun entry => entry.1 == key) (visiting ++ [name])
            compiled.path)
          order
        return order ++ [compiled]
    | none =>
      match chainFrom? matching visiting key with
      | some start => .error (.circularImport (cycleNames start name))
      | none => .error (.unresolvedImport name.qualified importer)
termination_by idle.length

/-- The modules that `roots`, imported by the file `importer`, reach, dependencies first. -/
def order (registry : Registry) (roots : List ModuleName) (importer : Path) :
    Except BuildError (List CompiledModule) :=
  roots.foldlM (visit registry.matching registry.modules.toList [] importer) []

end Registry

end PageCompiler
