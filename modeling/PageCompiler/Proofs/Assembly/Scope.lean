import PageCompiler.Proofs.Assembly.Aliases

/-! # What definitions store

The definitions of a page, one after the other, are assignments to dotted paths. The namespaces of a
module are created where they do not exist yet, and then its value is stored under its name, in the
place of whatever is stored there and with the loss of everything inside. What a module has stored
is therefore lost exactly if a module whose name leads to it is defined later.
-/

namespace PageCompiler

/-! ## Assignments -/

inductive Assignment where
  /-- Stores an empty object, unless something is stored already. -/
  | provide (path : List Text)
  /-- Stores what the function of a module returns. -/
  | define (name : ModuleName)

/-- The statement, up to the body of the function. -/
def Assignment.text : Assignment → Text
  | provide path =>
    let space := Text.join ['.'] path
    (if path.length = 1 then "var ".toList else [])
      ++ space ++ " = ".toList ++ space ++ " || \x7b\x7d;\n".toList
  | define name => name.qualified ++ " = (function () \x7b\n".toList

namespace CompiledModule

/-- The assignments that create the namespaces of a module. -/
def provisions (compiled : CompiledModule) : List Assignment :=
  (List.range compiled.name.qualifier.length).map fun outer =>
    .provide (compiled.name.qualifier.take (outer + 1))

def assignments (compiled : CompiledModule) : List Assignment :=
  compiled.provisions ++ [.define compiled.name]

theorem opening_eq (compiled : CompiledModule) :
    compiled.opening = compiled.assignments.flatMap Assignment.text := by
  have provided : namespaceStatements compiled.name =
      compiled.provisions.flatMap Assignment.text := by
    rw [namespaceStatements, provisions, List.flatMap_map]
    refine List.flatMap_congr fun outer member => ?_
    have inside : outer + 1 ≤ compiled.name.qualifier.length := List.mem_range.mp member
    simp [Assignment.text, Nat.min_eq_left inside]
  rw [opening, provided, assignments, List.flatMap_append, List.append_assoc]
  simp [Assignment.text]

end CompiledModule

/-! ## Scopes -/

/-- What is stored under a path. -/
inductive Stored where
  | object
  | value (owner : ModuleName)
deriving DecidableEq

/-- What is stored under each path, if anything is. -/
abbrev Scope := List Text → Option Stored

namespace Scope

def empty : Scope :=
  fun _ => none

def assign (scope : Scope) : Assignment → Scope
  | .provide path, place =>
    if place = path then some ((scope place).getD .object) else scope place
  | .define name, place =>
    if place = name.segments then some (.value name)
    else if name.segments <+: place then none
    else scope place

def perform (scope : Scope) (assignments : List Assignment) : Scope :=
  assignments.foldl assign scope

theorem perform_append (scope : Scope) (first second : List Assignment) :
    scope.perform (first ++ second) = (scope.perform first).perform second :=
  List.foldl_append

variable {scope : Scope} {place : List Text} {owner : ModuleName}

/-- Creating namespaces neither stores a value nor loses one. -/
theorem assign_provide_iff (path : List Text) :
    scope.assign (.provide path) place = some (.value owner) ↔
      scope place = some (.value owner) := by
  rw [assign]
  split
  · cases scope place <;> simp
  · rfl

theorem assign_define_iff {name : ModuleName} (different : place ≠ name.segments) :
    scope.assign (.define name) place = some (.value owner) ↔
      ¬ name.segments <+: place ∧ scope place = some (.value owner) := by
  rw [assign, if_neg different]
  by_cases leads : name.segments <+: place <;> simp [leads]

theorem perform_provisions_iff (compiled : CompiledModule) :
    scope.perform compiled.provisions place = some (.value owner) ↔
      scope place = some (.value owner) := by
  rw [CompiledModule.provisions]
  generalize List.range compiled.name.qualifier.length = depths
  induction depths generalizing scope with
  | nil => rfl
  | cons outer depths inductionHypothesis =>
    exact inductionHypothesis.trans (assign_provide_iff _)

theorem perform_assignments (compiled : CompiledModule) :
    scope.perform compiled.assignments =
      (scope.perform compiled.provisions).assign (.define compiled.name) := by
  rw [CompiledModule.assignments, perform_append]
  rfl

theorem perform_assignments_self (compiled : CompiledModule) :
    scope.perform compiled.assignments compiled.name.segments = some (.value compiled.name) := by
  rw [perform_assignments]
  exact if_pos rfl

theorem perform_assignments_iff {compiled : CompiledModule}
    (different : place ≠ compiled.name.segments) :
    scope.perform compiled.assignments place = some (.value owner) ↔
      ¬ compiled.name.segments <+: place ∧ scope place = some (.value owner) := by
  rw [perform_assignments, assign_define_iff different, perform_provisions_iff]

/-- A value outlives the definitions of modules whose names do not lead to it, and no others. -/
theorem perform_modules_iff {modules : List CompiledModule}
    (different : ∀ compiled ∈ modules, place ≠ compiled.name.segments) :
    scope.perform (modules.flatMap CompiledModule.assignments) place = some (.value owner) ↔
      (∀ compiled ∈ modules, ¬ compiled.name.segments <+: place) ∧
        scope place = some (.value owner) := by
  induction modules generalizing scope with
  | nil => simp [perform]
  | cons compiled modules inductionHypothesis =>
    have others := fun other member => different other (List.mem_cons_of_mem compiled member)
    rw [List.flatMap_cons, perform_append, inductionHypothesis others,
      perform_assignments_iff (different compiled List.mem_cons_self), List.forall_mem_cons]
    tauto

end Scope

/-! ## Scopes of parts -/

namespace Part

/-- The assignments of a part in front of its script. -/
def provisions : Part → List Assignment
  | module compiled _ => compiled.provisions
  | entry _ => []

/-- What is stored where the script of the part starts, if only definitions store anything. -/
def scope (earlier : List CompiledModule) (part : Part) : Scope :=
  Scope.empty.perform (earlier.flatMap CompiledModule.assignments ++ part.provisions)

theorem perform_provisions_iff (part : Part) {scope : Scope} {place : List Text}
    {owner : ModuleName} : scope.perform part.provisions place = some (.value owner) ↔
      scope place = some (.value owner) := by
  cases part with
  | module compiled source => exact Scope.perform_provisions_iff compiled
  | entry source => rfl

/-- The value of a module is there unless a definition in between has replaced it. -/
theorem scope_iff {earlier front between : List CompiledModule} {imported : CompiledModule}
    (split : earlier = front ++ imported :: between)
    (different : ∀ other ∈ between, imported.name.segments ≠ other.name.segments) (part : Part) :
    part.scope earlier imported.name.segments = some (.value imported.name) ↔
      ∀ other ∈ between, ¬ other.name.segments <+: imported.name.segments := by
  rw [scope, Scope.perform_append, part.perform_provisions_iff, split, List.flatMap_append,
    List.flatMap_cons, Scope.perform_append, Scope.perform_append,
    Scope.perform_modules_iff different]
  exact and_iff_left (Scope.perform_assignments_self imported)

end Part

end PageCompiler
