import PageCompiler.Assembly.Page
import PageCompiler.Proofs.Registry.Order

/-! # Assembling what is registered

The script of a source file looks up every import again, by the key of its name. If all imports of
the file are registered, none of these look-ups fails: the file has a script, as a module it can be
compiled, and as an entry file it has a document.
-/

namespace PageCompiler

def Segment.importedNames (segment : Segment) : List ModuleName :=
  match segment.content with
  | .directive (.importModule name) => [name]
  | _ => []

theorem importedNames_eq_flatMap (source : SourceFile) :
    importedNames source = source.segments.flatMap Segment.importedNames := by
  rw [importedNames, SourceFile.imports]
  induction source.segments with
  | nil => rfl
  | cons segment segments inductionHypothesis =>
    rw [List.flatMap_cons, ← inductionHypothesis, List.filterMap_cons, Segment.importedNames]
    cases segment.content with
    | script _ => rfl
    | block _ _ => rfl
    | directive directive => cases directive <;> rfl

theorem mem_dependenciesOf {source : SourceFile} {name : ModuleName}
    (member : name ∈ dependenciesOf source) : name ∈ importedNames source := by
  rw [dependenciesOf] at member
  rw [importedNames]
  -- The names are collected from the front, so the induction is about any names found before.
  suffices collected : ∀ (imports : List (ModuleName × Segment)) (names : List ModuleName),
      name ∈ imports.foldl
        (fun names imported =>
          if imported.1 ∈ names then names else names ++ [imported.1]) names →
      name ∈ names ∨ name ∈ imports.map Prod.fst by
    exact (collected _ _ member).resolve_left List.not_mem_nil
  intro imports
  induction imports with
  | nil => exact fun names member => .inl member
  | cons imported imports inductionHypothesis =>
    intro names member
    rw [List.foldl_cons] at member
    rw [List.map_cons, List.mem_cons]
    rcases inductionHypothesis _ member with early | late
    · split at early
      · exact .inl early
      · rw [List.mem_append, List.mem_singleton] at early
        exact early.imp_right .inl
    · exact .inr (.inr late)

theorem mem_dependenciesOf_of_mem {source : SourceFile} {name : ModuleName}
    (member : name ∈ importedNames source) : name ∈ dependenciesOf source := by
  rw [importedNames] at member
  rw [dependenciesOf]
  suffices collected : ∀ (imports : List (ModuleName × Segment)) (names : List ModuleName),
      name ∈ names ∨ name ∈ imports.map Prod.fst →
      name ∈ imports.foldl
        (fun names imported =>
          if imported.1 ∈ names then names else names ++ [imported.1]) names by
    exact collected _ _ (.inr member)
  intro imports
  induction imports with
  | nil => exact fun names collected => collected.resolve_right List.not_mem_nil
  | cons imported imports inductionHypothesis =>
    intro names collected
    rw [List.foldl_cons]
    refine inductionHypothesis _ ?_
    rw [List.map_cons, List.mem_cons, ← or_assoc] at collected
    refine collected.imp_left fun early => ?_
    split
    · next known => exact early.elim id fun same => same ▸ known
    · rwa [List.mem_append, List.mem_singleton]

/-! ## Scripts -/

theorem segmentScript_isOk {registry : Registry} {segment : Segment}
    (held : registry.Holds segment.importedNames) (path : Path) :
    ∃ script, segmentScript registry path segment = .ok script := by
  rw [Segment.importedNames] at held
  rw [segmentScript]
  cases content : segment.content with
  | script text => exact ⟨_, rfl⟩
  | block kind payload => cases kind <;> exact ⟨_, rfl⟩
  | directive directive =>
    cases directive with
    | importModule name =>
      rw [content] at held
      obtain ⟨compiled, found⟩ := Registry.contains_iff.mp (held name List.mem_cons_self)
      simp only [Registry.lookup?, found]
      exact ⟨_, rfl⟩
    | exportNames _ => exact ⟨_, rfl⟩
    | includeFile _ => exact ⟨_, rfl⟩
    | includeStylesheet _ => exact ⟨_, rfl⟩

theorem sourceScript_isOk {registry : Registry} {source : SourceFile}
    (held : registry.Holds (importedNames source)) :
    ∃ script, sourceScript registry source = .ok script := by
  rw [importedNames_eq_flatMap] at held
  have scripts : ∃ scripts,
      source.segments.mapM (segmentScript registry source.path) = .ok scripts := by
    generalize source.segments = segments at held ⊢
    induction segments with
    | nil => exact ⟨[], rfl⟩
    | cons segment segments inductionHypothesis =>
      rw [List.flatMap_cons] at held
      obtain ⟨script, first⟩ := segmentScript_isOk
        (fun name member => held name (List.mem_append_left _ member)) source.path
      obtain ⟨scripts, others⟩ := inductionHypothesis
        fun name member => held name (List.mem_append_right _ member)
      exact ⟨script :: scripts, by rw [List.mapM_cons, first, others]; rfl⟩
  obtain ⟨scripts, mapped⟩ := scripts
  exact ⟨scripts.flatten, by rw [sourceScript, mapped]; rfl⟩

/-! ## Modules and documents -/

theorem compileModule_isOk {registry : Registry} {source : SourceFile}
    (held : registry.Holds (importedNames source)) (name : ModuleName) :
    ∃ compiled, compileModule registry name source = .ok compiled ∧ compiled.name = name ∧
      registry.Holds compiled.dependencies := by
  obtain ⟨script, made⟩ := sourceScript_isOk held
  rw [compileModule, made]
  exact ⟨_, rfl, rfl, fun dependency member => held dependency (mem_dependenciesOf member)⟩

/-- The imports of an entry file have an order, and the file has a document. -/
def Registry.Assembles (registry : Registry) (entry : SourceFile) : Prop :=
  (∃ modules, registry.order (importedNames entry) entry.path = .ok modules) ∧
    ∀ options : BuildOptions, ∃ document, assemble registry options entry = .ok document

theorem Registry.Sound.assembles {registry : Registry} (sound : registry.Sound)
    {entry : SourceFile} (held : registry.Holds (importedNames entry)) :
    registry.Assembles entry := by
  obtain ⟨modules, ordered⟩ :=
    order_isOk (fun name member => sound.clear (held name member)) entry.path
  obtain ⟨script, made⟩ := sourceScript_isOk held
  refine ⟨⟨modules, ordered⟩, fun options => ?_⟩
  rw [assemble, ordered, made]
  exact ⟨_, rfl⟩

end PageCompiler
