import PageCompiler.Proofs.Build.Conclusion
import PageCompiler.Proofs.Build.RegisteredImports
import PageCompiler.Proofs.Path.Normal
import PageCompiler.Proofs.Resolution.Spelling

/-! # The order of bindings

A configuration binds modules to files in some order. The table that is made of the bindings has the
same files in every order, since all bindings of one key name one file, so the same files are
compiled. Among names of one key, though, the first one stays in the table, and where names are
compared without their case it can be spelled differently from the others: only bindings that are
spelled alike compile to the same page in every order.
-/

namespace PageCompiler

/-! ## Tables of bindings -/

/-- What the table has are the listed bindings: each of them finds its file, and the name that is
stored with a file is that of a binding. -/
structure Records (matching : NameMatching) (modules : List ModuleBinding) (bindings : Bindings) :
    Prop where
  recorded : ∀ binding ∈ modules, ∃ name stored, ModuleName.parse binding.name = .ok name ∧
    bindings[name.key matching]? = some (stored, binding.path.normalize)
  listed : ∀ (key : Text) (stored : ModuleName × Path), bindings[key]? = some stored →
    stored.1.key matching = key ∧ ∃ binding ∈ modules,
      ModuleName.parse binding.name = .ok stored.1 ∧ binding.path.normalize = stored.2

section

variable {matching : NameMatching}

theorem records_empty : Records matching [] ∅ := by
  refine ⟨fun _ member => absurd member List.not_mem_nil, fun key stored found => ?_⟩
  rw [Std.TreeMap.getElem?_emptyc] at found
  cases found

theorem bindModule_eq_ok {bindings after : Bindings} {binding : ModuleBinding}
    (bound : BuildConfig.bindModule matching bindings binding = .ok after) :
    ∃ name, ModuleName.parse binding.name = .ok name ∧
      bind matching bindings name binding.path = .ok after := by
  rw [BuildConfig.bindModule] at bound
  split at bound
  · cases bound
  · next name parsed =>
    cases outcome : bind matching bindings name binding.path with
    | error error =>
      rw [outcome] at bound
      cases bound
    | ok table =>
      rw [outcome] at bound
      cases bound
      exact ⟨name, parsed, outcome⟩

namespace Records

variable {modules : List ModuleBinding} {bindings after : Bindings}
  (records : Records matching modules bindings)

include records

/-- The file that a listed name is bound to. -/
theorem path_eq {binding : ModuleBinding} (member : binding ∈ modules) {name : ModuleName}
    (parsed : ModuleName.parse binding.name = .ok name) {stored : ModuleName × Path}
    (found : bindings[name.key matching]? = some stored) : stored.2 = binding.path.normalize := by
  obtain ⟨other, first, parsedToo, foundToo⟩ := records.recorded binding member
  cases parsed.symm.trans parsedToo
  cases found.symm.trans foundToo
  rfl

/-- A new name is stored with its file. -/
theorem insert {binding : ModuleBinding} {name : ModuleName}
    (parsed : ModuleName.parse binding.name = .ok name)
    (unbound : bindings[name.key matching]? = none) :
    Records matching (modules ++ [binding])
      (bindings.insert (name.key matching) (name, binding.path.normalize)) := by
  refine ⟨fun other member => ?_, fun key stored found => ?_⟩
  · rcases List.mem_append.mp member with old | new
    · obtain ⟨otherName, stored, otherParsed, found⟩ := records.recorded other old
      refine ⟨otherName, stored, otherParsed, ?_⟩
      rw [Std.TreeMap.getElem?_insert, if_neg, found]
      intro same
      rw [Std.LawfulEqOrd.compare_eq_iff_eq] at same
      cases unbound.symm.trans (same ▸ found)
    · obtain rfl := List.mem_singleton.mp new
      exact ⟨name, name, parsed, Std.TreeMap.getElem?_insert_self⟩
  · rw [Std.TreeMap.getElem?_insert] at found
    split at found
    · next same =>
      cases found
      exact ⟨Std.LawfulEqOrd.compare_eq_iff_eq.mp same, binding,
        List.mem_append_right _ (.head _), parsed, rfl⟩
    · obtain ⟨filed, other, member, from_⟩ := records.listed key stored found
      exact ⟨filed, other, List.mem_append_left _ member, from_⟩

/-- A name of a known key goes to the file that is there. -/
theorem again {binding : ModuleBinding} {name : ModuleName}
    (parsed : ModuleName.parse binding.name = .ok name) {stored : ModuleName × Path}
    (found : bindings[name.key matching]? = some stored)
    (same : stored.2.same binding.path.normalize = true) :
    Records matching (modules ++ [binding]) bindings := by
  refine ⟨fun other member => ?_, fun key entry there => ?_⟩
  · rcases List.mem_append.mp member with old | new
    · exact records.recorded other old
    · obtain rfl := List.mem_singleton.mp new
      obtain ⟨-, listed, -, -, path⟩ := records.listed _ _ found
      rw [← path] at same
      refine ⟨name, stored.1, parsed, ?_⟩
      rw [found, ← Path.normalize_eq_of_same same, path]
  · obtain ⟨filed, other, member, from_⟩ := records.listed key entry there
    exact ⟨filed, other, List.mem_append_left _ member, from_⟩

theorem concat {binding : ModuleBinding}
    (bound : BuildConfig.bindModule matching bindings binding = .ok after) :
    Records matching (modules ++ [binding]) after := by
  obtain ⟨name, parsed, bound⟩ := bindModule_eq_ok bound
  rw [bind] at bound
  split at bound
  · next unbound =>
    cases bound
    exact records.insert parsed unbound
  · next found =>
    split at bound
    · next same =>
      cases bound
      exact records.again parsed found same
    · cases bound

theorem foldlM {others : List ModuleBinding}
    (bound : others.foldlM (BuildConfig.bindModule matching) bindings = .ok after) :
    Records matching (modules ++ others) after := by
  induction others generalizing modules bindings with
  | nil =>
    cases bound
    rwa [List.append_nil]
  | cons binding others inductionHypothesis =>
    rw [List.foldlM_cons] at bound
    cases first : BuildConfig.bindModule matching bindings binding with
    | error failure =>
      rw [first] at bound
      cases bound
    | ok table =>
      rw [first] at bound
      rw [List.append_cons]
      exact inductionHypothesis (records.concat first) bound

end Records

/-- Listed bindings do not contradict each other, so some of them can be bound behind others. -/
theorem Records.exists_foldlM {all : List ModuleBinding} {whole : Bindings}
    (complete : Records matching all whole) {modules others : List ModuleBinding}
    {bindings : Bindings} (records : Records matching modules bindings) (known : modules ⊆ all)
    (more : others ⊆ all) :
    ∃ after, others.foldlM (BuildConfig.bindModule matching) bindings = .ok after := by
  induction others generalizing modules bindings with
  | nil => exact ⟨bindings, rfl⟩
  | cons binding others inductionHypothesis =>
    obtain ⟨member, more⟩ := List.cons_subset.mp more
    have binds : ∃ table, BuildConfig.bindModule matching bindings binding = .ok table := by
      -- What is bound under its key is among all bindings, which agree on the file.
      obtain ⟨name, first, parsed, recorded⟩ := complete.recorded binding member
      rw [BuildConfig.bindModule, parsed]
      dsimp only
      rw [bind]
      split
      · exact ⟨_, rfl⟩
      · next other existing found =>
        obtain ⟨filed, listed, there, spelled, path⟩ := records.listed _ _ found
        have same : binding.path.normalize = existing :=
          (complete.path_eq (known there) spelled (filed ▸ recorded)).trans path
        rw [if_pos (same ▸ beq_self_eq_true _)]
        exact ⟨_, rfl⟩
    obtain ⟨table, bound⟩ := binds
    obtain ⟨after, folded⟩ := inductionHypothesis (records.concat bound)
      (List.append_subset.mpr ⟨known, by simpa using member⟩) more
    exact ⟨after, by rw [List.foldlM_cons, bound]; exact folded⟩

/-- Tables of the same bindings bind the same keys to the same files. -/
theorem Records.tablesAgree {modules modulesToo : List ModuleBinding}
    {bindings bindingsToo : Bindings} (records : Records matching modules bindings)
    (recordsToo : Records matching modulesToo bindingsToo)
    (same : ∀ binding, binding ∈ modules ↔ binding ∈ modulesToo) {alike : Prop}
    (spells : alike → ∀ first ∈ modules, ∀ second ∈ modules, ∀ name nameToo,
      ModuleName.parse first.name = .ok name → ModuleName.parse second.name = .ok nameToo →
      name.key matching = nameToo.key matching → name = nameToo) :
    TablesAgree (BindingsMatch alike matching) bindings bindingsToo := by
  intro key
  cases found : bindings[key]? with
  | none =>
    cases foundToo : bindingsToo[key]? with
    | none => exact .none
    | some storedToo =>
      obtain ⟨rfl, binding, member, parsed, -⟩ := recordsToo.listed key storedToo foundToo
      obtain ⟨name, stored, parsedToo, there⟩ :=
        records.recorded binding ((same binding).mpr member)
      cases parsed.symm.trans parsedToo
      cases found.symm.trans there
  | some stored =>
    obtain ⟨rfl, binding, member, parsed, path⟩ := records.listed key stored found
    obtain ⟨name, first, parsedToo, foundToo⟩ :=
      recordsToo.recorded binding ((same binding).mp member)
    cases parsed.symm.trans parsedToo
    rw [foundToo]
    obtain ⟨filed, other, memberToo, otherParsed, -⟩ := recordsToo.listed _ _ foundToo
    exact .some ⟨rfl, ⟨filed.symm, fun spelled => spells spelled binding member other
      ((same other).mpr memberToo) _ _ parsed otherParsed filed.symm⟩, path.symm⟩

end

/-! ## Configurations -/

/-- Names of bindings with one key are spelled in one way. -/
def BuildConfig.SpellsAlike (config : BuildConfig) : Prop :=
  ∀ first ∈ config.modules, ∀ second ∈ config.modules, ∀ name nameToo,
    ModuleName.parse first.name = .ok name → ModuleName.parse second.name = .ok nameToo →
    name.key config.nameMatching = nameToo.key config.nameMatching → name = nameToo

/-- Where names are compared as they are written, names with one key are equal. -/
theorem BuildConfig.spellsAlike_of_exact {config : BuildConfig}
    (exact_ : config.nameMatching = .exact) : config.SpellsAlike := by
  intro first _ second _ name nameToo _ _ same
  rw [exact_] at same
  exact ModuleName.qualified_injective same

theorem BuildConfig.exists_bindings {config : BuildConfig} {modules : List ModuleBinding}
    (permuted : config.modules.Perm modules) {bindings : Bindings}
    (bound : config.bindings = .ok bindings) :
    ∃ bindingsToo, { config with modules := modules }.bindings = .ok bindingsToo ∧
      TablesAgree (BindingsMatch config.SpellsAlike config.nameMatching) bindings bindingsToo := by
  have records : Records config.nameMatching config.modules bindings := records_empty.foldlM bound
  obtain ⟨bindingsToo, boundToo⟩ :=
    records.exists_foldlM records_empty (List.nil_subset _) permuted.symm.subset
  have recordsToo : Records config.nameMatching modules bindingsToo :=
    records_empty.foldlM boundToo
  exact ⟨bindingsToo, boundToo, records.tablesAgree recordsToo (fun _ => permuted.mem_iff) id⟩

/-! ## Builds -/

section

variable {σ : Type} [FileSystem (StateM σ)] {config : BuildConfig} {modules : List ModuleBinding}
  {entry : Path} {files left : σ}

theorem resolve_modules_perm (permuted : config.modules.Perm modules) {resolved : Resolved}
    (succeeds : (resolve config entry : BuildM (StateM σ) Resolved).run.run files =
      (.ok resolved, left)) :
    ∃ resolvedToo, (resolve { config with modules := modules } entry :
        BuildM (StateM σ) Resolved).run.run files = (.ok resolvedToo, left) ∧
      resolved.source = resolvedToo.source ∧
      Resolution.Respells config.SpellsAlike config.nameMatching
        ⟨resolved.registry, resolved.scans⟩ ⟨resolvedToo.registry, resolvedToo.scans⟩ := by
  obtain ⟨opened, bindings, read, bound, ran⟩ := resolve_eq_ok_iff.mp succeeds
  obtain ⟨bindingsToo, boundToo, tables⟩ := config.exists_bindings permuted bound
  have start : Resolution.Respells config.SpellsAlike config.nameMatching
      ⟨.empty config.nameMatching, 0⟩ ⟨.empty config.nameMatching, 0⟩ :=
    ⟨Registry.respells_empty _, rfl, fun _ => rfl⟩
  obtain ⟨after, ranToo, respells⟩ := resolutionSteps_mirrors rfl tables resolved.source _ _ start
    _ _ _ _ ran
  exact ⟨⟨resolved.source, after.registry, after.scans⟩,
    resolve_eq_ok_iff.mpr ⟨opened, bindingsToo, read, boundToo, ranToo⟩, rfl, respells⟩

/-- Whatever order the modules are bound in, the same files are compiled in the same order and
scanned as often: if one order succeeds, so does the other. The page and the modules are the same
if bindings of one key are spelled in one way, which they always are where names are compared as
they are written. -/
theorem compile_modules_perm (permuted : config.modules.Perm modules) {compiled : Compiled}
    (succeeds : (compile config entry : BuildM (StateM σ) Compiled).run.run files =
      (.ok compiled, left)) :
    ∃ compiledToo, (compile { config with modules := modules } entry :
        BuildM (StateM σ) Compiled).run.run files = (.ok compiledToo, left) ∧
      compiledToo.scans = compiled.scans ∧
      List.Forall₂ (CompiledModule.Respells config.nameMatching) compiled.modules
        compiledToo.modules ∧
      (config.nameMatching = .exact ∨ config.SpellsAlike → compiledToo = compiled) := by
  obtain ⟨resolved, ran, assembled, ordered, opened, scanned⟩ := compile_eq_ok_iff.mp succeeds
  obtain ⟨resolvedToo, ranToo, sources, respells⟩ := resolve_modules_perm permuted ran
  have known := resolve_builds { config with modules := modules } entry files
  rw [ranToo] at known
  obtain ⟨document, assembledToo⟩ := (known.1.assembles known.2).2 config.options
  obtain ⟨modulesToo, orderedToo, listed⟩ := respells.registry.order ordered
  rw [sources] at orderedToo
  refine ⟨⟨resolvedToo.source.path, document, modulesToo, resolvedToo.scans⟩,
    compile_eq_ok_iff.mpr ⟨resolvedToo, ranToo, assembledToo, orderedToo, rfl, rfl⟩,
    respells.scans.symm.trans scanned, listed, fun spelled => ?_⟩
  replace spelled := spelled.elim BuildConfig.spellsAlike_of_exact id
  obtain ⟨registries, scans⟩ := Resolution.mk.inj (respells.same spelled)
  rw [← sources, ← registries, assembled] at assembledToo
  rw [← sources, ← registries] at orderedToo
  cases assembledToo
  cases ordered.symm.trans orderedToo
  rw [← sources, opened, ← scans, scanned]

end

/-- Two bound modules, of which one imports the other. -/
def boundModules : Store :=
  .ofFiles [(.ofString "/src/main.js", ":import a.A\nA();\n".toUTF8),
    (.ofString "/x/A.js", ":import b.B\nvar A = B;\n".toUTF8),
    (.ofString "/y/B.js", "var B = 1;\n".toUTF8)] []

def boundModulesConfig : BuildConfig :=
  { modules := [⟨"b.B".toList, .ofString "/y/B.js"⟩, ⟨"a.A".toList, .ofString "/x/A.js"⟩] }

theorem compile_modules_perm_boundModules :
    ∃ compiled left, (compile boundModulesConfig (.ofString "/src/main.js") :
        BuildM (StateM Store) Compiled).run.run boundModules = (.ok compiled, left) ∧
      compiled.modules.map CompiledModule.path = [.ofString "/y/B.js", .ofString "/x/A.js"] ∧
      (compile { boundModulesConfig with modules := boundModulesConfig.modules.reverse }
        (.ofString "/src/main.js") : BuildM (StateM Store) Compiled).run.run boundModules =
          (.ok compiled, left) := by
  have paths : ((compile boundModulesConfig (.ofString "/src/main.js") :
      BuildM (StateM Store) Compiled).run.run boundModules).1.toOption.map (fun compiled =>
        compiled.modules.map CompiledModule.path) =
          some [.ofString "/y/B.js", .ofString "/x/A.js"] := by
    decide +kernel
  obtain ⟨compiled, outcome, found⟩ := exists_of_toOption_map paths
  have succeeds : (compile boundModulesConfig (.ofString "/src/main.js") :
      BuildM (StateM Store) Compiled).run.run boundModules = (.ok compiled, _) :=
    Prod.ext outcome rfl
  obtain ⟨compiledToo, succeedsToo, -, -, same⟩ :=
    compile_modules_perm (List.reverse_perm _).symm succeeds
  obtain rfl := same (.inl rfl)
  exact ⟨compiledToo, _, succeeds, found, succeedsToo⟩

/-- A module that is bound under one name in two spellings. -/
def boundTwice : Store :=
  .ofFiles [(.ofString "/src/main.js", ":import ui.Panel\nPanel();\n".toUTF8),
    (.ofString "/lib/w.js", "function Panel() \x7b\x7d\n".toUTF8)] []

def boundTwiceConfig : BuildConfig :=
  { nameMatching := .ignoreCase
    modules := [⟨"ui.Panel".toList, .ofString "/lib/w.js"⟩,
      ⟨"UI.panel".toList, .ofString "/lib/w.js"⟩] }

/-- The first spelling names the module and what it exports. -/
theorem compile_modules_reverse_boundTwice :
    ∃ compiled compiledToo,
      ((compile boundTwiceConfig (.ofString "/src/main.js") :
        BuildM (StateM Store) Compiled).run.run boundTwice).1 = .ok compiled ∧
      boundTwiceConfig.modules.Perm boundTwiceConfig.modules.reverse ∧
      ((compile { boundTwiceConfig with modules := boundTwiceConfig.modules.reverse }
        (.ofString "/src/main.js") : BuildM (StateM Store) Compiled).run.run boundTwice).1 =
          .ok compiledToo ∧
      compiled.modules.map CompiledModule.exports = [["Panel".toList]] ∧
      compiledToo.modules.map CompiledModule.exports = [["panel".toList]] ∧
      compiled.modules ≠ compiledToo.modules ∧ compiled.document ≠ compiledToo.document := by
  have facts :
      ((compile boundTwiceConfig (.ofString "/src/main.js") :
        BuildM (StateM Store) Compiled).run.run boundTwice).1.toOption.map (fun compiled =>
          (compiled.modules.map CompiledModule.exports,
            compiled.document.script.map Fragment.origin)) =
        some ([["Panel".toList]], ["ui.Panel".toList, "/src/main.js".toList]) ∧
      ((compile { boundTwiceConfig with modules := boundTwiceConfig.modules.reverse }
        (.ofString "/src/main.js") :
          BuildM (StateM Store) Compiled).run.run boundTwice).1.toOption.map (fun compiled =>
            (compiled.modules.map CompiledModule.exports,
              compiled.document.script.map Fragment.origin)) =
        some ([["panel".toList]], ["UI.panel".toList, "/src/main.js".toList]) := by
    decide +kernel
  obtain ⟨compiled, compiles, parts⟩ := exists_of_toOption_map facts.1
  obtain ⟨compiledToo, compilesToo, partsToo⟩ := exists_of_toOption_map facts.2
  obtain ⟨exports, origins⟩ := Prod.mk.inj parts
  obtain ⟨exportsToo, originsToo⟩ := Prod.mk.inj partsToo
  refine ⟨compiled, compiledToo, compiles, (List.reverse_perm _).symm, compilesToo, exports,
    exportsToo, fun same => ?_, fun same => ?_⟩
  · rw [same, exportsToo] at exports
    exact absurd exports (by decide)
  · rw [same, originsToo] at origins
    exact absurd origins (by decide)

end PageCompiler
