import Mathlib.Data.List.Forall2
import PageCompiler.Proofs.FileSystem.View
import PageCompiler.Proofs.Registry.Order

/-! # Registries in two spellings

Where names are compared without their case, one module can be registered under names that are
spelled differently. `Registry.Respells` relates two registries that differ in such spellings and in
the scripts that are made with them. They know the same names, link the same attachments and put
their modules in the same order.
-/

namespace PageCompiler

/-! ## Tables -/

section

variable {β γ : Type} {related : Text → β → γ → Prop}

/-- At every key both tables have nothing, or entries that are related. -/
def TablesAgree (related : Text → β → γ → Prop) (first : Std.TreeMap Text β compare)
    (second : Std.TreeMap Text γ compare) : Prop :=
  ∀ key : Text, Option.Rel (related key) first[key]? second[key]?

theorem keys_eq_of_mem_iff {first : Std.TreeMap Text β compare}
    {second : Std.TreeMap Text γ compare} (agree : ∀ key, key ∈ first ↔ key ∈ second) :
    first.keys = second.keys := by
  have keysOnly : (first.map fun _ _ => ()).Equiv (second.map fun _ _ => ()) :=
    .of_forall_mem_unit_iff fun key => by
      rw [Std.TreeMap.mem_map, Std.TreeMap.mem_map, agree key]
  have keys := keysOnly.keys_eq
  rwa [Std.TreeMap.keys_map, Std.TreeMap.keys_map] at keys

namespace TablesAgree

variable {first : Std.TreeMap Text β compare} {second : Std.TreeMap Text γ compare}
  (agree : TablesAgree related first second)

include agree

theorem mem_iff (key : Text) : key ∈ first ↔ key ∈ second := by
  have entries := agree key
  rw [Std.TreeMap.mem_iff_isSome_getElem?, Std.TreeMap.mem_iff_isSome_getElem?]
  generalize first[key]? = found, second[key]? = foundToo at entries ⊢
  cases entries <;> simp

theorem keys_eq : first.keys = second.keys :=
  keys_eq_of_mem_iff agree.mem_iff

theorem forall₂_toList :
    List.Forall₂ (fun entry entryToo => entry.1 = entryToo.1 ∧ entry.1 ∈ first ∧
      related entry.1 entry.2 entryToo.2) first.toList second.toList := by
  have keys := agree.keys_eq
  rw [← Std.TreeMap.map_fst_toList_eq_keys, ← Std.TreeMap.map_fst_toList_eq_keys,
    ← List.forall₂_eq_eq_eq, List.forall₂_map_left_iff, List.forall₂_map_right_iff,
    List.forall₂_iff_zip] at keys
  -- The keys come in one order, so the entries that stand side by side have one key.
  refine List.forall₂_iff_zip.mpr ⟨keys.1, fun {entry entryToo} member => ?_⟩
  have same := keys.2 member
  obtain ⟨inFirst, inSecond⟩ := List.of_mem_zip member
  have found := Std.TreeMap.mem_toList_iff_getElem?_eq_some.mp inFirst
  have entries := agree entry.1
  rw [found, same, Std.TreeMap.mem_toList_iff_getElem?_eq_some.mp inSecond] at entries
  cases entries with
  | some relates =>
    refine ⟨same, ?_, same ▸ relates⟩
    rw [Std.TreeMap.mem_iff_isSome_getElem?, found, Option.isSome_some]

theorem forall₂_values :
    List.Forall₂ (fun value valueToo => ∃ key ∈ first, related key value valueToo) first.values
      second.values := by
  rw [values_eq_map_toList, values_eq_map_toList, List.forall₂_map_left_iff,
    List.forall₂_map_right_iff]
  exact agree.forall₂_toList.imp fun entry entryToo entries => ⟨entry.1, entries.2⟩

theorem size_eq : first.size = second.size := by
  rw [← Std.TreeMap.length_keys, ← Std.TreeMap.length_keys, agree.keys_eq]

theorem insert {key : Text} {value : β} {valueToo : γ} (relates : related key value valueToo) :
    TablesAgree related (first.insert key value) (second.insert key valueToo) := by
  intro other
  rw [Std.TreeMap.getElem?_insert, Std.TreeMap.getElem?_insert]
  split
  · next same =>
    rw [Std.LawfulEqOrd.compare_eq_iff_eq] at same
    exact .some (same ▸ relates)
  · exact agree other

end TablesAgree

theorem rel_getD {related : β → γ → Prop} {found : Option β} {foundToo : Option γ} {value : β}
    {valueToo : γ} (finds : Option.Rel related found foundToo)
    (otherwise : related value valueToo) : related (found.getD value) (foundToo.getD valueToo) := by
  cases finds with
  | some relates => exact relates
  | none => exact otherwise

end

/-! ## Registries -/

/-- What is the same in a module that is compiled under another spelling of its name. -/
structure CompiledModule.Respells (matching : NameMatching) (first second : CompiledModule) :
    Prop where
  key : first.name.key matching = second.name.key matching
  path : first.path = second.path
  dependencies : first.dependencies = second.dependencies
  markup : first.markup = second.markup
  stylesheet : first.stylesheet = second.stylesheet

/-- Both registries compare names by `matching` and know the same modules, attachments and links, up
to the spelling of modules. -/
structure Registry.Respells (matching : NameMatching) (first second : Registry) : Prop where
  matches_ : first.matching = matching
  matchesToo : second.matching = matching
  attachments : first.attachments = second.attachments
  links : first.links = second.links
  modules : TablesAgree (fun _ => CompiledModule.Respells matching) first.modules second.modules

theorem Registry.respells_empty (matching : NameMatching) :
    (empty matching).Respells matching (empty matching) := by
  refine ⟨rfl, rfl, rfl, rfl, fun key => ?_⟩
  rw [empty, Std.TreeMap.getElem?_emptyc]
  exact .none

namespace Registry.Respells

variable {matching : NameMatching} {first second : Registry}
  (respells : first.Respells matching second)

include respells

theorem contains_eq {name nameToo : ModuleName}
    (keys : name.key matching = nameToo.key matching) :
    first.contains name = second.contains nameToo := by
  rw [contains, contains, keyOf, keyOf, respells.matches_, respells.matchesToo, keys,
    Bool.eq_iff_iff, Std.TreeMap.contains_iff_mem, Std.TreeMap.contains_iff_mem]
  exact respells.modules.mem_iff _

theorem holds {names : List ModuleName} (held : first.Holds names) : second.Holds names :=
  fun name member =>
    (respells.contains_eq (rfl : name.key matching = _)).symm.trans (held name member)

theorem lookup?_rel {name nameToo : ModuleName}
    (keys : name.key matching = nameToo.key matching) :
    Option.Rel (CompiledModule.Respells matching) (first.lookup? name)
      (second.lookup? nameToo) := by
  rw [lookup?, lookup?, keyOf, keyOf, respells.matches_, respells.matchesToo, keys]
  exact respells.modules _

/-! ### Attachments -/

theorem link?_rel (source path : Path) :
    Option.Rel (Registry.Respells matching) (first.link? source path)
      (second.link? source path) := by
  rw [link?, link?, respells.attachments]
  split
  · rw [linksOf, linksOf, respells.links]
    dsimp only
    split
    · exact .some respells
    · exact .some ⟨respells.matches_, respells.matchesToo, rfl, rfl, respells.modules⟩
  · exact .none

theorem attach (source : Path) (attachment : Attachment) :
    (first.attach source attachment).Respells matching (second.attach source attachment) := by
  have stored : Registry.Respells matching
      { first with
        attachments := first.attachments.insertIfNew attachment.path.key attachment }
      { second with
        attachments := second.attachments.insertIfNew attachment.path.key attachment } :=
    ⟨respells.matches_, respells.matchesToo, by rw [respells.attachments], respells.links,
      respells.modules⟩
  exact rel_getD (stored.link?_rel source attachment.path) stored

/-! ### Modules -/

theorem register {compiled compiledToo stored : CompiledModule} {after : Registry}
    (modules : compiled.Respells matching compiledToo)
    (registered : first.register compiled = .ok (stored, after)) :
    ∃ storedToo afterToo, second.register compiledToo = .ok (storedToo, afterToo) ∧
      after.Respells matching afterToo := by
  have found := respells.lookup?_rel modules.key
  rw [Registry.register, check, ← modules.path]
  rw [Registry.register, check] at registered
  generalize first.lookup? compiled.name = existing, second.lookup? compiledToo.name = existingToo
    at found registered ⊢
  cases found with
  | none =>
    cases registered
    refine ⟨_, _, rfl, respells.matches_, respells.matchesToo, respells.attachments,
      respells.links, ?_⟩
    rw [keyOf, keyOf, respells.matches_, respells.matchesToo, ← modules.key]
    exact respells.modules.insert modules
  | some relates =>
    dsimp only at registered ⊢
    rw [← relates.path]
    split at registered
    · cases registered
    · next checked =>
      cases registered
      split at checked
      · next same =>
        rw [if_pos same]
        exact ⟨_, _, rfl, respells⟩
      · cases checked
    · next checked => split at checked <;> cases checked

end Registry.Respells

/-! ## Order -/

section

variable {matching : NameMatching}

theorem exists_foldlM {α : Type} (related : α → α → Prop) {names : List ModuleName}
    {step stepToo : α → ModuleName → Except BuildError α}
    (steps : ∀ name ∈ names, ∀ state stateToo next, related state stateToo →
      step state name = .ok next → ∃ nextToo, stepToo stateToo name = .ok nextToo ∧
        related next nextToo) {state stateToo last : α} (relates : related state stateToo)
    (folded : names.foldlM step state = .ok last) :
    ∃ lastToo, names.foldlM stepToo stateToo = .ok lastToo ∧ related last lastToo := by
  induction names generalizing state stateToo with
  | nil =>
    cases folded
    exact ⟨stateToo, rfl, relates⟩
  | cons name names inductionHypothesis =>
    rw [List.foldlM_cons] at folded ⊢
    cases stepped : step state name with
    | error error =>
      rw [stepped] at folded
      cases folded
    | ok next =>
      rw [stepped] at folded
      obtain ⟨nextToo, steppedToo, relatesThen⟩ := steps name (.head _) _ _ _ relates stepped
      rw [steppedToo]
      exact inductionHypothesis (fun other member => steps other (.tail _ member)) relatesThen
        folded

/-- Idle modules in two spellings. -/
def IdleAlike (matching : NameMatching) (entry entryToo : Text × CompiledModule) : Prop :=
  entry.1 = entryToo.1 ∧ entry.2.Respells matching entryToo.2

theorem find?_idleAlike {idle idleToo : List (Text × CompiledModule)}
    (alike : List.Forall₂ (IdleAlike matching) idle idleToo) (key : Text) :
    Option.Rel (IdleAlike matching) (idle.find? fun entry => entry.1 == key)
      (idleToo.find? fun entry => entry.1 == key) := by
  induction alike with
  | nil => exact .none
  | cons first _ inductionHypothesis =>
    rw [List.find?_cons, List.find?_cons, ← first.1]
    split
    · exact .some first
    · exact inductionHypothesis

theorem eraseP_idleAlike {idle idleToo : List (Text × CompiledModule)}
    (alike : List.Forall₂ (IdleAlike matching) idle idleToo) (key : Text) :
    List.Forall₂ (IdleAlike matching) (idle.eraseP fun entry => entry.1 == key)
      (idleToo.eraseP fun entry => entry.1 == key) := by
  induction alike with
  | nil => exact .nil
  | cons first others inductionHypothesis =>
    rw [List.eraseP_cons, List.eraseP_cons, ← first.1, cond_eq_ite, cond_eq_ite]
    split
    · exact others
    · exact .cons first inductionHypothesis

theorem any_respells {order orderToo : List CompiledModule}
    (alike : List.Forall₂ (CompiledModule.Respells matching) order orderToo) (key : Text) :
    (order.any fun visited => visited.name.key matching == key) =
      orderToo.any fun visited => visited.name.key matching == key := by
  induction alike with
  | nil => rfl
  | cons first _ inductionHypothesis =>
    rw [List.any_cons, List.any_cons, first.key, inductionHypothesis]

theorem Registry.visit_of_find? {idle : List (Text × CompiledModule)} {order : List CompiledModule}
    {name : ModuleName} {entry : Text × CompiledModule}
    (absent : ¬ (order.any fun visited =>
      visited.name.key matching == name.key matching) = true)
    (found : idle.find? (fun entry => entry.1 == name.key matching) = some entry)
    (visiting : List ModuleName) (importer : Path) :
    visit matching idle visiting importer order name = do
      let order ← entry.2.dependencies.foldlM
        (visit matching (idle.eraseP fun entry => entry.1 == name.key matching)
          (visiting ++ [name]) entry.2.path) order
      return order ++ [entry.2] := by
  rw [visit, if_neg absent]
  split
  · next foundToo =>
    cases found.symm.trans foundToo
    rfl
  · next missing => cases found.symm.trans missing

/-- The search goes the same way, whatever chain and importer it would name in an error. -/
theorem Registry.visit_respells (idle : List (Text × CompiledModule)) (visiting : List ModuleName)
    (importer : Path) (order : List CompiledModule) (name : ModuleName)
    {longer : List CompiledModule}
    (visited : visit matching idle visiting importer order name = .ok longer) :
    ∀ {idleToo : List (Text × CompiledModule)} {orderToo : List CompiledModule},
      List.Forall₂ (IdleAlike matching) idle idleToo →
      List.Forall₂ (CompiledModule.Respells matching) order orderToo →
      ∀ (visitingToo : List ModuleName) (importerToo : Path),
        ∃ longerToo, visit matching idleToo visitingToo importerToo orderToo name = .ok longerToo ∧
          List.Forall₂ (CompiledModule.Respells matching) longer longerToo := by
  fun_induction visit matching idle visiting importer order name generalizing longer with
  | case1 idle visiting importer order name key =>
    rename_i present
    intro idleToo orderToo alike orders visitingToo importerToo
    cases visited
    rw [any_respells orders] at present
    rw [visit, if_pos present]
    exact ⟨orderToo, rfl, orders⟩
  | case2 idle visiting importer order name key absent entryKey compiled found _ =>
    rename_i inductionHypothesis
    intro idleToo orderToo alike orders visitingToo importerToo
    rw [any_respells orders] at absent
    have finds := find?_idleAlike alike key
    rw [found] at finds
    generalize foundToo : idleToo.find? (fun entry => entry.1 == key) = taken at finds
    cases finds with | @some _ entryToo entries => ?_
    -- Both modules stop being idle before their dependencies are visited, which are the same.
    cases folded : compiled.dependencies.foldlM (visit matching
        (idle.eraseP fun entry => entry.1 == key) (visiting ++ [name]) compiled.path) order with
    | error error =>
      rw [folded] at visited
      cases visited
    | ok between =>
      rw [folded] at visited
      cases visited
      rw [visit_of_find? absent foundToo, ← entries.2.dependencies]
      obtain ⟨betweenToo, foldedToo, grown⟩ := exists_foldlM
        (List.Forall₂ (CompiledModule.Respells matching))
        (fun dependency _ order orderToo longer orders visited =>
          inductionHypothesis order dependency visited (eraseP_idleAlike alike key) orders
            (visitingToo ++ [name]) entryToo.2.path) orders folded
      exact ⟨betweenToo ++ [entryToo.2], by rw [foldedToo]; rfl,
        List.rel_append grown (.cons entries.2 .nil)⟩
  | case3 | case4 => cases visited

/-- Registries in two spellings list the same modules in the same order. -/
theorem Registry.Respells.order {first second : Registry}
    (respells : first.Respells matching second) {roots : List ModuleName} {importer : Path}
    {modules : List CompiledModule}
    (ordered : first.order roots importer = .ok modules) :
    ∃ modulesToo, second.order roots importer = .ok modulesToo ∧
      List.Forall₂ (CompiledModule.Respells matching) modules modulesToo := by
  rw [Registry.order, respells.matches_] at ordered
  rw [Registry.order, respells.matchesToo]
  exact exists_foldlM (List.Forall₂ (CompiledModule.Respells matching))
    (fun name _ _ _ _ orders visited => visit_respells _ _ _ _ name visited
      (respells.modules.forall₂_toList.imp fun _ _ entries => ⟨entries.1, entries.2.2⟩) orders []
      importer) .nil ordered

end

end PageCompiler
