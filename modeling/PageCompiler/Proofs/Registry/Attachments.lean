import Mathlib.Data.List.Forall2
import Mathlib.Data.List.Induction
import PageCompiler.Proofs.Path.Components
import PageCompiler.Proofs.Registry.Dependencies

/-! # The attachments of a history

The registry keeps attachments in two tables, the stored files and the paths that every source file
pulls in. A file is stored before it is linked and is never replaced, so both tables can be read off
the calls that were made: the stored file of a path is the one that was attached first, and a source
file pulls in what it attached or linked, in that order and each path once. Hence no linked path is
without a file.
-/

namespace PageCompiler

namespace Registry

/-! ## Linking -/

section

variable {registry linked : Registry} {source path : Path}

/-- Linking succeeds for stored attachments only, and changes nothing but the links. -/
theorem link?_eq_some (links : registry.link? source path = some linked) :
    registry.attachments.contains path.key = true ∧
      linked = { registry with
        links := if (registry.linksOf source).any path.same then registry.links
          else registry.links.insert source.key (registry.linksOf source ++ [path]) } := by
  rw [link?] at links
  split at links
  · next stored =>
    refine ⟨stored, ?_⟩
    dsimp only at links
    split at links
    · next old =>
      rw [if_pos old]
      exact (Option.some.inj links).symm
    · next new =>
      rw [if_neg new]
      exact (Option.some.inj links).symm
  · cases links

theorem link?_modules (links : registry.link? source path = some linked) :
    linked.matching = registry.matching ∧ linked.modules = registry.modules := by
  obtain ⟨-, rfl⟩ := link?_eq_some links
  exact ⟨rfl, rfl⟩

theorem link?_attachments (links : registry.link? source path = some linked) :
    linked.attachments = registry.attachments := by
  obtain ⟨-, rfl⟩ := link?_eq_some links
  rfl

theorem linksOf_of_link? {asking : Path} (links : registry.link? asking path = some linked)
    (source : Path) :
    linked.linksOf source =
      if asking.same source then
        if (registry.linksOf source).any path.same then registry.linksOf source
        else registry.linksOf source ++ [path]
      else registry.linksOf source := by
  obtain ⟨-, rfl⟩ := link?_eq_some links
  by_cases asks : asking.same source = true
  · have key := Path.same_iff_key_eq.mp asks
    have alike : registry.linksOf asking = registry.linksOf source := by
      rw [linksOf, linksOf, key]
    rw [if_pos asks, alike]
    split
    · rfl
    · rw [linksOf, key, Std.TreeMap.getElem?_insert_self]
      rfl
  · have apart : compare asking.key source.key ≠ .eq :=
      fun same => asks (Path.same_iff_key_eq.mpr (Std.LawfulEqOrd.compare_eq_iff_eq.mp same))
    rw [if_neg asks]
    split
    · rfl
    · rw [linksOf, Std.TreeMap.getElem?_insert, if_neg apart]
      rfl

/-- An attachment is linked if it is stored. -/
theorem isSome_link? (registry : Registry) (source path : Path) :
    (registry.link? source path).isSome = registry.attachments.contains path.key := by
  rw [link?]
  split
  · next present =>
    dsimp only
    split <;> exact present.symm
  · next missing => exact (Bool.eq_false_iff.mpr missing).symm

def store (registry : Registry) (attachment : Attachment) : Registry :=
  { registry with
    attachments := registry.attachments.insertIfNew attachment.path.key attachment }

/-- What is stored can be linked, so attaching is storing and linking. -/
theorem link?_store (registry : Registry) (source : Path) (attachment : Attachment) :
    (registry.store attachment).link? source attachment.path =
      some (registry.attach source attachment) := by
  have linkable : ((registry.store attachment).link? source attachment.path).isSome := by
    rw [isSome_link?, store, Std.TreeMap.contains_insertIfNew]
    simp
  obtain ⟨linked, links⟩ := Option.isSome_iff_exists.mp linkable
  have attached : registry.attach source attachment =
      ((registry.store attachment).link? source attachment.path).getD
        (registry.store attachment) := rfl
  rw [attached, links, Option.getD_some]

theorem attach_modules (registry : Registry) (source : Path) (attachment : Attachment) :
    (registry.attach source attachment).matching = registry.matching ∧
      (registry.attach source attachment).modules = registry.modules := by
  have kept := link?_modules (registry.link?_store source attachment)
  exact kept

theorem attach_attachments (registry : Registry) (source : Path) (attachment : Attachment) :
    (registry.attach source attachment).attachments =
      registry.attachments.insertIfNew attachment.path.key attachment :=
  link?_attachments (registry.link?_store source attachment)

end

/-- Registering a module leaves the attachments and the links as they are. -/
theorem register_attachments {registry after : Registry} {compiled stored : CompiledModule}
    (registered : registry.register compiled = .ok (stored, after)) :
    after.attachments = registry.attachments ∧ after.links = registry.links := by
  rcases register_cases registered with ⟨rfl, -⟩ | ⟨rfl, -⟩ <;> exact ⟨rfl, rfl⟩

end Registry

/-! ## Histories -/

inductive RegistryCall where
  | register (compiled : CompiledModule)
  | attach (source : Path) (attachment : Attachment)
  | link (source path : Path)

namespace Registry

/-- A module that is refused and a link that fails leave the registry as it was. -/
def call (registry : Registry) : RegistryCall → Registry
  | .register compiled =>
    match registry.register compiled with
    | .ok (_, after) => after
    | .error _ => registry
  | .attach source attachment => registry.attach source attachment
  | .link source path => (registry.link? source path).getD registry

def run (registry : Registry) (calls : List RegistryCall) : Registry :=
  calls.foldl call registry

end Registry

namespace RegistryCall

/-- The file that a call offers for a path, be it for the first time or not. -/
def offered? (path : Path) : RegistryCall → Option Attachment
  | .register _ => none
  | .attach _ attachment => if attachment.path.same path then some attachment else none
  | .link _ _ => none

/-- The file with which a path was attached first, from whatever source. -/
def firstAttached? (calls : List RegistryCall) (path : Path) : Option Attachment :=
  calls.findSome? (offered? path)

/-- The path that a source pulls in by a call. A link counts if its path was attached `earlier`. -/
def pulled? (source : Path) (earlier : List RegistryCall) : RegistryCall → Option Path
  | .register _ => none
  | .attach asking attachment => if asking.same source then some attachment.path else none
  | .link asking path =>
    if asking.same source ∧ (firstAttached? earlier path).isSome then some path else none

/-- The paths that a source pulls in by the calls that follow the `earlier` ones, in their order. -/
def pulled (source : Path) (earlier : List RegistryCall) : List RegistryCall → List Path
  | [] => []
  | call :: later => (pulled? source earlier call).toList ++ pulled source (earlier ++ [call]) later

theorem pulled_concat (source : Path) (earlier calls : List RegistryCall) (call : RegistryCall) :
    pulled source earlier (calls ++ [call]) =
      pulled source earlier calls ++ (pulled? source (earlier ++ calls) call).toList := by
  induction calls generalizing earlier with
  | nil => simp [pulled]
  | cons first calls inductionHypothesis =>
    rw [List.cons_append, pulled, pulled, inductionHypothesis, List.append_assoc,
      List.append_assoc]
    rfl

theorem firstAttached?_append (calls later : List RegistryCall) (path : Path) :
    firstAttached? (calls ++ later) path =
      (firstAttached? calls path).or (firstAttached? later path) :=
  List.findSome?_append

theorem same_of_firstAttached? {calls : List RegistryCall} {path : Path} {attachment : Attachment}
    (first : firstAttached? calls path = some attachment) : attachment.path.same path = true := by
  obtain ⟨call, -, offers⟩ := List.exists_of_findSome?_eq_some first
  cases call with
  | attach source offered =>
    rw [offered?] at offers
    split at offers
    · next same =>
      cases offers
      exact same
    · cases offers
  | register | link => cases offers

theorem firstAttached?_concat (calls : List RegistryCall) (call : RegistryCall) (path : Path) :
    firstAttached? (calls ++ [call]) path =
      (firstAttached? calls path).or (offered? path call) := by
  rw [firstAttached?_append, firstAttached?, firstAttached?, List.findSome?_singleton]

/-- What a source pulls in by a call is attached after it. -/
theorem isSome_firstAttached?_of_pulled? {source path : Path} {earlier : List RegistryCall}
    {call : RegistryCall} (pulls : pulled? source earlier call = some path) :
    (firstAttached? (earlier ++ [call]) path).isSome := by
  rw [firstAttached?_concat, Option.isSome_or]
  cases call with
  | register => cases pulls
  | attach asking attachment =>
    rw [pulled?] at pulls
    split at pulls
    · cases pulls
      have offers : offered? attachment.path (.attach asking attachment) = some attachment :=
        if_pos (Path.same_iff_key_eq.mpr rfl)
      rw [offers, Option.isSome_some, Bool.or_true]
    · cases pulls
  | link asking linked =>
    rw [pulled?] at pulls
    split at pulls
    · next asks =>
      cases pulls
      rw [asks.2, Bool.true_or]
    · cases pulls

theorem isSome_firstAttached?_of_mem_pulled {source path : Path}
    {earlier calls : List RegistryCall} (member : path ∈ pulled source earlier calls) :
    (firstAttached? (earlier ++ calls) path).isSome := by
  induction calls generalizing earlier with
  | nil => cases member
  | cons call later inductionHypothesis =>
    rw [List.append_cons]
    rcases List.mem_append.mp member with now | member
    · rw [firstAttached?_append, Option.isSome_or,
        isSome_firstAttached?_of_pulled? (Option.mem_toList.mp now), Bool.true_or]
    · exact inductionHypothesis member

end RegistryCall

/-! ## Once each -/

section

variable {α : Type} (alike : α → α → Bool)

theorem eraseDupsBy_concat (values : List α) (value : α) :
    (values ++ [value]).eraseDupsBy alike =
      if (values.eraseDupsBy alike).any (alike value) then values.eraseDupsBy alike
      else values.eraseDupsBy alike ++ [value] := by
  have kept (values seen : List α) : List.eraseDupsBy.loop alike (values ++ [value]) seen =
      if (List.eraseDupsBy.loop alike values seen).any (alike value) then
        List.eraseDupsBy.loop alike values seen
      else List.eraseDupsBy.loop alike values seen ++ [value] := by
    induction values generalizing seen with
    | nil =>
      rw [List.nil_append, List.eraseDupsBy.loop, List.eraseDupsBy.loop, List.eraseDupsBy.loop,
        List.eraseDupsBy.loop, List.any_reverse]
      cases seen.any (alike value) <;> simp
    | cons first values inductionHypothesis =>
      rw [List.cons_append, List.eraseDupsBy.loop, List.eraseDupsBy.loop]
      split <;> exact inductionHypothesis _
  exact kept values []

theorem mem_of_mem_eraseDupsBy {values : List α} {value : α}
    (member : value ∈ values.eraseDupsBy alike) : value ∈ values := by
  induction values using List.reverseRecOn with
  | nil => exact member
  | append_singleton values last inductionHypothesis =>
    rw [eraseDupsBy_concat] at member
    split at member
    · exact List.mem_append_left _ (inductionHypothesis member)
    · rcases List.mem_append.mp member with old | new
      · exact List.mem_append_left _ (inductionHypothesis old)
      · exact List.mem_append_right _ new

theorem pairwise_eraseDupsBy (values : List α) :
    (values.eraseDupsBy alike).Pairwise fun earlier later => alike later earlier = false := by
  induction values using List.reverseRecOn with
  | nil => exact .nil
  | append_singleton values last inductionHypothesis =>
    rw [eraseDupsBy_concat]
    split
    · exact inductionHypothesis
    · next fresh =>
      refine List.pairwise_append.mpr ⟨inductionHypothesis, List.pairwise_singleton _ _, ?_⟩
      rintro earlier member later here
      obtain rfl := List.mem_singleton.mp here
      rw [List.any_eq_true, not_exists] at fresh
      exact Bool.eq_false_iff.mpr fun same => fresh earlier ⟨member, same⟩

end

/-! ## The tables -/

namespace Registry

variable {registry : Registry} {calls : List RegistryCall}

open RegistryCall

/-- A call stores what it offers for paths that have no file yet. -/
theorem attachment?_call (registry : Registry) (call : RegistryCall) (path : Path) :
    (registry.call call).attachment? path =
      (registry.attachment? path).or (offered? path call) := by
  cases call with
  | register compiled =>
    rw [Registry.call, offered?, Option.or_none]
    split
    · next registered => rw [attachment?, (register_attachments registered).1, attachment?]
    · rfl
  | link source linked =>
    rw [Registry.call, offered?, Option.or_none]
    cases links : registry.link? source linked with
    | none => rfl
    | some after => rw [Option.getD_some, attachment?, link?_attachments links, attachment?]
  | attach source attachment =>
    rw [Registry.call, attachment?, attach_attachments, Std.TreeMap.getElem?_insertIfNew,
      offered?, attachment?]
    by_cases same : attachment.path.same path = true
    · rw [if_pos same, Path.same_iff_key_eq.mp same]
      by_cases old : path.key ∈ registry.attachments
      · rw [if_neg fun both => both.2 old]
        rw [Std.TreeMap.mem_iff_isSome_getElem?] at old
        rw [Option.or_of_isSome old]
      · rw [if_pos ⟨Std.LawfulEqOrd.compare_eq_iff_eq.mpr rfl, old⟩,
          Std.TreeMap.getElem?_eq_none old, Option.none_or]
    · have apart : compare attachment.path.key path.key ≠ .eq :=
        fun equal => same (Path.same_iff_key_eq.mpr (Std.LawfulEqOrd.compare_eq_iff_eq.mp equal))
      rw [if_neg same, if_neg fun both => apart both.1, Option.or_none]

/-- The stored files are the first ones of their paths, and a source file pulls in its paths once
each. -/
structure Records (registry : Registry) (calls : List RegistryCall) : Prop where
  stored : ∀ path, registry.attachment? path = firstAttached? calls path
  links : ∀ source, registry.linksOf source = (pulled source [] calls).eraseDupsBy Path.same

theorem records_empty (matching : NameMatching) : (empty matching).Records [] :=
  ⟨fun _ => Std.TreeMap.getElem?_emptyc, fun _ => by
    rw [linksOf, empty, Std.TreeMap.getElem?_emptyc]
    rfl⟩

theorem Records.isSome_link? (records : registry.Records calls) (source path : Path) :
    (registry.link? source path).isSome = (firstAttached? calls path).isSome := by
  rw [Registry.isSome_link?, Std.TreeMap.contains_eq_isSome_getElem?, ← records.stored path,
    attachment?]

/-- A call adds the path that a source pulls in by it, unless the source pulls it in already. -/
theorem Records.linksOf_call (records : registry.Records calls) (call : RegistryCall)
    (source : Path) :
    (registry.call call).linksOf source =
      match pulled? source calls call with
      | none => registry.linksOf source
      | some path =>
        if (registry.linksOf source).any path.same then registry.linksOf source
        else registry.linksOf source ++ [path] := by
  cases call with
  | register compiled =>
    rw [Registry.call, pulled?]
    split
    · next registered => rw [linksOf, (register_attachments registered).2, linksOf]
    · rfl
  | attach asking attachment =>
    rw [Registry.call, linksOf_of_link? (registry.link?_store asking attachment), pulled?]
    split <;> rfl
  | link asking path =>
    have linkable := records.isSome_link? asking path
    rw [Registry.call, pulled?, ← linkable]
    cases links : registry.link? asking path with
    | none => rw [if_neg fun both => Bool.noConfusion both.2, Option.getD_none]
    | some linked =>
      rw [Option.getD_some, linksOf_of_link? links]
      by_cases asks : asking.same source = true
      · rw [if_pos asks, Option.isSome_some, if_pos (show _ ∧ true = true from ⟨asks, rfl⟩)]
      · rw [if_neg asks, if_neg fun both => asks both.1]

theorem Records.call (records : registry.Records calls) (call : RegistryCall) :
    (registry.call call).Records (calls ++ [call]) := by
  refine ⟨fun path => ?_, fun source => ?_⟩
  · rw [attachment?_call, records.stored, firstAttached?_concat]
  · rw [records.linksOf_call, pulled_concat, List.nil_append, records.links]
    cases pulled? source calls call with
    | none => rw [Option.toList_none, List.append_nil]
    | some path => rw [Option.toList_some, eraseDupsBy_concat]

theorem records_run (matching : NameMatching) (calls : List RegistryCall) :
    ((empty matching).run calls).Records calls := by
  induction calls using List.reverseRecOn with
  | nil => exact records_empty matching
  | append_singleton calls call inductionHypothesis =>
    rw [run, List.foldl_append]
    exact inductionHypothesis.call call

theorem Records.isSome_attachment? (records : registry.Records calls) {source path : Path}
    (member : path ∈ registry.linksOf source) : (registry.attachment? path).isSome := by
  rw [records.links] at member
  rw [records.stored]
  exact isSome_firstAttached?_of_mem_pulled (mem_of_mem_eraseDupsBy _ member)

/-- Every linked path has a file, so the lookup drops none. -/
theorem Records.forall₂_attachmentsOf (records : registry.Records calls) (source : Path) :
    List.Forall₂ (fun path attachment =>
        attachment.path.same path = true ∧ firstAttached? calls path = some attachment)
      (registry.linksOf source) (registry.attachmentsOf source) := by
  have present : ∀ path ∈ registry.linksOf source, (registry.attachment? path).isSome :=
    fun _ member => records.isSome_attachment? member
  rw [attachmentsOf]
  generalize registry.linksOf source = paths at present
  induction paths with
  | nil => exact .nil
  | cons path paths inductionHypothesis =>
    obtain ⟨here, later⟩ := List.forall_mem_cons.mp present
    obtain ⟨attachment, found⟩ := Option.isSome_iff_exists.mp here
    have first := (records.stored path).symm.trans found
    rw [List.filterMap_cons_some found]
    exact .cons ⟨same_of_firstAttached? first, first⟩ (inductionHypothesis later)

theorem Records.pairwise_attachmentsOf (records : registry.Records calls) (source : Path) :
    (registry.attachmentsOf source).Pairwise fun earlier later =>
      earlier.path.same later.path = false := by
  have keys : (registry.linksOf source).map Path.key =
      (registry.attachmentsOf source).map fun attachment => attachment.path.key := by
    rw [← List.forall₂_eq_eq_eq, List.forall₂_map_left_iff, List.forall₂_map_right_iff]
    exact (records.forall₂_attachmentsOf source).imp fun _ _ file =>
      (Path.same_iff_key_eq.mp file.1).symm
  have distinct : ((registry.linksOf source).map Path.key).Nodup := by
    rw [records.links, List.Nodup, List.pairwise_map]
    refine (pairwise_eraseDupsBy Path.same _).imp fun different same => ?_
    rw [Path.same_iff_key_eq.mpr same.symm] at different
    cases different
  rw [keys, List.Nodup, List.pairwise_map] at distinct
  refine distinct.imp fun different => Bool.eq_false_iff.mpr fun same => ?_
  exact different (Path.same_iff_key_eq.mp same)

/-- After any calls on an empty registry, a source file pulls in the paths that it attached or
linked, each one once and in that order, with the files that were attached first under them; a link
fails, and changes nothing, if and only if its path was never attached. -/
theorem run_attaches_once (matching : NameMatching) (calls : List RegistryCall) (source : Path) :
    let registry := (empty matching).run calls
    registry.linksOf source = (pulled source [] calls).eraseDupsBy Path.same ∧
      List.Forall₂ (fun path attachment =>
          attachment.path.same path = true ∧ firstAttached? calls path = some attachment)
        (registry.linksOf source) (registry.attachmentsOf source) ∧
      ((registry.attachmentsOf source).Pairwise fun earlier later =>
        earlier.path.same later.path = false) ∧
      (∀ path ∈ registry.linksOf source, (registry.attachment? path).isSome) ∧
      ∀ path, registry.link? source path = none ∧ registry.call (.link source path) = registry ↔
        firstAttached? calls path = none := by
  extract_lets registry
  have records : registry.Records calls := records_run matching calls
  refine ⟨records.links source, records.forall₂_attachmentsOf source,
    records.pairwise_attachmentsOf source, fun _ => records.isSome_attachment?, fun path => ?_⟩
  have missing : registry.link? source path = none ↔ firstAttached? calls path = none := by
    rw [← Option.not_isSome_iff_eq_none, records.isSome_link?, Option.not_isSome_iff_eq_none]
  rw [← missing]
  refine ⟨And.left, fun fails => ⟨fails, ?_⟩⟩
  rw [Registry.call, fails, Option.getD_none]

/-- Two sources that share a file under two spellings of its path, a file that is attached again
with another text, a link that fails because its file comes later, and a module in between. -/
def sharedCalls : List RegistryCall :=
  [.link (.ofString "/b.js") (.ofString "/theme.css"),
    .attach (.ofString "/a.js") ⟨.ofString "/license.txt", .script, "MIT".toList⟩,
    .register ⟨⟨["forms".toList], "Slider".toList, by decide, by decide⟩,
      .ofString "/lib/forms/Slider.js", [], [], [], [], []⟩,
    .attach (.ofString "/a.js") ⟨.ofString "/theme.css", .stylesheet, "p".toList⟩,
    .attach (.ofString "/a.js") ⟨.ofString "/./license.txt", .markup, "ignored".toList⟩,
    .link (.ofString "/b.js") (.ofString "//theme.css"),
    .attach (.ofString "//b.js") ⟨.ofString "/license.txt", .script, "ignored".toList⟩]

example : (((empty .exact).run sharedCalls).attachmentsOf (.ofString "/b.js")).map
    (fun attachment => (String.ofList attachment.path.text, String.ofList attachment.text)) =
      [("/theme.css", "p"), ("/license.txt", "MIT")] := by
  decide +kernel

end Registry

end PageCompiler
