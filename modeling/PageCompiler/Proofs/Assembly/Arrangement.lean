import Mathlib.Data.List.Nodup
import PageCompiler.Proofs.Assembly.Pieces
import PageCompiler.Proofs.Registry.Postorder

/-! # How the pieces of a page are arranged

Among the pieces that source files contribute one after the other, every attachment comes once and
in front of all files that link it, because the keys of the attachments that are there grow with
every file. If the files are in dependency order, nothing stands in front of what it needs.
-/

namespace PageCompiler

/-! ## Attachments -/

theorem Registry.stored_of_mem_attachmentsOf {registry : Registry}
    (filed : ∀ (key : Text) (attachment : Attachment),
      registry.attachments[key]? = some attachment → attachment.path.key = key)
    {source : Path} {attachment : Attachment}
    (member : attachment ∈ registry.attachmentsOf source) :
    registry.attachments[attachment.path.key]? = some attachment := by
  obtain ⟨path, -, found⟩ := List.mem_filterMap.mp member
  rw [attachment?] at found
  rwa [filed _ _ found]

theorem of_mem_freshAttachments {attached : List Text} {attachments : List Attachment}
    {attachment : Attachment} (member : attachment ∈ freshAttachments attached attachments) :
    attachment ∈ attachments ∧ attachment.path.key ∉ attached := by
  induction attachments generalizing attached with
  | nil => exact absurd member List.not_mem_nil
  | cons first others inductionHypothesis =>
    rw [freshAttachments] at member
    split at member
    · obtain ⟨there, new⟩ := inductionHypothesis member
      exact ⟨List.mem_cons_of_mem _ there, new⟩
    · next new =>
      rcases List.mem_cons.mp member with rfl | member
      · exact ⟨List.mem_cons_self, by simpa using new⟩
      · obtain ⟨there, newToo⟩ := inductionHypothesis member
        exact ⟨List.mem_cons_of_mem _ there, fun old => newToo (List.mem_append_left _ old)⟩

theorem mem_attached_freshAttachments {attached : List Text} {attachments : List Attachment}
    {attachment : Attachment} (member : attachment ∈ attachments) :
    attachment.path.key ∈ attached ++ attachmentKeys (freshAttachments attached attachments) := by
  induction attachments generalizing attached with
  | nil => exact absurd member List.not_mem_nil
  | cons first others inductionHypothesis =>
    rw [freshAttachments]
    split
    · next old =>
      rcases List.mem_cons.mp member with rfl | member
      · exact List.mem_append_left _ (by simpa using old)
      · exact inductionHypothesis member
    · rw [attachmentKeys, List.map_cons, List.append_cons]
      rcases List.mem_cons.mp member with rfl | member
      · exact List.mem_append_left _ (List.mem_append_right _ List.mem_cons_self)
      · exact inductionHypothesis member

theorem nodup_attachmentKeys_freshAttachments (attached : List Text)
    (attachments : List Attachment) :
    (attachmentKeys (freshAttachments attached attachments)).Nodup := by
  induction attachments generalizing attached with
  | nil => exact List.nodup_nil
  | cons first others inductionHypothesis =>
    rw [freshAttachments]
    split
    · exact inductionHypothesis attached
    · refine List.nodup_cons.mpr ⟨fun again => ?_, inductionHypothesis _⟩
      obtain ⟨other, member, same⟩ := List.mem_map.mp again
      refine (of_mem_freshAttachments member).2 ?_
      rw [same]
      exact List.mem_append_right _ List.mem_cons_self

/-! ## Owners -/

section

variable {registry : Registry} {contributors : List Contributor}

theorem of_mem_lineup {attached : List Text} {participant : Participant}
    (member : participant ∈ lineup registry attached contributors) :
    (∃ attachment, participant = attachment.participant ∧ attachment.path.key ∉ attached ∧
        ∃ contributor ∈ contributors, attachment ∈ registry.attachmentsOf contributor.path) ∨
      ∃ contributor ∈ contributors, participant = contributor.participant := by
  induction contributors generalizing attached with
  | nil => exact absurd member List.not_mem_nil
  | cons contributor others inductionHypothesis =>
    rw [lineup, List.mem_append, List.mem_cons] at member
    rcases member with fresh | own | later
    · obtain ⟨attachment, there, rfl⟩ := List.mem_map.mp fresh
      obtain ⟨linked, new⟩ := of_mem_freshAttachments there
      exact .inl ⟨attachment, rfl, new, contributor, List.mem_cons_self, linked⟩
    · exact .inr ⟨contributor, List.mem_cons_self, own⟩
    · rcases inductionHypothesis later with ⟨attachment, same, new, other, there, linked⟩ |
        ⟨other, there, own⟩
      · exact .inl ⟨attachment, same, fun old => new (List.mem_append_left _ old), other,
          List.mem_cons_of_mem _ there, linked⟩
      · exact .inr ⟨other, List.mem_cons_of_mem _ there, own⟩

theorem of_mem_collect {attached : List Text} {piece : Piece}
    (member : piece ∈ collect registry attached contributors) :
    (∃ attachment, piece = attachment.piece ∧ attachment.path.key ∉ attached ∧
        ∃ contributor ∈ contributors, attachment ∈ registry.attachmentsOf contributor.path) ∨
      ∃ contributor ∈ contributors, piece ∈ contributor.pieces := by
  rw [collect_eq_flatMap] at member
  obtain ⟨participant, there, owned⟩ := List.mem_flatMap.mp member
  rcases of_mem_lineup there with ⟨attachment, rfl, new, linked⟩ | ⟨contributor, listed, rfl⟩
  · exact .inl ⟨attachment, List.mem_singleton.mp owned, new, linked⟩
  · exact .inr ⟨contributor, listed, owned⟩

/-- Source files own their pieces alone. -/
def OwnedBySources (contributors : List Contributor) : Prop :=
  ∀ contributor ∈ contributors, ∀ attachment, contributor.owner ≠ .attachment attachment

theorem attachment_of_mem_collect (sources : OwnedBySources contributors) {attached : List Text}
    {piece : Piece} (member : piece ∈ collect registry attached contributors)
    {attachment : Attachment} (owned : piece.owner = .attachment attachment) :
    attachment.path.key ∉ attached ∧
      ∃ contributor ∈ contributors, attachment ∈ registry.attachmentsOf contributor.path := by
  rcases of_mem_collect member with ⟨other, rfl, new, linked⟩ | ⟨contributor, there, own⟩
  · cases owned
    exact ⟨new, linked⟩
  · rw [Contributor.owner_of_mem own] at owned
    exact absurd owned (sources contributor there attachment)

theorem filter_pieces {contributor : Contributor} {owner : Owner} :
    contributor.pieces.filter (fun piece => piece.owner = owner) =
      if contributor.owner = owner then contributor.pieces else [] := by
  split
  · next same =>
    refine List.filter_eq_self.mpr fun piece member => ?_
    rw [Contributor.owner_of_mem member]
    exact decide_eq_true same
  · next different =>
    refine List.filter_eq_nil_iff.mpr fun piece member => ?_
    rw [Contributor.owner_of_mem member]
    simpa using different

theorem filter_map_of_nodup {α β : Type} [DecidableEq α] {list : List α} (nodup : list.Nodup)
    {function : α → β} {accepts : β → Bool} (element : α)
    (accepted : ∀ other, accepts (function other) = decide (other = element)) :
    (list.map function).filter accepts = if element ∈ list then [function element] else [] := by
  rw [List.filter_map, funext accepted (f := accepts ∘ function), List.filter_eq, nodup.count]
  split <;> rfl

/-- Each linked attachment is collected once, unless it was there before. -/
theorem filter_collect_attachment (sources : OwnedBySources contributors)
    (filed : ∀ (key : Text) (attachment : Attachment),
      registry.attachments[key]? = some attachment → attachment.path.key = key)
    {attached : List Text} {attachment : Attachment} (new : attachment.path.key ∉ attached)
    (linked : ∃ contributor ∈ contributors, attachment ∈ registry.attachmentsOf contributor.path) :
    (collect registry attached contributors).filter
        (fun piece => piece.owner = .attachment attachment) = [attachment.piece] := by
  induction contributors generalizing attached with
  | nil =>
    obtain ⟨_, member, -⟩ := linked
    exact absurd member List.not_mem_nil
  | cons contributor others inductionHypothesis =>
    have sourcesToo : OwnedBySources others := fun other member =>
      sources other (List.mem_cons_of_mem _ member)
    have distinct :=
      nodup_attachmentKeys_freshAttachments attached (registry.attachmentsOf contributor.path)
    have isLinked (other : Attachment) := @of_mem_freshAttachments attached
      (registry.attachmentsOf contributor.path) other
    have isKnown (other : Attachment) := @mem_attached_freshAttachments attached
      (registry.attachmentsOf contributor.path) other
    rw [collect]
    generalize freshAttachments attached (registry.attachmentsOf contributor.path) = fresh at *
    rw [List.filter_append, List.filter_append,
      filter_map_of_nodup (List.Nodup.of_map _ distinct) attachment (by simp [Attachment.piece]),
      filter_pieces, if_neg (sources contributor List.mem_cons_self attachment), List.append_nil]
    split
    · next here =>
      -- Its key is there from now on.
      have later : (collect registry (attached ++ attachmentKeys fresh) others).filter
          (fun piece => piece.owner = .attachment attachment) = [] := by
        refine List.filter_eq_nil_iff.mpr fun piece member owned => ?_
        exact (attachment_of_mem_collect sourcesToo member (of_decide_eq_true owned)).1
          (List.mem_append_right _ (List.mem_map_of_mem here))
      rw [later, List.append_nil]
    · next absent =>
      -- Attachments are filed under their keys, so none of the new ones has its key.
      obtain ⟨source, member, linked⟩ := linked
      have stillNew : attachment.path.key ∉ attached ++ attachmentKeys fresh := by
        intro there
        obtain ⟨other, here, same⟩ :=
          List.mem_map.mp ((List.mem_append.mp there).resolve_left new)
        have stored := registry.stored_of_mem_attachmentsOf filed (isLinked other here).1
        rw [same, registry.stored_of_mem_attachmentsOf filed linked] at stored
        cases stored
        exact absent here
      rcases List.mem_cons.mp member with rfl | member
      · exact absurd (isKnown attachment linked) stillNew
      · exact inductionHypothesis sourcesToo stillNew ⟨source, member, linked⟩

theorem filter_collect_owner {owner : Owner} (source : ∀ attachment, owner ≠ .attachment attachment)
    (attached : List Text) :
    (collect registry attached contributors).filter (fun piece => piece.owner = owner) =
      (contributors.filter fun contributor => contributor.owner = owner).flatMap
        Contributor.pieces := by
  induction contributors generalizing attached with
  | nil => rfl
  | cons contributor others inductionHypothesis =>
    have attachments : ((freshAttachments attached (registry.attachmentsOf contributor.path)).map
        Attachment.piece).filter (fun piece => piece.owner = owner) = [] := by
      refine List.filter_eq_nil_iff.mpr fun piece member owned => ?_
      obtain ⟨attachment, -, rfl⟩ := List.mem_map.mp member
      exact source attachment (of_decide_eq_true owned).symm
    rw [collect, List.filter_append, List.filter_append, inductionHypothesis, filter_pieces,
      attachments, List.nil_append, List.filter_cons]
    by_cases owns : contributor.owner = owner <;> simp [owns]

/-! ## Order -/

theorem pairwise_collect (sources : OwnedBySources contributors) {needs : Owner → Owner → Prop}
    (attachments : ∀ attachment owner, ¬ needs (.attachment attachment) owner)
    (links : ∀ contributor ∈ contributors, ∀ attachment,
      needs contributor.owner (.attachment attachment) →
        attachment ∈ registry.attachmentsOf contributor.path)
    (itself : ∀ contributor ∈ contributors, ¬ needs contributor.owner contributor.owner)
    (ordered : contributors.Pairwise fun earlier later => ¬ needs earlier.owner later.owner)
    (attached : List Text) :
    (collect registry attached contributors).Pairwise
      fun earlier later => ¬ needs earlier.owner later.owner := by
  induction contributors generalizing attached with
  | nil => exact .nil
  | cons contributor others inductionHypothesis =>
    rw [List.pairwise_cons] at ordered
    have sourcesToo : OwnedBySources others := fun other member =>
      sources other (List.mem_cons_of_mem _ member)
    have later := inductionHypothesis sourcesToo
      (fun other member => links other (List.mem_cons_of_mem _ member))
      (fun other member => itself other (List.mem_cons_of_mem _ member)) ordered.2
    have ofAttachment (fresh : List Attachment) :
        ∀ piece ∈ fresh.map Attachment.piece, ∀ owner, ¬ needs piece.owner owner := by
      intro piece member
      obtain ⟨attachment, -, rfl⟩ := List.mem_map.mp member
      exact attachments attachment
    have isKnown (attachment : Attachment) := @mem_attached_freshAttachments attached
      (registry.attachmentsOf contributor.path) attachment
    rw [collect]
    generalize freshAttachments attached (registry.attachmentsOf contributor.path) = fresh at *
    -- Attachments need nothing, and what a source file links is there before its own pieces.
    refine List.pairwise_append.mpr ⟨List.pairwise_append.mpr ⟨?_, ?_, ?_⟩, later _, ?_⟩
    · exact List.pairwise_of_forall_mem_list fun piece member other _ =>
        ofAttachment fresh piece member _
    · refine List.pairwise_of_forall_mem_list fun piece member other memberToo => ?_
      rw [Contributor.owner_of_mem member, Contributor.owner_of_mem memberToo]
      exact itself contributor List.mem_cons_self
    · exact fun piece member other _ => ofAttachment fresh piece member _
    · intro piece member other behind
      rcases List.mem_append.mp member with attached | own
      · exact ofAttachment fresh piece attached _
      · rw [Contributor.owner_of_mem own]
        rcases of_mem_collect behind with ⟨attachment, rfl, new, -⟩ | ⟨source, there, ownToo⟩
        · exact fun needed => new (isKnown attachment
            (links contributor List.mem_cons_self attachment needed))
        · rw [Contributor.owner_of_mem ownToo]
          exact ordered.1 source there

theorem exists_collect_concat (registry : Registry) (contributors : List Contributor)
    (attached : List Text) (last : Contributor) :
    ∃ others, collect registry attached (contributors ++ [last]) = others ++ last.pieces ∧
      ∀ piece ∈ others, (∃ attachment, piece.owner = .attachment attachment) ∨
        ∃ contributor ∈ contributors, piece.owner = contributor.owner := by
  have ofFresh (fresh : List Attachment) : ∀ piece ∈ fresh.map Attachment.piece,
      ∃ attachment, piece.owner = .attachment attachment := by
    intro piece member
    obtain ⟨attachment, -, rfl⟩ := List.mem_map.mp member
    exact ⟨attachment, rfl⟩
  induction contributors generalizing attached with
  | nil =>
    rw [List.nil_append, collect, collect, List.append_nil]
    exact ⟨_, rfl, fun piece member => .inl (ofFresh _ piece member)⟩
  | cons contributor contributors inductionHypothesis =>
    rw [List.cons_append, collect]
    obtain ⟨others, split, owned⟩ := inductionHypothesis (attached ++ attachmentKeys
      (freshAttachments attached (registry.attachmentsOf contributor.path)))
    rw [split, ← List.append_assoc]
    refine ⟨_, rfl, fun piece member => ?_⟩
    rcases List.mem_append.mp member with here | later
    · rcases List.mem_append.mp here with fresh | own
      · exact .inl (ofFresh _ piece fresh)
      · exact .inr ⟨contributor, List.mem_cons_self, Contributor.owner_of_mem own⟩
    · refine (owned piece later).imp_right ?_
      rintro ⟨other, there, same⟩
      exact ⟨other, List.mem_cons_of_mem _ there, same⟩

end

/-! ## Pages -/

namespace Registry

/-- The owner is the entry file or a module, and its source file links the attachment. -/
inductive Links (registry : Registry) (entry : SourceFile) : Owner → Attachment → Prop where
  | entry {attachment : Attachment} (linked : attachment ∈ registry.attachmentsOf entry.path) :
      Links registry entry .entry attachment
  | module {compiled : CompiledModule} {attachment : Attachment}
      (linked : attachment ∈ registry.attachmentsOf compiled.path) :
      Links registry entry (.module compiled) attachment

/-- The first owner links or imports the second one. -/
inductive Needs (registry : Registry) (entry : SourceFile) : Owner → Owner → Prop where
  | links {owner : Owner} {attachment : Attachment}
      (linked : registry.Links entry owner attachment) :
      Needs registry entry owner (.attachment attachment)
  | imports {importing imported : CompiledModule} {name : ModuleName}
      (dependency : name ∈ importing.dependencies)
      (found : registry.lookup? name = some imported) :
      Needs registry entry (.module importing) (.module imported)

theorem Needs.links_attachment {registry : Registry} {entry : SourceFile} {owner : Owner}
    {attachment : Attachment} (needs : registry.Needs entry owner (.attachment attachment)) :
    registry.Links entry owner attachment := by
  cases needs with
  | links linked => exact linked

/-- The owner has a part in the page: the entry file, the modules that it reaches, and the
attachments that these link. -/
inductive TakesPart (registry : Registry) (entry : SourceFile) : Owner → Prop where
  | entry : TakesPart registry entry .entry
  | module {compiled : CompiledModule}
      (reached : registry.Reached (importedNames entry) compiled) :
      TakesPart registry entry (.module compiled)
  | attachment {owner : Owner} {attachment : Attachment} (linking : TakesPart registry entry owner)
      (linked : registry.Links entry owner attachment) :
      TakesPart registry entry (.attachment attachment)

/-- What is imported takes part. Every attachment that takes part has one piece, every module has
its own pieces in their order, and the entry file has the last ones. Nothing stands in front of what
it needs. -/
structure Arranges (registry : Registry) (entry : SourceFile) (script : Text)
    (pieces : List Piece) : Prop where
  imports : ∀ name, name ∈ importedNames entry ∨
      (∃ compiled, registry.TakesPart entry (.module compiled) ∧ name ∈ compiled.dependencies) →
    ∃ imported, registry.lookup? name = some imported ∧ registry.TakesPart entry (.module imported)
  owners : ∀ piece ∈ pieces, registry.TakesPart entry piece.owner
  attachments : ∀ attachment, registry.TakesPart entry (.attachment attachment) →
    pieces.filter (fun piece => piece.owner = .attachment attachment) = [attachment.piece]
  modules : ∀ compiled, registry.TakesPart entry (.module compiled) →
    pieces.filter (fun piece => piece.owner = .module compiled) = compiled.contributor.pieces
  entryLast : ∃ others, pieces = others ++ (entry.contributor script).pieces ∧
    ∀ piece ∈ others, piece.owner ≠ .entry
  ordered : pieces.Pairwise fun earlier later => ¬ registry.Needs entry earlier.owner later.owner

end Registry

section

variable {registry : Registry} {entry : SourceFile} {modules : List CompiledModule}

theorem links_of_mem {script : Text} {contributor : Contributor}
    (member : contributor ∈ modules.map CompiledModule.contributor ++ [entry.contributor script])
    (attachment : Attachment) :
    registry.Links entry contributor.owner attachment ↔
      attachment ∈ registry.attachmentsOf contributor.path := by
  rcases List.mem_append.mp member with listed | last
  · obtain ⟨compiled, -, rfl⟩ := List.mem_map.mp listed
    exact ⟨fun | .module linked => linked, .module⟩
  · rw [List.mem_singleton.mp last]
    exact ⟨fun | .entry linked => linked, .entry⟩

variable (sound : registry.Sound)
  (ordered : registry.order (importedNames entry) entry.path = .ok modules)

include sound ordered

theorem not_needs_of_mem (script : Text) :
    ∀ contributor ∈ modules.map CompiledModule.contributor ++ [entry.contributor script],
      ¬ registry.Needs entry contributor.owner contributor.owner := by
  intro contributor member needs
  rcases List.mem_append.mp member with listed | last
  · obtain ⟨compiled, there, rfl⟩ := List.mem_map.mp listed
    cases needs with
    | imports dependency found =>
      have postorder := Registry.order_postorder sound.keyed ordered
      exact postorder.lookup?_ne_self sound.keyed there dependency found
  · rw [List.mem_singleton.mp last] at needs
    cases needs

/-- The modules stand in dependency order, and no module needs the entry file. -/
theorem pairwise_contributors (script : Text) :
    (modules.map CompiledModule.contributor ++ [entry.contributor script]).Pairwise
      fun earlier later => ¬ registry.Needs entry earlier.owner later.owner := by
  refine List.pairwise_append.mpr ⟨List.pairwise_map.mpr ?_, List.pairwise_singleton _ _,
    fun contributor listed last isLast needs => ?_⟩
  · refine ((Registry.order_postorder sound.keyed ordered).pairwise sound.keyed).imp fun apart needs => ?_
    cases needs with
    | imports dependency found => exact apart _ dependency found
  · obtain ⟨compiled, -, rfl⟩ := List.mem_map.mp listed
    rw [List.mem_singleton.mp isLast] at needs
    cases needs

/-- The modules that take part are the ones in the order. -/
theorem takesPart_module_iff (compiled : CompiledModule) :
    registry.TakesPart entry (.module compiled) ↔ compiled ∈ modules := by
  rw [Registry.mem_order_iff sound.keyed ordered compiled]
  constructor
  · rintro (_ | reached | _)
    exact reached
  · exact .module

theorem takesPart_of_mem {script : Text} {contributor : Contributor}
    (member : contributor ∈ modules.map CompiledModule.contributor ++
      [entry.contributor script]) : registry.TakesPart entry contributor.owner := by
  rcases List.mem_append.mp member with listed | last
  · obtain ⟨compiled, there, rfl⟩ := List.mem_map.mp listed
    exact (takesPart_module_iff sound ordered compiled).mpr there
  · rw [List.mem_singleton.mp last]
    exact .entry

theorem exists_contributor (script : Text) {attachment : Attachment}
    (takesPart : registry.TakesPart entry (.attachment attachment)) :
    ∃ contributor ∈ modules.map CompiledModule.contributor ++ [entry.contributor script],
      attachment ∈ registry.attachmentsOf contributor.path := by
  cases takesPart with
  | attachment linking links =>
    cases links with
    | entry linked => exact ⟨_, List.mem_append_right _ List.mem_cons_self, linked⟩
    | module linked =>
      have listed := (takesPart_module_iff sound ordered _).mp linking
      exact ⟨_, List.mem_append_left _ (List.mem_map_of_mem listed), linked⟩

theorem arranges_collect
    (filed : ∀ (key : Text) (attachment : Attachment),
      registry.attachments[key]? = some attachment → attachment.path.key = key) (script : Text) :
    registry.Arranges entry script (collect registry []
      (modules.map CompiledModule.contributor ++ [entry.contributor script])) := by
  have sources : OwnedBySources
      (modules.map CompiledModule.contributor ++ [entry.contributor script]) := by
    intro contributor member attachment owned
    rcases List.mem_append.mp member with listed | last
    · obtain ⟨compiled, -, rfl⟩ := List.mem_map.mp listed
      cases owned
    · rw [List.mem_singleton.mp last] at owned
      cases owned
  constructor
  case imports =>
    intro name imported
    have found : ∃ imported ∈ modules, registry.lookup? name = some imported := by
      rcases imported with root | ⟨importing, takesPart, dependency⟩
      · exact Registry.lookup?_root sound.keyed ordered root
      · exact (Registry.order_postorder sound.keyed ordered).lookup?_dependency
          ((takesPart_module_iff sound ordered importing).mp takesPart) dependency
    obtain ⟨imported, listed, looked⟩ := found
    exact ⟨imported, looked, (takesPart_module_iff sound ordered imported).mpr listed⟩
  case owners =>
    intro piece member
    rcases of_mem_collect member with ⟨attachment, rfl, -, contributor, there, linked⟩ |
      ⟨contributor, there, own⟩
    · exact .attachment (takesPart_of_mem sound ordered there)
        ((links_of_mem there attachment).mpr linked)
    · rw [Contributor.owner_of_mem own]
      exact takesPart_of_mem sound ordered there
  case attachments =>
    intro attachment takesPart
    exact filter_collect_attachment sources filed List.not_mem_nil
      (exists_contributor sound ordered script takesPart)
  case modules =>
    intro compiled takesPart
    have listed := (takesPart_module_iff sound ordered compiled).mp takesPart
    have distinct := (Registry.order_postorder sound.keyed ordered).distinct
    rw [filter_collect_owner (fun _ => Owner.noConfusion), List.filter_append,
      filter_map_of_nodup (List.Nodup.of_map _ distinct) compiled
        (by simp [CompiledModule.contributor]), if_pos listed]
    simp [SourceFile.contributor]
  case entryLast =>
    obtain ⟨others, split, owned⟩ := exists_collect_concat registry
      (modules.map CompiledModule.contributor) [] (entry.contributor script)
    refine ⟨others, split, fun piece member isEntry => ?_⟩
    rcases owned piece member with ⟨attachment, same⟩ | ⟨contributor, there, same⟩
    · cases isEntry.symm.trans same
    · obtain ⟨compiled, -, rfl⟩ := List.mem_map.mp there
      cases isEntry.symm.trans same
  case ordered =>
    refine pairwise_collect sources (fun attachment owner needs => ?_)
      (fun contributor member attachment needs => ?_)
      (not_needs_of_mem sound ordered script) (pairwise_contributors sound ordered script) []
    · cases needs with
      | links linked => cases linked
    · exact (links_of_mem member attachment).mp needs.links_attachment

end

end PageCompiler
