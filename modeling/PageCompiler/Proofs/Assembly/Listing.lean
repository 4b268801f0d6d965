import Mathlib.Data.List.Flatten
import PageCompiler.Build
import PageCompiler.Proofs.Assembly.Arrangement
import PageCompiler.Proofs.Path.Components

/-! # Listing the files of a page

`participants` looks for every attachment among all paths that it has listed, the assembler among
the keys of the attachments alone. Where no attachment is a source file, both find the same ones
new, so the listed paths are those of the lineup that the page shows. In it no path comes twice if
the source files are different ones.
-/

namespace PageCompiler

theorem Path.same_eq (first second : Path) : first.same second = (first.key == second.key) := by
  rw [Bool.eq_iff_iff, beq_iff_eq, Path.same_iff_key_eq]

/-! ## Known attachments -/

/-- Attachments are known by their keys. -/
theorem any_same_append (paths : List Path) (attachments : List Attachment) (path : Path) :
    (paths ++ attachments.map Attachment.path).any path.same =
      (paths.any path.same || (attachmentKeys attachments).contains path.key) := by
  rw [List.any_append, List.any_map, attachmentKeys, List.contains_eq_any_beq, List.any_map]
  refine congrArg _ (congrArg (List.any attachments) (funext fun attachment => ?_))
  exact Path.same_eq path attachment.path

/-- The path is listed exactly if its key is that of an attachment which is there. -/
def IsKnownAlike (paths : List Path) (attached : List Text) (path : Path) : Prop :=
  paths.any path.same = attached.contains path.key

theorem IsKnownAlike.append {paths : List Path} {attached : List Text} {path : Path}
    (alike : IsKnownAlike paths attached path) (attachments : List Attachment) :
    IsKnownAlike (paths ++ attachments.map Attachment.path)
      (attached ++ attachmentKeys attachments) path := by
  rw [IsKnownAlike, any_same_append, alike, List.contains_append]

theorem IsKnownAlike.concat {paths : List Path} {attached : List Text} {path other : Path}
    (alike : IsKnownAlike paths attached path) (different : path.same other = false) :
    IsKnownAlike (paths ++ [other]) attached path := by
  rw [IsKnownAlike, List.any_append, alike, List.any_cons, different]
  simp

theorem foldl_listAttachment {paths : List Path} {attached : List Text}
    {attachments : List Attachment}
    (alike : ∀ attachment ∈ attachments, IsKnownAlike paths attached attachment.path) :
    attachments.foldl (fun paths attachment =>
        if paths.any attachment.path.same then paths else paths ++ [attachment.path]) paths =
      paths ++ (freshAttachments attached attachments).map Attachment.path := by
  induction attachments generalizing paths attached with
  | nil => exact (List.append_nil paths).symm
  | cons first others inductionHypothesis =>
    obtain ⟨known, alike⟩ := List.forall_mem_cons.mp alike
    rw [List.foldl_cons, freshAttachments, known]
    split
    · exact inductionHypothesis alike
    · have later : ∀ other ∈ others, IsKnownAlike (paths ++ [first.path])
          (attached ++ [first.path.key]) other.path :=
        fun other member => (alike other member).append [first]
      rw [inductionHypothesis later, List.map_cons, List.append_assoc]
      rfl

section

variable {registry : Registry}

/-- No attachment of the source files is one of them. -/
def Registry.AttachesOthers (registry : Registry) (sources : List Path) : Prop :=
  ∀ source ∈ sources, ∀ attachment ∈ registry.attachmentsOf source, ∀ other ∈ sources,
    attachment.path.same other = false

instance (registry : Registry) (sources : List Path) :
    Decidable (registry.AttachesOthers sources) :=
  inferInstanceAs (Decidable (∀ source ∈ sources, ∀ attachment ∈ registry.attachmentsOf source,
    ∀ other ∈ sources, attachment.path.same other = false))

theorem Registry.AttachesOthers.tail {source : Path} {sources : List Path}
    (others : registry.AttachesOthers (source :: sources)) : registry.AttachesOthers sources :=
  fun listed member attachment linked other there =>
    others listed (List.mem_cons_of_mem _ member) attachment linked other
      (List.mem_cons_of_mem _ there)

theorem foldl_participants {contributors : List Contributor}
    (apart : registry.AttachesOthers (contributors.map Contributor.path)) {paths : List Path}
    {attached : List Text}
    (alike : ∀ contributor ∈ contributors,
      ∀ attachment ∈ registry.attachmentsOf contributor.path,
        IsKnownAlike paths attached attachment.path) :
    (contributors.map Contributor.path).foldl (fun paths source =>
        (registry.attachmentsOf source).foldl (fun paths attachment =>
          if paths.any attachment.path.same then paths else paths ++ [attachment.path]) paths
        ++ [source]) paths =
      paths ++ (lineup registry attached contributors).map Participant.path := by
  induction contributors generalizing paths attached with
  | nil => exact (List.append_nil paths).symm
  | cons contributor others inductionHypothesis =>
    rw [List.map_cons] at apart
    -- Both sides grow by the same attachments, and the listed source is none of those to come.
    have later : ∀ other ∈ others, ∀ attachment ∈ registry.attachmentsOf other.path,
        IsKnownAlike
          (paths ++ (freshAttachments attached (registry.attachmentsOf contributor.path)).map
            Attachment.path ++ [contributor.path])
          (attached ++ attachmentKeys (freshAttachments attached
            (registry.attachmentsOf contributor.path))) attachment.path := by
      intro other member attachment linked
      refine ((alike other (.tail _ member) attachment linked).append _).concat ?_
      exact apart other.path (.tail _ (List.mem_map_of_mem member)) attachment linked _ (.head _)
    rw [List.map_cons, List.foldl_cons, foldl_listAttachment (alike contributor (.head _)),
      inductionHypothesis apart.tail later, lineup, List.map_append, List.map_map, List.map_cons,
      List.append_assoc, List.append_assoc]
    rfl

theorem participants_eq {contributors : List Contributor}
    (apart : registry.AttachesOthers (contributors.map Contributor.path)) :
    participants registry (contributors.map Contributor.path) =
      (lineup registry [] contributors).map Participant.path :=
  foldl_participants apart fun _ _ _ _ => rfl

/-! ## Distinct paths -/

theorem Path.text_ne_of_same_eq_false {first second : Path}
    (different : first.same second = false) : first.text ≠ second.text := by
  intro agree
  obtain rfl : first = second := congrArg Path.mk agree
  rw [Path.same_eq, beq_self_eq_true] at different
  cases different

theorem pairwise_lineup {contributors : List Contributor}
    (apart : registry.AttachesOthers (contributors.map Contributor.path))
    (distinct : contributors.Pairwise fun first second => first.path.text ≠ second.path.text)
    (attached : List Text) :
    (lineup registry attached contributors).Pairwise
      fun first second => first.path.text ≠ second.path.text := by
  induction contributors generalizing attached with
  | nil => exact .nil
  | cons contributor others inductionHypothesis =>
    rw [List.map_cons] at apart
    rw [List.pairwise_cons] at distinct
    have ofSource : ∀ attachment ∈ registry.attachmentsOf contributor.path,
        ∀ other ∈ contributor :: others, attachment.path.text ≠ other.path.text :=
      fun attachment linked other there => Path.text_ne_of_same_eq_false
        (apart _ (.head _) attachment linked _ (List.mem_map_of_mem there))
    rw [lineup]
    refine List.pairwise_append.mpr ⟨?_, List.pairwise_cons.mpr ⟨?_, ?_⟩, ?_⟩
    · have keys := nodup_attachmentKeys_freshAttachments attached
        (registry.attachmentsOf contributor.path)
      refine List.pairwise_map.mpr ((List.pairwise_map.mp keys).imp fun apart agree => apart ?_)
      exact congrArg (fun text => Path.key ⟨text⟩) agree
    · intro participant member
      rcases of_mem_lineup member with ⟨attachment, rfl, -, other, there, linked⟩ |
        ⟨other, there, rfl⟩
      · exact (Path.text_ne_of_same_eq_false (apart _ (.tail _ (List.mem_map_of_mem there))
          attachment linked _ (.head _))).symm
      · exact distinct.1 other there
    · exact inductionHypothesis apart.tail distinct.2 _
    · intro participant fresh behind later
      obtain ⟨attachment, there, rfl⟩ := List.mem_map.mp fresh
      have linked := (of_mem_freshAttachments there).1
      rcases List.mem_cons.mp later with rfl | later
      · exact ofSource attachment linked contributor (.head _)
      · rcases of_mem_lineup later with ⟨other, rfl, new, -⟩ | ⟨other, listed, rfl⟩
        · -- Its key is among those that are there.
          intro agree
          refine new (List.mem_append_right _ (List.mem_map.mpr ⟨attachment, there, ?_⟩))
          exact congrArg (fun text => Path.key ⟨text⟩) agree
        · exact ofSource attachment linked other (.tail _ listed)

/-! ## Order in the sections -/

/-- In every section, what a file shows stands in front of what a later file shows. -/
theorem sublist_fragments {document : Document} {participants : List Participant}
    (shows_ : ∀ kind, document.fragments kind =
      participants.flatMap fun participant => participant.fragments kind)
    {first second : Participant} (order : [first, second].Sublist participants) (kind : Section) :
    (first.fragments kind ++ second.fragments kind).Sublist (document.fragments kind) := by
  have pair := order.flatMap fun participant => participant.fragments kind
  rwa [shows_ kind, ← List.append_nil (second.fragments kind)]

theorem sublist_of_texts {participants : List Participant}
    (distinct : (participants.map fun participant => participant.path.text).Nodup)
    {first second : Participant} (firstMember : first ∈ participants)
    (secondMember : second ∈ participants)
    (order : [first.path.text, second.path.text].Sublist
      (participants.map fun participant => participant.path.text)) :
    [first, second].Sublist participants := by
  obtain ⟨pair, sublist, texts⟩ := List.sublist_map_iff.mp order
  have injective := List.inj_on_of_nodup_map distinct
  obtain ⟨one, others, rfl, same, rest⟩ := List.map_eq_cons_iff.mp texts.symm
  obtain ⟨other, none, rfl, sameToo, nothing⟩ := List.map_eq_cons_iff.mp rest
  obtain rfl := List.map_eq_nil_iff.mp nothing
  obtain rfl := injective (sublist.subset (.head _)) firstMember same
  obtain rfl := injective (sublist.subset (.tail _ (.head _))) secondMember sameToo
  exact sublist

end

end PageCompiler
