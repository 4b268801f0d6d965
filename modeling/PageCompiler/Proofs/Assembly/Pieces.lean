import Mathlib.Data.List.Basic
import PageCompiler.Assembly.Page
import PageCompiler.Proofs.Text.Cutting

/-! # The pieces of a page

Everything that is pushed into a document is a piece of text with an owner: an attachment, a module
or the entry file. `collect` says which pieces some source files contribute one after the other, and
a draft that the files are pushed into shows exactly these pieces, without the blank ones.
-/

namespace PageCompiler

/-! ## Pieces -/

inductive Owner where
  | attachment (attachment : Attachment)
  | module (compiled : CompiledModule)
  | entry
deriving DecidableEq

/-- A text for a section of a page; it may be blank. -/
structure Piece where
  owner : Owner
  kind : Section
  origin : Text
  text : Text
deriving DecidableEq

namespace Piece

/-- The fragment that a piece is seen as, none if it is blank. -/
def fragment? (piece : Piece) : Option Fragment :=
  if (tidy piece.text).isEmpty then none else some ⟨piece.origin, tidy piece.text⟩

end Piece

namespace Document

def fragments (document : Document) : Section → List Fragment
  | .markup => document.markup
  | .stylesheet => document.stylesheet
  | .script => document.script

/-- Each section of the document has the fragments of its pieces, in their order. -/
def Shows (document : Document) (pieces : List Piece) : Prop :=
  ∀ kind, document.fragments kind =
    (pieces.filter fun piece => piece.kind = kind).filterMap Piece.fragment?

variable {document : Document} {pieces : List Piece}

theorem shows_empty : empty.Shows [] := by
  intro kind
  cases kind <;> rfl

theorem Shows.push (shows_ : document.Shows pieces) (owner : Owner) (kind : Section)
    (origin text : Text) :
    (document.push kind origin text).Shows (pieces ++ [⟨owner, kind, origin, text⟩]) := by
  have added (fragments : List Fragment) : addFragment fragments origin text =
      fragments ++ [⟨owner, kind, origin, text⟩].filterMap Piece.fragment? := by
    rw [addFragment, List.filterMap_cons, List.filterMap_nil, Piece.fragment?]
    dsimp only
    split <;> simp
  intro other
  have before := shows_ other
  rw [List.filter_append, List.filterMap_append, ← before]
  by_cases here : kind = other
  · subst here
    rw [List.filter_cons_of_pos (by simp), List.filter_nil, ← added]
    cases kind <;> rfl
  · rw [List.filter_cons_of_neg (by simpa using here), List.filter_nil, List.filterMap_nil,
      List.append_nil]
    cases kind <;> cases other <;> first | rfl | exact absurd rfl here

theorem Shows.pushAll (shows_ : document.Shows pieces) (owner : Owner) (kind : Section)
    (origin : Text) (texts : List Text) :
    (document.pushAll kind origin texts).Shows
      (pieces ++ texts.map fun text => ⟨owner, kind, origin, text⟩) := by
  rw [Document.pushAll]
  induction texts generalizing document pieces with
  | nil => simpa using shows_
  | cons text texts inductionHypothesis =>
    rw [List.foldl_cons, List.map_cons, List.append_cons]
    exact inductionHypothesis (shows_.push owner kind origin text)

end Document

/-! ## What is contributed -/

def Attachment.piece (attachment : Attachment) : Piece :=
  ⟨.attachment attachment, attachment.kind, attachment.path.text, attachment.text⟩

/-- A source file as part of a page. -/
structure Contributor where
  owner : Owner
  path : Path
  origin : Text
  markup : List Text
  stylesheet : List Text
  script : Text

namespace Contributor

def piece (contributor : Contributor) (kind : Section) (text : Text) : Piece :=
  ⟨contributor.owner, kind, contributor.origin, text⟩

/-- The pieces that a source file owns. -/
def pieces (contributor : Contributor) : List Piece :=
  contributor.markup.map (contributor.piece .markup) ++
    contributor.stylesheet.map (contributor.piece .stylesheet) ++
    [contributor.piece .script contributor.script]

theorem owner_of_mem {contributor : Contributor} {piece : Piece}
    (member : piece ∈ contributor.pieces) : piece.owner = contributor.owner := by
  simp only [pieces, List.mem_append, List.mem_map, List.mem_singleton] at member
  rcases member with (⟨_, -, rfl⟩ | ⟨_, -, rfl⟩) | rfl <;> rfl

end Contributor

def CompiledModule.contributor (compiled : CompiledModule) : Contributor where
  owner := .module compiled
  path := compiled.path
  origin := compiled.name.qualified
  markup := compiled.markup
  stylesheet := compiled.stylesheet
  script := compiled.script

def SourceFile.contributor (entry : SourceFile) (script : Text) : Contributor where
  owner := .entry
  path := entry.path
  origin := entry.path.text
  markup := entry.blocks .markup
  stylesheet := entry.blocks .stylesheet
  script := script

/-- The attachments whose keys are not among the given ones, each key once. -/
def freshAttachments (attached : List Text) : List Attachment → List Attachment
  | [] => []
  | attachment :: others =>
    if attached.contains attachment.path.key then freshAttachments attached others
    else attachment :: freshAttachments (attached ++ [attachment.path.key]) others

def attachmentKeys (attachments : List Attachment) : List Text :=
  attachments.map fun attachment => attachment.path.key

/-- The pieces that source files contribute one after the other, where attachments with the given
keys are there already. -/
def collect (registry : Registry) (attached : List Text) : List Contributor → List Piece
  | [] => []
  | contributor :: others =>
    let fresh := freshAttachments attached (registry.attachmentsOf contributor.path)
    fresh.map Attachment.piece ++ contributor.pieces ++
      collect registry (attached ++ attachmentKeys fresh) others

/-! ## Who contributes -/

/-- A file that takes part in a page, with the pieces that it owns. -/
structure Participant where
  path : Path
  pieces : List Piece

/-- What a section shows of a file. -/
def Participant.fragments (participant : Participant) (kind : Section) : List Fragment :=
  (participant.pieces.filter fun piece => piece.kind = kind).filterMap Piece.fragment?

def Attachment.participant (attachment : Attachment) : Participant :=
  ⟨attachment.path, [attachment.piece]⟩

def Contributor.participant (contributor : Contributor) : Participant :=
  ⟨contributor.path, contributor.pieces⟩

/-- Source files one after the other, each behind those of its attachments that are not there yet,
where attachments with the given keys are there from the start. -/
def lineup (registry : Registry) (attached : List Text) : List Contributor → List Participant
  | [] => []
  | contributor :: others =>
    let fresh := freshAttachments attached (registry.attachmentsOf contributor.path)
    fresh.map Attachment.participant ++ contributor.participant ::
      lineup registry (attached ++ attachmentKeys fresh) others

theorem collect_eq_flatMap (registry : Registry) (attached : List Text)
    (contributors : List Contributor) :
    collect registry attached contributors =
      (lineup registry attached contributors).flatMap Participant.pieces := by
  induction contributors generalizing attached with
  | nil => rfl
  | cons contributor others inductionHypothesis =>
    have pieces (fresh : List Attachment) :
        (fresh.map Attachment.participant).flatMap Participant.pieces =
          fresh.map Attachment.piece := by
      rw [List.flatMap_map]
      exact List.map_eq_flatMap.symm
    rw [collect, lineup, inductionHypothesis, List.flatMap_append, List.flatMap_cons, pieces,
      List.append_assoc]
    rfl

theorem Document.Shows.fragments_eq {document : Document} {participants : List Participant}
    (shows_ : document.Shows (participants.flatMap Participant.pieces)) (kind : Section) :
    document.fragments kind =
      participants.flatMap fun participant => participant.fragments kind := by
  rw [shows_ kind, List.filter_flatMap, List.filterMap_flatMap]
  rfl

/-! ## Scripts -/

def Contributor.scriptPiece (contributor : Contributor) : Piece :=
  contributor.piece .script contributor.script

/-- Scripts are collected in the order of their source files. -/
theorem sublist_collect (registry : Registry) (attached : List Text)
    (contributors : List Contributor) :
    (contributors.map Contributor.scriptPiece).Sublist
      (collect registry attached contributors) := by
  induction contributors generalizing attached with
  | nil => exact List.nil_sublist _
  | cons contributor others inductionHypothesis =>
    have own : [contributor.scriptPiece].Sublist contributor.pieces :=
      List.sublist_append_right _ _
    exact (own.trans (List.sublist_append_right _ _)).append (inductionHypothesis _)

def Contributor.scriptFragment (contributor : Contributor) : Fragment :=
  ⟨contributor.origin, tidy contributor.script⟩

/-- The fragments of scripts come in the order of their source files. -/
theorem Document.Shows.scripts_sublist {document : Document} {registry : Registry}
    {attached : List Text} {contributors chosen : List Contributor}
    (shows_ : document.Shows (collect registry attached contributors))
    (order : chosen.Sublist contributors)
    (visible : ∀ contributor ∈ chosen, tidy contributor.script ≠ []) :
    (chosen.map Contributor.scriptFragment).Sublist document.script := by
  have pieces := (order.map Contributor.scriptPiece).trans (sublist_collect registry attached _)
  have fragments := (pieces.filter fun piece => piece.kind = .script).filterMap Piece.fragment?
  rw [← shows_ .script] at fragments
  have all : ∀ piece ∈ chosen.map Contributor.scriptPiece,
      decide (piece.kind = .script) = true := by
    intro piece member
    obtain ⟨contributor, -, rfl⟩ := List.mem_map.mp member
    rfl
  have shown : (chosen.map Contributor.scriptPiece).filterMap Piece.fragment? =
      chosen.map Contributor.scriptFragment := by
    rw [List.filterMap_map, ← List.filterMap_eq_map]
    refine List.filterMap_congr fun contributor member => ?_
    simp [Contributor.scriptPiece, Contributor.piece, Contributor.scriptFragment, Piece.fragment?,
      visible contributor member]
  rwa [List.filter_eq_self.mpr all, shown] at fragments

/-! ## Drafts -/

namespace Draft

def pushContributor (registry : Registry) (draft : Draft) (contributor : Contributor) : Draft :=
  draft.pushSource registry contributor.path contributor.origin contributor.markup
    contributor.stylesheet contributor.script

variable {draft : Draft} {pieces : List Piece}

theorem pushAttachments_shows (shows_ : draft.document.Shows pieces)
    (attachments : List Attachment) :
    let fresh := freshAttachments draft.attached attachments
    (attachments.foldl pushAttachment draft).document.Shows
        (pieces ++ fresh.map Attachment.piece) ∧
      (attachments.foldl pushAttachment draft).attached =
        draft.attached ++ attachmentKeys fresh := by
  induction attachments generalizing draft pieces with
  | nil => simpa [freshAttachments, attachmentKeys] using shows_
  | cons attachment others inductionHypothesis =>
    rw [List.foldl_cons, pushAttachment, freshAttachments]
    split
    · exact inductionHypothesis shows_
    · have pushed : (draft.document.push attachment.kind attachment.path.text
          attachment.text).Shows (pieces ++ [attachment.piece]) :=
        shows_.push (.attachment attachment) _ _ _
      generalize draft.document.push attachment.kind attachment.path.text attachment.text =
        document at pushed
      obtain ⟨shown, attached⟩ := @inductionHypothesis
        ⟨document, draft.attached ++ [attachment.path.key]⟩ _ pushed
      refine ⟨?_, ?_⟩
      · rwa [List.map_cons, List.append_cons pieces]
      · exact attached.trans (List.append_assoc _ _ _)

theorem pushContributor_shows (shows_ : draft.document.Shows pieces) (registry : Registry)
    (contributor : Contributor) :
    let fresh := freshAttachments draft.attached (registry.attachmentsOf contributor.path)
    (draft.pushContributor registry contributor).document.Shows
        (pieces ++ (fresh.map Attachment.piece ++ contributor.pieces)) ∧
      (draft.pushContributor registry contributor).attached =
        draft.attached ++ attachmentKeys fresh := by
  obtain ⟨shown, attached⟩ :=
    pushAttachments_shows shows_ (registry.attachmentsOf contributor.path)
  refine ⟨?_, attached⟩
  have owned := ((shown.pushAll contributor.owner .markup contributor.origin
    contributor.markup).pushAll contributor.owner .stylesheet contributor.origin
      contributor.stylesheet).push contributor.owner .script contributor.origin contributor.script
  rw [Contributor.pieces, ← List.append_assoc, ← List.append_assoc, ← List.append_assoc]
  exact owned

theorem foldl_pushContributor_shows (registry : Registry) (shows_ : draft.document.Shows pieces)
    (contributors : List Contributor) :
    (contributors.foldl (pushContributor registry) draft).document.Shows
      (pieces ++ collect registry draft.attached contributors) := by
  induction contributors generalizing draft pieces with
  | nil => simpa [collect] using shows_
  | cons contributor others inductionHypothesis =>
    obtain ⟨shown, attached⟩ := pushContributor_shows shows_ registry contributor
    have rest := inductionHypothesis shown
    rwa [attached, List.append_assoc] at rest

end Draft

/-! ## Assembled documents -/

/-- The document of an entry file with the given script, before the options are applied to it. -/
def collected (registry : Registry) (modules : List CompiledModule) (entry : SourceFile)
    (script : Text) : Document :=
  ((modules.foldl (Draft.pushModule registry) Draft.empty).pushSource registry entry.path
    entry.path.text (entry.blocks .markup) (entry.blocks .stylesheet) script).document

theorem assemble_eq_ok_iff {registry : Registry} {options : BuildOptions} {entry : SourceFile}
    {document : Document} :
    assemble registry options entry = .ok document ↔
      ∃ modules script, registry.order (importedNames entry) entry.path = .ok modules ∧
        sourceScript registry entry = .ok script ∧
        options.apply (collected registry modules entry script) = document := by
  rw [assemble]
  cases ordered : registry.order (importedNames entry) entry.path with
  | error error => exact ⟨nofun, nofun⟩
  | ok modules =>
    cases made : sourceScript registry entry with
    | error error => exact ⟨nofun, nofun⟩
    | ok script =>
      constructor
      · rintro ⟨⟩
        exact ⟨modules, script, rfl, rfl, rfl⟩
      · rintro ⟨modules, script, ⟨⟩, ⟨⟩, rfl⟩
        rfl

theorem collected_shows (registry : Registry) (modules : List CompiledModule) (entry : SourceFile)
    (script : Text) :
    (collected registry modules entry script).Shows (collect registry []
      (modules.map CompiledModule.contributor ++ [entry.contributor script])) := by
  have shown := @Draft.foldl_pushContributor_shows .empty [] registry Document.shows_empty
    (modules.map CompiledModule.contributor ++ [entry.contributor script])
  rwa [List.foldl_append, List.foldl_map] at shown

/-- Without further processing, the document of an entry file shows what the modules in their order
and then the entry itself contribute. -/
theorem shows_of_assemble {registry : Registry} {options : BuildOptions} {entry : SourceFile}
    {document : Document} (lines : options.stripLines = []) (blocks : options.stripBlocks = [])
    (stylesheets : options.cssToScript = false) (markup : options.markupToScript = false)
    (assembled : assemble registry options entry = .ok document) :
    ∃ modules script, registry.order (importedNames entry) entry.path = .ok modules ∧
      sourceScript registry entry = .ok script ∧
      document.Shows (collect registry []
        (modules.map CompiledModule.contributor ++ [entry.contributor script])) := by
  obtain ⟨modules, script, ordered, made, rfl⟩ := assemble_eq_ok_iff.mp assembled
  refine ⟨modules, script, ordered, made, ?_⟩
  -- None of the options has anything to do.
  have unchanged (document : Document) : options.apply document = document := by
    simp [BuildOptions.apply, BuildOptions.strip, lines, blocks, stylesheets, markup]
  rw [unchanged]
  exact collected_shows registry modules entry script

end PageCompiler
