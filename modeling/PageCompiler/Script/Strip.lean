import PageCompiler.Text.Lines

/-! # Leaving out marked script

Two ways to leave out passages that are meant for development only: every line that holds a marker,
and every region from an opening to a closing marker. Both can keep the line feeds of what they
leave out, so that the remaining text stays on its lines.
-/

namespace PageCompiler.Script

/-! ## Lines -/

/-- Whether a line holds one of the markers; an empty marker marks nothing. -/
def isMarked (markers : List Text) (line : Text) : Bool :=
  markers.any fun marker => !marker.isEmpty && Text.contains line marker

/-- What is left of a line. -/
def stripLine (markers : List Text) (keepLines : Bool) (line : Text) : Text :=
  if isMarked markers line then
    if keepLines && Text.endsLine line then ['\n'] else []
  else line

/-- `text` without the lines that hold a marker. -/
def stripLines (markers : List Text) (keepLines : Bool) (text : Text) : Text :=
  (Text.lines text).flatMap (stripLine markers keepLines)

/-! ## Regions -/

/-- `text` without the regions from an opening marker to the next closing marker behind it. An
opening marker that is never closed stays. -/
def cutRegions (opening closing : Text) (opening_ne_nil : opening ≠ []) (keepLines : Bool)
    (text : Text) : Text :=
  match opens : Text.cut? opening text with
  | none => text
  | some (before, body) =>
    match closes : Text.cut? closing body with
    | none => text
    | some (inside, after) =>
      have : after.length < text.length := by
        have opened := congrArg List.length (Text.eq_append_of_cut? opens)
        have closed := congrArg List.length (Text.eq_append_of_cut? closes)
        have := List.length_pos_iff.2 opening_ne_nil
        simp at opened closed
        omega
      before ++ (if keepLines then Text.lineFeeds (opening ++ inside ++ closing) else [])
        ++ cutRegions opening closing opening_ne_nil keepLines after
termination_by text.length

/-- The opening marker that belongs to a closing marker: the same text without its first tilde. -/
def openingOf (closing : Text) : Text :=
  closing.erase '~'

/-- Cuts the regions of one closing marker; a closing marker without a tilde names no region. -/
def stripBlock (keepLines : Bool) (text closing : Text) : Text :=
  if usable : openingOf closing ≠ closing ∧ openingOf closing ≠ [] then
    cutRegions (openingOf closing) closing usable.2 keepLines text
  else text

/-- Cuts the regions of each closing marker in turn. -/
def stripBlocks (closings : List Text) (keepLines : Bool) (text : Text) : Text :=
  closings.foldl (stripBlock keepLines) text

end PageCompiler.Script
