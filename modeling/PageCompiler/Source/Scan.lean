import PageCompiler.Source.Segment

/-! # Scanning

`SourceFile.scan` cuts a source text into segments from front to back. At the start of a line a
directive line comes first; then a block, where an opening marker stands; everything else is script
up to the next place where one of the two begins. A closing marker outside a block is an error, and
so is any marker inside a block other than its own closing marker.
-/

namespace PageCompiler

/-! ## Faults -/

/-- Why a source text cannot be cut into segments. -/
inductive SourceFault where
  | unmatched (kind : BlockKind)
  | unclosed (kind : BlockKind)
  | nested (inner outer : BlockKind) (outerLine : Nat)
  | crossed (other outer : BlockKind) (outerLine : Nat)
  | directive (fault : Directive.Fault)
deriving DecidableEq

namespace SourceFault

def message : SourceFault → Text
  | unmatched kind =>
    "'".toList ++ kind.closeMarker ++ "' has no matching '".toList ++ kind.openMarker
      ++ "'".toList
  | unclosed kind =>
    "'".toList ++ kind.openMarker ++ "' block is never closed (expected '".toList
      ++ kind.closeMarker ++ "')".toList
  | nested inner outer outerLine =>
    "'".toList ++ inner.openMarker ++ "' opened inside the '".toList ++ outer.openMarker
      ++ "' block from line ".toList ++ Text.ofNat outerLine ++ "; blocks cannot nest".toList
  | crossed other outer outerLine =>
    "'".toList ++ other.closeMarker ++ "' does not close the '".toList ++ outer.openMarker
      ++ "' block from line ".toList ++ Text.ofNat outerLine
  | directive fault => fault.message

end SourceFault

/-- A fault and the position of the character it is about. -/
structure ScanError where
  position : Position
  fault : SourceFault
deriving DecidableEq

/-! ## Passages -/

/-- The directive line at the head of `text`, if one stands there. -/
def directiveAt (text : Text) : Option Directive.Line :=
  Directive.line? (Text.firstLine text).1

/-- Whether script ends in front of `text`. -/
def endsScript (lineStart : Bool) (text : Text) : Bool :=
  (lineStart && (directiveAt text).isSome) || startsWithMarker text

/-- The longest run of script at the head of a text, and what follows it. -/
def scriptRun (lineStart : Bool) : Text → Text × Text
  | [] => ([], [])
  | c :: rest =>
    if endsScript lineStart (c :: rest) then ([], c :: rest)
    else
      let (run, after) := scriptRun (c == '\n') rest
      (c :: run, after)

theorem scriptRun_append (lineStart : Bool) (text : Text) :
    (scriptRun lineStart text).1 ++ (scriptRun lineStart text).2 = text := by
  induction text generalizing lineStart with
  | nil => simp [scriptRun]
  | cons c rest ih =>
    rw [scriptRun]
    split
    · simp
    · simpa using ih (c == '\n')

/-- Turns a fault in the payload of a block into one in the source text `whole`; the block starts at
`start`. -/
def payloadError (whole : Text) (start : Nat) (kind : BlockKind) : PayloadFault → ScanError
  | .unclosed => ⟨.locate whole start, .unclosed kind⟩
  | .nested inner offset =>
    ⟨.locate whole (start + kind.openMarker.byteSize + offset),
      .nested inner kind (Position.locate whole start).line⟩
  | .crossed other offset =>
    ⟨.locate whole (start + kind.openMarker.byteSize + offset),
      .crossed other kind (Position.locate whole start).line⟩

/-! ## Segments of a text -/

/-- The segments of `rest`, the part of `whole` from byte `offset` on; `lineStart` says whether a
line starts there. -/
def scanFrom (whole : Text) (offset : Nat) (lineStart : Bool) (rest : Text) :
    Except ScanError (List Segment) :=
  match rest with
  | [] => .ok []
  | c :: tail =>
    match if lineStart then directiveAt (c :: tail) else none with
    | some line =>
      match line.directive with
      | .error fault => .error ⟨.locate whole (offset + line.offset), .directive fault⟩
      | .ok directive =>
        let raw : Text := (Text.firstLine (c :: tail)).1
        let after := (Text.firstLine (c :: tail)).2
        (scanFrom whole (offset + raw.byteSize) true after).map
          (⟨.directive directive, raw, offset⟩ :: ·)
    | none =>
      match BlockKind.openingAt (c :: tail) with
      | some kind =>
        match read : readPayload kind ((c :: tail).drop kind.openMarker.length) with
        | .error fault => .error (payloadError whole offset kind fault)
        | .ok (payload, after) =>
          have : after.length < (c :: tail).length :=
            Nat.lt_of_lt_of_le (readPayload_snd_length_lt read) (List.drop_sublist _ _).length_le
          let raw : Text := kind.openMarker ++ payload ++ kind.closeMarker
          (scanFrom whole (offset + raw.byteSize) false after).map
            (⟨.block kind payload, raw, offset⟩ :: ·)
      | none =>
        match BlockKind.closingAt (c :: tail) with
        | some kind => .error ⟨.locate whole offset, .unmatched kind⟩
        | none =>
          let run : Text := c :: (scriptRun (c == '\n') tail).1
          let after := (scriptRun (c == '\n') tail).2
          (scanFrom whole (offset + run.byteSize) (Text.endsLine run) after).map
            (⟨.script run, run, offset⟩ :: ·)
termination_by rest.length
decreasing_by
  · exact Text.firstLine_snd_length_lt c tail
  · assumption
  · have whole := congrArg List.length (scriptRun_append (c == '\n') tail)
    simp at whole ⊢
    omega

/-- Cuts the text of a file into segments. -/
def SourceFile.scan (path : Path) (text : Text) : Except ScanError SourceFile :=
  (scanFrom text 0 true text).map fun segments => ⟨path, text, segments⟩

end PageCompiler
