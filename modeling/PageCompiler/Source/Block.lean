import PageCompiler.Text.Basic

/-! # Blocks

A source file marks passages that are not script: markup, stylesheets and string templates. A
passage stands between an opening and a closing marker of one kind, and no marker may stand inside
it.
-/

namespace PageCompiler

/-- What a marked passage holds. -/
inductive BlockKind where
  | markup
  | stylesheet
  | template
deriving DecidableEq

namespace BlockKind

def all : List BlockKind :=
  [markup, stylesheet, template]

/-- The word inside the markers. -/
def word : BlockKind → Text
  | markup => "html".toList
  | stylesheet => "css".toList
  | template => "js.string".toList

def openMarker (kind : BlockKind) : Text :=
  '/' :: '*' :: kind.word ++ ['*', '/']

def closeMarker (kind : BlockKind) : Text :=
  '/' :: '*' :: '~' :: kind.word ++ ['*', '/']

/-- The kind whose opening marker `text` starts with. -/
def openingAt (text : Text) : Option BlockKind :=
  all.find? fun kind => kind.openMarker.isPrefixOf text

/-- The kind whose closing marker `text` starts with. -/
def closingAt (text : Text) : Option BlockKind :=
  all.find? fun kind => kind.closeMarker.isPrefixOf text

end BlockKind

def startsWithMarker (text : Text) : Bool :=
  (BlockKind.openingAt text).isSome || (BlockKind.closingAt text).isSome

/-! ## Payloads -/

/-- Why a block has no payload. The numbers say how many bytes behind the opening marker the
offending marker starts. -/
inductive PayloadFault where
  | unclosed
  | nested (inner : BlockKind) (offset : Nat)
  | crossed (other : BlockKind) (offset : Nat)
deriving DecidableEq

namespace PayloadFault

/-- The same fault, seen from `bytes` bytes further to the front. -/
def shift (bytes : Nat) : PayloadFault → PayloadFault
  | unclosed => unclosed
  | nested inner offset => nested inner (bytes + offset)
  | crossed other offset => crossed other (bytes + offset)

end PayloadFault

/-- Reads up to the closing marker of a block whose opening marker has been read: the payload, and
the text behind the closing marker. -/
def readPayload (kind : BlockKind) : Text → Except PayloadFault (Text × Text)
  | [] => .error .unclosed
  | c :: rest =>
    match kind.closeMarker.isPrefixOf? (c :: rest) with
    | some after => .ok ([], after)
    | none =>
      match BlockKind.openingAt (c :: rest), BlockKind.closingAt (c :: rest) with
      | some inner, _ => .error (.nested inner 0)
      | none, some other => .error (.crossed other 0)
      | none, none =>
        match readPayload kind rest with
        | .ok (payload, after) => .ok (c :: payload, after)
        | .error fault => .error (fault.shift c.utf8Size)

theorem readPayload_eq_append {kind : BlockKind} {text payload after : Text}
    (read : readPayload kind text = .ok (payload, after)) :
    text = payload ++ kind.closeMarker ++ after := by
  induction text generalizing payload with
  | nil => simp [readPayload] at read
  | cons c rest ih =>
    rw [readPayload] at read
    split at read
    · next closes =>
      obtain ⟨rfl, rfl⟩ := by simpa using read
      exact Text.eq_append_of_isPrefixOf? closes
    · split at read
      · simp at read
      · simp at read
      · split at read
        · next inner =>
          obtain ⟨rfl, rfl⟩ := by simpa using read
          simpa using ih inner
        · simp at read

theorem readPayload_snd_length_lt {kind : BlockKind} {text payload after : Text}
    (read : readPayload kind text = .ok (payload, after)) : after.length < text.length := by
  have lengths := congrArg List.length (readPayload_eq_append read)
  simp [BlockKind.closeMarker] at lengths
  omega

end PageCompiler
