import PageCompiler.Proofs.Script.Literal
import PageCompiler.Proofs.Text.Cutting
import PageCompiler.Script.Injection

/-! # Reading injection scripts

An injection script is read from its frame: behind it stands an array of string literals, and behind
the rest of the frame the function around the callback, or `null`. The literals are found as the
script language finds them, so that no content can end the array or a literal before its time.
Reading what `Injection.script` writes gives the content and the callback back.
-/

namespace PageCompiler.Script

/-! ## Arrays of literals -/

mutual

/-- The elements of an array whose bracket or a comma has been read, and the text behind it. -/
def elements? : Text → Option (List Text × Text)
  | [] => none
  | c :: rest =>
    if c = ']' then some ([], rest)
    else if c = '"' then
      (literalEnd? rest).map fun (inside, others, after) => ((c :: inside) :: others, after)
    else if Text.isSpace c then elements? rest
    else none

/-- What is left of an element inside of its quotes, and the elements behind it. -/
def literalEnd? : Text → Option (Text × List Text × Text)
  | [] => none
  | '\\' :: c :: rest =>
    (literalEnd? rest).map fun (inside, others) => ('\\' :: c :: inside, others)
  | c :: rest =>
    if c = '"' then (elementEnd? rest).map fun others => ([c], others)
    else (literalEnd? rest).map fun (inside, others) => (c :: inside, others)

/-- The elements behind one that has been read. -/
def elementEnd? : Text → Option (List Text × Text)
  | [] => none
  | c :: rest =>
    if c = ']' then some ([], rest)
    else if c = ',' then elements? rest
    else if Text.isSpace c then elementEnd? rest
    else none

end

/-- White space in front of an element does not count. -/
theorem elements?_append {blanks : Text} (blank : Text.isBlank blanks = true) (rest : Text) :
    elements? (blanks ++ rest) = elements? rest := by
  induction blanks with
  | nil => rfl
  | cons c blanks inductionHypothesis =>
    obtain ⟨space, others⟩ : Text.isSpace c = true ∧ Text.isBlank blanks = true := by
      simpa [Text.isBlank] using blank
    have noBracket : c ≠ ']' := by
      rintro rfl
      exact absurd space (by decide)
    have noQuote : c ≠ '"' := by
      rintro rfl
      exact absurd space (by decide)
    rw [List.cons_append, elements?, if_neg noBracket, if_neg noQuote, if_pos space,
      inductionHypothesis others]

/-- A literal ends at the first quote without a backslash in front of it. -/
theorem literalEnd?_append {inside : Text} (escaped : IsEscaped inside) (rest : Text) :
    literalEnd? (inside ++ '"' :: rest) =
      (elementEnd? rest).map fun others => (inside ++ ['"'], others) := by
  induction escaped with
  | nil => rfl
  | @plain c inside notQuote notBackslash _ inductionHypothesis =>
    rw [List.cons_append, literalEnd?, if_neg notQuote, inductionHypothesis, Option.map_map]
    · rfl
    · exact fun _ _ same => absurd same notBackslash
  | escape c _ inductionHypothesis =>
    rw [List.cons_append, List.cons_append, literalEnd?, inductionHypothesis, Option.map_map]
    rfl

theorem elements?_literal {literal : Text} (isLiteral : IsLiteral literal) (rest : Text) :
    elements? (literal ++ rest) =
      (elementEnd? rest).map fun (others, after) => (literal :: others, after) := by
  obtain ⟨inside, rfl, escaped⟩ := isLiteral.quoted
  rw [List.cons_append, List.cons_append, List.append_assoc, List.singleton_append, elements?,
    if_neg (by decide), if_pos rfl, literalEnd?_append escaped, Option.map_map]
  rfl

/-- The elements that are written on lines of their own are read one by one. -/
theorem elements?_join {indent : Text} (blank : Text.isBlank indent = true)
    {literals : List Text} (areLiterals : ∀ literal ∈ literals, IsLiteral literal) (rest : Text) :
    elements?
        (Text.join ",\n".toList (literals.map (indent ++ ·)) ++ "\n        ]".toList ++ rest) =
      some (literals, rest) := by
  have closing : Text.isBlank "\n        ".toList = true := rfl
  induction literals with
  | nil => exact elements?_append closing (']' :: rest)
  | cons literal literals inductionHypothesis =>
    obtain ⟨isLiteral, others⟩ := List.forall_mem_cons.mp areLiterals
    have later := inductionHypothesis others
    cases literals with
    | nil =>
      rw [List.map_singleton, Text.join, List.intercalate_singleton, List.append_assoc,
        List.append_assoc, elements?_append blank, elements?_literal isLiteral]
      rfl
    | cons next literals =>
      rw [List.map_cons] at later
      rw [List.map_cons, List.map_cons, Text.join, List.intercalate_cons_cons, ← Text.join]
      simp only [List.append_assoc] at later ⊢
      rw [elements?_append blank, elements?_literal isLiteral]
      -- The comma is read with the literal in front of it, and a line feed is left.
      change (elements? (['\n'] ++ _)).map _ = _
      rw [elements?_append rfl, later]
      rfl

/-! ## Scripts -/

namespace Injection

/-- The script in front of the elements of the content. -/
def opening (injection : Injection) : Text :=
  "(function (callback) \x7b\n".toList
    ++ "    var inject = function () \x7b\n".toList
    ++ "        var parent = document.getElementsByTagName('".toList ++ injection.parent
    ++ "')[0];\n".toList
    ++ "        if (!parent) \x7b\n".toList
    ++ "            setTimeout(inject, 15);\n".toList
    ++ "            return;\n".toList
    ++ "        \x7d\n".toList
    ++ "        var content = [\n".toList

/-- The script between the content and the callback. -/
def closing (injection : Injection) : Text :=
  ".join('');\n".toList
    ++ injection.statements.flatMap (fun line => "        ".toList ++ line ++ ['\n'])
    ++ "        parent.appendChild(node);\n".toList
    ++ "        if (callback) \x7b\n".toList
    ++ "            callback();\n".toList
    ++ "        \x7d\n".toList
    ++ "    \x7d;\n".toList
    ++ "    inject();\n".toList

/-- The body of the callback that the script is called with, if it is not `null`. -/
def callback? (argument : Text) : Option (Option Text) :=
  if argument = "\x7d(null));".toList then some none
  else do
    let body ← "\x7d(function () \x7b\n".toList.isPrefixOf? argument
    let body ← Text.withoutSuffix? "\n\x7d));".toList body
    return some body

/-- The content that a script injects, and the body of its callback. -/
def read? (injection : Injection) (script : Text) : Option (Text × Option Text) := do
  let array ← injection.opening.isPrefixOf? script
  let (elements, behind) ← elements? array
  let pieces ← elements.mapM literalText?
  let argument ← injection.closing.isPrefixOf? behind
  let callback ← callback? argument
  return (pieces.flatten, callback)

theorem script_eq (injection : Injection) (content callback : Text) :
    injection.script content callback =
      injection.opening ++ (contentLiterals content ++ "\n        ]".toList ++
        (injection.closing ++ callbackArgument callback)) := by
  have bracket : "\n        ].join('');\n".toList =
      "\n        ]".toList ++ ".join('');\n".toList := by decide
  unfold script opening closing
  simp only [bracket, List.append_assoc]

theorem callback?_callbackArgument (callback : Text) :
    callback? (callbackArgument callback) =
      some (if Text.isBlank callback then none else some (Text.trimEnd callback)) := by
  rw [callbackArgument]
  split
  · rfl
  · generalize Text.trimEnd callback = body
    have different : "\x7d(function () \x7b\n".toList ++ body ++ "\n\x7d));".toList ≠
        "\x7d(null));".toList := by
      simp
    have starts := Text.isPrefixOf?_eq_some_iff.mpr
      (List.append_assoc "\x7d(function () \x7b\n".toList body "\n\x7d));".toList)
    have ends := Text.withoutSuffix?_eq_some_iff.mpr (Eq.refl (body ++ "\n\x7d));".toList))
    rw [callback?, if_neg different, starts]
    simp only [Option.bind_eq_bind, Option.bind_some, ends, Option.pure_def]

theorem mapM_literalText? (texts : List Text) :
    (texts.map stringLiteral).mapM literalText? = some texts := by
  induction texts with
  | nil => rfl
  | cons text texts inductionHypothesis =>
    rw [List.map_cons, List.mapM_cons, literalText?_written, inductionHypothesis]
    rfl

/-- Nothing in the content or in the callback keeps a script from being read. -/
theorem read?_script (injection : Injection) (content callback : Text) :
    injection.read? (injection.script content callback) =
      some (content, if Text.isBlank callback then none else some (Text.trimEnd callback)) := by
  have blank : Text.isBlank "            ".toList = true := rfl
  have areLiterals : ∀ literal ∈ (Text.lines content).map stringLiteral, IsLiteral literal := by
    intro literal member
    obtain ⟨line, -, rfl⟩ := List.mem_map.mp member
    exact isLiteral_stringLiteral line
  have array := elements?_join blank areLiterals (injection.closing ++ callbackArgument callback)
  rw [List.map_map, Function.comp_def] at array
  rw [read?, script_eq, contentLiterals, Text.isPrefixOf?_eq_some_iff.mpr rfl]
  simp only [Option.bind_eq_bind, Option.bind_some, array, mapM_literalText?,
    Text.isPrefixOf?_eq_some_iff.mpr rfl, callback?_callbackArgument, Text.flatten_lines,
    Option.pure_def]

end Injection

end PageCompiler.Script
