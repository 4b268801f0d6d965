import PageCompiler.Proofs.Source.Grammar

/-! # Reading directive lines

The reader of directive lines accepts exactly the lines that the grammar spells, and gives each one
what the grammar asks for.
-/

namespace PageCompiler

theorem exists_of_map_eq_ok {α β ε : Type} {function : α → β} {outcome : Except ε α} {result : β}
    (mapped : outcome.map function = .ok result) :
    ∃ value, outcome = .ok value ∧ function value = result := by
  cases outcome with
  | ok value => exact ⟨value, rfl, Except.ok.inj mapped⟩
  | error error => cases mapped

namespace Directive

/-! ## Keywords -/

theorem endsKeyword_iff {rest : Text} :
    endsKeyword rest = true ↔ ∀ c ∈ rest.head?, Text.isSpace c = true := by
  rw [endsKeyword, Option.all_eq_true]
  exact Iff.rfl

theorem endsRequire_iff {rest : Text} :
    endsRequire rest = true ↔ ∀ c ∈ rest.head?, Text.isSpace c = true ∨ c = '<' := by
  rw [endsRequire, Option.all_eq_true]
  simp only [Bool.or_eq_true, beq_iff_eq, Option.mem_def]

theorem leadingKeyword?_eq_some_iff {body rest : Text} {keyword : Keyword} :
    leadingKeyword? body = some (keyword, rest) ↔
      keyword ∈ Keyword.leading ∧ body = keyword.word ++ rest ∧
        ∀ c ∈ rest.head?, Text.isSpace c = true := by
  rw [leadingKeyword?, Option.filter_eq_some_iff]
  constructor
  · rintro ⟨found, ends⟩
    obtain ⟨_, member, started⟩ := List.exists_of_findSome?_eq_some found
    obtain ⟨_, start, same⟩ := Option.map_eq_some_iff.mp started
    cases same
    exact ⟨member, Text.isPrefixOf?_eq_some_iff.mp start, endsKeyword_iff.mp ends⟩
  · rintro ⟨member, rfl, ends⟩
    refine ⟨?_, endsKeyword_iff.mpr ends⟩
    -- No keyword begins like another one, so the first one that fits is the right one.
    cases keyword with
    | importKeyword => rfl
    | exportKeyword => rfl
    | includeKeyword => rfl
    | cssKeyword => rfl
    | requireKeyword => simp [Keyword.leading] at member

theorem requireArgument?_eq_some_iff {text rest : Text} :
    requireArgument? text = some rest ↔
      ∃ spaces, text = spaces ++ Keyword.requireKeyword.word ++ rest ∧
        (∀ c ∈ spaces, Text.isSpace c = true) ∧
        ∀ c ∈ rest.head?, Text.isSpace c = true ∨ c = '<' := by
  rw [requireArgument?, Option.filter_eq_some_iff, Text.isPrefixOf?_eq_some_iff, endsRequire_iff,
    Text.trimStart, Text.dropWhile_eq_iff]
  constructor
  · rintro ⟨⟨spaces, split, spaced, -⟩, ends⟩
    exact ⟨spaces, by rw [split, List.append_assoc], spaced, ends⟩
  · rintro ⟨spaces, split, spaced, ends⟩
    refine ⟨⟨spaces, by rw [split, List.append_assoc], spaced, fun c first => ?_⟩, ends⟩
    cases first
    decide

/-! ## Lines -/

theorem line?_plain {text body : Text} (unindented : text.dropWhile Text.isIndent = body)
    (plain : ['/', '/'].isPrefixOf? body = none) :
    line? text = (leadingKeyword? body).map fun (keyword, rest) =>
      ⟨keyword, text.byteSize - body.byteSize, rest⟩ := by
  unfold line?
  rw [unindented]
  simp only [plain, Option.getD_none]

theorem line?_comment {text body : Text}
    (unindented : text.dropWhile Text.isIndent = '/' :: '/' :: body)
    (other : ∀ c ∈ body.head?, c ≠ '=') :
    line? text = (leadingKeyword? body).map fun (keyword, rest) =>
      ⟨keyword, text.byteSize - body.byteSize, rest⟩ := by
  have comment : ['/', '/'].isPrefixOf? ('/' :: '/' :: body) = some body := rfl
  unfold line?
  rw [unindented]
  simp only [comment, Option.getD_some]
  split
  · next rest => exact absurd rfl (other '=' rfl)
  · rfl

theorem line?_require {text rest : Text}
    (unindented : text.dropWhile Text.isIndent = '/' :: '/' :: '=' :: rest) :
    ∃ offset, line? text =
      (requireArgument? rest).map fun argument => ⟨.requireKeyword, offset, argument⟩ := by
  have comment : ['/', '/'].isPrefixOf? ('/' :: '/' :: '=' :: rest) = some ('=' :: rest) := rfl
  unfold line?
  rw [unindented]
  simp only [comment, Option.getD_some]
  exact ⟨_, rfl⟩

theorem spells_of_line? {text rest : Text} {keyword : Keyword} {offset : Nat}
    (found : line? text = some ⟨keyword, offset, rest⟩) : Spells text keyword rest := by
  obtain ⟨blanks, split, blank, -⟩ :=
    Text.dropWhile_eq_iff.mp (Eq.refl (text.dropWhile Text.isIndent))
  have indented : ∀ c ∈ blanks, c = ' ' ∨ c = '\t' := fun c member => by
    simpa [Text.isIndent] using blank c member
  rw [split]
  cases slashes : ['/', '/'].isPrefixOf? (text.dropWhile Text.isIndent) with
  | none =>
    rw [line?_plain rfl slashes] at found
    obtain ⟨⟨_, _⟩, keyed, same⟩ := Option.map_eq_some_iff.mp found
    cases same
    obtain ⟨member, body, ends⟩ := leadingKeyword?_eq_some_iff.mp keyed
    rw [body]
    simpa using Spells.leading indented (.inl rfl) member ends
  | some body =>
    have unindented : text.dropWhile Text.isIndent = '/' :: '/' :: body :=
      Text.isPrefixOf?_eq_some_iff.mp slashes
    rw [unindented]
    -- Behind slashes an equals sign leaves no other keyword than `require`.
    by_cases equals : body.head? = some '='
    · obtain ⟨behind, rfl⟩ := List.head?_eq_some_iff.mp equals
      obtain ⟨_, read⟩ := line?_require unindented
      rw [read] at found
      obtain ⟨_, argued, same⟩ := Option.map_eq_some_iff.mp found
      cases same
      obtain ⟨spaces, rfl, spaced, ends⟩ := requireArgument?_eq_some_iff.mp argued
      simpa using Spells.require indented spaced ends
    · rw [line?_comment unindented fun c first same => equals (same ▸ first)] at found
      obtain ⟨⟨_, _⟩, keyed, same⟩ := Option.map_eq_some_iff.mp found
      cases same
      obtain ⟨member, rfl, ends⟩ := leadingKeyword?_eq_some_iff.mp keyed
      simpa using Spells.leading indented (.inr rfl) member ends

theorem dropWhile_isIndent {blanks body : Text} (indented : ∀ c ∈ blanks, c = ' ' ∨ c = '\t')
    (starts : ∀ c ∈ body.head?, c = '/' ∨ c = ':') :
    (blanks ++ body).dropWhile Text.isIndent = body := by
  refine Text.dropWhile_eq_iff.mpr ⟨blanks, rfl, fun c member => ?_, fun c first => ?_⟩
  · rcases indented c member with rfl | rfl <;> rfl
  · rcases starts c first with rfl | rfl <;> rfl

theorem head?_word_append {keyword : Keyword} (member : keyword ∈ Keyword.leading) (rest : Text) :
    (keyword.word ++ rest).head? = some ':' := by
  cases keyword with
  | importKeyword | exportKeyword | includeKeyword | cssKeyword => rfl
  | requireKeyword => simp [Keyword.leading] at member

theorem line?_of_spells {text rest : Text} {keyword : Keyword} (spells : Spells text keyword rest) :
    ∃ offset, line? text = some ⟨keyword, offset, rest⟩ := by
  cases spells with
  | @leading blanks slashes _ _ indented comment member ends =>
    have keyed := leadingKeyword?_eq_some_iff.mpr ⟨member, rfl, ends⟩
    have colon := head?_word_append member rest
    rcases comment with rfl | rfl
    · have starts : ∀ c ∈ (keyword.word ++ rest).head?, c = '/' ∨ c = ':' := by
        intro c first
        rw [colon] at first
        cases first
        exact .inr rfl
      have unindented := dropWhile_isIndent indented starts
      rw [List.append_nil, List.append_assoc, line?_plain unindented, keyed]
      · exact ⟨_, rfl⟩
      · cases keyword <;> rfl
    · have starts : ∀ c ∈ ('/' :: '/' :: (keyword.word ++ rest)).head?, c = '/' ∨ c = ':' := by
        intro c first
        cases first
        exact .inl rfl
      have unindented := dropWhile_isIndent indented starts
      rw [List.append_assoc, List.append_assoc]
      change ∃ offset, line? (blanks ++ '/' :: '/' :: (keyword.word ++ rest)) = _
      rw [line?_comment unindented, keyed]
      · exact ⟨_, rfl⟩
      · intro c first same
        rw [colon] at first
        cases first
        cases same
  | @require blanks spaces _ indented spaced ends =>
    have argued := requireArgument?_eq_some_iff.mpr ⟨spaces, rfl, spaced, ends⟩
    have starts : ∀ c ∈ ('/' :: '/' :: '=' ::
        (spaces ++ Keyword.requireKeyword.word ++ rest)).head?, c = '/' ∨ c = ':' := by
      intro c first
      cases first
      exact .inl rfl
    have unindented := dropWhile_isIndent indented starts
    obtain ⟨offset, read⟩ := line?_require unindented
    refine ⟨offset, ?_⟩
    rw [argued] at read
    simpa using read

/-! ## Arguments -/

theorem withoutSemicolon_eq_iff {text core : Text} :
    withoutSemicolon text = core ↔ DropsSemicolon text core := by
  rw [withoutSemicolon, DropsSemicolon]
  cases found : Text.withoutSuffix? [';'] text with
  | some cut =>
    obtain rfl := Text.withoutSuffix?_eq_some_iff.mp found
    simp [eq_comm]
  | none =>
    have unended : text.getLast? ≠ some ';' := by
      intro ends
      obtain ⟨front, rfl⟩ := List.getLast?_eq_some_iff.mp ends
      rw [Text.withoutSuffix?_eq_some_iff.mpr rfl] at found
      cases found
    constructor
    · rintro rfl
      exact .inr ⟨rfl, unended⟩
    · rintro (rfl | ⟨rfl, -⟩)
      · simp at unended
      · rfl

theorem argumentText_eq_iff {rest argument : Text} :
    argumentText rest = argument ↔ Argument rest argument := by
  rw [argumentText, Text.trimEnd_eq_iff]
  constructor
  · intro ends
    exact ⟨_, _, Text.trim_eq_iff.mp rfl, withoutSemicolon_eq_iff.mp rfl, ends⟩
  · rintro ⟨trimmed, uncut, trims, drops, ends⟩
    rwa [Text.trim_eq_iff.mpr trims, withoutSemicolon_eq_iff.mpr drops]

theorem requiredPath_of_requires {rest trimmed word : Text} (trims : Text.Trims rest trimmed)
    (required : Requires trimmed word) : requiredPath rest = withoutSemicolon word := by
  rw [requiredPath, Text.trim_eq_iff.mpr trims]
  congr 1
  cases required with
  | @quoted inside after _ unclosed closes trimmed =>
    have accepted : ∀ c ∈ inside, (c != '>') = true := by
      intro c member
      rw [bne_iff_ne]
      rintro rfl
      exact unclosed member
    have inner : (inside ++ after).takeWhile (· != '>') = inside := by
      rw [List.takeWhile_append_of_pos accepted]
      cases after with
      | nil => simp
      | cons c after => simp [closes c rfl]
    change Text.trim ((inside ++ after).takeWhile (· != '>')) = word
    rw [inner, Text.trim_eq_iff.mpr trimmed]
  | bare plain words =>
    split
    · exact absurd rfl (plain '<' rfl)
    · have cut : Text.words trimmed = _ := words.eq
      rw [cut, List.headD_cons]

theorem requires_of_requiredPath {rest path : Text} (found : requiredPath rest = path)
    (nonempty : path ≠ []) :
    ∃ trimmed word, Text.Trims rest trimmed ∧ Requires trimmed word ∧ DropsSemicolon word path := by
  rw [requiredPath, withoutSemicolon_eq_iff] at found
  refine ⟨Text.trim rest, _, Text.trim_eq_iff.mp rfl, ?_, found⟩
  generalize Text.trim rest = trimmed at found ⊢
  split
  · next quoted =>
    rw [← List.takeWhile_append_dropWhile (p := (· != '>')) (l := quoted)]
    refine .quoted (fun member => ?_) (fun c first => ?_) ?_
    · simpa using List.all_eq_true.mp List.all_takeWhile _ member
    · have stops := List.head?_dropWhile_not (· != '>') quoted
      rw [Option.mem_def.mp first] at stops
      simpa using stops
    · rw [List.takeWhile_append_dropWhile]
      exact Text.trim_eq_iff.mp rfl
  · next plain =>
    cases words : Text.words trimmed with
    | nil =>
      split at found
      · exact absurd rfl (plain _)
      · rw [words] at found
        rcases found with empty | ⟨rfl, -⟩
        · simp at empty
        · exact absurd rfl nonempty
    | cons word others =>
      refine .bare (fun c first same => ?_) (Text.pieces_iff.mp words)
      obtain ⟨behind, rfl⟩ := List.head?_eq_some_iff.mp first
      exact plain behind (same ▸ rfl)

theorem moduleName_eq_ok_iff {keyword : Keyword} {argument : Text} {name : ModuleName} :
    moduleName keyword argument = .ok name ↔ ModuleName.parse argument = .ok name := by
  rw [moduleName]
  cases ModuleName.parse argument with
  | ok parsed =>
    change (Except.ok parsed : Except Fault ModuleName) = .ok name ↔ _
    rw [Except.ok.injEq, Except.ok.injEq]
  | error error => constructor <;> intro read <;> cases read

theorem asks_of_directive {keyword : Keyword} {offset : Nat} {rest : Text} {directive : Directive}
    (read : Line.directive ⟨keyword, offset, rest⟩ = .ok directive) :
    Asks keyword rest directive := by
  have argued := argumentText_eq_iff.mp (Eq.refl (argumentText rest))
  cases keyword with
  | importKeyword =>
    obtain ⟨name, named, rfl⟩ := exists_of_map_eq_ok read
    exact .importModule argued (moduleName_eq_ok_iff.mp named)
  | cssKeyword =>
    obtain ⟨name, named, rfl⟩ := exists_of_map_eq_ok read
    exact .includeStylesheet argued (moduleName_eq_ok_iff.mp named)
  | includeKeyword =>
    simp only [Line.directive] at read
    split at read
    · next words =>
      cases read
      exact .includeFile argued (Text.pieces_iff.mp words)
    · cases read
  | exportKeyword =>
    simp only [Line.directive] at read
    split at read
    · cases read
    · next nonempty =>
      split at read
      · cases read
      · next identifiers =>
        cases read
        refine .exportNames argued (Text.pieces_iff.mp rfl) (by simpa using nonempty) ?_
        simpa using List.find?_eq_none.mp identifiers
  | requireKeyword =>
    simp only [Line.directive] at read
    split at read
    · cases read
    · next nonempty =>
      cases read
      have present : requiredPath rest ≠ [] := by simpa using nonempty
      obtain ⟨trimmed, word, trims, required, drops⟩ := requires_of_requiredPath rfl present
      exact .requireFile trims required drops present

theorem directive_of_asks {keyword : Keyword} {rest : Text} {directive : Directive}
    (asks : Asks keyword rest directive) (offset : Nat) :
    Line.directive ⟨keyword, offset, rest⟩ = .ok directive := by
  cases asks with
  | importModule argued named =>
    simp only [Line.directive, argumentText_eq_iff.mpr argued, moduleName_eq_ok_iff.mpr named]
    rfl
  | includeStylesheet argued named =>
    simp only [Line.directive, argumentText_eq_iff.mpr argued, moduleName_eq_ok_iff.mpr named]
    rfl
  | includeFile argued words =>
    have cut : Text.words _ = _ := words.eq
    simp only [Line.directive, argumentText_eq_iff.mpr argued, cut]
  | @exportNames _ argument names argued listed nonempty identifiers =>
    have cut : exportedNames argument = names := listed.eq
    have accepted : (names.find? fun name => !isIdentifier name) = none :=
      List.find?_eq_none.mpr fun name member => by simp [identifiers name member]
    simp only [Line.directive, argumentText_eq_iff.mpr argued, cut, accepted]
    exact if_neg (by simpa using nonempty)
  | requireFile trims required uncut nonempty =>
    simp only [Line.directive, requiredPath_of_requires trims required,
      withoutSemicolon_eq_iff.mpr uncut]
    exact if_neg (by simpa using nonempty)

end Directive

end PageCompiler
