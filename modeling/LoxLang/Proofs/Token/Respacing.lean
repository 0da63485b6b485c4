import LoxLang.Proofs.Token.Lexemes

/-!
# Tokens written out with spaces

The lexemes of a source can be written out again, one behind the other with a
single space between each two (`Lexer.respaced`). What was skipped is gone, and so
are the faults. A lexeme of a token is still the longest one in front of a space
(`Lexeme.longest_before_space`): what is longer would have the space in it, so it
would be a comment or a string, and neither starts like that. So the tokens of the
new text are those of the old one, on other lines (`tokens_respaced`).
-/

namespace LoxLang

set_option autoImplicit false

/-- What a token is apart from its line. -/
def Token.content (token : Token) : Token.Kind × String := (token.kind, token.lexeme)

/-- A token whose text stands for its kind. -/
def Token.Lexed (token : Token) : Prop := Lexer.Lexeme token.lexeme.toList (.token token.kind)

namespace Lexer

/-- The tokens of a source apart from the end of the input. -/
def words (source : String) : List Token := (tokens source).filter fun token => !token.isEnd

/-- The lexemes of a source with a space between each two. -/
def respaced (source : String) : String :=
  String.intercalate " " ((words source).map Token.lexeme)

/-! ## In front of a space -/

/-- The lexemes with a space in them. -/
theorem Lexeme.of_space {read : List Char} {meaning : Meaning} (lexeme : Lexeme read meaning)
    (space : ' ' ∈ read) : read = [' '] ∨ (∃ more, read = '/' :: '/' :: more) ∨
      ∃ contents, read = quoteMark :: (contents ++ [quoteMark]) ∧ quoteMark ∉ contents := by
  have apart {char : Char} (part : isNamePart char = true) : char ≠ ' ' :=
    ne_of_isNamePart part rfl
  cases lexeme with
  | white _ => exact .inl (by rw [List.mem_singleton.mp space])
  | comment _ => exact .inr (.inl ⟨_, rfl⟩)
  | punct mark => exact absurd space (by cases mark <;> decide)
  | string inner => exact .inr (.inr ⟨_, rfl, inner⟩)
  | whole _ all => exact absurd rfl (apart (isNamePart_of_isDigit (all _ space)))
  | decimal _ _ all =>
      have digit : ' '.isDigit = true := all _ (by simpa using space)
      cases digit
  | keyword word => exact absurd space (by cases word <;> decide)
  | name letter others _ =>
      rcases List.mem_cons.mp space with rfl | later
      · exact absurd rfl (apart (isNamePart_of_isLetter letter))
      · exact absurd rfl (apart (isNamePart_iff.mpr (others _ later)))

/-- A token that starts with a quote has another quote. -/
theorem Lexeme.quote_mem {more : List Char} {kind : Token.Kind}
    (lexeme : Lexeme (quoteMark :: more) (.token kind)) : quoteMark ∈ more := by
  by_contra outside
  have none : more.dropWhile (· != quoteMark) = [] :=
    List.dropWhile_eq_nil_iff.mpr (bne_of_not_mem outside)
  have whole := lexeme.first_eq
  rw [first_quoteMark, Piece.string, none] at whole
  cases congrArg Piece.meaning whole

/-- **A token is the longest lexeme in front of a space.** -/
theorem Lexeme.longest_before_space {read : List Char} {kind : Token.Kind}
    (lexeme : Lexeme read (.token kind)) (more : List Char) :
    Longest (read ++ ' ' :: more) read (.token kind) := by
  refine ⟨List.prefix_append _ _, lexeme, fun other reading start longer => ?_⟩
  by_contra exceeds
  obtain ⟨tail, rfl⟩ : read <+: other :=
    List.prefix_of_prefix_length_le (List.prefix_append _ _) start (by omega)
  obtain ⟨behind, rfl⟩ : ∃ behind, tail = ' ' :: behind := by
    have start := (List.prefix_append_right_inj read).mp start
    cases tail with
    | nil => simp at exceeds
    | cons space behind => exact ⟨behind, by rw [(List.cons_prefix_cons.mp start).1]⟩
  obtain ⟨char, rest, rfl⟩ := List.exists_cons_of_ne_nil lexeme.ne_nil
  rcases longer.of_space (by simp) with one | ⟨comment, slashes⟩ | ⟨contents, quotes, inner⟩
  · simp at one
  · obtain ⟨rfl, second⟩ := List.cons.inj slashes
    cases rest with
    | nil => cases second
    | cons next others =>
        obtain ⟨rfl, -⟩ := List.cons.inj second
        cases congrArg Piece.meaning lexeme.first_eq
  · obtain ⟨rfl, same⟩ := List.cons.inj quotes
    have within : rest <+: contents ++ [quoteMark] := ⟨_, same⟩
    rcases List.prefix_concat_iff.mp within with all | part
    · rw [all] at same
      simp at same
    · exact inner (part.subset lexeme.quote_mem)

/-- The piece that a token is in front of a space, or at the end. -/
theorem Lexeme.first_append {char : Char} {more back : List Char} {kind : Token.Kind}
    (lexeme : Lexeme (char :: more) (.token kind)) (space : ∀ next ∈ back.head?, next = ' ') :
    Piece.first char (more ++ back) = ⟨.token kind, char :: more, back⟩ := by
  cases back with
  | nil =>
      rw [List.append_nil]
      exact lexeme.first_eq
  | cons next others =>
      obtain rfl := space next rfl
      exact (munched_first char _).unique (.lexeme rfl (lexeme.longest_before_space others))

/-! ## The text of the lexemes -/

/-- Every token of a text stands for its kind. -/
theorem Cut.lexed {line : Nat} {text : List Char} {items : List Item} (cut : Cut line text items) :
    ∀ token ∈ items.filterMap Item.token?, token.Lexed := by
  induction cut with
  | done line => exact fun _ member => nomatch member
  | @piece line char rest items _ ih =>
      intro token member
      rw [List.filterMap_append, List.mem_append] at member
      rcases member with here | later
      · have grammatical := grammatical_first char rest
        unfold Piece.items at here
        split at here
        next => cases here
        next kind found =>
          cases List.mem_singleton.mp here
          rw [Piece.Grammatical, found] at grammatical
          rwa [Token.Lexed, String.toList_ofList]
        next => cases here
      · exact ih token later

/-- A token in front of a text that starts with a space. -/
theorem Cut.cons {line : Nat} {token : Token} {back : List Char} {items : List Item}
    (lexed : token.Lexed) (space : ∀ next ∈ back.head?, next = ' ')
    (behind : Cut (line + lineEnds token.lexeme) back items) :
    Cut line (token.lexeme.toList ++ back)
      (.token ⟨token.kind, token.lexeme, line + lineEnds token.lexeme⟩ :: items) := by
  obtain ⟨char, more, text⟩ := List.exists_cons_of_ne_nil lexed.ne_nil
  rw [Token.Lexed, text] at lexed
  have piece := lexed.first_append space
  have cut : Cut line (char :: (more ++ back))
      ((Piece.first char (more ++ back)).items line ++ items) := by
    refine .piece ?_
    rw [piece, Piece.lineEnds, ← text]
    exact behind
  rw [piece, Piece.items, Piece.lineEnds, ← text, String.ofList_toList] at cut
  rw [text]
  exact cut

theorem Cut.space {line : Nat} {back : List Char} {items : List Item}
    (behind : Cut line back items) : Cut line (' ' :: back) items :=
  .piece behind

/-- **Lexemes with spaces between them are read into their tokens.** -/
theorem exists_cut_intercalate (words : List Token) (lexed : ∀ word ∈ words, word.Lexed) :
    ∀ line, ∃ found : List Token,
      Cut line ([' '].intercalate (words.map fun word => word.lexeme.toList))
        (found.map Item.token) ∧ found.map Token.content = words.map Token.content := by
  induction words with
  | nil => exact fun line => ⟨[], .done line, rfl⟩
  | cons word rest ih =>
      intro line
      obtain ⟨here, others⟩ := List.forall_mem_cons.mp lexed
      cases rest with
      | nil =>
          have cut := Cut.cons here (by simp) (.done (line + lineEnds word.lexeme))
          rw [List.append_nil] at cut
          refine ⟨[⟨word.kind, word.lexeme, line + lineEnds word.lexeme⟩], ?_, rfl⟩
          rw [List.map_singleton, List.intercalate_singleton]
          exact cut
      | cons next behind =>
          obtain ⟨found, cut, same⟩ := ih others (line + lineEnds word.lexeme)
          have spaced := Cut.cons here (by simp) cut.space
          refine ⟨⟨word.kind, word.lexeme, line + lineEnds word.lexeme⟩ :: found, ?_,
            congrArg (word.content :: ·) same⟩
          rw [List.map_cons, List.map_cons, List.intercalate_cons_cons, List.append_assoc]
          exact spaced

/-- **The tokens of a source can be read back** from their lexemes with a single
space between each two: there is no fault, the tokens have the same kinds, values
and lexemes in the same order, and they end with the end of the input. -/
theorem tokens_respaced (source : String) :
    faults (respaced source) = [] ∧
      (tokens (respaced source)).map Token.content = (tokens source).map Token.content ∧
      (tokens (respaced source)).getLast?.map Token.kind = some .endOfInput := by
  obtain ⟨body, cut, whole, -⟩ := exists_items source
  have old : tokens source =
      body.filterMap Item.token? ++ [⟨.endOfInput, "", 1 + lineEnds source⟩] := by
    rw [tokens, whole, List.filterMap_append]
    rfl
  have inner : words source = body.filterMap Item.token? := by
    rw [words, old, List.filter_append, List.filter_eq_self.mpr]
    · simp [Token.isEnd]
    · intro token member
      rw [(cut.lines token member).1]
      rfl
  obtain ⟨found, joined, same⟩ := exists_cut_intercalate (words source)
    (fun word member => cut.lexed word (inner ▸ member)) 1
  have text : (respaced source).toList =
      [' '].intercalate ((words source).map fun word => word.lexeme.toList) := by
    have space : " ".toList = [' '] := by decide
    rw [respaced, String.toList_intercalate, List.map_map, space, Function.comp_def]
  rw [← text] at joined
  have items := joined.itemsFrom _ (Nat.le_refl _)
  have new : tokens (respaced source) =
      found ++ [⟨.endOfInput, "", 1 + (respaced source).toList.count '\n'⟩] := by
    rw [tokens, Lexer.items, items, List.filterMap_append, List.filterMap_map]
    simp [Function.comp_def, Item.token?, ending]
  refine ⟨?_, ?_, ?_⟩
  · rw [faults, Lexer.items, items, List.filterMap_append, List.filterMap_map]
    simp [Function.comp_def, Item.fault?, ending]
  · rw [new, old, List.map_append, List.map_append, same, inner, List.map_singleton,
      List.map_singleton, Token.content, Token.content]
  · rw [new, List.getLast?_concat]
    rfl

end Lexer

end LoxLang
