import LoxLang.Proofs.Grammar.Segments
import LoxLang.Token.Lexer

/-!
# The tokens of two sources on end

A line end separates: no piece goes on behind it but a string that is not
closed, and that is a fault. So if one source without faults and another one
are put together with a line end between them, then the tokens are those of the
first and those of the second, further down by the lines of the first
(`Lexer.stream_append`).
-/

namespace LoxLang

set_option autoImplicit false

namespace Lexer

/-! ## Pieces -/

section Pieces

/-- A run of characters ends inside of a text, or in front of what follows. -/
theorem span_append {test : Char → Bool} {front back : List Char}
    (stops : front.dropWhile test ≠ [] ∨ ∀ char ∈ back.head?, test char = false) :
    (front ++ back).takeWhile test = front.takeWhile test ∧
      (front ++ back).dropWhile test = front.dropWhile test ++ back := by
  induction front with
  | nil =>
      have fails := stops.resolve_left (· rfl)
      cases back with
      | nil => simp
      | cons char rest => simp [fails char rfl]
  | cons char rest ih =>
      cases passes : test char with
      | false => simp [passes]
      | true =>
          have inner := ih (by simpa [passes] using stops)
          simp [passes, inner]

/-- A piece in front of more text. -/
def Piece.inFront (piece : Piece) (back : List Char) : Piece :=
  { piece with rest := piece.rest ++ back }

/-- A piece is cut off the text it starts. -/
def Piece.Cuts (piece : Piece) (char : Char) (rest : List Char) : Prop :=
  ∃ more, piece.text = char :: more ∧ more ++ piece.rest = rest

theorem cuts_comment (rest : List Char) : (Piece.comment rest).Cuts '/' rest :=
  ⟨_, rfl, List.takeWhile_append_dropWhile⟩

theorem cuts_string (rest : List Char) : (Piece.string rest).Cuts quoteMark rest := by
  have whole := List.takeWhile_append_dropWhile (p := (· != quoteMark)) (l := rest)
  unfold Piece.string
  split
  next => exact ⟨rest, rfl, List.append_nil rest⟩
  next mark after shape =>
    have closing : mark = quoteMark := by
      have stops := List.head?_dropWhile_not (· != quoteMark) rest
      simpa [shape] using stops
    refine ⟨_, rfl, ?_⟩
    rw [shape, closing] at whole
    simpa using whole

theorem cuts_number (digit : Char) (rest : List Char) :
    (Piece.number digit rest).Cuts digit rest := by
  have whole := List.takeWhile_append_dropWhile (p := Char.isDigit) (l := rest)
  simp only [Piece.number]
  split
  next next more shape =>
    split
    · refine ⟨_, rfl, ?_⟩
      rw [shape] at whole
      simpa [List.takeWhile_append_dropWhile] using whole
    · exact ⟨_, rfl, whole⟩
  · exact ⟨_, rfl, whole⟩

theorem cuts_name (char : Char) (rest : List Char) : (Piece.name char rest).Cuts char rest :=
  ⟨_, rfl, List.takeWhile_append_dropWhile⟩

theorem cuts_mark (char : Char) (rest : List Char) : (Piece.mark char rest).Cuts char rest := by
  unfold Piece.mark
  split
  · exact ⟨['='], rfl, rfl⟩
  · split
    · exact ⟨[], rfl, rfl⟩
    · exact ⟨[], rfl, rfl⟩

/-- **The pieces put together are the source.** -/
theorem cuts_first (char : Char) (rest : List Char) : (Piece.first char rest).Cuts char rest := by
  unfold Piece.first
  split
  · exact ⟨[], rfl, rfl⟩
  · split
    next slashes =>
      simp only [Bool.and_eq_true, beq_iff_eq] at slashes
      rw [slashes.1]
      exact cuts_comment rest
    · split
      next quote =>
        rw [beq_iff_eq.mp quote]
        exact cuts_string rest
      · split
        · exact cuts_number char rest
        · split
          · exact cuts_name char rest
          · exact cuts_mark char rest

/-- The meaning of a piece that takes all the rest, whatever follows. -/
def Meaning.isOpen : Meaning → Bool
  | .fault .unterminatedString => true
  | _ => false

theorem comment_inFront (rest back : List Char) :
    Piece.comment (rest ++ '\n' :: back) = (Piece.comment rest).inFront ('\n' :: back) := by
  obtain ⟨taken, dropped⟩ : _ ∧ (rest ++ '\n' :: back).dropWhile (· != '\n') = _ :=
    span_append (.inr (by simp))
  rw [Piece.comment, taken, dropped]
  rfl

theorem string_inFront {rest : List Char} (closed : (Piece.string rest).meaning.isOpen = false)
    (back : List Char) : Piece.string (rest ++ back) = (Piece.string rest).inFront back := by
  unfold Piece.string at closed ⊢
  cases shape : rest.dropWhile (· != quoteMark) with
  | nil =>
      simp only [shape] at closed
      cases closed
  | cons mark after =>
      obtain ⟨taken, dropped⟩ : _ ∧ (rest ++ back).dropWhile (· != quoteMark) = _ :=
        span_append (.inl (by simp [shape]))
      rw [taken, dropped, shape]
      rfl

theorem digits_inFront (rest back : List Char) :
    (rest ++ '\n' :: back).takeWhile Char.isDigit = rest.takeWhile Char.isDigit ∧
      (rest ++ '\n' :: back).dropWhile Char.isDigit =
        rest.dropWhile Char.isDigit ++ '\n' :: back :=
  span_append (.inr (by simp))

/-- A point in front of a line end is no part of a number. -/
theorem number_inFront (digit : Char) (rest back : List Char) :
    Piece.number digit (rest ++ '\n' :: back) =
      (Piece.number digit rest).inFront ('\n' :: back) := by
  obtain ⟨taken, dropped⟩ := digits_inFront rest back
  simp only [Piece.number, taken, dropped]
  rcases shape : rest.dropWhile Char.isDigit with _ | ⟨point, _ | ⟨next, more⟩⟩
  · rfl
  · by_cases isPoint : point = '.'
    · subst isPoint
      rfl
    · simp [Piece.inFront, isPoint]
  · by_cases isPoint : point = '.'
    · subst isPoint
      obtain ⟨others, after⟩ := digits_inFront more back
      cases isDigit : next.isDigit with
      | true => simp [isDigit, others, after, Piece.inFront]
      | false => simp [isDigit, Piece.inFront]
    · simp [Piece.inFront, isPoint]

theorem name_inFront (char : Char) (rest back : List Char) :
    Piece.name char (rest ++ '\n' :: back) = (Piece.name char rest).inFront ('\n' :: back) := by
  obtain ⟨taken, dropped⟩ : _ ∧ (rest ++ '\n' :: back).dropWhile isNamePart = _ :=
    span_append (.inr (by simp; decide))
  rw [Piece.name, taken, dropped]
  rfl

theorem mark_inFront (char : Char) (rest back : List Char) :
    Piece.mark char (rest ++ '\n' :: back) = (Piece.mark char rest).inFront ('\n' :: back) := by
  -- Only an `=` is looked at, so any other text stands behind the piece.
  have single (text : List Char) (other : ∀ after, text ≠ '=' :: after) :
      Piece.mark char text = (Piece.mark char []).inFront text := by
    unfold Piece.mark
    split
    next after _ => exact absurd rfl (other after)
    next => cases punctEqual? char <;> cases punct? char <;> rfl
  cases rest with
  | nil => exact single _ (by simp)
  | cons next more =>
      by_cases equals : next = '='
      · subst equals
        unfold Piece.mark
        cases punctEqual? char with
        | some longer => rfl
        | none => cases punct? char <;> rfl
      · rw [single _ (by simp [equals]), single (next :: more) (by simp [equals])]
        simp only [Piece.inFront, List.append_assoc]

/-- **A line end behind a text changes none of its pieces**, unless a string is
not closed. -/
theorem first_inFront {char : Char} {rest : List Char}
    (closed : (Piece.first char rest).meaning.isOpen = false) (back : List Char) :
    Piece.first char (rest ++ '\n' :: back) =
      (Piece.first char rest).inFront ('\n' :: back) := by
  have slash : ((rest ++ '\n' :: back).head? == some '/') = (rest.head? == some '/') := by
    cases rest with
    | nil => simp
    | cons next more => rfl
  unfold Piece.first at closed ⊢
  rw [slash]
  split
  · rfl
  · split
    · exact comment_inFront rest back
    · split
      next blank comment quote =>
        rw [if_neg blank, if_neg comment, if_pos quote] at closed
        exact string_inFront closed _
      · split
        · exact number_inFront char rest back
        · split
          · exact name_inFront char rest back
          · exact mark_inFront char rest back

/-- No piece is the end of the input. -/
theorem not_end_first (char : Char) (rest : List Char) :
    (Piece.first char rest).meaning ≠ .token .endOfInput := by
  unfold Piece.first
  split
  · nofun
  · split
    · nofun
    · split
      · unfold Piece.string
        split <;> nofun
      · split
        · simp only [Piece.number]
          split
          · split <;> nofun
          · nofun
        · split
          · simp only [Piece.name]
            split <;> nofun
          · unfold Piece.mark
            split
            · nofun
            · split <;> nofun

end Pieces

/-! ## Items -/

/-- An item on another line. -/
def Item.relabel (change : Relabelling) : Item → Item
  | .token found => .token (found.relabel change)
  | .fault found => .fault (found.relabel change)

/-- The lines further down by a number. -/
def down (lines : Nat) : Relabelling := ⟨fun id => id, fun line => line + lines⟩

/-- The end of the input on a line. -/
def ending (line : Nat) : Item := .token ⟨.endOfInput, "", line⟩

/-- A text further down has its items further down. -/
theorem itemsFrom_down (lines : Nat) : ∀ (fuel line : Nat) (text : List Char),
    itemsFrom fuel (line + lines) text = (itemsFrom fuel line text).map (Item.relabel (down lines))
  | 0, _, _ => rfl
  | _ + 1, _, [] => rfl
  | fuel + 1, line, char :: rest => by
      have behind := itemsFrom_down lines fuel (line + (Piece.first char rest).lineEnds)
        (Piece.first char rest).rest
      have reached : line + lines + (Piece.first char rest).lineEnds =
          line + (Piece.first char rest).lineEnds + lines := Nat.add_right_comm _ _ _
      simp only [itemsFrom, reached, behind]
      split <;> rfl

/-- The item of a piece, if it has one. -/
def Piece.items (piece : Piece) (line : Nat) : List Item :=
  match piece.meaning with
  | .blank => []
  | .token kind => [.token ⟨kind, String.ofList piece.text, line + piece.lineEnds⟩]
  | .fault cause => [.fault ⟨cause, line + piece.lineEnds⟩]

/-- The items of a text from a line on, without the end of the input. -/
inductive Cut : Nat → List Char → List Item → Prop where
  | done (line : Nat) : Cut line [] []
  | piece {line : Nat} {char : Char} {rest : List Char} {items : List Item}
      (behind : Cut (line + (Piece.first char rest).lineEnds) (Piece.first char rest).rest items) :
      Cut line (char :: rest) ((Piece.first char rest).items line ++ items)

theorem length_rest_lt (char : Char) (rest : List Char) :
    (Piece.first char rest).rest.length < (char :: rest).length := by
  obtain ⟨more, -, whole⟩ := cuts_first char rest
  have sum := congrArg List.length whole
  simp only [List.length_append, List.length_cons] at sum ⊢
  omega

theorem count_first (char : Char) (rest : List Char) :
    (char :: rest).count '\n' =
      (Piece.first char rest).lineEnds + (Piece.first char rest).rest.count '\n' := by
  obtain ⟨more, text, whole⟩ := cuts_first char rest
  rw [Piece.lineEnds, text, ← List.count_append, List.cons_append, whole]

theorem exists_cut (line : Nat) (text : List Char) : ∃ items, Cut line text items := by
  match text with
  | [] => exact ⟨[], .done line⟩
  | char :: rest =>
      have shorter := length_rest_lt char rest
      obtain ⟨items, behind⟩ := exists_cut (line + (Piece.first char rest).lineEnds)
        (Piece.first char rest).rest
      exact ⟨_, .piece behind⟩
termination_by text.length
decreasing_by exact shorter

namespace Cut

variable {line : Nat} {text : List Char} {items : List Item}

theorem itemsFrom (cut : Cut line text items) : ∀ fuel, text.length ≤ fuel →
    itemsFrom fuel line text = items ++ [ending (line + text.count '\n')] := by
  induction cut with
  | done line =>
      intro fuel _
      cases fuel <;> rfl
  | @piece line char rest items _ ih =>
      intro fuel enough
      have shorter := length_rest_lt char rest
      match fuel with
      | 0 => simp at enough
      | fuel + 1 =>
          have others := ih fuel (by simp only [List.length_cons] at enough shorter; omega)
          rw [count_first, ← Nat.add_assoc, List.append_assoc, ← others]
          simp only [Lexer.itemsFrom, Piece.items]
          cases (Piece.first char rest).meaning <;> rfl

/-- A text without faults in front of a line end and another text. -/
theorem inFront {back : List Char} {others : List Item} (cut : Cut line text items) :
    items.filterMap Item.fault? = [] → Cut (line + text.count '\n' + 1) back others →
      Cut line (text ++ '\n' :: back) (items ++ others) := by
  induction cut with
  | done line => exact fun _ behind => .piece behind
  | @piece line char rest items _ ih =>
      intro quiet behind
      rw [List.filterMap_append, List.append_eq_nil_iff] at quiet
      have closed : (Piece.first char rest).meaning.isOpen = false := by
        have here := quiet.1
        unfold Piece.items at here
        split at here
        next blank => rw [blank]; rfl
        next kind token => rw [token]; rfl
        next => simp [Item.fault?] at here
      have same := first_inFront closed back
      rw [count_first, ← Nat.add_assoc] at behind
      have all : Cut line (char :: (rest ++ '\n' :: back))
          ((Piece.first char (rest ++ '\n' :: back)).items line ++ (items ++ others)) :=
        .piece (by rw [same]; exact ih quiet.2 behind)
      rw [same, ← List.append_assoc] at all
      exact all

/-- Where the tokens of a text are. -/
theorem lines (cut : Cut line text items) : ∀ token ∈ items.filterMap Item.token?,
    token.isEnd = false ∧ line ≤ token.line ∧ token.line ≤ line + text.count '\n' := by
  induction cut with
  | done line => nofun
  | @piece line char rest items _ ih =>
      intro token member
      rw [count_first]
      rw [List.filterMap_append, List.mem_append] at member
      rcases member with here | later
      · unfold Piece.items at here
        split at here
        · cases here
        next kind found =>
          cases List.mem_singleton.mp here
          refine ⟨?_, by dsimp only; omega, by dsimp only; omega⟩
          have other := not_end_first char rest
          rw [found] at other
          cases kind <;> first | rfl | exact absurd rfl other
        · cases here
      · obtain ⟨notEnd, above, below⟩ := ih token later
        exact ⟨notEnd, by omega, by omega⟩

end Cut

/-! ## Sources -/

/-- The token stream of a source. -/
def stream (source : String) : TokenStream := .ofTokens (tokens source)

/-- The line ends of a source. -/
def lineEnds (source : String) : Nat := source.toList.count '\n'

/-- A source is its tokens and faults, and the end of the input. -/
theorem exists_items (source : String) : ∃ body, Cut 1 source.toList body ∧
    items source = body ++ [ending (1 + lineEnds source)] ∧
      stream source = ⟨body.filterMap Item.token?, 1 + lineEnds source⟩ := by
  obtain ⟨body, cut⟩ := exists_cut 1 source.toList
  have whole : items source = body ++ [ending (1 + lineEnds source)] :=
    cut.itemsFrom _ (Nat.le_refl _)
  refine ⟨body, cut, whole, ?_⟩
  rw [stream, tokens, whole, List.filterMap_append]
  exact TokenStream.ofTokens_append (fun token member => (cut.lines token member).1) rfl

theorem faults_of_items {source : String} {body : List Item} {line : Nat}
    (whole : items source = body ++ [ending line]) :
    faults source = body.filterMap Item.fault? := by
  rw [faults, whole, List.filterMap_append]
  simp [ending, Item.fault?]

/-- The tokens of a source are on its lines. -/
theorem line_of_mem {source : String} {token : Token} (member : token ∈ (stream source).tokens) :
    1 ≤ token.line ∧ token.line ≤ lineEnds source + 1 := by
  obtain ⟨body, cut, -, same⟩ := exists_items source
  rw [same] at member
  obtain ⟨-, above, below⟩ := cut.lines token member
  rw [lineEnds]
  omega

/-- The items of two sources, the first one without faults. -/
theorem items_append {front : String} (back : String) (quiet : faults front = []) :
    ∃ body, items front = body ++ [ending (1 + lineEnds front)] ∧
      items (front ++ "\n" ++ back) =
        body ++ (items back).map (Item.relabel (down (lineEnds front + 1))) := by
  obtain ⟨body, cut, whole, -⟩ := exists_items front
  obtain ⟨others, below⟩ := exists_cut (1 + lineEnds front + 1) back.toList
  have silent : body.filterMap Item.fault? = [] := by rwa [← faults_of_items whole]
  have text : (front ++ "\n" ++ back).toList = front.toList ++ '\n' :: back.toList := by
    simp [String.toList_append]
  refine ⟨body, whole, ?_⟩
  have joint := (cut.inFront silent below).itemsFrom _ (Nat.le_refl _)
  have moved := itemsFrom_down (lineEnds front + 1) back.toList.length 1 back.toList
  rw [← items, ← Nat.add_assoc, below.itemsFrom _ (Nat.le_refl _)] at moved
  have lines : 1 + (front.toList ++ '\n' :: back.toList).count '\n' =
      1 + lineEnds front + 1 + back.toList.count '\n' := by
    rw [List.count_append, List.count_cons_self, lineEnds]
    omega
  rw [items, text, joint, ← moved, lines, List.append_assoc]

theorem token?_relabel (change : Relabelling) (found : List Item) :
    (found.map (Item.relabel change)).filterMap Item.token? =
      (found.filterMap Item.token?).map (Token.relabel change) := by
  rw [List.filterMap_map, List.map_filterMap]
  congr 1
  funext item
  cases item <;> rfl

theorem fault?_relabel (change : Relabelling) (found : List Item) :
    (found.map (Item.relabel change)).filterMap Item.fault? =
      (found.filterMap Item.fault?).map (LexicalError.relabel change) := by
  rw [List.filterMap_map, List.map_filterMap]
  congr 1
  funext item
  cases item <;> rfl

/-- The faults of the second source, if the first one has none. -/
theorem faults_append {front back : String} (quiet : faults front = []) :
    faults (front ++ "\n" ++ back) =
      (faults back).map (LexicalError.relabel (down (lineEnds front + 1))) := by
  obtain ⟨body, whole, joint⟩ := items_append back quiet
  rw [faults, joint, List.filterMap_append, ← faults_of_items whole, quiet, fault?_relabel]
  rfl

/-- **The tokens of two sources on end** are those of the first and, further
down, those of the second. -/
theorem stream_append {front back : String} (quiet : faults front = []) :
    stream (front ++ "\n" ++ back) =
      ⟨(stream front).tokens ++
          (stream back).tokens.map (Token.relabel (down (lineEnds front + 1))),
        (down (lineEnds front + 1)).line (stream back).endLine⟩ := by
  obtain ⟨body, whole, joint⟩ := items_append back quiet
  obtain ⟨first, cut, shape, same⟩ := exists_items front
  obtain ⟨second, below, ends, follows⟩ := exists_items back
  have equal : body = first := List.append_cancel_right (whole.symm.trans shape)
  rw [equal] at joint
  rw [stream, tokens, joint, ends, List.filterMap_append, token?_relabel, List.filterMap_append,
    List.map_append, ← List.append_assoc, same, follows]
  refine TokenStream.ofTokens_append (fun token member => ?_) rfl
  rcases List.mem_append.mp member with early | late
  · exact (cut.lines token early).1
  · obtain ⟨old, found, rfl⟩ := List.mem_map.mp late
    exact (below.lines old found).1

end Lexer

end LoxLang
