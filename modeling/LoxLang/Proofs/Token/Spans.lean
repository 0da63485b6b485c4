import LoxLang.Proofs.Token.Bytes
import Mathlib.Data.List.ReduceOption

/-!
# The spans of a source

The items of a source account for all of it. Its text is cut into spans, each
from one place between two characters to a later one, so that every span begins
where the one before it ends (`Lexer.Tiles`). A span is skipped or read into one
item, which has the text of the span and the line that it ends on
(`Lexer.Span.Reads`). The items are those of the spans, and the end of the input
(`items_tile_source`). A scan that is asked for one item after another answers
with these items, and with nothing from then on (`Lexer.Scan.answer_start`). So
does a scan over the bytes, which never stops on the way.

Places are places in the bytes of the source, and there are none inside of a
character: that is part of the type `String.Pos`.
-/

namespace LoxLang

set_option autoImplicit false

namespace Lexer

/-! ## Asking for one item after another -/

/-- The fuel for the items of a text does not matter if it is enough. -/
theorem itemsFrom_of_le {fuel : Nat} {text : List Char} (enough : text.length ≤ fuel)
    (line : Nat) : itemsFrom fuel line text = itemsFrom text.length line text := by
  obtain ⟨items, cut⟩ := exists_cut line text
  rw [cut.itemsFrom fuel enough, cut.itemsFrom text.length (Nat.le_refl _)]

namespace Scan

/-- The items that a scan has not handed out yet. -/
def remaining (scan : Scan) : List Item :=
  if scan.ended then [] else itemsFrom scan.ahead.length scan.line scan.ahead

theorem itemsFrom_eq_cons : ∀ (fuel line : Nat) (text : List Char), text.length ≤ fuel →
    itemsFrom fuel line text = (nextFrom fuel line text).1 :: (nextFrom fuel line text).2.remaining
  | 0, _, _, _ => rfl
  | _ + 1, _, [], _ => rfl
  | fuel + 1, line, char :: rest, enough => by
      have shorter : (Piece.first char rest).rest.length ≤ fuel :=
        Nat.le_of_lt_succ (Nat.lt_of_lt_of_le (length_rest_lt char rest) enough)
      simp only [itemsFrom, nextFrom]
      cases (Piece.first char rest).meaning with
      | blank => exact itemsFrom_eq_cons fuel _ _ shorter
      | token kind | fault cause => exact congrArg _ (itemsFrom_of_le shorter _)

/-- A scan hands out the first of its remaining items and keeps the others. -/
theorem next_remaining (scan : Scan) :
    scan.next.1 = scan.remaining.head? ∧ scan.next.2.remaining = scan.remaining.tail := by
  unfold next
  split
  next ended => simp [remaining, ended]
  next going =>
    have items := itemsFrom_eq_cons _ scan.line scan.ahead (Nat.le_refl _)
    simp only [remaining, if_neg going] at items ⊢
    rw [items]
    exact ⟨rfl, rfl⟩

theorem answer_eq (count : Nat) : ∀ scan : Scan, scan.answer count = scan.remaining[count]? := by
  induction count with
  | zero =>
      intro scan
      rw [answer, scan.next_remaining.1, List.head?_eq_getElem?]
  | succ count ih =>
      intro scan
      rw [answer, ih, scan.next_remaining.2, List.getElem?_tail]

/-- **Asked again and again, a scan answers with the items of its source**, and
with nothing when they are used up. -/
theorem answer_start (source : String) (count : Nat) :
    (start source).answer count = (items source)[count]? :=
  answer_eq count (start source)

end Scan

/-! ## What a piece may look like -/

/-- A piece is what its meaning says: a blank is one character of white space,
or a comment up to the end of its line. A fault is one character, or all the
rest from a quote that is not closed. -/
def Piece.Proper (piece : Piece) : Prop :=
  match piece.meaning with
  | .blank => (∃ char ∈ [' ', '\t', '\r', '\n'], piece.text = [char]) ∨
      ∃ more, piece.text = '/' :: '/' :: more ∧ '\n' ∉ more ∧ ∀ char ∈ piece.rest.head?, char = '\n'
  | .token kind => kind ≠ .endOfInput
  | .fault (.unexpectedCharacter char) => piece.text = [char]
  | .fault .unterminatedString =>
    piece.rest = [] ∧ ∃ more, piece.text = quoteMark :: more ∧ quoteMark ∉ more

theorem Piece.proper_of_token {piece : Piece} {kind : Token.Kind}
    (token : piece.meaning = .token kind) (inner : kind ≠ .endOfInput) : piece.Proper := by
  rw [Piece.Proper, token]
  exact inner

theorem not_mem_takeWhile_ne (char : Char) (text : List Char) :
    char ∉ text.takeWhile (· != char) := by
  intro member
  have passes := List.mem_takeWhile_imp member
  simp at passes

theorem proper_comment {rest : List Char} (slash : rest.head? = some '/') :
    (Piece.comment rest).Proper := by
  obtain ⟨more, rfl⟩ : ∃ more, rest = '/' :: more := by
    cases rest with
    | nil => cases slash
    | cons next more => exact ⟨more, by rw [Option.some.inj slash]⟩
  refine .inr ⟨more.takeWhile (· != '\n'), by simp [Piece.comment], not_mem_takeWhile_ne _ _, ?_⟩
  intro char next
  have stops := List.head?_dropWhile_not (· != '\n') ('/' :: more)
  simp only [Piece.comment, Option.mem_def] at next
  rw [next] at stops
  simpa using stops

theorem proper_string (rest : List Char) : (Piece.string rest).Proper := by
  unfold Piece.string
  split
  next closed =>
    refine ⟨rfl, rest, rfl, fun member => ?_⟩
    have fails := List.dropWhile_eq_nil_iff.mp closed quoteMark member
    simp at fails
  next => exact Piece.proper_of_token rfl nofun

theorem proper_number (digit : Char) (rest : List Char) : (Piece.number digit rest).Proper := by
  have inner (value : Float) : Token.Kind.number value ≠ .endOfInput := by
    intro same
    cases same
  simp only [Piece.number]
  split
  · split
    · exact Piece.proper_of_token rfl (inner _)
    · exact Piece.proper_of_token rfl (inner _)
  · exact Piece.proper_of_token rfl (inner _)

theorem proper_name (char : Char) (rest : List Char) : (Piece.name char rest).Proper :=
  Piece.proper_of_token rfl (by split <;> nofun)

theorem proper_mark (char : Char) (rest : List Char) : (Piece.mark char rest).Proper := by
  unfold Piece.mark
  split
  · exact Piece.proper_of_token rfl nofun
  · split
    · exact Piece.proper_of_token rfl nofun
    · exact rfl

/-- **Every piece is what its meaning says.** -/
theorem proper_first (char : Char) (rest : List Char) : (Piece.first char rest).Proper := by
  unfold Piece.first
  split
  next blank =>
    refine .inl ⟨char, ?_, rfl⟩
    simp only [isBlank, Bool.or_eq_true, beq_iff_eq] at blank
    simp only [List.mem_cons, List.not_mem_nil, or_false]
    tauto
  next =>
    split
    next slashes =>
      simp only [Bool.and_eq_true, beq_iff_eq] at slashes
      exact proper_comment slashes.2
    next =>
      split
      · exact proper_string rest
      · split
        · exact proper_number char rest
        · split
          · exact proper_name char rest
          · exact proper_mark char rest

/-! ## Spans -/

/-- A span of a source: two places between its characters, the first in front
of the second. -/
structure Span (source : String) where
  start : source.Pos
  stop : source.Pos
  nonempty : start < stop

namespace Span

variable {source : String}

/-- The text between the two places. -/
def text (span : Span source) : String := String.extract span.start span.stop

/-- The line that a span ends on. -/
def line (span : Span source) : Nat := 1 + lineEnds (String.extract source.startPos span.stop)

/-- The text behind a span. -/
def behind (span : Span source) : String := String.extract span.stop source.endPos

/-- A span is skipped, or read into one item. -/
inductive Reads (span : Span source) : Option Item → Prop where
  | whiteSpace (char : Char) (white : char ∈ [' ', '\t', '\r', '\n'])
      (text : span.text = String.singleton char) : Reads span none
  | comment (more : List Char) (text : span.text.toList = '/' :: '/' :: more)
      (oneLine : '\n' ∉ more) (stops : ∀ char ∈ span.behind.toList.head?, char = '\n') :
      Reads span none
  | token (kind : Token.Kind) (inner : kind ≠ .endOfInput) :
      Reads span (some (.token ⟨kind, span.text, span.line⟩))
  | unexpected (char : Char) (text : span.text = String.singleton char) :
      Reads span (some (.fault ⟨.unexpectedCharacter char, span.line⟩))
  | unterminated (more : List Char) (text : span.text.toList = quoteMark :: more)
      (unmatched : quoteMark ∉ more) (last : span.stop = source.endPos) :
      Reads span (some (.fault ⟨.unterminatedString, span.line⟩))

end Span

/-- Spans from a place on up to the end of the source, each of which begins
where the one before it ends. -/
inductive Tiles {source : String} : source.Pos → List (Span source) → Prop where
  | done : Tiles source.endPos []
  | span (first : Span source) {rest : List (Span source)} (others : Tiles first.stop rest) :
      Tiles first.start (first :: rest)

section Tiling

variable {source : String}

/-- A text that is not empty is a span of the source it stands in. -/
theorem exists_span {start : source.Pos} {before text after : String} (nonempty : text ≠ "")
    (front : start.Splits before (text ++ after)) :
    ∃ span : Span source, span.start = start ∧ span.text = text ∧
      span.stop.Splits (before ++ text) after := by
  have whole : source = before ++ text ++ after := by
    rw [String.append_assoc]
    exact front.eq_append
  have back := String.Pos.splits_ofEqAppend whole
  have ordered : start < String.Pos.ofEqAppend whole :=
    (front.lt_iff_exists_eq_append back).mpr ⟨text, nonempty, rfl, rfl⟩
  exact ⟨⟨start, _, ordered⟩, rfl, extract_of_splits front back, back⟩

theorem Span.line_of_splits {span : Span source} {before after : String}
    (back : span.stop.Splits before after) : span.line = 1 + lineEnds before := by
  have front : source.startPos.Splits "" (before ++ after) := by
    rw [← back.eq_append]
    exact source.splits_startPos
  rw [line, extract_of_splits front (by rwa [String.empty_append])]

theorem Span.behind_of_splits {span : Span source} {before after : String}
    (back : span.stop.Splits before after) : span.behind = after := by
  have whole : source.endPos.Splits (before ++ after) "" := by
    rw [← back.eq_append]
    exact source.splits_endPos
  exact extract_of_splits (by rwa [String.append_empty]) whole

/-- The line reached behind a piece. -/
theorem line_reached (piece : Piece) (before : String) :
    1 + lineEnds before + piece.lineEnds =
      1 + lineEnds (before ++ String.ofList piece.text) := by
  simp only [lineEnds, Piece.lineEnds, String.toList_append, String.toList_ofList,
    List.count_append, Nat.add_assoc]

/-- The span of a piece is read into the item of the piece. -/
theorem Span.reads_of_proper {span : Span source} {piece : Piece} {before : String}
    (proper : piece.Proper) (text : span.text = String.ofList piece.text)
    (back : span.stop.Splits (before ++ String.ofList piece.text) (String.ofList piece.rest)) :
    ∃ reading, span.Reads reading ∧ piece.items (1 + lineEnds before) = reading.toList := by
  have line : 1 + lineEnds before + piece.lineEnds = span.line := by
    rw [span.line_of_splits back, line_reached]
  have behind : span.behind.toList = piece.rest := by
    rw [span.behind_of_splits back, String.toList_ofList]
  unfold Piece.Proper at proper
  simp only [Piece.items, line, ← text]
  cases meaning : piece.meaning with
  | blank =>
      rw [meaning] at proper
      refine ⟨none, ?_, rfl⟩
      rcases proper with ⟨char, white, one⟩ | ⟨more, slashes, oneLine, stops⟩
      · exact .whiteSpace char white (by rw [text, one, String.singleton_eq_ofList])
      · exact .comment more (by rw [text, String.toList_ofList, slashes]) oneLine
          (by rwa [behind])
  | token kind =>
      rw [meaning] at proper
      exact ⟨_, .token kind proper, rfl⟩
  | fault cause =>
      rw [meaning] at proper
      cases cause with
      | unexpectedCharacter char =>
          exact ⟨_, .unexpected char (by rw [text, proper, String.singleton_eq_ofList]), rfl⟩
      | unterminatedString =>
          obtain ⟨ended, more, quote, unmatched⟩ := proper
          have last : span.stop = source.endPos := by
            rw [back.eq_endPos_iff, ended, String.ofList_nil]
          exact ⟨_, .unterminated more (by rw [text, String.toList_ofList, quote]) unmatched last,
            rfl⟩

/-- A span with the piece that starts at its place. -/
structure Span.Holds (span : Span source) (before : String) (char : Char) (rest : List Char) :
    Prop where
  front : span.start.Splits before (String.ofList (char :: rest))
  text : span.text = String.ofList (Piece.first char rest).text
  back : span.stop.Splits (before ++ String.ofList (Piece.first char rest).text)
    (String.ofList (Piece.first char rest).rest)

/-- The pieces of a text are spans of the source, one behind the other, in
whatever sense a single piece is read into its item. -/
theorem Cut.tiles_of {Sense : Span source → Option Item → Prop}
    (single : ∀ (span : Span source) (before : String) (char : Char) (rest : List Char),
      span.Holds before char rest → ∃ reading, Sense span reading ∧
        (Piece.first char rest).items (1 + lineEnds before) = reading.toList)
    {line : Nat} {text : List Char} {items : List Item} (cut : Cut line text items) :
    ∀ {start : source.Pos} {before : String}, start.Splits before (String.ofList text) →
      line = 1 + lineEnds before →
      ∃ spans readings, Tiles start spans ∧ List.Forall₂ Sense spans readings ∧
        items = readings.reduceOption := by
  induction cut with
  | done line =>
      intro start before front _
      rw [front.eq_endPos_iff.mpr rfl]
      exact ⟨[], [], .done, .nil, rfl⟩
  | @piece line char rest items _ ih =>
      rintro start before front rfl
      obtain ⟨more, shape, whole⟩ := cuts_first char rest
      have split : String.ofList (char :: rest) =
          String.ofList (Piece.first char rest).text ++
            String.ofList (Piece.first char rest).rest := by
        rw [← String.ofList_append, shape, List.cons_append, whole]
      have nonempty : String.ofList (Piece.first char rest).text ≠ "" := by
        rw [shape]
        simp
      obtain ⟨span, rfl, text, back⟩ := exists_span nonempty (split ▸ front)
      obtain ⟨reading, reads, here⟩ := single span before char rest ⟨front, text, back⟩
      obtain ⟨spans, readings, tiles, others, rfl⟩ := ih back (line_reached _ before)
      refine ⟨span :: spans, reading :: readings, .span span tiles, .cons reads others, ?_⟩
      rw [here]
      cases reading <;> simp

/-- The pieces of a text are spans that are skipped or read. -/
theorem Cut.tiles {line : Nat} {text : List Char} {items : List Item} (cut : Cut line text items) :
    ∀ {start : source.Pos} {before : String}, start.Splits before (String.ofList text) →
      line = 1 + lineEnds before →
      ∃ spans readings, Tiles start spans ∧ List.Forall₂ Span.Reads spans readings ∧
        items = readings.reduceOption :=
  cut.tiles_of fun _ _ char rest holds =>
    Span.reads_of_proper (proper_first char rest) holds.text holds.back

end Tiling

/-- **The items of a source account for all of it.** A source is tiled by spans
that are not empty and begin and end between two characters. Each of them is
either skipped, and is then white space or a comment, or read into one item: a
token with the text of the span, or a fault that is one character or the rest of
the source from a quote that is not matched. The line of an item is that of the
end of its span. The items are those of the spans in order, and then the end of
the input on the last line. A scan that is asked for item after item answers
with these, and with nothing from then on. A scan over the bytes gives the same
answers: it takes no byte where none is, cuts out no text that does not begin
and end between two characters, and none of its loops goes on forever. -/
theorem items_tile_source (source : String) :
    (∃ (spans : List (Span source)) (readings : List (Option Item)),
      Tiles source.startPos spans ∧ List.Forall₂ Span.Reads spans readings ∧
      items source =
        readings.reduceOption ++ [.token ⟨.endOfInput, "", 1 + lineEnds source⟩]) ∧
    (∀ count, (Scan.start source).answer count = (items source)[count]?) ∧
    ∀ count, ∃ reached,
      ByteScan.answer count (ByteScan.ofSource source) = .ok (items source)[count]? reached := by
  refine ⟨?_, Scan.answer_start source, fun count => ?_⟩
  case refine_2 =>
    rw [← Scan.answer_start]
    exact ByteScan.answer_ofSource source count
  obtain ⟨body, cut, whole, -⟩ := exists_items source
  have front : source.startPos.Splits "" (String.ofList source.toList) := by
    rw [String.ofList_toList]
    exact source.splits_startPos
  obtain ⟨spans, readings, tiles, reads, rfl⟩ := cut.tiles front rfl
  exact ⟨spans, readings, tiles, reads, whole⟩

end Lexer

end LoxLang
