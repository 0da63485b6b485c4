import LoxLang.Tree.Printer
import LoxLang.Proofs.Tree.Relabelling

/-!
# Prefix forms

A printed tree is a word, or a head with parts in a pair of parentheses
(`Form`). The text of a form can be read in one way only, if its words are free
of blanks and parentheses (`Form.eq_of_text`): a word goes on up to the next
blank or closing parenthesis, and the parts of a node go on up to the closing
parenthesis that is not theirs.

An expression is printed as the text of its form (`Expr.toList_printed`), in
which neither the numbers of nodes nor the lines of tokens play a part
(`Expr.form_relabel`).
-/

namespace LoxLang

set_option autoImplicit false

/-- A word, or a head with parts. -/
inductive Form where
  | word (text : List Char)
  | node (head : List Char) (parts : List Form)

namespace Form

mutual

/-- A form as text. -/
def text : Form → List Char
  | word letters => letters
  | node head parts => '(' :: (head ++ (textAll parts ++ [')']))

/-- The parts of a form, each behind a blank. -/
def textAll : List Form → List Char
  | [] => []
  | first :: rest => ' ' :: (first.text ++ textAll rest)

end

/-! ## Words -/

/-- Whether a character may stand in a word. -/
def isWordPart (char : Char) : Bool := char != ' ' && char != '(' && char != ')'

/-- A text that is one word. -/
structure IsWord (letters : List Char) : Prop where
  some : letters ≠ []
  parts : ∀ char ∈ letters, isWordPart char = true

mutual

/-- All words of a form are words. -/
def Proper : Form → Prop
  | word letters => IsWord letters
  | node head parts => IsWord head ∧ AllProper parts

/-- The same for a list of forms. -/
def AllProper : List Form → Prop
  | [] => True
  | first :: rest => first.Proper ∧ AllProper rest

end

/-- A text that a word does not go on with. -/
def EndsWord (rest : List Char) : Prop := ∀ char ∈ rest.head?, isWordPart char = false

theorem endsWord_nil : EndsWord [] := nofun

theorem endsWord_cons {char : Char} (mark : isWordPart char = false) (rest : List Char) :
    EndsWord (char :: rest) := by
  intro other here
  cases here
  exact mark

/-- What is behind the parts of a node starts with a blank or a closing
parenthesis. -/
theorem endsWord_textAll (parts : List Form) (behind : List Char) :
    EndsWord (textAll parts ++ ')' :: behind) := by
  cases parts with
  | nil => exact endsWord_cons rfl _
  | cons first rest => exact endsWord_cons rfl _

/-- A word is cut off in one way. -/
theorem IsWord.append_inj {one other behind after : List Char} (first : IsWord one)
    (second : IsWord other) (ends : EndsWord behind) (endsToo : EndsWord after)
    (same : one ++ behind = other ++ after) : one = other ∧ behind = after := by
  -- a word is what is taken while the characters may stand in one
  have taken : ∀ {letters rest : List Char}, IsWord letters → EndsWord rest →
      (letters ++ rest).takeWhile isWordPart = letters := by
    intro letters rest isWord ends
    rw [List.takeWhile_append_of_pos isWord.parts]
    cases rest with
    | nil => exact List.append_nil _
    | cons char more =>
        rw [List.takeWhile_cons_of_neg (by simp [ends char rfl]), List.append_nil]
  have words : one = other := by
    rw [← taken first ends, same, taken second endsToo]
  subst words
  exact ⟨rfl, List.append_cancel_left same⟩

/-! ## A text is read in one way -/

/-- A word does not start with a parenthesis. -/
theorem IsWord.ne_paren {letters behind after : List Char} (isWord : IsWord letters) :
    letters ++ behind ≠ '(' :: after := by
  intro same
  cases letters with
  | nil => exact isWord.some rfl
  | cons char more =>
      have part := isWord.parts char List.mem_cons_self
      rw [(List.cons.inj same).1] at part
      cases part

mutual

theorem eq_of_text_append : ∀ (one other : Form) (behind after : List Char), one.Proper →
    other.Proper → EndsWord behind → EndsWord after → one.text ++ behind = other.text ++ after →
      one = other ∧ behind = after
  | word letters, word others, behind, after, first, second, ends, endsToo, same => by
      obtain ⟨rfl, rest⟩ := first.append_inj second ends endsToo same
      exact ⟨rfl, rest⟩
  | word letters, node head parts, behind, after, first, _, _, _, same =>
    absurd same first.ne_paren
  | node head parts, word letters, behind, after, _, second, _, _, same =>
    absurd same.symm second.ne_paren
  | node head parts, node header others, behind, after, first, second, _, _, same => by
      simp only [text, List.cons_append, List.append_assoc, List.nil_append, List.cons.injEq,
        true_and] at same
      obtain ⟨rfl, inside⟩ := first.1.append_inj second.1 (endsWord_textAll _ _)
        (endsWord_textAll _ _) same
      obtain ⟨rfl, rest⟩ := eq_of_textAll_append parts others behind after first.2 second.2 inside
      exact ⟨rfl, rest⟩

theorem eq_of_textAll_append : ∀ (one other : List Form) (behind after : List Char),
    AllProper one → AllProper other → textAll one ++ ')' :: behind = textAll other ++ ')' :: after →
      one = other ∧ behind = after
  | [], [], _, _, _, _, same => ⟨rfl, (List.cons.inj same).2⟩
  | [], second :: others, _, _, _, _, same => by cases (List.cons.inj same).1
  | first :: rest, [], _, _, _, _, same => by cases (List.cons.inj same).1
  | first :: rest, second :: others, behind, after, one, other, same => by
      simp only [textAll, List.cons_append, List.append_assoc, List.cons.injEq, true_and] at same
      obtain ⟨rfl, more⟩ := eq_of_text_append first second _ _ one.1 other.1
        (endsWord_textAll _ _) (endsWord_textAll _ _) same
      obtain ⟨rfl, last⟩ := eq_of_textAll_append rest others behind after one.2 other.2 more
      exact ⟨rfl, last⟩

end

/-- **The text of a form is read in one way.** -/
theorem eq_of_text {one other : Form} (first : one.Proper) (second : other.Proper)
    (same : one.text = other.text) : one = other :=
  (eq_of_text_append one other [] [] first second endsWord_nil endsWord_nil
    (by rw [List.append_nil, List.append_nil, same])).1

end Form

/-! ## Expressions -/

namespace Expr

mutual

/-- The form that an expression is printed as. -/
def form : Expr → Form
  | literal value => .word value.treeText.toList
  | unary operator operand => .node operator.lexeme.toList [operand.form]
  | binary left operator right => .node operator.lexeme.toList [left.form, right.form]
  | logical left operator right => .node operator.lexeme.toList [left.form, right.form]
  | grouping inner => .node "group".toList [inner.form]
  | var occurrence => .word occurrence.name.toList
  | assign occurrence value => .node "=".toList [.word occurrence.name.toList, value.form]
  | call callee _ arguments => .node "call".toList (callee.form :: formAll arguments)
  | get object name => .node ".".toList [object.form, .word name.lexeme.toList]
  | set object name value =>
    .node "=".toList [.node ".".toList [object.form, .word name.lexeme.toList], value.form]
  | thisRef _ => .word "this".toList
  | superRef _ method => .node "super".toList [.word method.lexeme.toList]

/-- The forms of a list of expressions. -/
def formAll : List Expr → List Form
  | [] => []
  | first :: rest => first.form :: formAll rest

end

end Expr

/-- The text of a node, from the texts of its parts. -/
theorem toList_node (head : String) (parts : List String) :
    (node head parts).toList =
      '(' :: (head.toList ++ ((parts.map fun part => ' ' :: part.toList).flatten ++ [')'])) := by
  simp [node, String.toList_join, List.flatMap_def, Function.comp_def]

namespace Expr

mutual

/-- **An expression is printed as the text of its form.** -/
theorem toList_printed : ∀ found : Expr, found.printed.toList = found.form.text
  | literal _ | var _ | thisRef _ => rfl
  | unary _ operand | grouping operand => by
      simp [printed, form, toList_node, toList_printed operand, Form.text, Form.textAll]
  | binary left _ right | logical left _ right => by
      simp [printed, form, toList_node, toList_printed left, toList_printed right, Form.text,
        Form.textAll]
  | assign _ value => by
      simp [printed, form, toList_node, toList_printed value, Form.text, Form.textAll]
  | call callee _ arguments => by
      have rest := toList_printedAll arguments
      simp [printed, form, toList_node, toList_printed callee, Form.text, Form.textAll, rest]
  | get object _ => by
      simp [printed, form, toList_node, toList_printed object, Form.text, Form.textAll]
  | set object _ value => by
      simp [printed, form, toList_node, toList_printed object, toList_printed value, Form.text,
        Form.textAll]
  | superRef _ _ => by simp [printed, form, toList_node, Form.text, Form.textAll]

theorem toList_printedAll : ∀ found : List Expr,
    ((printedAll found).map fun part => ' ' :: part.toList).flatten = Form.textAll (formAll found)
  | [] => rfl
  | first :: rest => by
      simp [printedAll, formAll, Form.textAll, toList_printed first, toList_printedAll rest]

end

mutual

/-- Numbers and lines are not printed. -/
theorem form_relabel (change : Relabelling) : ∀ found : Expr,
    (found.relabel change).form = found.form
  | literal _ | var _ | thisRef _ | superRef _ _ => rfl
  | unary _ operand | grouping operand | assign _ operand | get operand _ => by
      simp only [relabel, form, form_relabel change operand] <;> rfl
  | binary left _ right | logical left _ right | set left _ right => by
      simp only [relabel, form, form_relabel change left, form_relabel change right]
      rfl
  | call callee _ arguments => by
      simp only [relabel, form, form_relabel change callee, formAll_relabel change arguments]

theorem formAll_relabel (change : Relabelling) : ∀ found : List Expr,
    formAll (relabelAll change found) = formAll found
  | [] => rfl
  | first :: rest => by
      simp only [relabelAll, formAll, form_relabel change first, formAll_relabel change rest]

end

end Expr

end LoxLang
