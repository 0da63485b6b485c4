import LoxLang.Proofs.Grammar.KeptTokens
import LoxLang.Proofs.Number.Scanning
import LoxLang.Proofs.Tree.Forms

/-!
# A printed tree stands for one tree

The printed form of an expression can be read back (`Expr.rereads`), up to what
is not printed: the numbers of nodes and the lines of tokens. Its words are
lexemes of the language, so a word is read as the token that it spells, and the
kind of the head of a node tells operators from the other nodes. Numbers are read
back from the texts they are printed as (`Number.lexeme_text_iff`).

Two trees with the same text therefore are the same
(`printed_tree_is_unambiguous`). Strings are printed bare, and a number past the
largest double is printed as a word that could be a name, so literals of these
two kinds are left out.
-/

namespace LoxLang

set_option autoImplicit false

/-! ## Scanned tokens -/

/-- A token whose text is a lexeme that stands for its kind. -/
def Token.Scanned (token : Token) : Prop :=
  Lexer.Lexeme token.lexeme.toList (.token token.kind)

namespace Lexer

/-- Every token of a source is scanned, apart from the end. -/
theorem scanned_itemsFrom : ∀ (fuel line : Nat) (source : List Char),
    ∀ token ∈ (itemsFrom fuel line source).filterMap Item.token?,
      token.isEnd = false → token.Scanned
  | 0, _, _ | _ + 1, _, [] => by
      intro token member open_
      rw [List.mem_singleton.mp member] at open_
      cases open_
  | fuel + 1, line, char :: rest => by
      have behind := scanned_itemsFrom fuel (line + (Piece.first char rest).lineEnds)
        (Piece.first char rest).rest
      have grammatical := grammatical_first char rest
      simp only [itemsFrom]
      split
      · exact behind
      next kind token =>
        refine List.forall_mem_cons.mpr ⟨fun _ => ?_, behind⟩
        rw [Piece.Grammatical, token] at grammatical
        rwa [Token.Scanned, String.toList_ofList]
      · exact behind

theorem scanned_of_mem_stream {source : String} {token : Token}
    (member : token ∈ (TokenStream.ofTokens (tokens source)).tokens) : token.Scanned := by
  refine scanned_itemsFrom _ _ _ token ((List.takeWhile_sublist _).subset member) ?_
  simpa using List.mem_takeWhile_imp member

theorem eq_text_of_punct {text : List Char} {mark : Punct}
    (lexeme : Lexeme text (.token (.punct mark))) : text = mark.text.toList := by
  cases lexeme
  rfl

theorem eq_text_of_keyword {text : List Char} {word : Keyword}
    (lexeme : Lexeme text (.token (.keyword word))) : text = word.text.toList := by
  cases lexeme
  rfl

end Lexer

/-- Numbers and lines are forgotten. -/
def Relabelling.forget : Relabelling := ⟨fun _ => 0, fun _ => 0⟩

namespace Token

/-- The first token of a text, without its line. -/
def ofText (text : List Char) : Token :=
  ((Lexer.tokens (String.ofList text)).headD ⟨.endOfInput, "", 0⟩).relabel .forget

/-- A lexeme is read as one token. -/
theorem ofText_of_lexeme {text : List Char} {kind : Kind}
    (lexeme : Lexer.Lexeme text (.token kind)) : ofText text = ⟨kind, String.ofList text, 0⟩ := by
  cases text with
  | nil => exact absurd rfl lexeme.ne_nil
  | cons char rest =>
      simp only [ofText, Lexer.tokens, Lexer.items, String.toList_ofList, List.length_cons,
        Lexer.itemsFrom, lexeme.first_eq]
      rfl

theorem Scanned.ofText {token : Token} (scanned : token.Scanned) :
    Token.ofText token.lexeme.toList = token.relabel .forget := by
  rw [ofText_of_lexeme scanned, String.ofList_toList]
  rfl

theorem kind_of_isPunct {token : Token} {mark : Punct} (passes : token.isPunct mark = true) :
    token.kind = .punct mark := by
  unfold isPunct at passes
  cases kind : token.kind <;> simp_all

theorem kind_of_isKeyword {token : Token} {word : Keyword} (passes : token.isKeyword word = true) :
    token.kind = .keyword word := by
  unfold isKeyword at passes
  cases kind : token.kind <;> simp_all

/-- A scanned punctuator is known but for its line. -/
theorem Scanned.forget_punct {token : Token} {mark : Punct} (scanned : token.Scanned)
    (passes : token.isPunct mark = true) : token.relabel .forget = mark.token := by
  have kind := kind_of_isPunct passes
  rw [Scanned, kind] at scanned
  have spelled := String.toList_inj.mp (Lexer.eq_text_of_punct scanned)
  rw [relabel, kind, spelled]
  rfl

/-- A scanned reserved word is known but for its line. -/
theorem Scanned.forget_keyword {token : Token} {word : Keyword} (scanned : token.Scanned)
    (passes : token.isKeyword word = true) :
    token.relabel .forget = ⟨.keyword word, word.text, 0⟩ := by
  have kind := kind_of_isKeyword passes
  rw [Scanned, kind] at scanned
  have spelled := String.toList_inj.mp (Lexer.eq_text_of_keyword scanned)
  rw [relabel, kind, spelled]
  rfl

end Token

/-! ## Words -/

/-- Whether the lexemes of a kind have neither blanks nor parentheses in them. -/
def Token.Kind.isWord : Token.Kind → Bool
  | .punct mark => mark != .leftParen && mark != .rightParen
  | .keyword _ | .identifier | .number _ => true
  | .string _ | .endOfInput => false

namespace Lexer

theorem isWordPart_of_isNamePart {char : Char} (part : isNamePart char = true) :
    Form.isWordPart char = true := by
  have blank : char ≠ ' ' := ne_of_isNamePart part rfl
  have opening : char ≠ '(' := ne_of_isNamePart part rfl
  have closing : char ≠ ')' := ne_of_isNamePart part rfl
  simp [Form.isWordPart, blank, opening, closing]

theorem isWordPart_of_isDigit {char : Char} (digit : char.isDigit = true) :
    Form.isWordPart char = true :=
  isWordPart_of_isNamePart (isNamePart_of_isDigit digit)

/-- Lexemes of names, numbers, reserved words and operators are words. -/
theorem isWord_of_lexeme {text : List Char} {kind : Token.Kind}
    (lexeme : Lexeme text (.token kind)) (plain : kind.isWord = true) : Form.IsWord text := by
  refine ⟨lexeme.ne_nil, ?_⟩
  cases lexeme with
  | punct mark =>
      have spelled : mark.text.toList.all Form.isWordPart = true := by
        revert plain
        cases mark <;> decide
      exact List.all_eq_true.mp spelled
  | string _ => cases plain
  | whole _ all => exact fun char member => isWordPart_of_isDigit (all char member)
  | decimal _ _ all =>
      obtain ⟨front, back⟩ := List.forall_mem_append.mp all
      refine List.forall_mem_append.mpr ⟨fun char member => ?_, List.forall_mem_cons.mpr ⟨rfl, ?_⟩⟩
      · exact isWordPart_of_isDigit (front char member)
      · exact fun char member => isWordPart_of_isDigit (back char member)
  | keyword word =>
      have spelled : word.text.toList.all Form.isWordPart = true := by cases word <;> decide
      exact List.all_eq_true.mp spelled
  | name letter others _ =>
      refine List.forall_mem_cons.mpr ⟨isWordPart_of_isNamePart (isNamePart_of_isLetter letter), ?_⟩
      exact fun char member => isWordPart_of_isNamePart (isNamePart_iff.mpr (others char member))

end Lexer

/-! ## Literals -/

/-- Whether a literal can be told from its text: it is no string, and finite if it
is a number. -/
def Literal.isLegible : Literal → Bool
  | nil | bool _ => true
  | number value => value.isFinite
  | string _ => false

/-- The text of a literal is a lexeme of its token. -/
theorem Literal.lexeme_treeText {value : Literal} {token : Token} (scanned : token.Scanned)
    (kind : token.kind = value.token.kind) (legible : value.isLegible = true) :
    Lexer.Lexeme value.treeText.toList (.token value.token.kind) := by
  cases value with
  | nil => exact .keyword .kwNil
  | bool value =>
      cases value with
      | true => exact .keyword .kwTrue
      | false => exact .keyword .kwFalse
  | number value =>
      rw [Token.Scanned, kind] at scanned
      exact (Number.lexeme_text_iff (.inr rfl)).mpr
        ⟨legible, Number.isNegative_of_lexeme scanned⟩
  | string value => cases legible

/-- A legible literal whose text is a lexeme of its token. -/
def Literal.Reads (value : Literal) : Prop :=
  value.isLegible = true ∧ Lexer.Lexeme value.treeText.toList (.token value.token.kind)

/-! ## Reading forms -/

namespace Expr

/-- The expression of a word. -/
def ofWord (token : Token) : Expr :=
  match Reader.primaryHead? token with
  | some (.literal value) => literal value
  | some .thisWord => thisRef ⟨0, token⟩
  | _ => var ⟨0, token⟩

/-- The name that an expression consists of. -/
def nameToken : Expr → Token
  | var occurrence => occurrence.token
  | _ => ⟨.endOfInput, "", 0⟩

/-- An assignment to a target. -/
def assigned (target value : Expr) : Expr :=
  match target with
  | get object name => set object name value
  | other => assign ⟨0, other.nameToken⟩ value

/-- The expression of a node, from its head and its parts. -/
def ofNode (head : Token) : List Expr → Expr
  | [] => literal .nil
  | first :: rest =>
    match head.kind, rest with
    | .identifier, _ =>
      if head.lexeme = "group" then grouping first else call first Punct.rightParen.token rest
    | .keyword .kwSuper, _ => superRef ⟨0, head⟩ first.nameToken
    | .punct .dot, [second] => get first second.nameToken
    | .punct .equal, [second] => first.assigned second
    | _, [second] =>
      if isLogicalOperator head then logical first head second else binary first head second
    | _, _ => unary head first

end Expr

namespace Form

mutual

/-- The expression that a form is read back as. -/
def tree : Form → Expr
  | word letters => .ofWord (.ofText letters)
  | node head parts => .ofNode (.ofText head) (treeAll parts)

/-- The same for a list of forms. -/
def treeAll : List Form → List Expr
  | [] => []
  | first :: rest => first.tree :: treeAll rest

end

end Form

namespace Expr

/-- An expression is read back from its form, up to numbers and lines, and its
form has proper words. -/
structure Rereads (found : Expr) : Prop where
  proper : found.form.Proper
  tree : found.form.tree = found.relabel .forget

/-- The same for a list of expressions. -/
structure AllReread (found : List Expr) : Prop where
  proper : Form.AllProper (formAll found)
  tree : Form.treeAll (formAll found) = relabelAll .forget found

/-! ### Heads -/

section Heads

variable {head : Token}

theorem ofNode_unary (operates : Reader.isUnaryOperator head = true) (operand : Expr) :
    head.kind.isWord = true ∧ ofNode head [operand] = unary head operand := by
  obtain ⟨kind, lexeme, line⟩ := head
  cases kind with
  | punct mark => cases mark <;> first | exact ⟨rfl, rfl⟩ | cases operates
  | _ => cases operates

theorem ofNode_binary (operates : isBinaryOperator head = true) (left right : Expr) :
    head.kind.isWord = true ∧ ofNode head [left, right] = binary left head right := by
  obtain ⟨kind, lexeme, line⟩ := head
  cases kind with
  | punct mark => cases mark <;> first | exact ⟨rfl, rfl⟩ | cases operates
  | _ => cases operates

theorem ofNode_logical (operates : isLogicalOperator head = true) (left right : Expr) :
    head.kind.isWord = true ∧ ofNode head [left, right] = logical left head right := by
  obtain ⟨kind, lexeme, line⟩ := head
  cases kind with
  | keyword word => cases word <;> first | exact ⟨rfl, rfl⟩ | cases operates
  | _ => cases operates

end Heads

/-- The heads that are no operators. -/
theorem ofText_heads :
    Token.ofText "group".toList = ⟨.identifier, "group", 0⟩ ∧
      Token.ofText "call".toList = ⟨.identifier, "call", 0⟩ ∧
      Token.ofText "super".toList = ⟨.keyword .kwSuper, "super", 0⟩ ∧
      Token.ofText ".".toList = Punct.dot.token ∧ Token.ofText "=".toList = Punct.equal.token := by
  decide +kernel

theorem isWord_heads : ∀ head ∈ ["group", "call", "super", ".", "="], Form.IsWord head.toList := by
  have words : ∀ head ∈ ["group", "call", "super", ".", "="],
      head.toList ≠ [] ∧ head.toList.all Form.isWordPart = true := by
    decide
  exact fun head member => ⟨(words head member).1, List.all_eq_true.mp (words head member).2⟩

/-! ### One step for each kind of expression -/

theorem rereads_literal {value : Literal} (legible : value.isLegible = true)
    (lexeme : Lexer.Lexeme value.treeText.toList (.token value.token.kind)) :
    (literal value).Rereads := by
  constructor
  · refine Lexer.isWord_of_lexeme lexeme ?_
    cases value with
    | bool value => cases value <;> rfl
    | string _ => cases legible
    | _ => rfl
  · show ofWord (.ofText value.treeText.toList) = literal value
    rw [Token.ofText_of_lexeme lexeme]
    cases value with
    | bool value => cases value <;> rfl
    | _ => rfl

section Steps

variable {token : Token} {first second : Expr}

/-- A name is a word that is read back as a variable. -/
theorem reads_name (scanned : token.Scanned) (named : token.isIdentifier = true) :
    Form.IsWord token.lexeme.toList ∧
      ofWord (.ofText token.lexeme.toList) = var ⟨0, token.relabel .forget⟩ := by
  have kind : token.kind.isWord = true := by
    unfold Token.isIdentifier at named
    split at named <;> simp_all [Token.Kind.isWord]
  refine ⟨Lexer.isWord_of_lexeme scanned kind, ?_⟩
  have head : Reader.primaryHead? (token.relabel .forget) = some .name :=
    Reader.primaryHead?_eq (Token.isIdentifier_iff.mp named) rfl
  rw [scanned.ofText, ofWord, head]

theorem rereads_unary (scanned : token.Scanned) (operates : Reader.isUnaryOperator token = true)
    (one : first.Rereads) : (unary token first).Rereads := by
  obtain ⟨isWord, read⟩ := @ofNode_unary (token.relabel .forget) operates (first.relabel .forget)
  refine ⟨⟨Lexer.isWord_of_lexeme scanned isWord, one.proper, trivial⟩, ?_⟩
  rw [form, Form.tree, Form.treeAll, Form.treeAll, scanned.ofText, one.tree, read]
  rfl

/-- An operator in front of its two operands. -/
theorem rereads_operator {found : Expr} (scanned : token.Scanned)
    (shape : found.form = .node token.lexeme.toList [first.form, second.form])
    (read : token.kind.isWord = true ∧
      ofNode (token.relabel .forget) [first.relabel .forget, second.relabel .forget] =
        found.relabel .forget)
    (one : first.Rereads) (other : second.Rereads) : found.Rereads := by
  constructor
  · rw [shape]
    exact ⟨Lexer.isWord_of_lexeme scanned read.1, one.proper, other.proper, trivial⟩
  · rw [shape, Form.tree, Form.treeAll, Form.treeAll, Form.treeAll, scanned.ofText, one.tree,
      other.tree, read.2]

theorem rereads_grouping (one : first.Rereads) : (grouping first).Rereads := by
  refine ⟨⟨isWord_heads _ (by simp), one.proper, trivial⟩, ?_⟩
  rw [form, Form.tree, Form.treeAll, Form.treeAll, ofText_heads.1, one.tree]
  rfl

theorem rereads_var {id : Nat} (scanned : token.Scanned) (named : token.isIdentifier = true) :
    (var ⟨id, token⟩).Rereads :=
  ⟨(reads_name scanned named).1, (reads_name scanned named).2⟩

theorem rereads_assign {id : Nat} (scanned : token.Scanned) (named : token.isIdentifier = true)
    (one : first.Rereads) : (assign ⟨id, token⟩ first).Rereads := by
  obtain ⟨isWord, read⟩ := reads_name scanned named
  refine ⟨⟨isWord_heads _ (by simp), isWord, one.proper, trivial⟩, ?_⟩
  rw [form, Form.tree, Form.treeAll, Form.treeAll, Form.treeAll, Form.tree, ofText_heads.2.2.2.2,
    Occurrence.name, read, one.tree]
  rfl

theorem rereads_get (scanned : token.Scanned) (named : token.isIdentifier = true)
    (one : first.Rereads) : (get first token).Rereads := by
  obtain ⟨isWord, read⟩ := reads_name scanned named
  refine ⟨⟨isWord_heads _ (by simp), one.proper, isWord, trivial⟩, ?_⟩
  simp only [form, Form.tree, Form.treeAll]
  rw [ofText_heads.2.2.2.1, one.tree, read]
  rfl

/-- The target of an assignment to a property is read back like the property. -/
theorem rereads_set (scanned : token.Scanned) (named : token.isIdentifier = true)
    (one : first.Rereads) (other : second.Rereads) : (set first token second).Rereads := by
  have target := rereads_get scanned named one
  refine ⟨⟨isWord_heads _ (by simp), target.proper, other.proper, trivial⟩, ?_⟩
  have read := target.tree
  rw [form] at read
  rw [form, Form.tree, Form.treeAll, Form.treeAll, Form.treeAll, ofText_heads.2.2.2.2, read,
    other.tree]
  rfl

theorem rereads_call {arguments : List Expr} (scanned : token.Scanned)
    (closes : token.isPunct .rightParen = true) (one : first.Rereads)
    (others : AllReread arguments) : (call first token arguments).Rereads := by
  refine ⟨⟨isWord_heads _ (by simp), one.proper, others.proper⟩, ?_⟩
  rw [form, Form.tree, Form.treeAll, ofText_heads.2.1, one.tree, others.tree, relabel,
    scanned.forget_punct closes]
  rfl

theorem rereads_this {id : Nat} (scanned : token.Scanned)
    (word : token.isKeyword .kwThis = true) : (thisRef ⟨id, token⟩).Rereads := by
  have lexeme : Lexer.Lexeme "this".toList (.token (.keyword .kwThis)) := .keyword .kwThis
  refine ⟨Lexer.isWord_of_lexeme lexeme rfl, ?_⟩
  rw [form, Form.tree, Token.ofText_of_lexeme lexeme, relabel, Occurrence.relabel,
    scanned.forget_keyword word]
  rfl

theorem rereads_super {id : Nat} {method : Token} (scanned : token.Scanned)
    (word : token.isKeyword .kwSuper = true) (spelled : method.Scanned)
    (named : method.isIdentifier = true) : (superRef ⟨id, token⟩ method).Rereads := by
  obtain ⟨isWord, read⟩ := reads_name spelled named
  refine ⟨⟨isWord_heads _ (by simp), isWord, trivial⟩, ?_⟩
  rw [form, Form.tree, Form.treeAll, Form.treeAll, Form.tree, ofText_heads.2.2.1, read, relabel,
    Occurrence.relabel, scanned.forget_keyword word]
  rfl

end Steps

/-! ### Whole expressions -/

mutual

/-- **An expression is read back from its form**, if it is levelled, keeps scanned
tokens and has legible literals. -/
theorem rereads : ∀ found : Expr, found.Levelled → (∀ token ∈ found.kept, token.Scanned) →
    (∀ value ∈ found.literals, value.Reads) → found.Rereads
  | literal value, _, _, reads =>
    rereads_literal (reads value List.mem_cons_self).1 (reads value List.mem_cons_self).2
  | unary operator operand, levelled, scanned, reads => by
      obtain ⟨one, others⟩ := List.forall_mem_cons.mp scanned
      exact rereads_unary one levelled.1 (rereads operand levelled.2.2 others reads)
  | binary left operator right, levelled, scanned, reads => by
      simp only [kept, literals, List.forall_mem_append, List.forall_mem_cons] at scanned reads
      obtain ⟨operates, -, -, one, other⟩ := levelled
      have read := @ofNode_binary (operator.relabel .forget) operates
      exact rereads_operator scanned.2.1 rfl (read _ _) (rereads left one scanned.1 reads.1)
        (rereads right other scanned.2.2 reads.2)
  | logical left operator right, levelled, scanned, reads => by
      simp only [kept, literals, List.forall_mem_append, List.forall_mem_cons] at scanned reads
      obtain ⟨operates, -, -, one, other⟩ := levelled
      have read := @ofNode_logical (operator.relabel .forget) operates
      exact rereads_operator scanned.2.1 rfl (read _ _) (rereads left one scanned.1 reads.1)
        (rereads right other scanned.2.2 reads.2)
  | grouping inner, levelled, scanned, reads =>
    rereads_grouping (rereads inner levelled scanned reads)
  | var occurrence, named, scanned, _ => rereads_var (scanned _ List.mem_cons_self) named
  | assign occurrence value, levelled, scanned, reads => by
      obtain ⟨one, others⟩ := List.forall_mem_cons.mp scanned
      exact rereads_assign one levelled.1 (rereads value levelled.2 others reads)
  | call callee paren arguments, levelled, scanned, reads => by
      simp only [kept, literals, List.forall_mem_append, List.forall_mem_cons] at scanned reads
      obtain ⟨closes, -, -, one, others⟩ := levelled
      exact rereads_call scanned.2.2.1 closes (rereads callee one scanned.1 reads.1)
        (allReread arguments others scanned.2.1 reads.2)
  | get object name, levelled, scanned, reads => by
      simp only [kept, List.forall_mem_append, List.forall_mem_cons] at scanned
      exact rereads_get scanned.2.1 levelled.1 (rereads object levelled.2.2 scanned.1 reads)
  | set object name value, levelled, scanned, reads => by
      simp only [kept, literals, List.forall_mem_append, List.forall_mem_cons] at scanned reads
      obtain ⟨named, -, one, other⟩ := levelled
      exact rereads_set scanned.2.1 named (rereads object one scanned.1 reads.1)
        (rereads value other scanned.2.2 reads.2)
  | thisRef occurrence, word, scanned, _ => rereads_this (scanned _ List.mem_cons_self) word
  | superRef occurrence method, levelled, scanned, _ => by
      simp only [kept, List.forall_mem_cons] at scanned
      exact rereads_super scanned.1 levelled.1 scanned.2.1 levelled.2

theorem allReread : ∀ found : List Expr, AllLevelled found →
    (∀ token ∈ keptAll found, token.Scanned) → (∀ value ∈ literalsAll found, value.Reads) →
      AllReread found
  | [], _, _, _ => ⟨trivial, rfl⟩
  | first :: rest, levelled, scanned, reads => by
      simp only [keptAll, literalsAll, List.forall_mem_append] at scanned reads
      have one := rereads first levelled.1 scanned.1 reads.1
      have others := allReread rest levelled.2 scanned.2 reads.2
      refine ⟨⟨one.proper, others.proper⟩, ?_⟩
      rw [formAll, Form.treeAll, one.tree, others.tree, relabelAll]

end

end Expr

/-- Whether all literals of an expression can be told from their texts: there is no
string among them, and no number that is not finite. -/
def Expr.isLegible (found : Expr) : Bool := found.literals.all Literal.isLegible

/-- What is read from a source is read back. -/
theorem rereads_of_source {source : String} {tree : Expr}
    (accepted : Grammar.singleExpression (.ofTokens (Lexer.tokens source)) = .ok tree)
    (legible : tree.isLegible = true) : tree.Rereads := by
  refine tree.rereads (Grammar.writes_of_singleExpression accepted).levelled ?_ ?_
  · intro token member
    exact Lexer.scanned_of_mem_stream ((Grammar.kept_of_singleExpression accepted).subset member)
  · intro value member
    have plain := List.all_eq_true.mp legible value member
    obtain ⟨token, found, kind⟩ := Grammar.literal_of_singleExpression accepted member
    exact ⟨plain, value.lexeme_treeText (Lexer.scanned_of_mem_stream found) kind plain⟩

/-- **A printed tree stands for one tree.** Take two expressions that are read from
sources, without a string and without a number that is not finite. They are printed
as the same text if and only if they are the same tree, up to the numbers of their
nodes and the lines of their tokens. A tree has the values of numbers and not their
spelling, so `1.50` is the same literal as `1.5`. -/
theorem printed_tree_is_unambiguous {source other : String} {tree twin : Expr}
    (accepted : Grammar.singleExpression (.ofTokens (Lexer.tokens source)) = .ok tree)
    (acceptedToo : Grammar.singleExpression (.ofTokens (Lexer.tokens other)) = .ok twin)
    (legible : tree.isLegible = true) (legibleToo : twin.isLegible = true) :
    tree.printed = twin.printed ↔ tree.relabel .forget = twin.relabel .forget := by
  have one := rereads_of_source accepted legible
  have two := rereads_of_source acceptedToo legibleToo
  constructor
  · intro same
    have texts : tree.form.text = twin.form.text := by
      rw [← tree.toList_printed, ← twin.toList_printed, same]
    rw [← one.tree, ← two.tree, Form.eq_of_text one.proper two.proper texts]
  · intro same
    refine String.toList_inj.mp ?_
    rw [tree.toList_printed, twin.toList_printed, ← tree.form_relabel .forget, same,
      twin.form_relabel]

/-- An assignment to a property. -/
def propertySource : String := "a.b = -1.50 * (c(2, this) or super.d)"

/-- The same with other spellings of the numbers, on more lines. -/
def respelledSource : String := "a\n.b = // half\n -1.5 * (c(02.0, this)\n or super.d)"

/-- The minus in front of the product. -/
def regroupedSource : String := "a.b = -(1.5 * (c(2, this) or super.d))"

/-- Spellings and lines are not printed, and how operators are grouped is. -/
theorem respelled_tree_is_printed_alike :
    ∃ tree twin third,
      Grammar.singleExpression (.ofTokens (Lexer.tokens propertySource)) = .ok tree ∧
      Grammar.singleExpression (.ofTokens (Lexer.tokens respelledSource)) = .ok twin ∧
      Grammar.singleExpression (.ofTokens (Lexer.tokens regroupedSource)) = .ok third ∧
      (tree.isLegible && twin.isLegible && third.isLegible) = true ∧
      tree.printed = "(= (. a b) (* (- 1.5) (group (or (call c 2.0 this) (super d)))))" ∧
      tree.relabel .forget = twin.relabel .forget ∧
      tree.relabel .forget ≠ third.relabel .forget := by
  have first : (Grammar.singleExpression (.ofTokens (Lexer.tokens propertySource))).toOption.map
      (fun tree => (tree.isLegible, tree.printed)) =
        some (true, "(= (. a b) (* (- 1.5) (group (or (call c 2.0 this) (super d)))))") := by
    decide +kernel
  have second : (Grammar.singleExpression (.ofTokens (Lexer.tokens respelledSource))).toOption.map
      (fun tree => (tree.isLegible, tree.printed)) =
        some (true, "(= (. a b) (* (- 1.5) (group (or (call c 2.0 this) (super d)))))") := by
    decide +kernel
  have last : (Grammar.singleExpression (.ofTokens (Lexer.tokens regroupedSource))).toOption.map
      (fun tree => (tree.isLegible, tree.printed)) =
      some (true, "(= (. a b) (- (group (* 1.5 (group (or (call c 2.0 this) (super d)))))))") := by
    decide +kernel
  cases accepted : Grammar.singleExpression (.ofTokens (Lexer.tokens propertySource)) with
  | error error => rw [accepted] at first; cases first
  | ok tree =>
    cases acceptedToo : Grammar.singleExpression (.ofTokens (Lexer.tokens respelledSource)) with
    | error error => rw [acceptedToo] at second; cases second
    | ok twin =>
      cases acceptedLast : Grammar.singleExpression (.ofTokens (Lexer.tokens regroupedSource)) with
      | error error => rw [acceptedLast] at last; cases last
      | ok third =>
          rw [accepted] at first
          rw [acceptedToo] at second
          rw [acceptedLast] at last
          obtain ⟨legible, text⟩ := Prod.mk.inj (Option.some.inj first)
          obtain ⟨legibleToo, textToo⟩ := Prod.mk.inj (Option.some.inj second)
          obtain ⟨legibleLast, textLast⟩ := Prod.mk.inj (Option.some.inj last)
          refine ⟨tree, twin, third, rfl, rfl, rfl, ?_, text, ?_, ?_⟩
          · rw [legible, legibleToo, legibleLast]
            rfl
          · exact (printed_tree_is_unambiguous accepted acceptedToo legible legibleToo).mp
              (text.trans textToo.symm)
          · intro same
            have alike :=
              (printed_tree_is_unambiguous accepted acceptedLast legible legibleLast).mpr same
            rw [text, textLast] at alike
            revert alike
            decide +kernel

end LoxLang
