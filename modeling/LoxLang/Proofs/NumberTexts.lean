import LoxLang.Proofs.Number.Scanning
import LoxLang.Proofs.Token.Respacing
import LoxLang.Run.Value
import LoxLang.Token.Text
import LoxLang.Tree.Printer

/-!
# Numbers are scanned back from their texts

A number has three texts: as a printed value, as a literal in a printed tree, and
in the literal column of its token. They differ in how whole numbers end and up to
which size these are written in full. For a finite number without a sign each of
them is a numeral, and so one lexeme. A lexeme that is a whole source is read into
its token and nothing else (`Lexer.scansTo_iff`).

The other numbers do not come back. One with a sign starts with an operator, and
the rest are written as words. So the main theorem says exactly which numbers are
scanned back from their texts (`numbers_scan_back`).
-/

namespace LoxLang

set_option autoImplicit false

namespace Lexer

/-- A source that is the text of a token is read into that token alone. -/
theorem items_of_lexed {token : Token} (lexed : token.Lexed) :
    items token.lexeme =
      [.token ⟨token.kind, token.lexeme, 1 + lineEnds token.lexeme⟩,
        ending (1 + lineEnds token.lexeme)] := by
  have cut := Cut.cons lexed (by simp) (.done (1 + lineEnds token.lexeme))
  rw [List.append_nil] at cut
  exact cut.itemsFrom _ (Nat.le_refl _)

/-- A source is read without faults into one number, and then the end of the
input. -/
def ScansTo (source : String) (number : Float) : Prop :=
  items source = [.token ⟨.number number, source, 1⟩, .token ⟨.endOfInput, "", 1⟩]

/-- The sources that are read into a number are the lexemes that stand for it. -/
theorem scansTo_iff {source : String} {number : Float} :
    ScansTo source number ↔ Lexeme source.toList (.token (.number number)) := by
  constructor
  · intro scans
    obtain ⟨body, cut, whole, -⟩ := exists_items source
    have same : body ++ [ending (1 + lineEnds source)] =
        [.token ⟨.number number, source, 1⟩] ++ [ending 1] := whole.symm.trans scans
    obtain ⟨rfl, -⟩ := List.append_inj' same rfl
    exact cut.lexed ⟨.number number, source, 1⟩ (List.mem_singleton_self _)
  · intro lexeme
    have oneLine : lineEnds source = 0 :=
      List.count_eq_zero.mpr (Number.not_mem_lineEnd_of_lexeme lexeme)
    have read := items_of_lexed (show Token.Lexed ⟨.number number, source, 1⟩ from lexeme)
    rwa [oneLine] at read

end Lexer

/-- **Numbers are scanned back from their texts.** Take the text of a number as a
printed value, as a literal in a printed tree, or in the literal column of its token.
If the number is finite and has no sign, then the text is scanned without faults to
one token, which carries this very number, and the end of the input. Of any other
number none of the three texts is. -/
theorem numbers_scan_back (number : Float) :
    (Lexer.ScansTo (Value.number number).text number ↔
      number.isFinite = true ∧ Number.isNegative number = false) ∧
    (Lexer.ScansTo (Literal.number number).treeText number ↔
      number.isFinite = true ∧ Number.isNegative number = false) ∧
    ∀ lexeme line, Lexer.ScansTo (Token.literalText ⟨.number number, lexeme, line⟩) number ↔
      number.isFinite = true ∧ Number.isNegative number = false := by
  have printed : Number.printedStyle.Readable := .inl rfl
  have tree : Number.treeStyle.Readable := .inr rfl
  have column : Number.columnStyle.Readable := .inr rfl
  refine ⟨?_, ?_, fun lexeme line => ?_⟩
  · exact Lexer.scansTo_iff.trans (Number.lexeme_text_iff printed)
  · exact Lexer.scansTo_iff.trans (Number.lexeme_text_iff tree)
  · exact Lexer.scansTo_iff.trans (Number.lexeme_text_iff column)

/-- At `10 ^ 15` the literal column changes to the other way of writing. It drops
the sign of a zero. -/
example : Token.literalText ⟨.number (Float.ofBits 0x430c6bf526340000), "", 1⟩ =
      "1000000000000000" ∧
    Token.literalText ⟨.number (Float.ofBits 0x430c6bf52633fff8), "", 1⟩ =
      "999999999999999.0" ∧
    Token.literalText ⟨.number (Float.ofBits 0x8000000000000000), "", 1⟩ = "0.0" := by
  decide +kernel

end LoxLang
