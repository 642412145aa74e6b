import FlowDiagram.Json.Printer
import FlowDiagram.Json.Token
/-! What the scan makes of printed scalars, whatever follows them. -/

namespace FlowDiagram.Json

namespace Scan

/-- The tokens that a scan still finds. -/
def rest : Scan → List Char → List Token
  | s, [] => s.atEnd
  | s, c :: cs => (s.step c).2 ++ rest (s.step c).1 cs

theorem run_append_rest (s : Scan) (found : List Token) (cs ds : List Char) :
    (s.run found cs).2.reverse ++ (s.run found cs).1.rest ds =
      found.reverse ++ s.rest (cs ++ ds) := by
  induction cs generalizing s found with
  | nil => rfl
  | cons c cs ih =>
    have h := ih (s.step c).1 ((s.step c).2.reverse ++ found)
    rw [List.reverse_append, List.reverse_reverse, List.append_assoc] at h
    exact h

theorem tokens_eq_rest (cs : List Char) : tokens cs = between.rest cs := by
  have h := run_append_rest between [] cs []
  rwa [List.append_nil] at h

/-- What may follow a number: the end of the text, white space, or a mark that ends a value. -/
def Delimits (cs : List Char) : Prop :=
  ∀ c ∈ cs.head?, isSpace c = true ∨ c = ',' ∨ c = ']' ∨ c = '}'

theorem rest_space {c : Char} (h : isSpace c = true) (cs : List Char) :
    between.rest (c :: cs) = between.rest cs := by
  simp [rest, step, onBetween, h]

theorem rest_spaces {ws : List Char} (h : ∀ c ∈ ws, isSpace c = true) (cs : List Char) :
    between.rest (ws ++ cs) = between.rest cs := by
  induction ws with
  | nil => rfl
  | cons c ws ih =>
    rw [List.forall_mem_cons] at h
    rw [List.cons_append, rest_space h.1, ih h.2]

theorem rest_newline (depth : Nat) (cs : List Char) :
    between.rest (Tree.newline depth ++ cs) = between.rest cs :=
  rest_spaces (by simp [Tree.newline, isSpace]) cs

/-! Texts -/

/-- A text of which these characters are scanned, in reverse. -/
abbrev inText (chars : List Char) : Scan := text ⟨chars, .character, none⟩

theorem hexDigit?_digitChar {n : Nat} (h : n < 16) :
    TextScan.hexDigit? (Nat.digitChar n) = some n ∧ (Nat.digitChar n).utf8Size = 1 := by
  have hall : ∀ n < 16, TextScan.hexDigit? (Nat.digitChar n) = some n ∧
      (Nat.digitChar n).utf8Size = 1 := by decide
  exact hall n h

/-- Both digits of a unit below 0x20, after the two zeros in front of them. -/
theorem rest_unit {c : Char} (h : c.toNat < 0x20) (chars cs : List Char) :
    (inText chars).rest ('\\' :: 'u' :: '0' :: '0' :: Nat.digitChar (c.toNat / 16) ::
      Nat.digitChar (c.toNat % 16) :: cs) = (inText (c :: chars)).rest cs := by
  obtain ⟨hhigh, hhighSize⟩ := hexDigit?_digitChar (show c.toNat / 16 < 16 by omega)
  obtain ⟨hlow, hlowSize⟩ := hexDigit?_digitChar (show c.toNat % 16 < 16 by omega)
  have hzero : TextScan.hexDigit? '0' = some 0 := by decide
  have hzeroSize : Char.utf8Size '0' = 1 := by decide
  have hvalue : 16 * (c.toNat / 16) + c.toNat % 16 = c.toNat := by omega
  have hplain : TextScan.isLow c.toNat = false ∧ TextScan.isHigh c.toNat = false := by
    simp only [TextScan.isLow, TextScan.isHigh, Bool.and_eq_false_iff, decide_eq_false_iff_not]
    omega
  simp [rest, step, TextScan.step, TextScan.onCharacter, TextScan.onEscape, TextScan.addHexDigit,
    hzero, hzeroSize, hhigh, hhighSize, hlow, hlowSize, hvalue, TextScan.onUnit, hplain,
    TextScan.push]

theorem rest_escapeChar (c : Char) (chars cs : List Char) :
    (inText chars).rest (escapeChar c ++ cs) = (inText (c :: chars)).rest cs := by
  by_cases hquote : c = '"'
  · subst c; rfl
  by_cases hslash : c = '\\'
  · subst c; rfl
  by_cases hback : c = '\x08'
  · subst c; rfl
  by_cases hfeed : c = '\x0c'
  · subst c; rfl
  by_cases hline : c = '\n'
  · subst c; rfl
  by_cases hreturn : c = '\r'
  · subst c; rfl
  by_cases htab : c = '\t'
  · subst c; rfl
  simp only [escapeChar, shortEscape?, hquote, hslash, hback, hfeed, hline, hreturn, htab, if_false]
  split
  · rename_i hlow
    exact rest_unit hlow chars cs
  · rename_i hlow
    simp [rest, step, TextScan.step, TextScan.onCharacter, hquote, hslash, hlow, TextScan.push]

theorem rest_escapedChars (s chars cs : List Char) :
    (inText chars).rest (s.flatMap escapeChar ++ '"' :: cs) =
      .scalar (.text (String.ofList (chars.reverse ++ s))) :: between.rest cs := by
  induction s generalizing chars with
  | nil => simp [rest, step, TextScan.step, TextScan.onCharacter, TextScan.finished, after]
  | cons c s ih =>
    rw [List.flatMap_cons, List.append_assoc, rest_escapeChar, ih]
    simp

theorem rest_printText (s : String) (cs : List Char) :
    between.rest (printText s ++ cs) = .scalar (.text s) :: between.rest cs := by
  have hopen : ∀ cs, between.rest ('"' :: cs) = (inText []).rest cs := fun _ => rfl
  simp [printText, hopen, rest_escapedChars]

end Scan

end FlowDiagram.Json
