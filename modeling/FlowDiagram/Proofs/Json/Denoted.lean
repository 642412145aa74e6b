import FlowDiagram.Json.Reading
import FlowDiagram.Proofs.Json.Numbers
/-! What a text denotes: a tree that its tokens spell, whatever white space is between them. -/

namespace FlowDiagram.Json

/-! Tokens of a tree -/

namespace Reading

/-- A name as a token. It may be a text that has no characters, such as half a surrogate pair. -/
def NameSpelt : Name → Token → Prop
  | .ok k, t => t = .scalar (.text k)
  | .error f, t => f.skipped = none ∧ t = .faultyText f

mutual
/-- Tokens that spell a tree by the grammar. A leaf may be a text or a number that has no value
here, as long as a reader can pass over it. -/
def Spelt : Reading → List Token → Prop
  | .scalar s, ts => ts = [.scalar s]
  | .fault f, ts => f.skipped = none ∧ (ts = [.faultyText f] ∨ ts = [.faultyWord f])
  | .array items ending, ts =>
    ending = none ∧ ∃ parts, ItemsSpelt items parts ∧
      ts = .openArray :: [.comma].intercalate parts ++ [.closeArray]
  | .object members ending, ts =>
    ending = none ∧ ∃ parts, MembersSpelt members parts ∧
      ts = .openObject :: [.comma].intercalate parts ++ [.closeObject]

def ItemsSpelt : List Reading → List (List Token) → Prop
  | [], parts => parts = []
  | x :: xs, parts => ∃ ts more, parts = ts :: more ∧ Spelt x ts ∧ ItemsSpelt xs more

def MembersSpelt : List (Name × Reading) → List (List Token) → Prop
  | [], parts => parts = []
  | (name, x) :: xs, parts => ∃ t ts more, parts = (t :: .colon :: ts) :: more ∧
      NameSpelt name t ∧ Spelt x ts ∧ MembersSpelt xs more
end

/-- The text denotes the tree: its tokens spell it. White space between them makes no tokens. -/
def Denoted (r : Reading) (s : String) : Prop := r.Spelt (tokens s.toList)

namespace State

theorem intercalate_cons (part : List Token) (parts : List (List Token)) :
    [Token.comma].intercalate (part :: parts) = part ++ parts.flatMap (Token.comma :: ·) := by
  induction parts generalizing part with
  | nil => simp
  | cons next parts ih => rw [List.intercalate_cons_cons, ih]; simp

theorem onName_of_nameSpelt {name : Name} {t : Token} (h : NameSpelt name t) (first : Bool)
    (before : List (Name × Reading)) (outer : List Frame) :
    onName first before outer t = colon before name outer := by
  cases name with
  | ok k =>
    cases h
    rfl
  | error f =>
    obtain ⟨hskipped, rfl⟩ := h
    simp [onName, hskipped]

mutual
/-- The tokens of a tree hand the tree to the innermost frame. -/
theorem foldl_spelt : ∀ (x : Reading) (ts : List Token) (place : Place) (outer : List Frame),
    x.Spelt ts → ts.foldl step (value place outer) = give x outer
  | .scalar s, ts, place, outer, h => by
    cases h
    rfl
  | .fault f, ts, place, outer, h => by
    obtain ⟨hskipped, rfl | rfl⟩ := h <;> simp [step, onValue, giveFault, hskipped]
  | .array [] ending, ts, place, outer, h => by
    obtain ⟨rfl, parts, rfl, rfl⟩ := h
    rfl
  | .array (x :: xs) ending, ts, place, outer, h => by
    obtain ⟨rfl, parts, ⟨us, more, rfl, hx, hxs⟩, rfl⟩ := h
    have hitem := foldl_spelt x us .first (.array [] :: outer) hx
    have hmore := foldl_moreItems xs more [x] outer hxs
    simp only [intercalate_cons, List.cons_append, List.append_assoc, List.foldl_cons,
      List.foldl_append, step, onValue, hitem, give, hmore]
    simp
  | .object [] ending, ts, place, outer, h => by
    obtain ⟨rfl, parts, rfl, rfl⟩ := h
    rfl
  | .object ((name, x) :: xs) ending, ts, place, outer, h => by
    obtain ⟨rfl, parts, ⟨t, us, more, rfl, hname, hx, hxs⟩, rfl⟩ := h
    have hvalue := foldl_spelt x us .alone (.member [] name :: outer) hx
    have hmore := foldl_moreMembers xs more [(name, x)] outer hxs
    simp only [intercalate_cons, List.cons_append, List.append_assoc, List.foldl_cons,
      List.foldl_append, step, onValue, onName_of_nameSpelt hname, hvalue, give, hmore]
    simp

theorem foldl_moreItems : ∀ (xs : List Reading) (parts : List (List Token))
    (before : List Reading) (outer : List Frame), ItemsSpelt xs parts →
    (parts.flatMap (Token.comma :: ·)).foldl step (afterItem before outer) =
      afterItem (xs.reverse ++ before) outer
  | [], parts, before, outer, h => by
    cases h
    rfl
  | x :: xs, parts, before, outer, h => by
    obtain ⟨us, more, rfl, hx, hxs⟩ := h
    have hitem := foldl_spelt x us .later (.array before :: outer) hx
    have hmore := foldl_moreItems xs more (x :: before) outer hxs
    simp only [List.flatMap_cons, List.cons_append, List.foldl_cons, List.foldl_append, step,
      hitem, give, hmore]
    simp

theorem foldl_moreMembers : ∀ (xs : List (Name × Reading)) (parts : List (List Token))
    (before : List (Name × Reading)) (outer : List Frame), MembersSpelt xs parts →
    (parts.flatMap (Token.comma :: ·)).foldl step (afterMember before outer) =
      afterMember (xs.reverse ++ before) outer
  | [], parts, before, outer, h => by
    cases h
    rfl
  | (name, x) :: xs, parts, before, outer, h => by
    obtain ⟨t, us, more, rfl, hname, hx, hxs⟩ := h
    have hvalue := foldl_spelt x us .alone (.member before name :: outer) hx
    have hmore := foldl_moreMembers xs more ((name, x) :: before) outer hxs
    simp only [List.flatMap_cons, List.cons_append, List.foldl_cons, List.foldl_append, step,
      onName_of_nameSpelt hname, hvalue, give, hmore]
    simp
end

end State

theorem ofText_of_denoted {r : Reading} {s : String} (h : r.Denoted s) : ofText s = (r, false) := by
  simp [ofText, ofTokens, State.foldl_spelt r _ .alone [] h, State.give, State.atEnd,
    State.isOverlong]

end Reading

/-! White space -/

namespace Scan

/-- Where white space does not count: between tokens, and after a number where it would end
anyway. -/
def AtGap (s : Scan) (cs : List Char) : Prop :=
  s = between ∨ ∃ n, s = number n ∧ n.part.isLast = true ∧ Delimits cs

theorem rest_number_of_isLast {n : NumberScan} (h : n.part.isLast = true) {cs : List Char}
    (hcs : Delimits cs) : (number n).rest cs = n.ended none :: between.rest cs := by
  have hafter : after (n.ended none) = between := by
    simp only [NumberScan.ended, h, if_true, Option.any_none, Bool.false_eq_true, if_false]
    cases Number.ofNumeral? n.reversed.reverse <;> rfl
  cases cs with
  | nil => rfl
  | cons c cs =>
    have hc := hcs c rfl
    have hended : n.ended (some c) = n.ended none := by
      simp [NumberScan.ended, h, (not_isDigit_of_delimits hc).2.1]
    simp [rest, step, NumberScan.step, goOn?_of_delimits n hc, hended, hafter]

theorem AtGap.rest_eq {s : Scan} {ws cs : List Char} (h : s.AtGap cs)
    (hws : ∀ c ∈ ws, isSpace c = true) : s.rest (ws ++ cs) = s.rest cs := by
  obtain rfl | ⟨n, rfl, hlast, hcs⟩ := h
  · exact rest_spaces hws cs
  · have hdelimits : Delimits (ws ++ cs) := by
      cases ws with
      | nil => exact hcs
      | cons c ws => simp [Delimits, hws c]
    rw [rest_number_of_isLast hlast hdelimits, rest_number_of_isLast hlast hcs,
      rest_spaces hws]

end Scan

/-- White space between two tokens does not change what a text denotes. -/
theorem Reading.denoted_space_iff {r : Reading} {cs ws ds : List Char}
    (hws : ∀ c ∈ ws, Scan.isSpace c = true) (h : (Scan.between.run [] cs).1.AtGap ds) :
    r.Denoted (String.ofList (cs ++ (ws ++ ds))) ↔ r.Denoted (String.ofList (cs ++ ds)) := by
  have happend : ∀ ds, tokens (cs ++ ds) =
      (Scan.between.run [] cs).2.reverse ++ (Scan.between.run [] cs).1.rest ds := fun ds =>
    (Scan.tokens_eq_rest _).trans (Scan.run_append_rest .between [] cs ds).symm
  simp only [Denoted, String.toList_ofList, happend, h.rest_eq hws]

end FlowDiagram.Json
