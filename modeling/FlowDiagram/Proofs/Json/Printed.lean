import FlowDiagram.Proofs.Json.Denoted
/-! Printed trees read as themselves, but for their floats. -/

namespace FlowDiagram.Json

def Scalar.reread : Scalar → Scalar
  | .number n => .number n.reread
  | s => s

namespace Tree

mutual
/-- The tree with every float replaced by what the reader makes of its printed form. -/
def reread : Tree → Tree
  | .scalar s => .scalar s.reread
  | .array items => .array (rereadItems items)
  | .object members => .object (rereadMembers members)

def rereadItems : List Tree → List Tree
  | [] => []
  | x :: xs => reread x :: rereadItems xs

def rereadMembers : List (String × Tree) → List (String × Tree)
  | [] => []
  | (k, x) :: xs => (k, reread x) :: rereadMembers xs
end

mutual
/-- The numbers that are printed with the tree. -/
def numbers : Tree → List Number
  | .scalar (.number n) => [n]
  | .scalar _ => []
  | .array items => itemNumbers items
  | .object members => memberNumbers members

def itemNumbers : List Tree → List Number
  | [] => []
  | x :: xs => numbers x ++ itemNumbers xs

def memberNumbers : List (String × Tree) → List Number
  | [] => []
  | (_, x) :: xs => numbers x ++ memberNumbers xs
end

/-- Every number of the tree has a printed form that is a number. -/
def IsReadable (t : Tree) : Prop := ∀ n ∈ t.numbers, n.reread?.isSome

mutual
/-- The tokens that the tree is printed with. -/
def tokens : Tree → List Token
  | .scalar s => [.scalar s]
  | .array items => .openArray :: itemTokens items ++ [.closeArray]
  | .object members => .openObject :: memberTokens members ++ [.closeObject]

def itemTokens : List Tree → List Token
  | [] => []
  | x :: xs => tokens x ++ moreItemTokens xs

def moreItemTokens : List Tree → List Token
  | [] => []
  | x :: xs => .comma :: tokens x ++ moreItemTokens xs

def memberTokens : List (String × Tree) → List Token
  | [] => []
  | (k, x) :: xs => .scalar (.text k) :: .colon :: tokens x ++ moreMemberTokens xs

def moreMemberTokens : List (String × Tree) → List Token
  | [] => []
  | (k, x) :: xs => .comma :: .scalar (.text k) :: .colon :: tokens x ++ moreMemberTokens xs
end

end Tree

/-! From characters to tokens -/

namespace Scan

@[simp] theorem rest_openArray (cs : List Char) :
    between.rest ('[' :: cs) = .openArray :: between.rest cs := rfl

@[simp] theorem rest_closeArray (cs : List Char) :
    between.rest (']' :: cs) = .closeArray :: between.rest cs := rfl

@[simp] theorem rest_openObject (cs : List Char) :
    between.rest ('{' :: cs) = .openObject :: between.rest cs := rfl

@[simp] theorem rest_closeObject (cs : List Char) :
    between.rest ('}' :: cs) = .closeObject :: between.rest cs := rfl

@[simp] theorem rest_colon (cs : List Char) :
    between.rest (':' :: cs) = .colon :: between.rest cs := rfl

@[simp] theorem rest_comma (cs : List Char) :
    between.rest (',' :: cs) = .comma :: between.rest cs := rfl

theorem rest_scalar (s : Scalar) (h : (Tree.scalar s).IsReadable) {cs : List Char}
    (hcs : Delimits cs) : between.rest (s.print ++ cs) = .scalar s.reread :: between.rest cs := by
  cases s with
  | null => rfl
  | bool b => cases b <;> rfl
  | number n =>
    have hn : n.reread?.isSome := h n (by simp [Tree.numbers])
    exact rest_number (Number.reread?_eq_reread hn) hcs
  | text s => exact rest_printText s cs

theorem delimits_newline (depth : Nat) (cs : List Char) : Delimits (Tree.newline depth ++ cs) := by
  simp [Delimits, Tree.newline, isSpace]

theorem delimits_prettyMoreItems (depth : Nat) (xs : List Tree) {cs : List Char}
    (hcs : Delimits cs) : Delimits (Tree.prettyMoreItems depth xs ++ cs) := by
  cases xs with
  | nil => exact hcs
  | cons x xs => simp [Delimits, Tree.prettyMoreItems]

theorem delimits_prettyMoreMembers (depth : Nat) (xs : List (String × Tree)) {cs : List Char}
    (hcs : Delimits cs) : Delimits (Tree.prettyMoreMembers depth xs ++ cs) := by
  cases xs with
  | nil => exact hcs
  | cons x xs => simp [Delimits, Tree.prettyMoreMembers]

mutual
theorem rest_pretty : ∀ (t : Tree) (depth : Nat) (cs : List Char), t.IsReadable → Delimits cs →
    between.rest (t.pretty depth ++ cs) = t.reread.tokens ++ between.rest cs
  | .scalar s, depth, cs, h, hcs => rest_scalar s h hcs
  | .array [], depth, cs, h, hcs => rfl
  | .array (x :: xs), depth, cs, h, hcs => by
    have hx : x.IsReadable := fun n hn => h n (List.mem_append_left _ hn)
    have hxs : ∀ n ∈ Tree.itemNumbers xs, n.reread?.isSome :=
      fun n hn => h n (List.mem_append_right _ hn)
    have hend := delimits_newline depth (']' :: cs)
    have hitem := rest_pretty x (depth + 1) _ hx
      (delimits_prettyMoreItems (depth + 1) xs hend)
    have hmore := rest_prettyMoreItems xs (depth + 1) _ hxs hend
    simp [Tree.pretty, rest_newline, hitem, hmore, Tree.reread, Tree.rereadItems, Tree.tokens,
      Tree.itemTokens]
  | .object [], depth, cs, h, hcs => rfl
  | .object ((k, x) :: xs), depth, cs, h, hcs => by
    have hx : x.IsReadable := fun n hn => h n (List.mem_append_left _ hn)
    have hxs : ∀ n ∈ Tree.memberNumbers xs, n.reread?.isSome :=
      fun n hn => h n (List.mem_append_right _ hn)
    have hend := delimits_newline depth ('}' :: cs)
    have hvalue := rest_pretty x (depth + 1) _ hx
      (delimits_prettyMoreMembers (depth + 1) xs hend)
    have hmore := rest_prettyMoreMembers xs (depth + 1) _ hxs hend
    have hspace : ∀ cs, between.rest (' ' :: cs) = between.rest cs := rest_space rfl
    simp [Tree.pretty, rest_newline, rest_printText, hspace, hvalue, hmore, Tree.reread,
      Tree.rereadMembers, Tree.tokens, Tree.memberTokens]

theorem rest_prettyMoreItems : ∀ (xs : List Tree) (depth : Nat) (cs : List Char),
    (∀ n ∈ Tree.itemNumbers xs, n.reread?.isSome) → Delimits cs →
    between.rest (Tree.prettyMoreItems depth xs ++ cs) =
      Tree.moreItemTokens (Tree.rereadItems xs) ++ between.rest cs
  | [], depth, cs, h, hcs => rfl
  | x :: xs, depth, cs, h, hcs => by
    have hx : x.IsReadable := fun n hn => h n (List.mem_append_left _ hn)
    have hxs : ∀ n ∈ Tree.itemNumbers xs, n.reread?.isSome :=
      fun n hn => h n (List.mem_append_right _ hn)
    have hitem := rest_pretty x depth _ hx (delimits_prettyMoreItems depth xs hcs)
    have hmore := rest_prettyMoreItems xs depth cs hxs hcs
    simp [Tree.prettyMoreItems, rest_newline, hitem, hmore, Tree.rereadItems,
      Tree.moreItemTokens]

theorem rest_prettyMoreMembers : ∀ (xs : List (String × Tree)) (depth : Nat) (cs : List Char),
    (∀ n ∈ Tree.memberNumbers xs, n.reread?.isSome) → Delimits cs →
    between.rest (Tree.prettyMoreMembers depth xs ++ cs) =
      Tree.moreMemberTokens (Tree.rereadMembers xs) ++ between.rest cs
  | [], depth, cs, h, hcs => rfl
  | (k, x) :: xs, depth, cs, h, hcs => by
    have hx : x.IsReadable := fun n hn => h n (List.mem_append_left _ hn)
    have hxs : ∀ n ∈ Tree.memberNumbers xs, n.reread?.isSome :=
      fun n hn => h n (List.mem_append_right _ hn)
    have hvalue := rest_pretty x depth _ hx (delimits_prettyMoreMembers depth xs hcs)
    have hmore := rest_prettyMoreMembers xs depth cs hxs hcs
    have hspace : ∀ cs, between.rest (' ' :: cs) = between.rest cs := rest_space rfl
    simp [Tree.prettyMoreMembers, rest_newline, rest_printText, hspace, hvalue, hmore,
      Tree.rereadMembers, Tree.moreMemberTokens]
end

end Scan

/-! From tokens to readings -/

namespace Reading

mutual
/-- A tree is spelt by the tokens that it is printed with. -/
theorem spelt_ofTree : ∀ t : Tree, (ofTree t).Spelt t.tokens
  | .scalar s => rfl
  | .array [] => ⟨rfl, [], rfl, rfl⟩
  | .array (x :: xs) => by
    obtain ⟨parts, hparts, htokens⟩ := spelt_ofItems xs
    refine ⟨rfl, x.tokens :: parts, ⟨_, _, rfl, spelt_ofTree x, hparts⟩, ?_⟩
    rw [Tree.tokens, Tree.itemTokens, State.intercalate_cons, htokens]
  | .object [] => ⟨rfl, [], rfl, rfl⟩
  | .object ((k, x) :: xs) => by
    obtain ⟨parts, hparts, htokens⟩ := spelt_ofMembers xs
    refine ⟨rfl, (.scalar (.text k) :: .colon :: x.tokens) :: parts,
      ⟨_, _, _, rfl, rfl, spelt_ofTree x, hparts⟩, ?_⟩
    rw [Tree.tokens, Tree.memberTokens, State.intercalate_cons, htokens]

theorem spelt_ofItems : ∀ xs : List Tree, ∃ parts, ItemsSpelt (ofItems xs) parts ∧
    Tree.moreItemTokens xs = parts.flatMap (Token.comma :: ·)
  | [] => ⟨[], rfl, rfl⟩
  | x :: xs => by
    obtain ⟨parts, hparts, htokens⟩ := spelt_ofItems xs
    refine ⟨x.tokens :: parts, ⟨_, _, rfl, spelt_ofTree x, hparts⟩, ?_⟩
    rw [Tree.moreItemTokens, htokens]
    rfl

theorem spelt_ofMembers : ∀ xs : List (String × Tree),
    ∃ parts, MembersSpelt (ofMembers xs) parts ∧
      Tree.moreMemberTokens xs = parts.flatMap (Token.comma :: ·)
  | [] => ⟨[], rfl, rfl⟩
  | (k, x) :: xs => by
    obtain ⟨parts, hparts, htokens⟩ := spelt_ofMembers xs
    refine ⟨(.scalar (.text k) :: .colon :: x.tokens) :: parts,
      ⟨_, _, _, rfl, rfl, spelt_ofTree x, hparts⟩, ?_⟩
    rw [Tree.moreMemberTokens, htokens]
    rfl
end

/-- A text with the tokens of a tree denotes the tree. -/
theorem denoted_of_tokens {t : Tree} {s : String} (h : tokens s.toList = t.tokens) :
    (ofTree t).Denoted s := by
  rw [Denoted, h]
  exact spelt_ofTree t

theorem denoted_toPretty {t : Tree} (h : t.IsReadable) : (ofTree t.reread).Denoted t.toPretty := by
  have hscan := Scan.rest_pretty t 0 [] h (by simp [Scan.Delimits])
  refine denoted_of_tokens ?_
  rw [Tree.toPretty, String.toList_ofList, Scan.tokens_eq_rest]
  simpa [Scan.rest, Scan.atEnd] using hscan

/-- A tree that is printed over several lines is read as it is, but for its floats. -/
theorem ofText_toPretty {t : Tree} (h : t.IsReadable) :
    ofText t.toPretty = (ofTree t.reread, false) :=
  ofText_of_denoted (denoted_toPretty h)

end Reading

end FlowDiagram.Json
