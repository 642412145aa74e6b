import FlowDiagram.Json.Decoder
import FlowDiagram.Proofs.Json.Floats
import FlowDiagram.Proofs.Json.Printed
/-! Both printed forms of a tree are read alike, and as the tree itself if no number is lost. -/

namespace FlowDiagram.Json

/-- A scalar that is no readable number is printed as nothing. -/
theorem Scalar.isReadable_or_print_eq (s : Scalar) :
    (Tree.scalar s).IsReadable ∨ s.print = Scalar.null.print := by
  cases s with
  | null => exact .inr rfl
  | bool b => exact .inl (fun n hn => by cases hn)
  | text s => exact .inl (fun n hn => by cases hn)
  | number n =>
    cases n with
    | integer n fits =>
      exact .inl (List.forall_mem_singleton.2 (by rw [Number.reread?_integer]; rfl))
    | float x =>
      by_cases hx : x.isFinite = true
      · exact .inl (List.forall_mem_singleton.2 (Number.isSome_reread?_float hx))
      · exact .inr (if_neg hx)

/-! Scanning both forms -/

namespace Scan

/-- Texts that end a value and go on alike. -/
structure Alike (cs ds : List Char) : Prop where
  left : Delimits cs
  right : Delimits ds
  rest_eq : between.rest cs = between.rest ds

variable {cs ds : List Char}

theorem Alike.rest_print (h : Alike cs ds) (s : Scalar) :
    between.rest (s.print ++ cs) = between.rest (s.print ++ ds) := by
  have hreadable : ∀ s : Scalar, (Tree.scalar s).IsReadable →
      between.rest (s.print ++ cs) = between.rest (s.print ++ ds) := by
    intro s hs
    rw [rest_scalar s hs h.left, rest_scalar s hs h.right, h.rest_eq]
  rcases s.isReadable_or_print_eq with hs | hnull
  · exact hreadable s hs
  · rw [hnull]
    exact hreadable .null fun n hn => by cases hn

theorem Alike.closeArray (h : between.rest cs = between.rest ds) (depth : Nat) :
    Alike (']' :: cs) (Tree.newline depth ++ ']' :: ds) where
  left := by simp [Delimits]
  right := delimits_newline depth _
  rest_eq := by simp [rest_newline, h]

theorem Alike.closeObject (h : between.rest cs = between.rest ds) (depth : Nat) :
    Alike ('}' :: cs) (Tree.newline depth ++ '}' :: ds) where
  left := by simp [Delimits]
  right := delimits_newline depth _
  rest_eq := by simp [rest_newline, h]

mutual
/-- What is scanned of a compact tree is scanned of one over several lines, at any depth. -/
theorem rest_compact_eq : ∀ (t : Tree) (depth : Nat) {cs ds : List Char}, Alike cs ds →
    between.rest (t.compact ++ cs) = between.rest (t.pretty depth ++ ds)
  | .scalar s, depth, cs, ds, h => h.rest_print s
  | .array [], depth, cs, ds, h => by
    simp [Tree.compact, Tree.compactItems, Tree.pretty, h.rest_eq]
  | .array (x :: xs), depth, cs, ds, h => by
    have hmore := alike_moreItems xs (depth + 1) (.closeArray h.rest_eq depth)
    have hitem := rest_compact_eq x (depth + 1) hmore
    simp [Tree.compact, Tree.compactItems, Tree.pretty, rest_newline, hitem]
  | .object [], depth, cs, ds, h => by
    simp [Tree.compact, Tree.compactMembers, Tree.pretty, h.rest_eq]
  | .object ((k, x) :: xs), depth, cs, ds, h => by
    have hmore := alike_moreMembers xs (depth + 1) (.closeObject h.rest_eq depth)
    have hvalue := rest_compact_eq x (depth + 1) hmore
    have hspace : ∀ cs, between.rest (' ' :: cs) = between.rest cs := rest_space rfl
    simp [Tree.compact, Tree.compactMembers, Tree.pretty, rest_newline, rest_printText, hspace,
      hvalue]

theorem alike_moreItems : ∀ (xs : List Tree) (depth : Nat) {cs ds : List Char}, Alike cs ds →
    Alike (Tree.compactMoreItems xs ++ cs) (Tree.prettyMoreItems depth xs ++ ds)
  | [], depth, cs, ds, h => h
  | x :: xs, depth, cs, ds, h => by
    have hitem := rest_compact_eq x depth (alike_moreItems xs depth h)
    refine ⟨by simp [Delimits, Tree.compactMoreItems], delimits_prettyMoreItems depth _ h.right, ?_⟩
    simp [Tree.compactMoreItems, Tree.prettyMoreItems, rest_newline, hitem]

theorem alike_moreMembers : ∀ (xs : List (String × Tree)) (depth : Nat) {cs ds : List Char},
    Alike cs ds → Alike (Tree.compactMoreMembers xs ++ cs) (Tree.prettyMoreMembers depth xs ++ ds)
  | [], depth, cs, ds, h => h
  | (k, x) :: xs, depth, cs, ds, h => by
    have hvalue := rest_compact_eq x depth (alike_moreMembers xs depth h)
    have hspace : ∀ cs, between.rest (' ' :: cs) = between.rest cs := rest_space rfl
    refine ⟨by simp [Delimits, Tree.compactMoreMembers],
      delimits_prettyMoreMembers depth _ h.right, ?_⟩
    simp [Tree.compactMoreMembers, Tree.prettyMoreMembers, rest_newline, rest_printText, hspace,
      hvalue]
end

end Scan

/-- Both printed forms of a tree are read alike, whatever its numbers are. -/
theorem Reading.ofText_toCompact (t : Tree) : ofText t.toCompact = ofText t.toPretty := by
  have hend : Scan.Alike [] [] := ⟨by simp [Scan.Delimits], by simp [Scan.Delimits], rfl⟩
  have hscan := Scan.rest_compact_eq t 0 hend
  rw [List.append_nil, List.append_nil] at hscan
  rw [ofText, ofText, Tree.toCompact, Tree.toPretty, String.toList_ofList, String.toList_ofList,
    Scan.tokens_eq_rest, Scan.tokens_eq_rest, hscan]

theorem Decoder.run_toCompact {α : Type} (d : Decoder α) (t : Tree) :
    d.run t.toCompact = d.run t.toPretty := by
  rw [run, run, Reading.ofText_toCompact]

/-! Trees that lose nothing -/

/-- Every number of the tree is read as itself from its printed form. -/
def Tree.IsLossless (t : Tree) : Prop := ∀ n ∈ t.numbers, n.reread? = some n

theorem Number.reread_of_reread? {n : Number} (h : n.reread? = some n) : n.reread = n := by
  cases n with
  | integer n fits => rfl
  | float x => simp [reread, h]

namespace Tree

theorem IsLossless.isReadable {t : Tree} (h : t.IsLossless) : t.IsReadable := by
  intro n hn
  rw [h n hn]
  rfl

mutual
theorem IsLossless.reread_eq : ∀ {t : Tree}, t.IsLossless → t.reread = t
  | .scalar (.number n), h => by
    rw [reread, Scalar.reread, Number.reread_of_reread? (h n List.mem_cons_self)]
  | .scalar .null, _ | .scalar (.bool _), _ | .scalar (.text _), _ => rfl
  | .array items, h => congrArg array (rereadItems_eq items h)
  | .object members, h => congrArg object (rereadMembers_eq members h)

theorem rereadItems_eq : ∀ items : List Tree, (∀ n ∈ itemNumbers items, n.reread? = some n) →
    rereadItems items = items
  | [], _ => rfl
  | x :: xs, h => by
    have hx : x.IsLossless := fun n hn => h n (List.mem_append_left _ hn)
    have hxs := rereadItems_eq xs fun n hn => h n (List.mem_append_right _ hn)
    rw [rereadItems, hx.reread_eq, hxs]

theorem rereadMembers_eq : ∀ members : List (String × Tree),
    (∀ n ∈ memberNumbers members, n.reread? = some n) → rereadMembers members = members
  | [], _ => rfl
  | (k, x) :: xs, h => by
    have hx : x.IsLossless := fun n hn => h n (List.mem_append_left _ hn)
    have hxs := rereadMembers_eq xs fun n hn => h n (List.mem_append_right _ hn)
    rw [rereadMembers, hx.reread_eq, hxs]
end

theorem itemNumbers_texts (ts : List String) : itemNumbers (ts.map .text) = [] := by
  induction ts with
  | nil => rfl
  | cons t ts ih => exact ih

end Tree

/-- From the compact form of a tree that loses nothing the tree itself is decoded. -/
theorem Decoder.run_toCompact_of_isLossless {α : Type} {d : Decoder α} {t : Tree} {a : α}
    (ht : t.IsLossless) (h : d (.text 0) (.ofTree t) = .ok a) : d.run t.toCompact = .ok a := by
  rw [run_toCompact, run, Reading.ofText_toPretty ht.isReadable, ht.reread_eq]
  simp only [h]
  rfl

end FlowDiagram.Json
