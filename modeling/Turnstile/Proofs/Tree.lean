import Turnstile.Proofs.Places

/-! No name that can be written holds a line end, so the lines of a syntax tree can be told
apart, and there is one line for each node in the order in which nodes are read. The caption of
a node tells how many operands follow, so the formula can be read back from the captions alone.
-/
namespace Turnstile

namespace Formula

def caption : Formula → Text
  | var name => "VAR(" ++ name ++ ")"
  | not _ => "NOT"
  | and _ _ => "AND"
  | or _ _ => "OR"
  | implies _ _ => "IMPLIES"

theorem treeLines_eq (depth : Nat) (f : Formula) : f.treeLines depth =
    (indent depth ++ f.caption) :: f.operands.flatMap (treeLines (depth + 1)) := by
  cases f <;> simp [treeLines, caption, operands]

/-- The lines of a formula are those of its nodes. -/
theorem treeLines_eq_map (depth : Nat) (f : Formula) : f.treeLines depth =
    f.nodes.map fun x => indent (depth + x.1.length) ++ x.2.caption := by
  induction f using operands_induction generalizing depth with
  | step f ih =>
    rw [treeLines_eq, nodes_eq]
    simp only [List.map_cons, List.length_nil, Nat.add_zero, List.cons.injEq, true_and]
    refine (map_nodesOf fun i g operand => ?_).symm
    rw [ih g operand]
    apply List.map_congr_left
    intro x _
    rw [List.length_cons, Nat.add_assoc, Nat.add_comm 1]

theorem head?_caption (f : Formula) : f.caption.head? = some (match f with
    | var _ => 0x56 | not _ => 0x4E | and _ _ => 0x41 | or _ _ => 0x4F | implies _ _ => 0x49) := by
  cases f <;> rfl

theorem eq_of_caption {f g : Formula} (caption : f.caption = g.caption)
    (operands : f.operands = g.operands) : f = g := by
  have first := congrArg List.head? caption
  rw [head?_caption, head?_caption] at first
  cases f <;> cases g <;> simp_all [Formula.operands, Formula.caption]

theorem length_operands_of_caption {f g : Formula} (caption : f.caption = g.caption) :
    f.operands.length = g.operands.length := by
  have first := congrArg List.head? caption
  rw [head?_caption, head?_caption] at first
  cases f <;> cases g <;> simp_all [operands]

/-- The formulas at the head of some lines, as many as are asked for, are read one after the
other, if each of them can be read. -/
theorem flatMap_treeLines_inj {depth : Nat} {fs gs : List Formula} {rest rest' : List Text}
    (each : ∀ f ∈ fs, ∀ (g : Formula) (rest rest' : List Text),
      f.treeLines depth ++ rest = g.treeLines depth ++ rest' → f = g ∧ rest = rest')
    (length : fs.length = gs.length)
    (same : fs.flatMap (treeLines depth) ++ rest = gs.flatMap (treeLines depth) ++ rest') :
    fs = gs ∧ rest = rest' := by
  induction fs generalizing gs with
  | nil =>
    obtain rfl := List.length_eq_zero_iff.mp length.symm
    exact ⟨rfl, same⟩
  | cons f fs ih =>
    cases gs with
    | nil => contradiction
    | cons g gs =>
      obtain ⟨first, others⟩ := List.forall_mem_cons.mp each
      simp only [List.flatMap_cons, List.append_assoc] at same
      obtain ⟨rfl, below⟩ := first g _ _ same
      obtain ⟨rfl, rfl⟩ := ih others (Nat.succ.inj length) below
      exact ⟨rfl, rfl⟩

/-- The lines at one depth tell where a formula ends and which formula it is. -/
theorem treeLines_append_inj {depth : Nat} {f g : Formula} {rest rest' : List Text}
    (same : f.treeLines depth ++ rest = g.treeLines depth ++ rest') : f = g ∧ rest = rest' := by
  induction f using operands_induction generalizing depth g rest rest' with
  | step f ih =>
    rw [treeLines_eq, treeLines_eq, List.cons_append, List.cons_append] at same
    obtain ⟨first, below⟩ := List.cons.inj same
    have caption : f.caption = g.caption := List.append_cancel_left first
    obtain ⟨operands, rfl⟩ := flatMap_treeLines_inj (fun h member _ _ _ => ih h member)
      (length_operands_of_caption caption) below
    exact ⟨eq_of_caption caption operands, rfl⟩

theorem newline_not_mem_indent (depth : Nat) : 0x0A ∉ indent depth := by
  cases depth with
  | zero => simp [indent]
  | succ depth =>
    rw [indent, List.mem_append, List.mem_flatten, not_or]
    refine ⟨?_, by decide⟩
    rintro ⟨bar, member, inside⟩
    rw [List.eq_of_mem_replicate member] at inside
    revert inside
    decide

theorem Named.newline_not_mem_caption {f : Formula} (named : f.Named) : 0x0A ∉ f.caption := by
  cases f with
  | var name =>
    have absent : 0x0A ∉ name := (named_var.mp named).not_mem (by decide) (.inl (by decide))
    simp only [caption, List.mem_append, not_or]
    exact ⟨⟨by decide, absent⟩, by decide⟩
  | not f | and l r | or l r | implies l r =>
    simp only [caption]
    decide

theorem Named.newline_not_mem_treeLines {f : Formula} (named : f.Named) {depth : Nat} :
    ∀ line ∈ f.treeLines depth, 0x0A ∉ line := by
  induction f using operands_induction generalizing depth with
  | step f ih =>
    rw [treeLines_eq, List.forall_mem_cons]
    constructor
    · simp [newline_not_mem_indent, named.newline_not_mem_caption]
    · intro line member
      obtain ⟨g, operand, inside⟩ := List.mem_flatMap.mp member
      exact ih g operand (named.operand operand) line inside

/-- The lines of a syntax tree are those that it was joined from. -/
theorem Named.splitByte_tree {f : Formula} (named : f.Named) :
    f.tree.splitByte 0x0A = f.treeLines 0 := by
  apply Text.splitByte_join
  · simp [treeLines_eq]
  · exact named.newline_not_mem_treeLines

theorem indent_length (place : List Nat) : indent place.length =
    (List.replicate (place.length - 1) (Text.ofString "│   ")).flatten ++
      if place = [] then [] else Text.ofString "└── " := by
  cases place <;> simp [indent]

theorem Named.not_newline_suffix_tree {f : Formula} (named : f.Named) : ¬[0x0A] <:+ f.tree := by
  rintro ⟨before, text⟩
  have lines := named.splitByte_tree
  rw [← text, Text.splitByte_eq_splitOn, List.splitOn_append_cons_self] at lines
  have empty : [] ∈ f.treeLines 0 := by simp [← lines]
  rw [treeLines_eq_map, List.mem_map] at empty
  obtain ⟨x, _, blank⟩ := empty
  have first := head?_caption x.2
  rw [(List.append_eq_nil_iff.mp blank).2] at first
  contradiction

/-- The syntax trees of formulas whose names can be written tell the formulas apart. There is one
line for each node, in the order in which the nodes are read. A node is indented by a branch, with
a bar for each level between its own and the top, and the node at the top is not indented. The
last line has no line end. -/
theorem tree_draws_each_node_on_a_line :
    (∀ f g : Formula, f.Named → g.Named → f.tree = g.tree → f = g) ∧
    ∀ f : Formula, f.Named →
      (∃ places : List (List Nat), places.Pairwise Precedes ∧
        (∀ place, place ∈ places ↔ ∃ g, f.at? place = some g) ∧
        List.Forall₂ (fun place line => ∃ g, f.at? place = some g ∧ line =
          (List.replicate (place.length - 1) (Text.ofString "│   ")).flatten ++
            (if place = [] then [] else Text.ofString "└── ") ++ g.caption)
          places (f.tree.splitByte 0x0A)) ∧
      ¬[0x0A] <:+ f.tree := by
  constructor
  · intro f g first second same
    have lines := first.splitByte_tree
    rw [same, second.splitByte_tree] at lines
    exact (treeLines_append_inj (congrArg (· ++ []) lines.symm)).1
  · intro f named
    refine ⟨⟨f.nodes.map Prod.fst, ?_, ?_, ?_⟩, named.not_newline_suffix_tree⟩
    · exact List.pairwise_map.mpr f.pairwise_nodes
    · simp [mem_nodes]
    · rw [named.splitByte_tree, treeLines_eq_map, List.forall₂_map_left_iff,
        List.forall₂_map_right_iff, List.forall₂_same]
      intro x member
      exact ⟨x.2, mem_nodes.mp member, by rw [Nat.zero_add, indent_length]⟩

/-- Names may look like what stands around them. Here one is the branch, and the other one the
caption of a negation. -/
theorem tree_draws_each_node_on_a_line_of_look_alikes :
    let f := and (not (var "└──")) (var "NOT")
    f.Named ∧ f.tree = Text.ofString "AND\n└── NOT\n│   └── VAR(└──)\n└── VAR(NOT)" ∧
    (∀ g : Formula, g.Named → f.tree = g.tree → f = g) ∧ ¬[0x0A] <:+ f.tree := by
  intro f
  have named : f.Named := by decide +kernel
  exact ⟨named, by decide +kernel,
    fun g other => tree_draws_each_node_on_a_line.1 f g named other,
    (tree_draws_each_node_on_a_line.2 f named).2⟩

end Formula

end Turnstile
