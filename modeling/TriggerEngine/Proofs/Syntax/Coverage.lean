/-
**The nodes of a program and the nodes of its shape.**

A program is gone through in two ways.  A run goes from a node to its parts by what kind of node it
is.  Whoever looks at a program without running it goes through its shape, and takes for a node what
looks like one: a row that starts with a name and ends with a number.  For programs that were
compiled the two agree: the nodes of the shape are those of the tree, one after the other.  So all
that a program names of its host is listed among its references.

Going through a shape is defined by recursion.  A stack of the nodes that are still to be listed
does as well.

Main definitions:

* `Shape.walkStack`, `Shape.walkEach` — going through a shape with a stack;
* `Role.referenceKind` — the kind of reference that names a routine.

Main results:

* `Shape.walkEach_eq` — **a stack leads to the same nodes in the same order**;
* `Node.walkFrom_toShape`, `Program.walk_eq` — **the nodes of a shape are those of the tree**;
* `Program.mem_references_reference`, `Program.mem_references_global` — what a program names.
-/

import TriggerEngine.Proofs.Syntax.Scripted

set_option autoImplicit false

namespace TriggerEngine

/-! ### Walking over rows -/

namespace Shape

variable {standing : Standing} {items : List Shape}

@[simp] theorem walkFrom_atom (c : Constant) : (atom c).walkFrom standing = [] := rfl

@[simp] theorem walkFrom_operator (op : Operator) : (operator op).walkFrom standing = [] := rfl

theorem walkFrom_node (hrow : isNodeRow items = true) :
    walkFrom standing (.row items) = .row items :: walkList .part items := by
  rw [walkFrom, if_pos hrow]

theorem walkFrom_inner (hrow : isNodeRow items = false) :
    walkFrom .part (.row items) = walkList .item items := by
  rw [walkFrom, hrow]
  rfl

/-! ### Walking with a stack -/

theorem walkList_append (shapes more : List Shape) :
    walkList standing (shapes ++ more) = walkList standing shapes ++ walkList standing more := by
  induction shapes with
  | nil => rfl
  | cons s rest ih => rw [List.cons_append, walkList, walkList, ih, List.append_assoc]

theorem walkList_filter (items : List Shape) :
    walkList .item (items.filter isNode) = walkList .item items := by
  induction items with
  | nil => rfl
  | cons s rest ih =>
      rw [List.filter_cons, walkList]
      cases hs : s.isNode with
      | true => rw [if_pos rfl, walkList, ih]
      | false =>
          have hnone : s.walkFrom .item = [] := by
            cases s with
            | row items => rw [walkFrom, show isNodeRow items = false from hs]; rfl
            | _ => rfl
          rw [hnone, if_neg Bool.false_ne_true, ih, List.nil_append]

theorem walkFrom_part (part : Shape) : part.walkFrom .part = walkList .item part.childrenIn := by
  unfold childrenIn
  cases part with
  | row items =>
      cases hrow : isNodeRow items with
      | true =>
          rw [show (row items).isNode = true from hrow, if_pos rfl, walkList, walkList,
            List.append_nil, walkFrom_node hrow, walkFrom_node hrow]
      | false =>
          rw [show (row items).isNode = false from hrow, if_neg Bool.false_ne_true,
            walkFrom_inner hrow, Shape.items, walkList_filter]
  | _ => rfl

theorem walkList_part (parts : List Shape) :
    walkList .part parts = walkList .item (parts.flatMap childrenIn) := by
  induction parts with
  | nil => rfl
  | cons part rest ih => rw [walkList, List.flatMap_cons, walkList_append, walkFrom_part, ih]

theorem walkFrom_leaf {s : Shape} (h : s.name?.isSome = true ∨ s.int?.isSome = true) :
    s.walkFrom standing = [] := by
  cases s with
  | row items => rcases h with h | h <;> cases h
  | _ => rfl

theorem walkFrom_eq_cons {s : Shape} (h : s.isNode = true) :
    s.walkFrom standing = s :: walkList .item s.children := by
  cases s with
  | row items =>
      rw [walkFrom_node h, children, ← walkList_part]
      simp only [isNode, isNodeRow, Bool.and_eq_true] at h
      obtain ⟨⟨hlength, hfirst⟩, hlast⟩ := h
      -- the name in front and the line at the end have no nodes
      match items with
      | first :: rest =>
          obtain ⟨inner, last, rfl⟩ : ∃ inner last, rest = inner ++ [last] :=
            rest.eq_nil_or_concat'.resolve_left (by rintro rfl; simp at hlength)
          have hfirst : first.walkFrom .part = [] := walkFrom_leaf (.inl (by simpa using hfirst))
          rw [← List.cons_append, List.getLast?_concat] at hlast
          have hlast : last.walkFrom .part = [] := walkFrom_leaf (.inr hlast)
          simp [Shape.items, walkList, walkList_append, hfirst, hlast]
  | _ => cases h

theorem isNode_of_mem_children {s child : Shape} (h : child ∈ s.children) : child.isNode = true := by
  obtain ⟨part, -, hpart⟩ := List.mem_flatMap.1 h
  unfold childrenIn at hpart
  split at hpart
  · obtain rfl := List.mem_singleton.1 hpart
    assumption
  · exact (List.mem_filter.1 hpart).2

/-- The nodes from a stack of nodes: the one on top comes next, and the nodes directly below it take
its place. -/
def walkStack : (stack : List Shape) → (∀ s ∈ stack, s.isNode = true) → List Shape
  | [], _ => []
  | s :: stack, h => s :: walkStack (s.children ++ stack) (List.forall_mem_append.2
      ⟨fun _ => isNode_of_mem_children, (List.forall_mem_cons.1 h).2⟩)
termination_by stack => (walkList .item stack).length
decreasing_by
  -- one node fewer is left to be listed
  rw [walkList_append, walkList, walkFrom_eq_cons (h s List.mem_cons_self)]
  simp

mutual

/-- All nodes of a program, or of a single node, where each statement is walked with a stack. -/
def walkEach : Shape → List Shape
  | .row items =>
    if h : isNodeRow items then walkStack [.row items] (List.forall_mem_singleton.2 h)
    else walkEachOf items
  | _ => []

def walkEachOf : List Shape → List Shape
  | [] => []
  | s :: rest => walkEach s ++ walkEachOf rest

end

theorem walkStack_eq (stack : List Shape) (h : ∀ s ∈ stack, s.isNode = true) :
    walkStack stack h = walkList .item stack := by
  fun_induction walkStack stack h with
  | case1 => rfl
  | case2 s stack _ h ih =>
      rw [ih, walkList_append, walkList, walkFrom_eq_cons (h s List.mem_cons_self), List.cons_append]

mutual

/-- **Walking with a stack lists the nodes in the order of the walk.** -/
theorem walkEach_eq : ∀ s : Shape, s.walkEach = s.walk
  | .row items => by
      rw [walkEach, walk, walkFrom]
      split
      · rename_i h
        rw [walkStack_eq, walkList, walkList, List.append_nil, walkFrom_node h]
      · exact walkEachOf_eq items
  | .atom _ | .operator _ => by simp [walkEach, walk, walkFrom]

theorem walkEachOf_eq : ∀ items : List Shape, walkEachOf items = walkList .program items
  | [] => by rw [walkEachOf]; rfl
  | s :: rest => by rw [walkEachOf, walkList, walkEach_eq s, walkEachOf_eq rest]; rfl

end

end Shape

/-! ### Nodes as rows -/

namespace Node

theorem IsScripted.toShape_eq {node : Node} (h : node.IsScripted) :
    ∃ items, node.toShape = .row items ∧ Shape.isNodeRow items = true ∧
      ∃ n, node.line = .number n ∧ node.toShape.line = n := by
  cases node with
  | torn => exact h.elim
  | other => exact h.elim
  | member target name line =>
      obtain ⟨-, n, rfl⟩ := h
      exact ⟨_, rfl, rfl, n, rfl, rfl⟩
  | declare name value line =>
      obtain ⟨n, rfl⟩ : ∃ n, line = .number n := h
      cases value <;> exact ⟨_, rfl, rfl, n, rfl, rfl⟩
  | conditional test body otherwise line =>
      obtain ⟨n, rfl⟩ : ∃ n, line = .number n := h
      cases otherwise <;> exact ⟨_, rfl, rfl, n, rfl, rfl⟩
  | iteration name source bound body line =>
      obtain ⟨n, rfl⟩ : ∃ n, line = .number n := h
      cases bound <;> exact ⟨_, rfl, rfl, n, rfl, rfl⟩
  | _ =>
      obtain ⟨n, hn⟩ := h
      cases hn
      exact ⟨_, rfl, rfl, n, rfl, rfl⟩

theorem isNodeRow_toShapes {nodes : List Node} (h : EachOf IsScripted nodes) :
    Shape.isNodeRow (toShapes nodes) = false := by
  cases nodes with
  | nil => rfl
  | cons node rest =>
      obtain ⟨items, hshape, -⟩ := h.head.self.toShape_eq
      simp [toShapes, hshape, Shape.isNodeRow, Shape.name?]

/-! ### One node after the other -/

@[simp] theorem walkFrom_nameShape (standing : Shape.Standing) (name : Name) :
    (nameShape name).walkFrom standing = [] := by
  cases name <;> rfl

@[simp] theorem walkFrom_lineShape (standing : Shape.Standing) (line : Line) :
    (lineShape line).walkFrom standing = [] := by
  cases line with
  | number n => rfl
  | other name => exact walkFrom_nameShape standing name

@[simp] theorem walkFrom_wordShape (standing : Shape.Standing) (word : String) :
    (wordShape word).walkFrom standing = [] := rfl

theorem walkFrom_of {node : Node} {below : List Node} {items : List Shape}
    (hnodes : node.nodes = node :: below) (hshape : node.toShape = .row items)
    (hself : node.IsScripted) (hitems : Shape.walkList .part items = below.map toShape)
    (standing : Shape.Standing) : node.toShape.walkFrom standing = node.nodes.map toShape := by
  obtain ⟨items', hshape', hrow, -⟩ := hself.toShape_eq
  cases hshape.symm.trans hshape'
  rw [hnodes, List.map_cons, hshape, Shape.walkFrom_node hrow, hitems]

theorem walkFrom_row {nodes : List Node} (h : EachOf IsScripted nodes)
    (hnodes : ∀ standing : Shape.Standing,
      Shape.walkList standing (toShapes nodes) = (nodesOf nodes).map toShape) :
    Shape.walkFrom .part (.row (toShapes nodes)) = (nodesOf nodes).map toShape := by
  rw [Shape.walkFrom_inner (isNodeRow_toShapes h), hnodes]

attribute [local simp] Shape.walkList

mutual

/-- **Who goes through the shape of a tree finds its nodes**, in their order. -/
theorem walkFrom_toShape : ∀ node : Node, node.Each IsScripted → ∀ standing : Shape.Standing,
    node.toShape.walkFrom standing = node.nodes.map toShape
  | .literal _ _ _ _, h | .ident _ _, h | .leave _, h | .next _, h | .declare _ none _, h =>
      walkFrom_of rfl rfl h.self (by simp)
  | .torn _ _, h | .other _ _, h => h.self.elim
  | .list items _, h | .reference _ _ items _, h | .block items _, h =>
      walkFrom_of rfl rfl h.self (by simp [walkFrom_row h.row (walkList_toShapes items h.row)])
  | .global part _, h | .member part _ _, h | .unary _ part _, h | .sign _ part _, h
  | .declare _ (some part) _, h | .expression part _, h | .cooldown part _, h =>
      walkFrom_of rfl rfl h.self (by simp [walkFrom_toShape part h.sub])
  | .call callee args _, h =>
      walkFrom_of rfl rfl h.self
        (by simp [walkFrom_toShape callee h.sub, walkFrom_row h.row (walkList_toShapes args h.row)])
  | .index left right _, h | .binary _ left right _, h | .assign left right _, h
  | .conditional left right none _, h | .repetition left right _, h
  | .iteration _ left none right _, h =>
      walkFrom_of rfl rfl h.self
        (by simp [walkFrom_toShape left h.sub, walkFrom_toShape right h.sub])
  | .conditional first second (some third) _, h | .iteration _ first (some second) third _, h =>
      walkFrom_of rfl rfl h.self (by simp [walkFrom_toShape first h.sub,
        walkFrom_toShape second h.sub, walkFrom_toShape third h.sub])

theorem walkList_toShapes : ∀ nodes : List Node, EachOf IsScripted nodes →
    ∀ standing : Shape.Standing,
      Shape.walkList standing (toShapes nodes) = (nodesOf nodes).map toShape
  | [], _, _ => rfl
  | node :: rest, h, standing => by
      rw [toShapes, Shape.walkList, walkFrom_toShape node h.head, walkList_toShapes rest h.tail,
        nodesOf, List.map_append]

end

end Node

/-- The kind of reference that names a routine for a role. -/
def Role.referenceKind : Role → ReferenceKind
  | .executor => .executor
  | .condition => .condition
  | .placeholder => .placeholder

namespace Program

variable {program : Program} (hprogram : Node.EachOf Node.IsScripted program)

include hprogram

/-- **Who goes through a program finds its nodes**, each before those below it. -/
theorem walk_eq : (toShape program).walk = (Node.nodesOf program).map Node.toShape := by
  have hrow := Node.isNodeRow_toShapes hprogram
  rw [toShape, Shape.walk, Shape.walkFrom, hrow]
  exact Node.walkList_toShapes program hprogram .program

theorem mem_walk {node : Node} (hnode : node ∈ Node.nodesOf program) :
    node.toShape ∈ (toShape program).walk :=
  walk_eq hprogram ▸ List.mem_map_of_mem hnode

theorem mem_references_reference {role : Role} {name : String} {args : List Node} {line : Line}
    (hnode : .reference role (.word name) args line ∈ Node.nodesOf program) :
    ∃ n, ⟨role.referenceKind, .word name, n⟩ ∈ (toShape program).references := by
  have hwalk := mem_walk hprogram hnode
  cases role with
  | executor => exact ⟨_, List.mem_filterMap.2 ⟨_, hwalk, rfl⟩⟩
  | condition => exact ⟨_, List.mem_filterMap.2 ⟨_, hwalk, rfl⟩⟩
  | placeholder => exact ⟨_, List.mem_filterMap.2 ⟨_, hwalk, rfl⟩⟩

theorem mem_references_global {name : String} {line line' : Line} {tag : Nat}
    (hnode : .global (.literal .string (.str name) line' tag) line ∈ Node.nodesOf program) :
    ∃ n, ⟨.global, .word name, n⟩ ∈ (toShape program).references :=
  ⟨_, List.mem_filterMap.2 ⟨_, mem_walk hprogram hnode, rfl⟩⟩

end Program

end TriggerEngine
