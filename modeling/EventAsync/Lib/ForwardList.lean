import Mathlib.Tactic

/-!
# Singly linked lists with node identities

A forward list allocates one node for every element.  Positions refer to nodes,
not to indices: a position stays what it is when the node it denotes is removed,
and is then different from every position of the list, in particular from the
one before its first node.  Node identities are never reused.

Emplacing after a position whose node has left the list writes the new node
behind the removed one, so the list itself does not change.
-/

universe u

/-- A place in a forward list after which a node can be linked. -/
inductive ForwardList.Position where
  | beforeBegin
  | node (id : ℕ)
  deriving DecidableEq, Repr

/-- The nodes of a forward list, front first, and the identity the next node gets. -/
structure ForwardList (Value : Type u) where
  nodes : List (ℕ × Value)
  nextId : ℕ
  ids_nodup : (nodes.map Prod.fst).Nodup
  ids_lt : ∀ node ∈ nodes, node.1 < nextId

namespace ForwardList

variable {Value : Type u}

/-- The list without nodes. -/
def empty : ForwardList Value where
  nodes := []
  nextId := 0
  ids_nodup := by simp
  ids_lt := by simp

/-- The stored values, front first. -/
def values (list : ForwardList Value) : List Value :=
  list.nodes.map Prod.snd

/-- The position of the last node, or the one before the first node of an empty list. -/
def lastPosition (list : ForwardList Value) : Position :=
  match list.nodes.getLast? with
  | none => .beforeBegin
  | some node => .node node.1

/-- Link `fresh` behind the node with the given identity. -/
def insertAfter (id : ℕ) (fresh : ℕ × Value) : List (ℕ × Value) → List (ℕ × Value)
  | [] => []
  | node :: rest =>
      if node.1 = id then node :: fresh :: rest else node :: insertAfter id fresh rest

theorem insertAfter_subperm (id : ℕ) (fresh : ℕ × Value) (nodes : List (ℕ × Value)) :
    (insertAfter id fresh nodes).Subperm (fresh :: nodes) := by
  induction nodes with
  | nil => simp [insertAfter]
  | cons node rest ih =>
      simp only [insertAfter]
      split
      · exact (List.Perm.swap fresh node rest).subperm
      · exact ((List.subperm_cons node).mpr ih).trans (List.Perm.swap fresh node rest).subperm

theorem insertAfter_append_last {id : ℕ} {value : Value} {fresh : ℕ × Value}
    {front : List (ℕ × Value)} (absent : id ∉ front.map Prod.fst) :
    insertAfter id fresh (front ++ [(id, value)]) = front ++ [(id, value), fresh] := by
  induction front with
  | nil => simp [insertAfter]
  | cons node rest ih =>
      simp only [List.map_cons, List.mem_cons, not_or] at absent
      simp only [List.cons_append, insertAfter, Ne.symm absent.1, if_false, ih absent.2]

/-- The nodes after `fresh` has been linked behind a position. -/
def linkAfter (position : Position) (fresh : ℕ × Value) (nodes : List (ℕ × Value)) :
    List (ℕ × Value) :=
  match position with
  | .beforeBegin => fresh :: nodes
  | .node id => insertAfter id fresh nodes

theorem linkAfter_subperm (position : Position) (fresh : ℕ × Value)
    (nodes : List (ℕ × Value)) : (linkAfter position fresh nodes).Subperm (fresh :: nodes) := by
  cases position with
  | beforeBegin => exact List.Subperm.refl _
  | node id => exact insertAfter_subperm id fresh nodes

theorem nodup_ids_of_subperm {left right : List (ℕ × Value)} (included : left.Subperm right)
    (nodup : (right.map Prod.fst).Nodup) : (left.map Prod.fst).Nodup := by
  rcases included with ⟨middle, permuted, sublist⟩
  have middle_nodup : (middle.map Prod.fst).Nodup := nodup.sublist (sublist.map Prod.fst)
  exact (permuted.map Prod.fst).nodup_iff.mp middle_nodup

/-- Allocate a node for `value` and link it behind `position`. -/
def emplaceAfter (list : ForwardList Value) (position : Position) (value : Value) :
    ForwardList Value where
  nodes := linkAfter position (list.nextId, value) list.nodes
  nextId := list.nextId + 1
  ids_nodup := by
    have linked := linkAfter_subperm position (list.nextId, value) list.nodes
    refine nodup_ids_of_subperm linked ?_
    rw [List.map_cons, List.nodup_cons]
    refine ⟨?_, list.ids_nodup⟩
    intro present
    rcases List.mem_map.mp present with ⟨node, node_mem, node_id⟩
    have bound := list.ids_lt node node_mem
    simp only at node_id
    omega
  ids_lt := by
    intro node node_mem
    have linked := linkAfter_subperm position (list.nextId, value) list.nodes
    rcases List.mem_cons.mp (linked.subset node_mem) with rfl | old
    · simp
    · have bound := list.ids_lt node old
      omega

/-- The position of the node that `emplaceAfter` allocates. -/
def emplacedPosition (list : ForwardList Value) : Position :=
  .node list.nextId

/-- Unlink the first node. -/
def popFront (list : ForwardList Value) : ForwardList Value where
  nodes := list.nodes.tail
  nextId := list.nextId
  ids_nodup := by
    rw [List.map_tail]
    exact list.ids_nodup.tail
  ids_lt := fun node node_mem => list.ids_lt node (List.mem_of_mem_tail node_mem)

/-- The value of the first node. -/
def front? (list : ForwardList Value) : Option Value :=
  list.values.head?

@[simp]
theorem values_popFront (list : ForwardList Value) :
    list.popFront.values = list.values.tail := by
  simp [values, popFront, List.map_tail]

theorem values_eq_nil_iff {list : ForwardList Value} :
    list.values = [] ↔ list.nodes = [] := by
  simp [values]

theorem lastPosition_eq_beforeBegin_iff {list : ForwardList Value} :
    list.lastPosition = .beforeBegin ↔ list.values = [] := by
  rw [values_eq_nil_iff]
  unfold lastPosition
  cases last : list.nodes.getLast? with
  | none => simpa using last
  | some node =>
      have nonempty : list.nodes ≠ [] := by
        rintro isNil
        simp [isNil] at last
      simp [nonempty]

theorem last_id_not_mem (list : ForwardList Value) {front : List (ℕ × Value)} {id : ℕ}
    {last : Value} (split : list.nodes = front ++ [(id, last)]) :
    id ∉ front.map Prod.fst := by
  have nodup := list.ids_nodup
  rw [split, List.map_append, List.nodup_append] at nodup
  intro present
  exact nodup.2.2 id present id (by simp) rfl

/-- Emplacing behind the last node appends. -/
theorem values_emplaceAfter_lastPosition (list : ForwardList Value) (value : Value) :
    (list.emplaceAfter list.lastPosition value).values = list.values ++ [value] := by
  rcases list.nodes.eq_nil_or_concat with isNil | ⟨front, ⟨id, last⟩, split⟩
  · have position : list.lastPosition = .beforeBegin := by simp [lastPosition, isNil]
    simp [values, emplaceAfter, position, linkAfter, isNil]
  · rw [List.concat_eq_append] at split
    have position : list.lastPosition = .node id := by simp [lastPosition, split]
    have absent := list.last_id_not_mem split
    simp [values, emplaceAfter, position, linkAfter, split, insertAfter_append_last absent]

/-- After emplacing behind the last node, the new node is the last one. -/
theorem lastPosition_emplaceAfter_lastPosition (list : ForwardList Value) (value : Value) :
    (list.emplaceAfter list.lastPosition value).lastPosition = list.emplacedPosition := by
  rcases list.nodes.eq_nil_or_concat with isNil | ⟨front, ⟨id, last⟩, split⟩
  · have position : list.lastPosition = .beforeBegin := by simp [lastPosition, isNil]
    rw [position]
    simp [lastPosition, emplaceAfter, linkAfter, isNil, emplacedPosition]
  · rw [List.concat_eq_append] at split
    have position : list.lastPosition = .node id := by simp [lastPosition, split]
    have absent := list.last_id_not_mem split
    rw [position]
    simp [lastPosition, emplaceAfter, linkAfter, split, insertAfter_append_last absent,
      emplacedPosition]

/-- Emplacing behind a node of an empty list, which can only be a removed one, loses the value. -/
theorem values_emplaceAfter_removed {list : ForwardList Value} {position : Position}
    {value : Value} (isNil : list.values = []) (removed : position ≠ .beforeBegin) :
    (list.emplaceAfter position value).values = [] := by
  cases position with
  | beforeBegin => exact absurd rfl removed
  | node id =>
      rw [values_eq_nil_iff] at isNil
      simp [values, emplaceAfter, linkAfter, isNil, insertAfter]

/-- Emplacing adds at most the new value. -/
theorem mem_values_emplaceAfter {list : ForwardList Value} {position : Position}
    {value member : Value} (present : member ∈ (list.emplaceAfter position value).values) :
    member = value ∨ member ∈ list.values := by
  rcases List.mem_map.mp present with ⟨node, node_mem, rfl⟩
  have linked := linkAfter_subperm position (list.nextId, value) list.nodes
  rcases List.mem_cons.mp (linked.subset node_mem) with rfl | old
  · exact Or.inl rfl
  · exact Or.inr (List.mem_map.mpr ⟨node, old, rfl⟩)

/-- Removing the first node leaves the last one in place, unless they are the same node. -/
theorem lastPosition_popFront {list : ForwardList Value} (more : list.values.tail ≠ []) :
    list.popFront.lastPosition = list.lastPosition := by
  have nodes_tail : list.nodes.tail ≠ [] := by
    intro isNil
    apply more
    simp [values, ← List.map_tail, isNil]
  cases shape : list.nodes with
  | nil => simp [shape] at nodes_tail
  | cons first rest =>
      rw [shape, List.tail_cons] at nodes_tail
      rcases List.exists_cons_of_ne_nil nodes_tail with ⟨second, others, rfl⟩
      simp [lastPosition, popFront, shape]

end ForwardList
