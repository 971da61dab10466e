/-
  File:      SchemaCompiler/Proofs/Json/Relocation.lean
  Subject:   Trees whose parts stand elsewhere.

  `Node.relocated` puts every span of a tree where a function says, and `Node.moved` is the case of
  a tree that stands some bytes further on. Neither changes the shape of the tree
  (`Node.depth_relocated`), and a tree is its own relocation to where it stands
  (`Node.relocated_id`).
-/
import SchemaCompiler.Proofs.Json.Grammar

namespace SchemaCompiler

/-! ## 1. Relocated trees -/

mutual

/-- The tree with its parts at other spans. -/
def Node.relocated (place : Span → Span) : Node → Node
  | .object members span => .object (relocatedMembers place members) (place span)
  | .array items span => .array (relocatedItems place items) (place span)
  | .string text span => .string text (place span)
  | .number n span => .number n (place span)
  | .boolean b span => .boolean b (place span)
  | .null span => .null (place span)

def relocatedItems (place : Span → Span) : List Node → List Node
  | [] => []
  | item :: items => item.relocated place :: relocatedItems place items

def relocatedMembers (place : Span → Span) : List (Member Node) → List (Member Node)
  | [] => []
  | ⟨key, keySpan, value, span⟩ :: members =>
    ⟨key, place keySpan, value.relocated place, place span⟩ :: relocatedMembers place members

end

/-- A member with its parts at other spans. -/
def Member.relocated (place : Span → Span) (m : Member Node) : Member Node :=
  ⟨m.key, place m.keySpan, m.value.relocated place, place m.span⟩

theorem relocatedItems_eq_map (place : Span → Span) (items : List Node) :
    relocatedItems place items = items.map (Node.relocated place) := by
  induction items with
  | nil => rfl
  | cons item items ih => rw [relocatedItems, ih, List.map_cons]

theorem relocatedMembers_eq_map (place : Span → Span) (members : List (Member Node)) :
    relocatedMembers place members = members.map (Member.relocated place) := by
  induction members with
  | nil => rfl
  | cons m members ih => rw [relocatedMembers, ih, List.map_cons, Member.relocated]

@[simp] theorem Node.span_relocated (place : Span → Span) (node : Node) :
    (node.relocated place).span = place node.span := by
  cases node <;> rfl

mutual

/-- Every part stands where it stands. -/
theorem Node.relocated_id : (node : Node) → node.relocated id = node
  | .object members span => by rw [Node.relocated, relocatedMembers_id members, id]
  | .array items span => by rw [Node.relocated, relocatedItems_id items, id]
  | .string .. | .number .. | .boolean .. | .null _ => rfl

theorem relocatedItems_id : (items : List Node) → relocatedItems id items = items
  | [] => rfl
  | item :: items => by rw [relocatedItems, item.relocated_id, relocatedItems_id items]

theorem relocatedMembers_id : (members : List (Member Node)) → relocatedMembers id members = members
  | [] => rfl
  | ⟨key, keySpan, value, span⟩ :: members => by
    rw [relocatedMembers, value.relocated_id, relocatedMembers_id members, id, id]

end

section Depth

variable (place : Span → Span)

mutual

/-- A tree is as deep elsewhere. -/
theorem Node.depth_relocated : (node : Node) → (node.relocated place).depth = node.depth
  | .object members _ => by
    rw [Node.relocated, Node.depth, Node.depth, membersDepth_relocated members]
  | .array items _ => by rw [Node.relocated, Node.depth, Node.depth, itemsDepth_relocated items]
  | .string .. | .number .. | .boolean .. | .null _ => by simp only [Node.relocated, Node.depth]

theorem itemsDepth_relocated : (items : List Node) →
    itemsDepth (relocatedItems place items) = itemsDepth items
  | [] => rfl
  | item :: items => by
    rw [relocatedItems, itemsDepth, itemsDepth, item.depth_relocated, itemsDepth_relocated items]

theorem membersDepth_relocated : (members : List (Member Node)) →
    membersDepth (relocatedMembers place members) = membersDepth members
  | [] => rfl
  | ⟨_, _, value, _⟩ :: members => by
    rw [relocatedMembers, membersDepth, membersDepth, value.depth_relocated,
      membersDepth_relocated members]

end

end Depth

/-! ## 2. Moved trees -/

/-- A span `k` bytes further on. -/
def Span.moved (k : Nat) (span : Span) : Span := ⟨span.start + k, span.stop + k⟩

/-- A tree that stands `k` bytes further on. -/
def Node.moved (k : Nat) : Node → Node := Node.relocated (Span.moved k)

/-- A member that stands `k` bytes further on. -/
def Member.moved (k : Nat) : Member Node → Member Node := Member.relocated (Span.moved k)

end SchemaCompiler
