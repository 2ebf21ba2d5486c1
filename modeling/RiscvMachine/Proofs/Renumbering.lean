import Mathlib.Logic.Equiv.Defs
import RiscvMachine.Decoder.Listing
/-!
Decoders under another numbering of their declarations. What a tree decides, how deep it is and how
its nodes are numbered only changes in the numbers of the declarations it refers to.
-/

namespace RiscvMachine

variable (numbering : Equiv.Perm Nat)

def Entry.renumber (entry : Entry) : Entry :=
  { entry with id := numbering entry.id }

namespace Decoder

def Decision.renumber : Decision → Decision
  | .illegal => .illegal
  | .nop entry => .nop (entry.renumber numbering)
  | .instruction entry => .instruction (entry.renumber numbering)

namespace Tree

mutual

def renumber : Tree → Tree
  | illegal => illegal
  | nop entry => nop (entry.renumber numbering)
  | leaf entry => leaf (entry.renumber numbering)
  | branch bit zero one => branch bit zero.renumber one.renumber
  | switch mask cases otherwise => switch mask (renumberCases cases) otherwise.renumber

def renumberCases : List (Encoding × Tree) → List (Encoding × Tree)
  | [] => []
  | (key, child) :: rest => (key, child.renumber) :: renumberCases rest

end

theorem renumberCases_eq_map (cases : List (Encoding × Tree)) :
    renumberCases numbering cases = cases.map fun case => (case.1, case.2.renumber numbering) := by
  induction cases with
  | nil => rw [renumberCases, List.map_nil]
  | cons first rest ih => rw [renumberCases, ih, List.map_cons]

theorem map_fst_renumberCases (cases : List (Encoding × Tree)) :
    (renumberCases numbering cases).map Prod.fst = cases.map Prod.fst := by
  rw [renumberCases_eq_map, List.map_map]
  rfl

mutual

theorem decide_renumber (raw : Encoding) : (tree : Tree) →
    (tree.renumber numbering).decide raw = (tree.decide raw).renumber numbering
  | illegal => by rw [renumber, decide, Decision.renumber]
  | nop entry => by rw [renumber, decide, decide, Decision.renumber]
  | leaf entry => by rw [renumber, decide, decide, Decision.renumber]
  | branch bit zero one => by
      rw [renumber, decide, decide, decide_renumber raw zero, decide_renumber raw one]
      split <;> rfl
  | switch mask cases otherwise => by
      rw [renumber, decide, decide, map_fst_renumberCases]
      cases search (cases.map Prod.fst) (raw &&& mask) with
      | none => exact decide_renumber raw otherwise
      | some position => exact decideAt_renumberCases raw position cases

theorem decideAt_renumberCases (raw : Encoding) : (position : Nat) →
    (cases : List (Encoding × Tree)) →
    decideAt raw position (renumberCases numbering cases) =
      (decideAt raw position cases).renumber numbering
  | position, [] => by rw [renumberCases, decideAt, Decision.renumber]
  | 0, (_, child) :: _ => by rw [renumberCases, decideAt, decideAt, decide_renumber raw child]
  | position + 1, _ :: rest => by
      rw [renumberCases, decideAt, decideAt, decideAt_renumberCases raw position rest]

end

mutual

theorem depth_renumber : (tree : Tree) → (tree.renumber numbering).depth = tree.depth
  | illegal => by rw [renumber]
  | nop entry => by rw [renumber, depth, depth]
  | leaf entry => by rw [renumber, depth, depth]
  | branch bit zero one => by
      rw [renumber, depth, depth, depth_renumber zero, depth_renumber one]
  | switch mask cases otherwise => by
      rw [renumber, depth, depth, depth_renumber otherwise, caseDepth_renumberCases cases]

theorem caseDepth_renumberCases : (cases : List (Encoding × Tree)) →
    caseDepth (renumberCases numbering cases) = caseDepth cases
  | [] => by rw [renumberCases]
  | (_, child) :: rest => by
      rw [renumberCases, caseDepth, caseDepth, depth_renumber child, caseDepth_renumberCases rest]

end

end Tree

/-! ### Numbered nodes -/

def Node.renumber : Node → Node
  | .nop id => .nop (numbering id)
  | .leaf id => .leaf (numbering id)
  | .illegal => .illegal
  | .branch bit ifZero ifOne => .branch bit ifZero ifOne
  | .switch mask cases otherwise => .switch mask cases otherwise

namespace Listing

def renumber (listing : Listing) : Listing :=
  ⟨listing.nodes.map (Node.renumber numbering),
    listing.leaves.map fun numbered => (numbering numbered.1, numbered.2)⟩

theorem lookup_renumber (leaves : List (Nat × Nat)) (id : Nat) :
    (leaves.map fun numbered => (numbering numbered.1, numbered.2)).lookup (numbering id) =
      leaves.lookup id := by
  induction leaves with
  | nil => rfl
  | cons first rest ih =>
      have hsame : (numbering id == numbering first.1) = (id == first.1) := by
        rw [Bool.eq_iff_iff, beq_iff_eq, beq_iff_eq, numbering.apply_eq_iff_eq]
      rw [List.map_cons, List.lookup_cons, List.lookup_cons, hsame, ih]

theorem push_renumber (listing : Listing) (node : Node) :
    (listing.renumber numbering).push (node.renumber numbering) =
      ((listing.push node).1, (listing.push node).2.renumber numbering) := by
  simp only [push, renumber, Array.size_map, Array.map_push]

theorem leaf_renumber (listing : Listing) (id : Nat) (node : Node) :
    (listing.renumber numbering).leaf (numbering id) (node.renumber numbering) =
      ((listing.leaf id node).1, (listing.leaf id node).2.renumber numbering) := by
  have hlookup : (listing.renumber numbering).leaves.lookup (numbering id) =
      listing.leaves.lookup id := lookup_renumber numbering listing.leaves id
  rw [leaf, leaf, hlookup]
  cases listing.leaves.lookup id with
  | some number => rfl
  | none =>
      simp only [push_renumber]
      rfl

mutual

theorem add_renumber (listing : Listing) : (tree : Tree) →
    (listing.renumber numbering).add (tree.renumber numbering) =
      ((listing.add tree).1, (listing.add tree).2.renumber numbering)
  | .illegal => by rw [Tree.renumber, add, add]
  | .nop entry => by
      rw [Tree.renumber, add, add]
      exact leaf_renumber numbering listing entry.id (.nop entry.id)
  | .leaf entry => by
      rw [Tree.renumber, add, add]
      exact leaf_renumber numbering listing entry.id (.leaf entry.id)
  | .branch bit zero one => by
      rw [Tree.renumber, add, add, add_renumber listing zero]
      dsimp only
      rw [add_renumber _ one]
      exact push_renumber numbering _ (.branch bit _ _)
  | .switch mask cases otherwise => by
      rw [Tree.renumber, add, add, add_renumber listing otherwise]
      dsimp only
      rw [addCases_renumber _ cases]
      exact push_renumber numbering _ (.switch mask _ _)

theorem addCases_renumber (listing : Listing) : (cases : List (Encoding × Tree)) →
    (listing.renumber numbering).addCases (Tree.renumberCases numbering cases) =
      ((listing.addCases cases).1, (listing.addCases cases).2.renumber numbering)
  | [] => by rw [Tree.renumberCases, addCases, addCases]
  | (key, child) :: rest => by
      rw [Tree.renumberCases, addCases, addCases, add_renumber listing child]
      dsimp only
      rw [addCases_renumber _ rest]

end

end Listing

/-- A renumbered tree has the same nodes at the same places. -/
theorem listing_renumber {first second : Decoder}
    (htree : second.tree = first.tree.renumber numbering) :
    second.listing = (first.listing.1, first.listing.2.map (Node.renumber numbering)) := by
  rw [listing, listing, htree]
  have hadd := Listing.add_renumber numbering .initial first.tree
  have hinitial : Listing.initial.renumber numbering = .initial := by
    simp [Listing.renumber, Listing.initial, Node.renumber]
  rw [hinitial] at hadd
  rw [hadd]
  rfl

end Decoder

end RiscvMachine
