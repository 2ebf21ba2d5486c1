import RiscvMachine.Decoder.Tree
/-!
Numbered and indented forms of a decoder. In the numbered form every child comes before its
parent, the illegal node is number 0, and each declaration has one leaf at most.
-/

namespace RiscvMachine

namespace Decoder

/-- A tree node whose children are numbers of other nodes. -/
inductive Node where
  | illegal
  | nop (id : Nat)
  | leaf (id : Nat)
  | branch (bit : Nat) (ifZero ifOne : Nat)
  | switch (mask : Encoding) (cases : List (Encoding × Nat)) (otherwise : Nat)
  deriving DecidableEq

/-- The nodes so far, and the numbers of the leaves among them by declaration. -/
structure Listing where
  nodes : Array Node
  leaves : List (Nat × Nat)

namespace Listing

def initial : Listing :=
  ⟨#[.illegal], []⟩

def push (listing : Listing) (node : Node) : Nat × Listing :=
  (listing.nodes.size, { listing with nodes := listing.nodes.push node })

/-- The number of the one leaf of a declaration. -/
def leaf (listing : Listing) (id : Nat) (node : Node) : Nat × Listing :=
  match listing.leaves.lookup id with
  | some number => (number, listing)
  | none =>
      let (number, listing) := listing.push node
      (number, { listing with leaves := (id, number) :: listing.leaves })

mutual

/-- The number of a tree: the fallback of a switch comes first, then its cases in order. -/
def add (listing : Listing) : Tree → Nat × Listing
  | .illegal => (0, listing)
  | .nop entry => listing.leaf entry.id (.nop entry.id)
  | .leaf entry => listing.leaf entry.id (.leaf entry.id)
  | .branch bit zero one =>
      let (ifZero, listing) := listing.add zero
      let (ifOne, listing) := listing.add one
      listing.push (.branch bit ifZero ifOne)
  | .switch mask cases otherwise =>
      let (otherwise, listing) := listing.add otherwise
      let (cases, listing) := listing.addCases cases
      listing.push (.switch mask cases otherwise)

def addCases (listing : Listing) : List (Encoding × Tree) → List (Encoding × Nat) × Listing
  | [] => ([], listing)
  | (key, child) :: rest =>
      let (number, listing) := listing.add child
      let (numbers, listing) := listing.addCases rest
      ((key, number) :: numbers, listing)

end

end Listing

def listing (decoder : Decoder) : Nat × Array Node :=
  let (root, listing) := Listing.initial.add decoder.tree
  (root, listing.nodes)

def nodeCount (decoder : Decoder) : Nat :=
  decoder.listing.2.size

namespace Tree

def indentation (level : Nat) : String :=
  String.ofList (List.replicate (2 * level) ' ')

mutual

def lines (level : Nat) : Tree → List String
  | illegal => [indentation level ++ "<illegal>"]
  | nop entry => [indentation level ++ entry.declaration.mnemonic ++ " (nop)"]
  | leaf entry => [indentation level ++ entry.declaration.mnemonic]
  | branch bit zero one =>
      (indentation level ++ "bit " ++ toString bit ++ " = 0:") :: zero.lines (level + 1) ++
        (indentation level ++ "bit " ++ toString bit ++ " = 1:") :: one.lines (level + 1)
  | switch mask cases otherwise =>
      (indentation level ++ "switch mask=" ++ hexPadded 8 mask.toNat) :: caseLines level cases ++
        (indentation level ++ "default:") :: otherwise.lines (level + 1)

def caseLines (level : Nat) : List (Encoding × Tree) → List String
  | [] => []
  | (key, child) :: rest =>
      (indentation level ++ "case " ++ hexPadded 8 key.toNat ++ ":") :: child.lines (level + 1) ++
        caseLines level rest

end

end Tree

/-- The whole tree as text, one line for each test and leaf. -/
def text (decoder : Decoder) : String :=
  let title := decoder.xlen.name ++ " decoder tree (" ++ toString decoder.nodeCount ++ " nodes)"
  String.join ((title :: decoder.tree.lines 0).map fun line => line ++ "\n")

def summary (decoder : Decoder) : String :=
  let xlen := match decoder.xlen with
    | .x32 => "X32"
    | .x64 => "X64"
  "DecoderTree \x7b xlen: " ++ xlen ++ ", declarations: " ++ toString decoder.declarations.length ++
    ", nodes: " ++ toString decoder.nodeCount ++ " \x7d"

end Decoder

end RiscvMachine
