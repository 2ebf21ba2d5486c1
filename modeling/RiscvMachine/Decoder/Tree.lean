import RiscvMachine.Instruction.Declaration
/-!
Decision trees over encodings. A tree tests bits of an encoding, a whole mask or one bit at a time,
until one declaration is left.
-/

namespace RiscvMachine

/-- A declaration with its position in the list that a decoder was built from. -/
structure Entry where
  id : Nat
  declaration : Declaration
  deriving DecidableEq

namespace Decoder

inductive Tree where
  | illegal
  | nop (entry : Entry)
  | leaf (entry : Entry)
  | branch (bit : Nat) (zero one : Tree)
  /-- Goes on by the bits of `mask`: to the case whose key they equal, or to `otherwise`. -/
  | switch (mask : Encoding) (cases : List (Encoding × Tree)) (otherwise : Tree)

inductive Decision where
  | illegal
  | nop (entry : Entry)
  | instruction (entry : Entry)
  deriving DecidableEq

def Decision.declaration? : Decision → Option Declaration
  | .illegal => none
  | .nop entry | .instruction entry => some entry.declaration

/-- Where `key` is among ascending keys, if it is one of the `size` keys from `base` on. The range
is halved until one key is left; each step takes one key away at least, so fuel for all but one key
is never used up. -/
def narrow (keys : List Encoding) (key : Encoding) : (fuel base size : Nat) → Nat
  | 0, base, _ => base
  | fuel + 1, base, size =>
      if size ≤ 1 then base
      else
        let middle := base + size / 2
        let base := match keys[middle]? with
          | some candidate => if key < candidate then base else middle
          | none => base
        narrow keys key fuel base (size - size / 2)

def search (keys : List Encoding) (key : Encoding) : Option Nat :=
  let position := narrow keys key keys.length 0 keys.length
  if keys[position]? = some key then some position else none

namespace Tree

mutual

def decide (raw : Encoding) : Tree → Decision
  | illegal => .illegal
  | nop entry => .nop entry
  | leaf entry => .instruction entry
  | branch bit zero one => if raw.getLsbD bit then one.decide raw else zero.decide raw
  | switch mask cases otherwise =>
      match search (cases.map Prod.fst) (raw &&& mask) with
      | some position => decideAt raw position cases
      | none => otherwise.decide raw

/-- The leaf that `raw` leads to through the case at a position. -/
def decideAt (raw : Encoding) : Nat → List (Encoding × Tree) → Decision
  | _, [] => .illegal
  | 0, (_, child) :: _ => child.decide raw
  | position + 1, _ :: rest => decideAt raw position rest

end

mutual

def depth : Tree → Nat
  | illegal | nop _ | leaf _ => 0
  | branch _ zero one => 1 + max zero.depth one.depth
  | switch _ cases otherwise => 1 + max otherwise.depth (caseDepth cases)

def caseDepth : List (Encoding × Tree) → Nat
  | [] => 0
  | (_, child) :: rest => max child.depth (caseDepth rest)

end

end Tree

end Decoder

/-- A decision tree for one register width, with the declarations it was built from. -/
structure Decoder where
  xlen : Xlen
  declarations : List Declaration
  tree : Decoder.Tree

namespace Decoder

def decide (decoder : Decoder) (raw : Encoding) : Decision :=
  decoder.tree.decide raw

def declaration? (decoder : Decoder) (id : Nat) : Option Declaration :=
  decoder.declarations[id]?

def find? (decoder : Decoder) (mnemonic : String) : Option Declaration :=
  decoder.declarations.find? fun declaration => declaration.mnemonic == mnemonic

def depth (decoder : Decoder) : Nat :=
  decoder.tree.depth

end Decoder

end RiscvMachine
