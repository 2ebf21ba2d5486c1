import RiscvMachine.Decoder.Tree
/-!
Building a decoder. The candidates are split by the bits that all open ones fix, or else by the
bit that most of them fix; where no bit is left to test the most specific candidate wins, and two
that are equally specific are an error.
-/

namespace RiscvMachine

inductive BuildError where
  | empty (xlen : Xlen)
  | patternOutsideMask (mnemonic : String) (mask pattern : Encoding)
  | lengthUndetermined (mnemonic : String)
  | lengthMismatch (mnemonic : String)
  | tooManyOperands (mnemonic : String) (arity : Nat)
  | duplicateMnemonic (mnemonic : String)
  | ambiguous (first second : String) (sample : Encoding)
  deriving DecidableEq

def BuildError.message : BuildError → String
  | empty xlen => "no declarations apply to " ++ xlen.name
  | patternOutsideMask mnemonic mask pattern =>
      mnemonic ++ ": pattern " ++ hexPadded 8 pattern.toNat ++ " sets bits outside mask " ++
        hexPadded 8 mask.toNat
  | lengthUndetermined mnemonic =>
      mnemonic ++ ": low two opcode bits are not fixed, encoded width is undetermined"
  | lengthMismatch mnemonic =>
      mnemonic ++ ": declared width does not match its low opcode bits"
  | tooManyOperands mnemonic arity =>
      mnemonic ++ ": " ++ toString arity ++ " operands exceed the supported maximum of " ++
        toString Operands.maxArity
  | duplicateMnemonic mnemonic =>
      "mnemonic " ++ mnemonic ++ " declared more than once for the same width"
  | ambiguous first second sample =>
      first ++ " and " ++ second ++ " match the same encodings with equal specificity (e.g. " ++
        hexPadded 8 sample.toNat ++ ")"

/-- The first rule that the declaration breaks by itself. -/
def Declaration.defect? (declaration : Declaration) : Option BuildError :=
  let mnemonic := declaration.mnemonic
  if declaration.pattern &&& ~~~declaration.mask ≠ 0 then
    some (.patternOutsideMask mnemonic declaration.mask declaration.pattern)
  else if declaration.mask &&& 3 ≠ 3 then
    some (.lengthUndetermined mnemonic)
  else if declaration.length ≠ EncodedLength.of declaration.pattern then
    some (.lengthMismatch mnemonic)
  else if declaration.length = .compressed ∧ declaration.mask &&& 0xFFFF0000 ≠ 0 then
    some (.patternOutsideMask mnemonic declaration.mask declaration.pattern)
  else if Operands.maxArity < declaration.arity then
    some (.tooManyOperands mnemonic declaration.arity)
  else none

namespace Decoder

/-- Every declaration is sound by itself and no mnemonic occurs twice; `seen` holds the mnemonics
before the list. -/
def check (seen : List String) : List Declaration → Except BuildError Unit
  | [] => .ok ()
  | declaration :: rest =>
      match declaration.defect? with
      | some defect => .error defect
      | none =>
          if seen.contains declaration.mnemonic then .error (.duplicateMnemonic declaration.mnemonic)
          else check (declaration.mnemonic :: seen) rest

/-- `key` put into an ascending list of distinct keys. -/
def insertKey (key : Encoding) : List Encoding → List Encoding
  | [] => [key]
  | first :: rest =>
      if key < first then key :: first :: rest
      else if key = first then first :: rest
      else first :: insertKey key rest

/-- The distinct values that the candidates fix for the bits of `mask`, ascending. -/
def keys (mask : Encoding) (candidates : List Entry) : List Encoding :=
  candidates.foldr (fun entry keys => insertKey (entry.declaration.pattern &&& mask) keys) []

def isSettled (decided : Encoding) (entry : Entry) : Bool :=
  entry.declaration.mask &&& ~~~decided == 0

/-- The undecided bits that every candidate fixes. -/
def sharedMask (decided : Encoding) (candidates : List Entry) : Encoding :=
  candidates.foldl (fun mask entry => mask &&& entry.declaration.mask) (~~~decided)

def uses (candidates : List Entry) (bit : Nat) : Nat :=
  (candidates.filter fun entry => entry.declaration.mask.getLsbD bit).length

/-- The better one of `bit` and the best bit so far, which comes with its number of uses. -/
def preferBit (decided : Encoding) (candidates : List Entry) (best : Nat × Nat) (bit : Nat) :
    Nat × Nat :=
  if decided.getLsbD bit then best
  else if best.2 < uses candidates bit then (bit, uses candidates bit) else best

/-- The lowest undecided bit that most candidates fix. -/
def splitBit (decided : Encoding) (candidates : List Entry) : Nat :=
  ((List.range 32).foldl (preferBit decided candidates) (0, 0)).1

def topSpecificity (candidates : List Entry) : Nat :=
  candidates.foldl (fun top entry => max top entry.declaration.specificity) 0

/-- The leaf for candidates that all accept the encodings of a path with the given value. -/
def leaf (settled : List Entry) (value : Encoding) : Except BuildError Tree :=
  match settled.filter fun entry => entry.declaration.specificity = topSpecificity settled with
  | [] => .ok .illegal
  | [winner] =>
      match winner.declaration.kind with
      | .illegal => .ok .illegal
      | .nop => .ok (.nop winner)
      | .regular => .ok (.leaf winner)
  | first :: second :: _ =>
      .error (.ambiguous first.declaration.mnemonic second.declaration.mnemonic
        (value ||| first.declaration.pattern))

/-- The candidates that accept some encoding whose `bit` is `set`. -/
def withBit (candidates : List Entry) (bit : Nat) (set : Bool) : List Entry :=
  candidates.filter fun entry =>
    !entry.declaration.mask.getLsbD bit || entry.declaration.pattern.getLsbD bit == set

/-- The tree for `candidates` below a path that has decided some bits to the given value. Each
step decides one more bit at least, so fuel beyond the number of undecided bits is never used up. -/
def split : (fuel : Nat) → (candidates : List Entry) → (decided value : Encoding) →
    Except BuildError Tree
  | 0, _, _, _ => .ok .illegal
  | fuel + 1, candidates, decided, value =>
      if candidates.isEmpty then .ok .illegal
      else
        let settled := candidates.filter (isSettled decided)
        let opened := candidates.filter fun entry => !isSettled decided entry
        if opened.isEmpty then leaf settled value
        else
          let shared := sharedMask decided opened
          if shared ≠ 0 then do
            let otherwise ← leaf settled value
            let cases ← (keys shared opened).mapM fun key => do
              let group := opened.filter fun entry => entry.declaration.pattern &&& shared == key
              let child ← split fuel (group ++ settled) (decided ||| shared) (value ||| key)
              return (key, child)
            return .switch shared cases otherwise
          else do
            let bit := splitBit decided opened
            let flag : Encoding := 1 <<< bit
            let zero ← split fuel (withBit candidates bit false) (decided ||| flag) value
            let one ← split fuel (withBit candidates bit true) (decided ||| flag) (value ||| flag)
            return .branch bit zero one

/-- The declarations that hold for a register width, with their positions. -/
def entriesOf (declarations : List Declaration) : List Entry :=
  declarations.zipIdx.map fun (declaration, id) => ⟨id, declaration⟩

def build (xlen : Xlen) (declarations : List Declaration) : Except BuildError Decoder := do
  let included := declarations.filter fun declaration => declaration.variant.includes xlen
  if included.isEmpty then throw (.empty xlen)
  check [] included
  let tree ← split 33 (entriesOf included) 0 0
  return ⟨xlen, included, tree⟩

end Decoder

end RiscvMachine
