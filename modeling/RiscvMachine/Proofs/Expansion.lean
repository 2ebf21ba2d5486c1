import RiscvMachine.Proofs.OperandBits
import RiscvMachine.Proofs.Standard
/-!
The 32-bit instructions that the 16-bit ones stand for. The rules below are those of the compressed
extension, bit by bit and without regard to the declarations; what the decoder finds is checked
against them.
-/

namespace RiscvMachine

/-- How 16-bit encodings of one mnemonic expand. -/
structure Expansion where
  short : String
  long : String
  variant : Variant
  mask : Encoding
  pattern : Encoding
  /-- The bits of the 32-bit encoding, the highest one first. -/
  bits : List BitSource
  deriving DecidableEq

namespace Expansion

/-! ### Pieces of encodings, the highest bit first -/

/-- The lowest `length` bits of a number. -/
def number (length value : Nat) : List BitSource :=
  (List.range length).reverse.map fun position => .constant (value.testBit position)

/-- The bits from `high` down to `low` of the short encoding. -/
def span (high low : Nat) : List BitSource :=
  (List.range' low (high + 1 - low)).reverse.map .bit

/-- One bit of the short encoding, several times. -/
def copies (count index : Nat) : List BitSource :=
  List.replicate count (.bit index)

/-- The bits from `high` down to `low` of an immediate. -/
def part (immediate : List BitSource) (high low : Nat) : List BitSource :=
  (immediate.drop (immediate.length - 1 - high)).take (high + 1 - low)

def register (index : Nat) : List BitSource :=
  number 5 index

/-- One of the registers x8 to x15, by the three bits from `low` on. -/
def shortRegister (low : Nat) : List BitSource :=
  number 2 0b01 ++ span (low + 2) low

/-! ### Formats of 32-bit encodings -/

def registerFormat (second : Nat) (right left : List BitSource) (function : Nat)
    (destination : List BitSource) (opcode : Nat) : List BitSource :=
  number 7 second ++ right ++ left ++ number 3 function ++ destination ++ number 7 opcode

/-- With an immediate of 12 bits. -/
def immediateFormat (immediate left : List BitSource) (function : Nat)
    (destination : List BitSource) (opcode : Nat) : List BitSource :=
  immediate ++ left ++ number 3 function ++ destination ++ number 7 opcode

/-- With an offset of 12 bits. -/
def storeFormat (offset base source : List BitSource) (function : Nat) : List BitSource :=
  part offset 11 5 ++ source ++ base ++ number 3 function ++ part offset 4 0 ++ number 7 0b0100011

/-- With an offset of 13 bits, of which the lowest is left out. -/
def branchFormat (offset left right : List BitSource) (function : Nat) : List BitSource :=
  part offset 12 12 ++ part offset 10 5 ++ right ++ left ++ number 3 function ++
    part offset 4 1 ++ part offset 11 11 ++ number 7 0b1100011

/-- With an immediate of 20 bits. -/
def upperFormat (immediate destination : List BitSource) : List BitSource :=
  immediate ++ destination ++ number 7 0b0110111

/-- With an offset of 21 bits, of which the lowest is left out. -/
def jumpFormat (offset link : List BitSource) : List BitSource :=
  part offset 20 20 ++ part offset 10 1 ++ part offset 11 11 ++ part offset 19 12 ++ link ++
    number 7 0b1101111

/-! ### Operands of 16-bit encodings -/

def immediate6 : List BitSource :=
  copies 7 12 ++ span 6 2

def shiftAmount : List BitSource :=
  span 12 12 ++ span 6 2

def wordOffset : List BitSource :=
  number 5 0 ++ span 5 5 ++ span 12 10 ++ span 6 6 ++ number 2 0

def doubleOffset : List BitSource :=
  number 4 0 ++ span 6 5 ++ span 12 10 ++ number 3 0

def jumpOffset : List BitSource :=
  copies 10 12 ++ span 8 8 ++ span 10 9 ++ span 6 6 ++ span 7 7 ++ span 2 2 ++ span 11 11 ++
    span 5 3 ++ number 1 0

def branchOffset : List BitSource :=
  copies 5 12 ++ span 6 5 ++ span 2 2 ++ span 11 10 ++ span 4 3 ++ number 1 0

def full : List BitSource := span 11 7
def source : List BitSource := span 6 2
def high : List BitSource := shortRegister 7
def low : List BitSource := shortRegister 2

/-- The rules; the first one that matches applies. -/
def rules : List Expansion := [
  ⟨"C.ADDI4SPN", "ADDI", .common, 0xE003, 0x0000,
    immediateFormat (number 2 0 ++ span 10 7 ++ span 12 11 ++ span 5 5 ++ span 6 6 ++ number 2 0)
      (register 2) 0b000 low 0b0010011⟩,
  ⟨"C.LW", "LW", .common, 0xE003, 0x4000, immediateFormat wordOffset high 0b010 low 0b0000011⟩,
  ⟨"C.LD", "LD", .rv64, 0xE003, 0x6000, immediateFormat doubleOffset high 0b011 low 0b0000011⟩,
  ⟨"C.SW", "SW", .common, 0xE003, 0xC000, storeFormat wordOffset high low 0b010⟩,
  ⟨"C.SD", "SD", .rv64, 0xE003, 0xE000, storeFormat doubleOffset high low 0b011⟩,
  ⟨"C.ADDI", "ADDI", .common, 0xE003, 0x0001, immediateFormat immediate6 full 0b000 full 0b0010011⟩,
  ⟨"C.JAL", "JAL", .rv32, 0xE003, 0x2001, jumpFormat jumpOffset (register 1)⟩,
  ⟨"C.ADDIW", "ADDIW", .rv64, 0xE003, 0x2001, immediateFormat immediate6 full 0b000 full 0b0011011⟩,
  ⟨"C.LI", "ADDI", .common, 0xE003, 0x4001,
    immediateFormat immediate6 (register 0) 0b000 full 0b0010011⟩,
  -- Destination x2 makes it an adjustment of the stack pointer.
  ⟨"C.ADDI16SP", "ADDI", .common, 0xEF83, 0x6101,
    immediateFormat (copies 3 12 ++ span 4 3 ++ span 5 5 ++ span 2 2 ++ span 6 6 ++ number 4 0)
      (register 2) 0b000 (register 2) 0b0010011⟩,
  ⟨"C.LUI", "LUI", .common, 0xE003, 0x6001, upperFormat (copies 15 12 ++ span 6 2) full⟩,
  ⟨"C.SRLI", "SRLI", .rv32, 0xFC03, 0x8001,
    immediateFormat (number 7 0 ++ span 6 2) high 0b101 high 0b0010011⟩,
  ⟨"C.SRAI", "SRAI", .rv32, 0xFC03, 0x8401,
    immediateFormat (number 7 0b0100000 ++ span 6 2) high 0b101 high 0b0010011⟩,
  ⟨"C.SRLI", "SRLI", .rv64, 0xEC03, 0x8001,
    immediateFormat (number 6 0 ++ shiftAmount) high 0b101 high 0b0010011⟩,
  ⟨"C.SRAI", "SRAI", .rv64, 0xEC03, 0x8401,
    immediateFormat (number 6 0b010000 ++ shiftAmount) high 0b101 high 0b0010011⟩,
  ⟨"C.ANDI", "ANDI", .common, 0xEC03, 0x8801, immediateFormat immediate6 high 0b111 high 0b0010011⟩,
  ⟨"C.SUB", "SUB", .common, 0xFC63, 0x8C01, registerFormat 0b0100000 low high 0b000 high 0b0110011⟩,
  ⟨"C.XOR", "XOR", .common, 0xFC63, 0x8C21, registerFormat 0 low high 0b100 high 0b0110011⟩,
  ⟨"C.OR", "OR", .common, 0xFC63, 0x8C41, registerFormat 0 low high 0b110 high 0b0110011⟩,
  ⟨"C.AND", "AND", .common, 0xFC63, 0x8C61, registerFormat 0 low high 0b111 high 0b0110011⟩,
  ⟨"C.SUBW", "SUBW", .rv64, 0xFC63, 0x9C01, registerFormat 0b0100000 low high 0b000 high 0b0111011⟩,
  ⟨"C.ADDW", "ADDW", .rv64, 0xFC63, 0x9C21, registerFormat 0 low high 0b000 high 0b0111011⟩,
  ⟨"C.J", "JAL", .common, 0xE003, 0xA001, jumpFormat jumpOffset (register 0)⟩,
  ⟨"C.BEQZ", "BEQ", .common, 0xE003, 0xC001, branchFormat branchOffset high (register 0) 0b000⟩,
  ⟨"C.BNEZ", "BNE", .common, 0xE003, 0xE001, branchFormat branchOffset high (register 0) 0b001⟩,
  ⟨"C.SLLI", "SLLI", .rv32, 0xF003, 0x0002,
    immediateFormat (number 7 0 ++ span 6 2) full 0b001 full 0b0010011⟩,
  ⟨"C.SLLI", "SLLI", .rv64, 0xE003, 0x0002,
    immediateFormat (number 6 0 ++ shiftAmount) full 0b001 full 0b0010011⟩,
  ⟨"C.LWSP", "LW", .common, 0xE003, 0x4002,
    immediateFormat (number 4 0 ++ span 3 2 ++ span 12 12 ++ span 6 4 ++ number 2 0) (register 2)
      0b010 full 0b0000011⟩,
  ⟨"C.LDSP", "LD", .rv64, 0xE003, 0x6002,
    immediateFormat (number 3 0 ++ span 4 2 ++ span 12 12 ++ span 6 5 ++ number 3 0) (register 2)
      0b011 full 0b0000011⟩,
  -- Without a second register a move is a jump, and an addition a jump with a link or a break.
  ⟨"C.JR", "JALR", .common, 0xF07F, 0x8002,
    immediateFormat (number 12 0) full 0b000 (register 0) 0b1100111⟩,
  ⟨"C.MV", "ADD", .common, 0xF003, 0x8002, registerFormat 0 source (register 0) 0b000 full 0b0110011⟩,
  ⟨"C.EBREAK", "EBREAK", .common, 0xFFFF, 0x9002, number 32 0x00100073⟩,
  ⟨"C.JALR", "JALR", .common, 0xF07F, 0x9002,
    immediateFormat (number 12 0) full 0b000 (register 1) 0b1100111⟩,
  ⟨"C.ADD", "ADD", .common, 0xF003, 0x9002, registerFormat 0 source full 0b000 full 0b0110011⟩,
  ⟨"C.SWSP", "SW", .common, 0xE003, 0xC002,
    storeFormat (number 4 0 ++ span 8 7 ++ span 12 9 ++ number 2 0) (register 2) source 0b010⟩,
  ⟨"C.SDSP", "SD", .rv64, 0xE003, 0xE002,
    storeFormat (number 3 0 ++ span 9 7 ++ span 12 10 ++ number 3 0) (register 2) source 0b011⟩]

def applies (rule : Expansion) (xlen : Xlen) (raw : Encoding) : Bool :=
  rule.variant.includes xlen && raw &&& rule.mask == rule.pattern

/-- The rule by which a 16-bit encoding expands, if there is one. -/
def find? (xlen : Xlen) (raw : Encoding) : Option Expansion :=
  rules.find? fun rule => rule.applies xlen raw

/-- The 32-bit encoding that a 16-bit one stands for. -/
def expand (rule : Expansion) (raw : Encoding) : Encoding :=
  (BitVec.ofBoolListBE (rule.bits.map fun source => source.value raw)).setWidth 32

/-- The source of a bit of the 32-bit encoding in the 16-bit one. -/
def sourceOf (rule : Expansion) (position : Nat) : BitSource :=
  rule.bits.reverse.getD position (.constant false)

theorem getLsbD_expand {rule : Expansion} (hlength : rule.bits.length = 32) (raw : Encoding)
    (position : Nat) : (rule.expand raw).getLsbD position = (rule.sourceOf position).value raw := by
  rw [expand, BitVec.getLsbD_setWidth, BitVec.getLsbD_ofBoolListBE, sourceOf, List.length_map,
    hlength]
  by_cases hposition : position < 32
  · have hget : rule.bits[31 - position]? = some (rule.bits.get ⟨31 - position, by omega⟩) :=
      List.getElem?_eq_getElem (by omega)
    simp [hposition, hlength, hget]
  · have hbeyond : rule.bits.reverse.length ≤ position := by
      rw [List.length_reverse]
      omega
    simp [hposition, List.getD_eq_getElem?_getD, List.getElem?_eq_none hbeyond, BitSource.value]

/-! ### The rule of a declaration -/

/-- No encoding has the bits that the rule and the declaration fix. -/
def Clashes (rule : Expansion) (declaration : Declaration) : Prop :=
  declaration.pattern &&& rule.mask ≠ rule.pattern &&& declaration.mask

instance (rule : Expansion) (declaration : Declaration) : Decidable (rule.Clashes declaration) :=
  inferInstanceAs (Decidable (_ ≠ _))

/-- Where the rule applies, a declaration accepts that is more specific than the given one. -/
def Yields (rule : Expansion) (xlen : Xlen) (declaration : Declaration) : Prop :=
  ∃ other ∈ Catalogue.declarations, rule.pattern &&& other.mask = other.pattern ∧
    rule.mask &&& other.mask = other.mask ∧ other.variant.includes xlen = true ∧
    declaration.specificity < other.specificity

instance (rule : Expansion) (xlen : Xlen) (declaration : Declaration) :
    Decidable (rule.Yields xlen declaration) :=
  inferInstanceAs (Decidable (∃ other ∈ Catalogue.declarations, _))

/-- The rule applies to all that the declaration accepts. -/
def Covers (rule : Expansion) (declaration : Declaration) : Prop :=
  declaration.pattern &&& rule.mask = rule.pattern ∧ declaration.mask &&& rule.mask = rule.mask

instance (rule : Expansion) (declaration : Declaration) : Decidable (rule.Covers declaration) :=
  inferInstanceAs (Decidable (_ ∧ _))

/-- The first of some rules that can apply to what the decoder finds to be of a declaration. -/
def choose? (xlen : Xlen) (declaration : Declaration) : List Expansion → Option Expansion
  | [] => none
  | rule :: rest =>
      if rule.variant.includes xlen = false ∨ rule.Clashes declaration ∨
          rule.Yields xlen declaration then
        choose? xlen declaration rest
      else if rule.Covers declaration then some rule
      else none

variable {rule : Expansion} {xlen : Xlen} {raw : Encoding} {declaration : Declaration}

theorem applies_of_covers (hcovers : rule.Covers declaration)
    (haccepts : declaration.accepts raw = true) : raw &&& rule.mask = rule.pattern := by
  obtain ⟨hpattern, hmask⟩ := hcovers
  rw [Declaration.accepts, beq_iff_eq] at haccepts
  calc
    raw &&& rule.mask = raw &&& declaration.mask &&& rule.mask := by rw [BitVec.and_assoc, hmask]
    _ = declaration.pattern &&& rule.mask := by rw [haccepts]
    _ = rule.pattern := hpattern

/-- What has the fixed bits of two patterns shows that they agree where both fix a bit. -/
theorem pattern_and_mask_eq {mask pattern otherMask otherPattern : Encoding}
    (hpattern : raw &&& mask = pattern) (hother : raw &&& otherMask = otherPattern) :
    pattern &&& otherMask = otherPattern &&& mask :=
  calc
    pattern &&& otherMask = raw &&& mask &&& otherMask := by rw [hpattern]
    _ = raw &&& otherMask &&& mask := by
      rw [BitVec.and_assoc, BitVec.and_assoc, BitVec.and_comm mask]
    _ = otherPattern &&& mask := by rw [hother]

theorem not_yields (happlies : raw &&& rule.mask = rule.pattern)
    (hbest : ∀ other ∈ Catalogue.declarations, other.variant.includes xlen = true →
      other.accepts raw = true → other.specificity ≤ declaration.specificity) :
    ¬rule.Yields xlen declaration := by
  rintro ⟨other, hmem, hpattern, hmask, hwidth, hless⟩
  have haccepts : other.accepts raw = true := by
    rw [Declaration.accepts, beq_iff_eq]
    calc
      raw &&& other.mask = raw &&& rule.mask &&& other.mask := by rw [BitVec.and_assoc, hmask]
      _ = rule.pattern &&& other.mask := by rw [happlies]
      _ = other.pattern := hpattern
  exact absurd hless (Nat.not_lt_of_le (hbest other hmem hwidth haccepts))

/-- The chosen rule is the one by which every encoding of the declaration expands. -/
theorem find?_of_choose? {candidates : List Expansion}
    (hchoose : choose? xlen declaration candidates = some rule)
    (haccepts : declaration.accepts raw = true)
    (hbest : ∀ other ∈ Catalogue.declarations, other.variant.includes xlen = true →
      other.accepts raw = true → other.specificity ≤ declaration.specificity) :
    (candidates.find? fun rule => rule.applies xlen raw) = some rule := by
  induction candidates with
  | nil => cases hchoose
  | cons first rest ih =>
      rw [choose?] at hchoose
      split at hchoose
      · rename_i hpassed
        have happlies : first.applies xlen raw = false := by
          rw [Bool.eq_false_iff]
          intro happlies
          rw [applies, Bool.and_eq_true, beq_iff_eq] at happlies
          rcases hpassed with hwidth | hclashes | hyields
          · rw [happlies.1] at hwidth
            cases hwidth
          · exact hclashes (pattern_and_mask_eq (eq_of_beq haccepts) happlies.2)
          · exact not_yields happlies.2 hbest hyields
        rw [List.find?_cons, happlies]
        exact ih hchoose
      · rename_i hkept
        split at hchoose
        · rename_i hcovers
          have hwidth : first.variant.includes xlen = true :=
            Bool.eq_true_of_not_eq_false fun hwidth => hkept (.inl hwidth)
          have happlies : first.applies xlen raw = true := by
            rw [applies, hwidth, applies_of_covers hcovers haccepts, Bool.true_and, beq_self_eq_true]
          rw [List.find?_cons, happlies]
          exact hchoose
        · cases hchoose

/-! ### The declaration of an expansion -/

/-- A source in the 32-bit encoding, traced back to the 16-bit one. -/
def trace (rule : Expansion) : BitSource → BitSource
  | .constant value => .constant value
  | .bit index => rule.sourceOf index

theorem value_trace (hlength : rule.bits.length = 32) (source : BitSource) :
    (rule.trace source).value raw = source.value (rule.expand raw) := by
  cases source with
  | constant value => rfl
  | bit index => exact (getLsbD_expand hlength raw index).symm

/-- Every bit of one field comes from the same place as that of the other one. -/
def SameField (rule : Expansion) (short long : OperandField) : Prop :=
  ∀ position ∈ List.range 64, ∃ source ∈ long.source? position,
    short.source? position = some (rule.trace source)

instance (rule : Expansion) (short long : OperandField) : Decidable (rule.SameField short long) :=
  inferInstanceAs (Decidable (∀ position ∈ List.range 64, _))

theorem extract_expand {short long : OperandField} (hlength : rule.bits.length = 32)
    (hsame : rule.SameField short long) :
    long.extract (rule.expand raw) = short.extract raw := by
  apply BitVec.eq_of_getLsbD_eq
  intro position hposition
  obtain ⟨source, hlong, hshort⟩ := hsame position (List.mem_range.mpr hposition)
  rw [OperandField.getLsbD_extract hposition hlong, OperandField.getLsbD_extract hposition hshort,
    value_trace hlength]

/-- The operands of the two declarations agree, one by one. -/
def SameFields (rule : Expansion) : List OperandField → List OperandField → Prop
  | [], [] => True
  | short :: shorts, long :: longs => rule.SameField short long ∧ rule.SameFields shorts longs
  | _, _ => False

instance decidableSameFields (rule : Expansion) :
    (shorts longs : List OperandField) → Decidable (rule.SameFields shorts longs)
  | [], [] => inferInstanceAs (Decidable True)
  | short :: shorts, long :: longs =>
      have := rule.decidableSameFields shorts longs
      inferInstanceAs (Decidable (rule.SameField short long ∧ rule.SameFields shorts longs))
  | [], _ :: _ => inferInstanceAs (Decidable False)
  | _ :: _, [] => inferInstanceAs (Decidable False)

theorem map_extract_expand (hlength : rule.bits.length = 32) {shorts longs : List OperandField}
    (hsame : rule.SameFields shorts longs) :
    longs.map (fun field => field.extract (rule.expand raw)) =
      shorts.map fun field => field.extract raw := by
  induction shorts generalizing longs with
  | nil =>
      cases longs with
      | nil => rfl
      | cons long longs => cases hsame
  | cons short shorts ih =>
      cases longs with
      | nil => cases hsame
      | cons long longs =>
          obtain ⟨hfirst, hrest⟩ := hsame
          rw [List.map_cons, List.map_cons, extract_expand hlength hfirst, ih hrest]

/-- What the rule makes is an encoding of the declaration, and of no other one for the width. -/
def Encodes (rule : Expansion) (xlen : Xlen) (long : Declaration) : Prop :=
  long.mnemonic = rule.long ∧ rule.bits.length = 32 ∧ long.variant.includes xlen = true ∧
    long.kind = .regular ∧ EncodedLength.of long.pattern = .full ∧
    (∀ position ∈ List.range 32, long.mask.getLsbD position = true →
      rule.sourceOf position = .constant (long.pattern.getLsbD position)) ∧
    ∀ other ∈ Catalogue.declarations, other.variant.includes xlen = true →
      long.pattern &&& other.mask ≠ other.pattern &&& long.mask ∨ other = long

instance (rule : Expansion) (xlen : Xlen) (long : Declaration) :
    Decidable (rule.Encodes xlen long) :=
  inferInstanceAs (Decidable (_ ∧ _))

/-- The row of the 16-bit declaration and that of the 32-bit one are carried out alike. -/
def Relates (rule : Expansion) (xlen : Xlen) (short long : Declaration) : Prop :=
  short.mnemonic = rule.short ∧ rule.Encodes xlen long ∧
    rule.SameFields short.arguments long.arguments ∧
    (Row.of? Catalogue.handlers short).map Row.binding =
      (Row.of? Catalogue.handlers long).map Row.binding

instance (rule : Expansion) (xlen : Xlen) (short long : Declaration) :
    Decidable (rule.Relates xlen short long) :=
  inferInstanceAs (Decidable (_ ∧ _))

end Expansion

namespace Catalogue

/-- Every 16-bit instruction has a rule, and what it expands to is declared. -/
theorem exists_relates : ∀ xlen ∈ [Xlen.x32, .x64], ∀ short ∈ declarations,
    EncodedLength.of short.pattern = .compressed → short.kind = .regular →
      short.variant.includes xlen = true →
        ∃ rule ∈ Expansion.choose? xlen short Expansion.rules,
          ∃ long ∈ declarations, rule.Relates xlen short long := by
  decide +kernel

end Catalogue

namespace Expansion

variable {rule : Expansion} {xlen : Xlen} {raw : Encoding}

theorem accepts_expand {long : Declaration} (hsound : long.defect? = none)
    (hencodes : rule.Encodes xlen long) : long.accepts (rule.expand raw) = true := by
  obtain ⟨-, hlength, -, -, -, hfixed, -⟩ := hencodes
  refine (Declaration.accepts_iff (Declaration.patternInMask_of_defect?_eq_none hsound)).mpr ?_
  intro position hmask
  have hposition : position ∈ List.range 32 := List.mem_range.mpr (BitVec.lt_of_getLsbD hmask)
  rw [getLsbD_expand hlength, hfixed position hposition hmask]
  rfl

/-- What the decoder finds for a 16-bit encoding decides what it finds for the expansion. -/
theorem exists_decide_expand {entry : Entry} (hlength : EncodedLength.of raw = .compressed)
    (hdecide : (InstructionSet.standard.decoder xlen).decide raw = .instruction entry) :
    ∃ rule long id, find? xlen raw = some rule ∧ rule.Relates xlen entry.declaration long ∧
      (InstructionSet.standard.decoder xlen).decide (rule.expand raw) = .instruction ⟨id, long⟩ ∧
      EncodedLength.of (rule.expand raw) = .full := by
  have hbuild := InstructionSet.decoder_of_build InstructionSet.build_standard xlen
  obtain ⟨-, hmem, hwidth, hkind, haccepts⟩ := Decoder.decide_eq_instruction hbuild hdecide
  have hsound := Decoder.defect?_eq_none_of_build hbuild hmem hwidth
  have hpattern : EncodedLength.of entry.declaration.pattern = .compressed := by
    rw [← Declaration.length_of_accepts hsound haccepts, hlength]
  have hxlen : xlen ∈ [Xlen.x32, .x64] := by cases xlen <;> simp
  obtain ⟨rule, hchoose, long, hlong, hrelates⟩ :=
    Catalogue.exists_relates xlen hxlen entry.declaration hmem hpattern hkind hwidth
  have hencodes : rule.Encodes xlen long := hrelates.2.1
  obtain ⟨-, -, hlongWidth, hlongKind, hfull, -, hunique⟩ := hrelates.2.1
  have hlongSound := Decoder.defect?_eq_none_of_build hbuild hlong hlongWidth
  have hlongAccepts : long.accepts (rule.expand raw) = true := accepts_expand hlongSound hencodes
  obtain ⟨id, hid⟩ := Decoder.decide_eq_instruction_of_unique hbuild hlong hlongWidth hlongKind
    hlongAccepts fun other hother hotherWidth hotherAccepts =>
      (hunique other hother hotherWidth).resolve_left
        fun hclash => hclash
          (pattern_and_mask_eq (eq_of_beq hlongAccepts) (eq_of_beq hotherAccepts))
  refine ⟨rule, long, id, ?_, hrelates, hid, ?_⟩
  · exact find?_of_choose? hchoose haccepts fun other hother hotherWidth hotherAccepts =>
      Decoder.specificity_le_of_decide hbuild hdecide hother hotherWidth hotherAccepts
  · rw [Declaration.length_of_accepts hlongSound hlongAccepts, hfull]

end Expansion

end RiscvMachine
