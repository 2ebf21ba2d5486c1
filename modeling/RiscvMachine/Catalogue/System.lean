import RiscvMachine.Catalogue.Integer
/-!
Instructions on control and status registers, and the privileged instructions.
-/

namespace RiscvMachine.Catalogue

open Layout OperandField

namespace ControlAccess

/-- An instruction whose source is a register or a five-bit immediate. -/
def form (mnemonic : String) (function : Encoding) (source : OperandField) : Declaration :=
  (Declaration.define mnemonic immediateMask (immediatePattern function Opcode.system)
    [rd, source, controlAddress]).inExtension .controlAccess

def declarations : List Declaration := [
  form "CSRRW" 0b001 rs1,
  form "CSRRS" 0b010 rs1,
  form "CSRRC" 0b011 rs1,
  form "CSRRWI" 0b101 controlImmediate,
  form "CSRRSI" 0b110 controlImmediate,
  form "CSRRCI" 0b111 controlImmediate]

def handlers : List Handler := [
  .define "CSRRW" (.csrSwap .register),
  .define "CSRRS" (.csrSet .register),
  .define "CSRRC" (.csrClear .register),
  .define "CSRRWI" (.csrSwap .immediate),
  .define "CSRRSI" (.csrSet .immediate),
  .define "CSRRCI" (.csrClear .immediate)]

end ControlAccess

namespace Privileged

def declarations : List Declaration := [
  (Declaration.define "MRET" exactMask 0x30200073 []).inExtension .privileged,
  (Declaration.define "SRET" exactMask 0x10200073 []).inExtension .privileged,
  (Declaration.define "WFI" exactMask 0x10500073 []).inExtension .privileged,
  (Declaration.define "SFENCE.VMA" 0xFE007FFF 0x12000073 [rs1, rs2]).inExtension .privileged]

def handlers : List Handler := [
  .define "MRET" .machineReturn,
  .define "SRET" .supervisorReturn,
  .define "WFI" .waitForInterrupt,
  .define "SFENCE.VMA" .translationFence]

end Privileged

end RiscvMachine.Catalogue
