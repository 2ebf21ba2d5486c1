import RiscvMachine.Main
import RiscvMachine.Proofs.ProgramCounter
import RiscvMachine.Proofs.Containment
import RiscvMachine.Proofs.Transparency
import RiscvMachine.Proofs.Canonical
import RiscvMachine.Proofs.Expansion
import RiscvMachine.Proofs.CompressedExecution
import RiscvMachine.Proofs.Rv32
import RiscvMachine.Proofs.Rv32Simulation
import RiscvMachine.Proofs.Ambiguity
import RiscvMachine.Proofs.Regions
import RiscvMachine.Proofs.Runs
import RiscvMachine.Proofs.Polling
import RiscvMachine.Proofs.Noninterference
import RiscvMachine.Proofs.Batches
import RiscvMachine.Proofs.Binding
import RiscvMachine.Proofs.ByteStore
import RiscvMachine.Proofs.ControlRegisters
import RiscvMachine.Proofs.Multiplication
import RiscvMachine.Proofs.DeclarationOrder
import RiscvMachine.Proofs.TreeShape
import RiscvMachine.Proofs.LowForms
import RiscvMachine.Proofs.TrapReturn
import RiscvMachine.Proofs.FetchHalves
import RiscvMachine.Proofs.CachedTranslation
import RiscvMachine.Proofs.ControlInstructions
import RiscvMachine.Proofs.Footprint
import RiscvMachine.Proofs.AlignedFetch
import RiscvMachine.Proofs.Breakpoints
import RiscvMachine.Proofs.ImageLoading
import RiscvMachine.Proofs.Restart
import RiscvMachine.Proofs.Overlap
import RiscvMachine.Proofs.LowHalf
import RiscvMachine.Proofs.Accounting
import RiscvMachine.Proofs.RegisterWrites
