import RiscvMachine.Xlen
/-!
The configuration of a simulation.
-/

namespace RiscvMachine

/-- An image file: its path, and its bytes or the reason why it cannot be read. -/
structure ImageFile where
  path : String
  content : Except String (List Byte)

structure SimulationConfig where
  memoryBase : Word
  memorySize : Nat
  image : Option ImageFile
  /-- Where the image goes; the start of memory if it is not set. -/
  loadAddress? : Option Word
  /-- Where execution starts; the start of the image if it is not set. -/
  entry? : Option Word
  xlen : Xlen
  /-- The most instructions of one run; zero stands for the default. -/
  maxSteps : Nat
  /-- The mailbox in which a program reports the verdict of a test. -/
  toHost : Option Word
  /-- The mailbox in which a report is acknowledged. -/
  fromHost : Option Word

namespace SimulationConfig

/-- The most instructions of a run that sets no limit of its own. -/
def defaultSteps : Nat := 1000000

def default : SimulationConfig where
  memoryBase := 0
  memorySize := 0x10000
  image := none
  loadAddress? := none
  entry? := none
  xlen := .x64
  maxSteps := 0
  toHost := none
  fromHost := none

def withMemory (config : SimulationConfig) (base : Word) (size : Nat) : SimulationConfig :=
  { config with memoryBase := base, memorySize := size }

def withImage (config : SimulationConfig) (image : ImageFile) (address : Word) : SimulationConfig :=
  { config with image := some image, loadAddress? := some address }

def loadAddress (config : SimulationConfig) : Word :=
  config.loadAddress?.getD config.memoryBase

def entry (config : SimulationConfig) : Word :=
  config.entry?.getD config.loadAddress

def stepLimit (config : SimulationConfig) : Nat :=
  if config.maxSteps = 0 then defaultSteps else config.maxSteps

def mailboxes (config : SimulationConfig) : List Word :=
  config.toHost.toList ++ config.fromHost.toList

end SimulationConfig

end RiscvMachine
