import RiscvMachine.CommandLine.Arguments
import RiscvMachine.Simulation.Environment
/-!
What the command line prints: the run of an image, or of a built-in demonstration without one.
-/

namespace RiscvMachine.CommandLine

structure Report where
  exitCode : Nat
  output : String
  errors : String

def versionText : String :=
  "r5emu_cli 0.1.0\n"

def helpText : String :=
  "RISC-V 单 hart 指令集仿真器

Usage: r5emu_cli [OPTIONS] [IMAGE]

Arguments:
  [IMAGE]  原始二进制镜像；省略时运行内置演示程序

Options:
      --xlen <XLEN>            寄存器宽度：32 或 64 [default: 64]
      --mem-base <MEM_BASE>    RAM 起始地址 [default: 0x80000000]
      --mem-size <MEM_SIZE>    RAM 大小（字节） [default: 0x100000]
      --load-addr <LOAD_ADDR>  镜像加载地址，默认为 RAM 起始地址
      --entry <ENTRY>          入口 PC，默认为镜像加载地址
      --max-steps <MAX_STEPS>  最大执行指令数 [default: 1000000]
      --tohost <TOHOST>        tohost 地址，设置后按 ISA 测试判定结果
      --dump                   结束后打印寄存器
  -h, --help                   Print help
  -V, --version                Print version
"

def usageText : String :=
  "error: invalid arguments

Usage: r5emu_cli [OPTIONS] [IMAGE]

For more information, try '--help'.
"

def stopText : Option StopReason → String
  | none => "None"
  | some reason => "Some(" ++ reason.summary ++ ")"

/-- Runs an image: as a test if a mailbox is set, and to its stop otherwise. -/
def runImage (settings : Settings) (image : ImageFile) : Report :=
  match Simulation.start (settings.config (some image)) with
  | .error error => ⟨1, "", "error: " ++ error.message ++ "\n"⟩
  | .ok simulation =>
      let (exitCode, text, simulation) :=
        if settings.toHost.isSome then
          let ((verdict, executed), simulation) := simulation.runTest simulation.config.maxSteps
          (if verdict = .pass then 0 else 1,
            verdict.summary ++ " after " ++ toString executed ++ " instructions\n", simulation)
        else
          let (outcome, simulation) := simulation.runToLimit
          (0, "executed " ++ toString outcome.executed ++ " instructions, stop: " ++
            stopText outcome.stop ++ ", pc=" ++ hex simulation.hart.pc.toNat ++ "\n", simulation)
      ⟨exitCode, text ++ if settings.dump then simulation.dump else "", ""⟩

/-- A program that adds the numbers from 1 to 10 in x1 and then waits. -/
def demonstration : List (BitVec 32) := [
  0x00000093, -- addi x1, x0, 0
  0x00100113, -- addi x2, x0, 1
  0x00B00193, -- addi x3, x0, 11
  0x002080B3, -- add x1, x1, x2
  0x00110113, -- addi x2, x2, 1
  0xFE314CE3, -- blt x2, x3, -8
  0x10500073] -- wfi

def finalStateText : Option StopReason → String
  | some .waitForInterrupt => "等待中断 (WFI)"
  | some (.breakpoint _) => "断点"
  | none => "达到指令上限"

/-- Runs the demonstration, which succeeds if the sum is 55. -/
def runDemonstration (settings : Settings) : Report :=
  let config := settings.config none
  let title := "=== r5emu: RISC-V " ++ config.xlen.name ++ " 演示 ===\n\n"
  let bytes := demonstration.flatMap fun instruction => bytesOf 4 instruction.toNat
  match (Simulation.start config).bind fun simulation => simulation.loadImage config.memoryBase bytes with
  | .error error => ⟨1, title, "error: " ++ error.message ++ "\n"⟩
  | .ok simulation =>
      let (outcome, simulation) := simulation.runToLimit
      let sum := simulation.hart.readRegister 1
      let text := title ++ "执行指令数: " ++ toString outcome.executed ++ "\n最终状态: " ++
        finalStateText outcome.stop ++ "\n\n" ++ simulation.dump ++ "计算结果: x1 = " ++
        toString sum.toNat ++ " (预期 55)\n"
      ⟨if sum = 55 then 0 else 1, text, ""⟩

/-- One session, with a way to look up the content of an image file. -/
def session (read : String → Except String (List Byte)) (settings : Settings) : Report :=
  match settings.image with
  | none => runDemonstration settings
  | some path => runImage settings ⟨path, read path⟩

def respond (read : String → Except String (List Byte)) (arguments : List String) : Report :=
  match parse .none arguments with
  | .run settings => session read settings
  | .version => ⟨0, versionText, ""⟩
  | .help => ⟨0, helpText, ""⟩
  | .invalid => ⟨2, "", usageText⟩

end RiscvMachine.CommandLine
