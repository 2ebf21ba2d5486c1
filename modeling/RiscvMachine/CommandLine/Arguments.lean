import RiscvMachine.Simulation.Config
import RiscvMachine.Text.Hexadecimal
/-!
Command line arguments: at most one image, and options of the form `--name value` or
`--name=value`, each at most once.
-/

namespace RiscvMachine.CommandLine

structure Settings where
  image : Option String
  xlen : Option Xlen
  memoryBase : Option Word
  memorySize : Option Nat
  loadAddress : Option Word
  entry : Option Word
  maxSteps : Option Nat
  toHost : Option Word
  dump : Bool

def Settings.none : Settings :=
  ⟨.none, .none, .none, .none, .none, .none, .none, .none, false⟩

inductive Request where
  | run (settings : Settings)
  | version
  | help
  | invalid

/-- The number below `wordCount` that digits of a base spell, after an optional plus sign. -/
def numberOf? (base : Nat) (text : List Char) : Option Nat :=
  let digits := match text with
    | '+' :: rest => rest
    | characters => characters
  if digits.isEmpty then .none
  else do
    let values ← digits.mapM fun digit =>
      (hexDigit? digit).filter fun value => value < base
    let number := values.foldl (fun number value => base * number + value) 0
    if number < wordCount then .some number else .none

/-- A decimal number, or a hexadecimal one after `0x`; underlines do not count. -/
def number? (text : String) : Option Nat :=
  match text.toList.filter fun character => character != '_' with
  | '0' :: 'x' :: digits | '0' :: 'X' :: digits => numberOf? 16 digits
  | digits => numberOf? 10 digits

def word? (text : String) : Option Word :=
  (number? text).map fun number => BitVec.ofNat 64 number

def xlen? (text : String) : Option Xlen :=
  if text = "32" then .some .x32 else if text = "64" then .some .x64 else .none

/-- The value for a setting that has none yet. -/
def once {α : Type} (old new : Option α) : Option (Option α) :=
  match old, new with
  | .none, .some value => .some (.some value)
  | .none, .none | .some _, _ => .none

/-- The settings with one more option, which must be known, new and well-formed. -/
def Settings.set (settings : Settings) (name value : String) : Option Settings :=
  match name with
  | "xlen" => (once settings.xlen (xlen? value)).map fun xlen => { settings with xlen := xlen }
  | "mem-base" =>
      (once settings.memoryBase (word? value)).map fun base => { settings with memoryBase := base }
  | "mem-size" =>
      (once settings.memorySize (number? value)).map fun size => { settings with memorySize := size }
  | "load-addr" =>
      (once settings.loadAddress (word? value)).map fun address =>
        { settings with loadAddress := address }
  | "entry" => (once settings.entry (word? value)).map fun entry => { settings with entry := entry }
  | "max-steps" =>
      (once settings.maxSteps (numberOf? 10 value.toList)).map fun steps =>
        { settings with maxSteps := steps }
  | "tohost" =>
      (once settings.toHost (word? value)).map fun mailbox => { settings with toHost := mailbox }
  | _ => .none

/-- The settings with an image, of which there is one at most. -/
def Settings.setImage (settings : Settings) (path : String) : Option Settings :=
  if path.isEmpty ∨ settings.image.isSome then .none
  else .some { settings with image := .some path }

/-- The arguments after `--`, which are images whatever they look like. -/
def parseImages (settings : Settings) : List String → Request
  | [] => .run settings
  | path :: rest =>
      match settings.setImage path with
      | .none => .invalid
      | .some settings => parseImages settings rest

/-- The arguments from left to right; the first one that is wrong, or that asks for the version or
for help, decides. -/
def parse (settings : Settings) : List String → Request
  | [] => .run settings
  | argument :: rest =>
      match argument.toList with
      | ['-', '-'] => parseImages settings rest
      | '-' :: '-' :: option =>
          let name := String.ofList (option.takeWhile fun character => character != '=')
          match option.dropWhile fun character => character != '=' with
          | _ :: value =>
              match settings.set name (String.ofList value) with
              | .none => .invalid
              | .some settings => parse settings rest
          | [] =>
              if name = "version" then .version
              else if name = "help" then .help
              else if name = "dump" then
                if settings.dump then .invalid else parse { settings with dump := true } rest
              else
                match rest with
                | [] => .invalid
                | value :: rest =>
                    if value.startsWith "-" then .invalid
                    else
                      match settings.set name value with
                      | .none => .invalid
                      | .some settings => parse settings rest
      | '-' :: 'V' :: _ => .version
      | '-' :: 'h' :: _ => .help
      | '-' :: _ :: _ => .invalid
      | _ =>
          match settings.setImage argument with
          | .none => .invalid
          | .some settings => parse settings rest

def Settings.defaultBase : Word := 0x80000000

def Settings.defaultSize : Nat := 0x100000

def Settings.config (settings : Settings) (image : Option ImageFile) : SimulationConfig :=
  let base := settings.memoryBase.getD defaultBase
  let config := SimulationConfig.default.withMemory base (settings.memorySize.getD defaultSize)
  let config := { config with
    xlen := settings.xlen.getD .x64
    maxSteps := settings.maxSteps.getD 1000000
    entry? := settings.entry
    toHost := settings.toHost }
  match image with
  | .none => config
  | .some image => config.withImage image (settings.loadAddress.getD base)

end RiscvMachine.CommandLine
