import RiscvMachine.Hart.State
/-!
Accesses of a hart to memory, all through address translation.
-/

namespace RiscvMachine.Hart

/-- The physical address of a virtual one; the translation may remember the page. -/
def translate (hart : Hart) (address : Word) (access : Access) : Except TrapCause Word × Hart :=
  let (result, translation) := hart.translation.translate hart.memory address access
  (result.mapError .ofTranslation, { hart with translation := translation })

def fetchHalf (hart : Hart) (physical : Word) : Except TrapCause Encoding :=
  match hart.memory.load physical .half with
  | .ok value => .ok (value.setWidth 32)
  | .error error => .error (.ofMemory error .fetch)

/-- The second half of an instruction at `pc`: on the page of the first half, or at the start of
the next page, which has a translation of its own. -/
def fetchHigh (hart : Hart) (pc physical : Word) : Except TrapCause Encoding × Hart :=
  let next := hart.xlen.address (pc + 2)
  if pageOffset next = 0 then
    match hart.translate next .fetch with
    | (.error cause, hart) => (.error cause, hart)
    | (.ok physical, hart) => (hart.fetchHalf physical, hart)
  else (hart.fetchHalf (physical + 2), hart)

/-- The instruction at `pc`: one half-word, or two if the first one says so. -/
def fetch (hart : Hart) (pc : Word) : Except TrapCause Encoding × Hart :=
  match hart.translate pc .fetch with
  | (.error cause, hart) => (.error cause, hart)
  | (.ok physical, hart) =>
      match hart.fetchHalf physical with
      | .error cause => (.error cause, hart)
      | .ok low =>
          match EncodedLength.of low with
          | .compressed => (.ok low, hart)
          | .full =>
              match hart.fetchHigh pc physical with
              | (.error cause, hart) => (.error cause, hart)
              | (.ok high, hart) => (.ok (low ||| (high <<< 16)), hart)

def load (hart : Hart) (address : Word) (size : AccessSize) : Except Exception Word × Hart :=
  let address := hart.xlen.address address
  match hart.translate address .load with
  | (.error cause, hart) => (.error ⟨cause, address⟩, hart)
  | (.ok physical, hart) =>
      match hart.memory.load physical size with
      | .error error => (.error ⟨.ofMemory error .load, address⟩, hart)
      | .ok value => (.ok value, hart)

/-- The hart with the lowest bytes of `value` at a virtual address. -/
def store (hart : Hart) (address value : Word) (size : AccessSize) : Except Exception Unit × Hart :=
  let address := hart.xlen.address address
  match hart.translate address .store with
  | (.error cause, hart) => (.error ⟨cause, address⟩, hart)
  | (.ok physical, hart) =>
      match hart.memory.store physical value size with
      | .error error => (.error ⟨.ofMemory error .store, address⟩, hart)
      | .ok memory => (.ok (), { hart with memory := memory })

end RiscvMachine.Hart
