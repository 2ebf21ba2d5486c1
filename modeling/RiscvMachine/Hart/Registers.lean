import RiscvMachine.Word
/-!
Register files. Register 0 reads as zero and ignores writes; an index beyond the file wraps around.
-/

namespace RiscvMachine

structure RegisterFile (count : Nat) where
  values : Vector Word count
  count_pos : 0 < count := by decide

namespace RegisterFile

variable {count : Nat}

def zero (count : Nat) (count_pos : 0 < count := by decide) : RegisterFile count :=
  ⟨Vector.replicate count 0, count_pos⟩

def place (file : RegisterFile count) (index : Nat) : Fin count :=
  ⟨index % count, Nat.mod_lt _ file.count_pos⟩

def read (file : RegisterFile count) (index : Nat) : Word :=
  if index = 0 then 0 else file.values[file.place index]

def write (file : RegisterFile count) (index : Nat) (value : Word) : RegisterFile count :=
  if index = 0 then file
  else { file with values := file.values.set (file.place index) value }

/-- What the places hold, whatever the register at a place reads as. -/
def toList (file : RegisterFile count) : List Word :=
  file.values.toList

@[simp]
theorem read_zero (file : RegisterFile count) : file.read 0 = 0 := rfl

@[simp]
theorem write_zero (file : RegisterFile count) (value : Word) : file.write 0 value = file := rfl

@[simp]
theorem zero_read (count_pos : 0 < count) (index : Nat) : (zero count count_pos).read index = 0 := by
  simp [read, zero]

/-- A register reads as the last value that was written to its place. -/
theorem read_write (file : RegisterFile count) (index other : Nat) (value : Word) :
    (file.write index value).read other =
      if index ≠ 0 ∧ other ≠ 0 ∧ index % count = other % count then value else file.read other := by
  by_cases hindex : index = 0
  · simp [write, hindex]
  by_cases hother : other = 0
  · simp [read, hother]
  by_cases hplace : index % count = other % count
  · simp [read, write, place, hindex, hother, hplace]
  · simp [read, write, place, hindex, hother, hplace]

end RegisterFile

end RiscvMachine
