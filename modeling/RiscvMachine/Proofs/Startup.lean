import RiscvMachine.Proofs.ImageLoading
import RiscvMachine.Proofs.Polling
import RiscvMachine.Proofs.SameBytes
/-!
What a start puts into memory: the image, and zero in each mailbox that is a word of memory. Whether
an image can be loaded depends on the place of memory alone, and not on what memory holds.
-/

namespace RiscvMachine

namespace MemoryMap

variable {memory after : MemoryMap} {base address other value : Word} {size : Nat}
  {access : AccessSize} {bytes : List Byte}

/-! ### Memories of one region -/

/-- The memory is one region at this place. -/
def IsRegion (memory : MemoryMap) (base : Word) (size : Nat) : Prop :=
  ∃ written, memory = ⟨[⟨base, size, written⟩]⟩

theorem isRegion_withRegion (base : Word) (size : Nat) : (withRegion base size).IsRegion base size :=
  ⟨∅, rfl⟩

namespace IsRegion

theorem contains_iff (hregion : memory.IsRegion base size) (address : Word) :
    memory.contains address = true ↔
      base.toNat ≤ address.toNat ∧ address.toNat < base.toNat + size := by
  obtain ⟨written, rfl⟩ := hregion
  rw [contains, List.any_cons, List.any_nil, Bool.or_false, Region.contains_iff]

theorem separate (hregion : memory.IsRegion base size) : memory.Separate := by
  obtain ⟨written, rfl⟩ := hregion
  exact List.pairwise_singleton _ _

theorem disjoint (hregion : memory.IsRegion base size) : memory.Disjoint := by
  obtain ⟨written, rfl⟩ := hregion
  exact List.pairwise_singleton _ _

theorem overwrites (hregion : memory.IsRegion base size)
    (hover : Overwrites address bytes memory after) : after.IsRegion base size := by
  obtain ⟨written, hmemory⟩ := hregion
  obtain @⟨earlier, later, region, -, -⟩ := hover
  obtain ⟨rfl, rfl, rfl⟩ : earlier = [] ∧ region = ⟨base, size, written⟩ ∧ later = [] := by
    cases earlier <;> simp_all
  generalize hupdated : Region.overwrite _ _ bytes = updated
  have hbase : updated.base = base := by rw [← hupdated, Region.base_overwrite]
  have hsize : updated.size = size := by rw [← hupdated, Region.size_overwrite]
  obtain ⟨base, size, written⟩ := updated
  cases hbase
  cases hsize
  exact ⟨written, rfl⟩

theorem stored (hregion : memory.IsRegion base size) (hstored : memory.Stored after) :
    after.IsRegion base size := by
  induction hstored with
  | refl => exact hregion
  | tail _ hstore ih =>
      obtain ⟨address, value, access, hstore⟩ := hstore
      exact ih.overwrites (overwrites_of_store hstore)

theorem exists_writeBytes_iff (hregion : memory.IsRegion base size) :
    (∃ after, memory.writeBytes address bytes = .ok after) ↔
      (base.toNat ≤ address.toNat ∧ address.toNat < base.toNat + size) ∧
        address.toNat + bytes.length ≤ base.toNat + size := by
  have hcontains := hregion.contains_iff address
  obtain ⟨written, rfl⟩ := hregion
  rw [MemoryMap.exists_writeBytes_iff, ← hcontains, contains_iff_find?]
  constructor
  · rintro ⟨region, hfind, hfits⟩
    obtain rfl := List.mem_singleton.mp (List.mem_of_find?_eq_some hfind)
    exact ⟨⟨_, hfind⟩, hfits⟩
  · rintro ⟨⟨region, hfind⟩, hfits⟩
    obtain rfl := List.mem_singleton.mp (List.mem_of_find?_eq_some hfind)
    exact ⟨_, hfind, hfits⟩

theorem exists_store_iff (hregion : memory.IsRegion base size) :
    (∃ after, memory.store address value access = .ok after) ↔
      address.toNat % access.bytes = 0 ∧ base.toNat ≤ address.toNat ∧
        address.toNat + access.bytes ≤ base.toNat + size := by
  rw [exists_store_iff_readable, hregion.disjoint.readable_iff_covers, Covers, and_congr_right_iff]
  intro haligned
  obtain ⟨written, rfl⟩ := hregion
  simp only [List.mem_singleton, exists_eq_left,
    Region.holds_iff access.bytes_pos (AccessSize.range_le haligned)]

end IsRegion

end MemoryMap

namespace SimulationConfig

/-- The bytes of the image, if there is one that can be read. -/
def imageBytes (config : SimulationConfig) : List Byte :=
  match config.image with
  | none => []
  | some image => image.content.toOption.getD []

/-- There is a word of memory at the address. -/
def HasWord (config : SimulationConfig) (address : Word) : Prop :=
  address.toNat % 4 = 0 ∧ config.memoryBase.toNat ≤ address.toNat ∧
    address.toNat + 4 ≤ config.memoryBase.toNat + config.memorySize

instance (config : SimulationConfig) (address : Word) : Decidable (config.HasWord address) :=
  inferInstanceAs (Decidable (_ ∧ _ ∧ _))

/-- The address is one of the word in some of the mailboxes. -/
def InMailbox (config : SimulationConfig) (mailboxes : List Word) (address : Word) : Prop :=
  ∃ mailbox ∈ mailboxes, config.HasWord mailbox ∧ (address - mailbox).toNat < 4

instance (config : SimulationConfig) (mailboxes : List Word) (address : Word) :
    Decidable (config.InMailbox mailboxes address) :=
  inferInstanceAs (Decidable (∃ mailbox ∈ mailboxes, _))

theorem inMailbox_cons (config : SimulationConfig) (mailbox : Word) (rest : List Word)
    (address : Word) : config.InMailbox (mailbox :: rest) address ↔
      (config.HasWord mailbox ∧ (address - mailbox).toNat < 4) ∨ config.InMailbox rest address :=
  List.exists_mem_cons_iff _ _ _

/-- The byte that a start puts at an address. -/
def startByte? (config : SimulationConfig) (address : Word) : Option Byte :=
  if config.InMailbox config.mailboxes address then some 0
  else config.imageBytes[(address - config.loadAddress).toNat]?

/-- The memory of the configuration after a start has put its bytes into what was there before. -/
structure Prepares (config : SimulationConfig) (before after : MemoryMap) : Prop where
  isRegion : after.IsRegion config.memoryBase config.memorySize
  byte?_eq : ∀ address, after.byte? address =
    (config.startByte? address).or (before.byte? address)

end SimulationConfig

namespace Hart

theorem record_of_none {hart : Hart} (hjournal : hart.journal = none) (event : Event) :
    hart.record event = hart := by
  rw [record, hjournal, Option.map_none, ← hjournal]

end Hart

namespace Simulation

def withMemory (simulation : Simulation) (memory : MemoryMap) : Simulation :=
  { simulation with hart := simulation.hart.withMemory memory }

variable {simulation loaded other : Simulation} {base : Word} {size : Nat}

@[simp]
theorem memory_withMemory (simulation : Simulation) (memory : MemoryMap) :
    (simulation.withMemory memory).hart.memory = memory := rfl

/-! ### The image -/

theorem fits_eq_of_isRegion {first second : MemoryMap} (hfirst : first.IsRegion base size)
    (hsecond : second.IsRegion base size) (address : Word) (count : Nat) :
    fits second address count = fits first address count := by
  have hcontains (place : Word) : second.contains place = first.contains place :=
    Bool.eq_iff_iff.mpr ((hsecond.contains_iff place).trans (hfirst.contains_iff place).symm)
  rw [fits, fits, hcontains, hcontains]

/-- What memory holds does not matter for the loading of an image. -/
theorem exists_loadImage_of_isRegion (hregion : simulation.hart.memory.IsRegion base size)
    (hother : other.hart.memory.IsRegion base size) {address : Word} {bytes : List Byte}
    (hload : simulation.loadImage address bytes = .ok loaded) :
    ∃ loaded, other.loadImage address bytes = .ok loaded := by
  obtain ⟨hfits, hwrite⟩ := exists_loadImage_iff.mp ⟨loaded, hload⟩
  refine exists_loadImage_iff.mpr ⟨(fits_eq_of_isRegion hregion hother _ _).trans hfits, ?_⟩
  exact hother.exists_writeBytes_iff.mpr (hregion.exists_writeBytes_iff.mp hwrite)

theorem exists_loadConfiguredImage_of_isRegion
    (hload : simulation.loadConfiguredImage = .ok loaded)
    (hregion : simulation.hart.memory.IsRegion base size)
    (hother : other.hart.memory.IsRegion base size)
    (himage : other.config.image = simulation.config.image)
    (haddress : other.config.loadAddress = simulation.config.loadAddress) :
    ∃ loaded, other.loadConfiguredImage = .ok loaded := by
  rw [loadConfiguredImage] at hload ⊢
  rw [himage, haddress]
  split
  · exact ⟨_, rfl⟩
  · rename_i image hsome
    rw [hsome] at hload
    dsimp only at hload ⊢
    split
    · rename_i reason hreason
      rw [hreason] at hload
      cases hload
    · rename_i bytes hbytes
      rw [hbytes] at hload
      exact exists_loadImage_of_isRegion hregion hother hload

theorem byte?_of_loadConfiguredImage (hregion : simulation.hart.memory.IsRegion base size)
    (hload : simulation.loadConfiguredImage = .ok loaded) :
    ∃ after, loaded = simulation.withMemory after ∧ after.IsRegion base size ∧
      ∀ address, after.byte? address =
        (simulation.config.imageBytes[(address - simulation.config.loadAddress).toNat]?).or
          (simulation.hart.memory.byte? address) := by
  rw [loadConfiguredImage] at hload
  rw [SimulationConfig.imageBytes]
  cases himage : simulation.config.image with
  | none =>
      rw [himage] at hload
      cases hload
      exact ⟨_, rfl, hregion, fun address => rfl⟩
  | some image =>
      simp only [himage] at hload ⊢
      cases hcontent : image.content with
      | error reason =>
          rw [hcontent] at hload
          cases hload
      | ok bytes =>
          rw [hcontent] at hload
          obtain ⟨after, rfl, hover, hrange⟩ := overwrites_of_loadImage hload
          exact ⟨after, rfl, hregion.overwrites hover, hover.byte?_of_lt hregion.separate hrange⟩

/-! ### The mailboxes -/

section Mailboxes

variable {config : SimulationConfig}

theorem clearMailbox_eq (hjournal : simulation.hart.journal = none)
    (hregion : simulation.hart.memory.IsRegion config.memoryBase config.memorySize) (mailbox : Word) :
    ∃ after, simulation.clearMailbox mailbox = simulation.withMemory after ∧
      after.IsRegion config.memoryBase config.memorySize ∧
      ∀ address, after.byte? address =
        if config.HasWord mailbox ∧ (address - mailbox).toNat < 4 then some 0
        else simulation.hart.memory.byte? address := by
  have hiff : (∃ after, simulation.hart.memory.store mailbox 0 .word = .ok after) ↔
      config.HasWord mailbox := hregion.exists_store_iff
  rw [clearMailbox]
  split
  · rename_i error hstore
    have hnone : ¬config.HasWord mailbox := by
      rw [← hiff, hstore]
      simp
    rw [Hart.record_of_none hjournal]
    refine ⟨_, rfl, hregion, fun address => ?_⟩
    rw [if_neg fun hword => hnone hword.1]
  · rename_i after hstore
    have hword : config.HasWord mailbox := hiff.mp ⟨after, hstore⟩
    have hover := MemoryMap.overwrites_of_store hstore
    have hzero : bytesOf AccessSize.word.bytes (0 : Word).toNat = List.replicate 4 0 := bytesOf_zero 4
    have hrange : mailbox.toNat + 4 ≤ wordCount := @AccessSize.range_le .word mailbox hword.1
    rw [hzero] at hover
    refine ⟨after, rfl, hregion.overwrites hover, fun address => ?_⟩
    rw [hover.byte?_of_disjoint hregion.disjoint hrange, List.getElem?_replicate]
    by_cases hinside : (address - mailbox).toNat < 4
    · rw [if_pos hinside, if_pos ⟨hword, hinside⟩, Option.some_or]
    · rw [if_neg hinside, if_neg fun hboth => hinside hboth.2, Option.none_or]

theorem foldl_clearMailbox_eq (hjournal : simulation.hart.journal = none)
    (hregion : simulation.hart.memory.IsRegion config.memoryBase config.memorySize)
    (mailboxes : List Word) :
    ∃ after, mailboxes.foldl clearMailbox simulation = simulation.withMemory after ∧
      after.IsRegion config.memoryBase config.memorySize ∧
      ∀ address, after.byte? address =
        if config.InMailbox mailboxes address then some 0
        else simulation.hart.memory.byte? address := by
  induction mailboxes generalizing simulation with
  | nil => exact ⟨_, rfl, hregion, fun address => by simp [SimulationConfig.InMailbox]⟩
  | cons mailbox rest ih =>
      obtain ⟨cleared, hcleared, hregion', hbyte⟩ := clearMailbox_eq hjournal hregion mailbox
      obtain ⟨after, hafter, hended, hbytes⟩ :=
        @ih (simulation.withMemory cleared) hjournal hregion'
      rw [List.foldl_cons, hcleared]
      refine ⟨after, hafter, hended, fun address => ?_⟩
      -- mailboxes may overlap, and a later one clears no less than an earlier one
      have hcons := config.inMailbox_cons mailbox rest address
      rw [hbytes, memory_withMemory, hbyte]
      by_cases hrest : config.InMailbox rest address
      · rw [if_pos hrest, if_pos (hcons.mpr (.inr hrest))]
      · rw [if_neg hrest]
        exact if_congr (hcons.trans (or_iff_left hrest)).symm rfl rfl

end Mailboxes

/-- Image and mailboxes change nothing but memory. -/
theorem prepares_of_loadConfiguredImage
    (hregion : simulation.hart.memory.IsRegion simulation.config.memoryBase
      simulation.config.memorySize)
    (hjournal : simulation.hart.journal = none)
    (hload : simulation.loadConfiguredImage = .ok loaded) :
    ∃ after, loaded.clearMailboxes = simulation.withMemory after ∧
      simulation.config.Prepares simulation.hart.memory after := by
  obtain ⟨image, rfl, hloaded, hbytes⟩ := byte?_of_loadConfiguredImage hregion hload
  obtain ⟨after, hafter, hended, hcleared⟩ :=
    foldl_clearMailbox_eq (show (simulation.withMemory image).hart.journal = none from hjournal)
      hloaded simulation.config.mailboxes
  refine ⟨after, hafter, hended, fun address => ?_⟩
  rw [hcleared, SimulationConfig.startByte?]
  split
  · rfl
  · exact hbytes address

end Simulation

end RiscvMachine
