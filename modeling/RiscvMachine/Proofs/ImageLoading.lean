import RiscvMachine.Proofs.ByteStore
import RiscvMachine.Simulation.Environment
/-!
Images. An image goes into one region of memory as a whole, or is refused and changes nothing. An
empty image needs a mapped address all the same, and one that ends at the last address of all is
refused wherever it lies.
-/

namespace RiscvMachine

namespace Region

variable {region : Region} {address : Word} {bytes : List Byte}

/-- There are so many addresses from this one on, and all of them lie in the region. -/
def Spans (region : Region) (address : Word) (count : Nat) : Prop :=
  ∀ distance < count, ∃ place : Word,
    place.toNat = address.toNat + distance ∧ region.contains place = true

theorem spans_iff {count : Nat} (hcount : 0 < count) :
    region.Spans address count ↔ address.toNat + count ≤ wordCount ∧
      region.contains address = true ∧
        address.toNat + count ≤ region.base.toNat + region.size := by
  constructor
  · intro hspans
    obtain ⟨first, hfirst, hstart⟩ := hspans 0 hcount
    obtain ⟨last, hlast, hend⟩ := hspans (count - 1) (Nat.sub_one_lt_of_lt hcount)
    obtain rfl : first = address := BitVec.eq_of_toNat_eq hfirst
    have hbound : last.toNat < wordCount := last.isLt
    have hinside := (contains_iff.mp hend).2
    exact ⟨by omega, hstart, by omega⟩
  · rintro ⟨hrange, hstart, hend⟩ distance hdistance
    have hplace := @toNat_add_ofNat address distance (by omega)
    refine ⟨_, hplace, ?_⟩
    rw [contains_iff] at hstart ⊢
    omega

instance (region : Region) (address : Word) (count : Nat) :
    Decidable (region.Spans address count) :=
  if hcount : 0 < count then decidable_of_iff _ (spans_iff hcount).symm
  else .isTrue fun _ hdistance => absurd (Nat.zero_lt_of_lt hdistance) hcount

theorem exists_writeBytes_iff (hcontains : region.contains address = true) :
    (∃ updated, region.writeBytes address bytes = .ok updated) ↔
      address.toNat + bytes.length ≤ region.base.toNat + region.size := by
  constructor
  · rintro ⟨updated, hwrite⟩
    exact (writeBytes_eq_ok hcontains hwrite).1
  · intro hfits
    rw [contains_iff] at hcontains
    rw [writeBytes, locateBytes]
    split
    · exact ⟨_, rfl⟩
    · rw [offset?, if_pos ⟨BitVec.le_def.mpr hcontains.1, by omega⟩]
      exact ⟨_, rfl⟩

theorem writeBytes_eq_error {error : MemoryError}
    (hwrite : region.writeBytes address bytes = .error error) :
    error = .outOfRange address .byte := by
  rcases error_of_bind hwrite with hlocate | ⟨offset, -, hupdated⟩
  · rw [locateBytes] at hlocate
    split at hlocate
    · cases hlocate
    · split at hlocate <;> cases hlocate
      rfl
  · cases hupdated

end Region

namespace MemoryMap

variable {memory after : MemoryMap} {region : Region} {address : Word} {bytes : List Byte}

/-! ### The memories of simulations -/

/-- The memories that come about by changes to no region or to one. -/
inductive Reached : MemoryMap → Prop
  | empty : Reached .empty
  | single (base : Word) (size : Nat) : Reached (.withRegion base size)
  | apply {memory : MemoryMap} (hmemory : Reached memory) (change : Change) :
      Reached (memory.apply change)

theorem Separate.apply (hseparate : memory.Separate) (change : Change) :
    (memory.apply change).Separate := by
  rw [MemoryMap.apply]
  split
  · rename_i after hperform
    rcases Change.cases_of_perform hperform with ⟨address, bytes, hover, -⟩ | ⟨region, -, hadd⟩
    · exact hover.separate.mpr hseparate
    · exact hseparate.add hadd
  · exact hseparate

theorem Reached.separate (hreached : memory.Reached) : memory.Separate := by
  induction hreached with
  | empty => exact .nil
  | single base size => exact List.pairwise_singleton _ _
  | apply _ change ih => exact ih.apply change

/-! ### Writes of many bytes -/

theorem exists_writeBytes_iff :
    (∃ after, memory.writeBytes address bytes = .ok after) ↔
      ∃ region, memory.find? address = some region ∧
        address.toNat + bytes.length ≤ region.base.toNat + region.size := by
  constructor
  · rintro ⟨after, hwrite⟩
    obtain ⟨regions, hregions, -⟩ := exists_ok_of_bind hwrite
    obtain ⟨earlier, region, updated, later, hmemory, hearlier, hcontains, hupdated, -⟩ :=
      updateFirst_eq_ok hregions
    exact ⟨region, find?_of_append hmemory hearlier hcontains,
      (Region.writeBytes_eq_ok hcontains hupdated).1⟩
  · rintro ⟨region, hfind, hfits⟩
    obtain ⟨updated, hupdated⟩ :=
      (Region.exists_writeBytes_iff (contains_of_find? hfind)).mpr hfits
    obtain ⟨regions, hregions⟩ := exists_updateFirst .byte
      (fun region => region.writeBytes address bytes) hfind hupdated
    exact ⟨⟨regions⟩, by rw [writeBytes, hregions]; rfl⟩

theorem updateFirst_eq_error {update : Region → Except MemoryError Region} {regions : List Region}
    {size : AccessSize} {error : MemoryError}
    (hupdate : updateFirst address size update regions = .error error) :
    error = .outOfRange address size ∨ ∃ region, update region = .error error := by
  induction regions with
  | nil =>
      cases hupdate
      exact .inl rfl
  | cons first rest ih =>
      rw [updateFirst] at hupdate
      split at hupdate
      · rcases error_of_bind hupdate with hfirst | ⟨updated, -, hresult⟩
        · exact .inr ⟨first, hfirst⟩
        · cases hresult
      · rcases error_of_bind hupdate with hrest | ⟨updated, -, hresult⟩
        · exact ih hrest
        · cases hresult

theorem writeBytes_eq_error {error : MemoryError}
    (hwrite : memory.writeBytes address bytes = .error error) :
    error = .outOfRange address .byte := by
  rcases error_of_bind hwrite with hregions | ⟨regions, -, hresult⟩
  · rcases updateFirst_eq_error hregions with heq | ⟨region, hregion⟩
    · exact heq
    · exact Region.writeBytes_eq_error hregion
  · cases hresult

/-- No second region holds an address before the last one, so it is found where it lies. -/
theorem Separate.find?_of_contains (hseparate : memory.Separate) (hne : address ≠ lastAddress)
    (hmem : region ∈ memory.regions) (hcontains : region.contains address = true) :
    memory.find? address = some region := by
  obtain ⟨earlier, later, hregions⟩ := List.append_of_mem hmem
  rw [Separate, hregions, List.pairwise_append] at hseparate
  refine find?_of_append hregions (fun other hother => ?_) hcontains
  have hapart := hseparate.2.2 other hother region List.mem_cons_self address hne
  exact Bool.eq_false_iff.mpr fun hholds => hapart ⟨hholds, hcontains⟩

theorem contains_iff_find? : memory.contains address = true ↔
    ∃ region, memory.find? address = some region := by
  rw [← Option.isSome_iff_exists, find?, List.find?_isSome, contains, List.any_eq_true]

end MemoryMap

namespace Simulation

variable {simulation loaded : Simulation} {address : Word} {bytes : List Byte}

/-- What a check of the first and the last address tells. -/
theorem fits_iff {memory : MemoryMap} :
    fits memory address bytes.length = true ↔ bytes = [] ∨
      (address.toNat + bytes.length < wordCount ∧ memory.contains address = true ∧
        memory.contains (address + BitVec.ofNat 64 (bytes.length - 1)) = true) := by
  simp only [fits, Bool.or_eq_true, Bool.and_eq_true, decide_eq_true_iff, List.length_eq_zero_iff,
    and_assoc]

/-- An image is refused for its addresses, refused by its region, or written as it is. -/
theorem loadImage_cases (simulation : Simulation) (address : Word) (bytes : List Byte) :
    let memory := simulation.hart.memory
    (fits memory address bytes.length = false ∧
      simulation.loadImage address bytes = .error (.imageOutOfRange address bytes.length)) ∨
    (fits memory address bytes.length = true ∧
      ((memory.writeBytes address bytes = .error (.outOfRange address .byte) ∧
        simulation.loadImage address bytes = .error (.memory (.outOfRange address .byte))) ∨
      ∃ after, memory.writeBytes address bytes = .ok after ∧
        simulation.loadImage address bytes =
          .ok { simulation with hart := { simulation.hart with memory := after } })) := by
  intro memory
  cases hfits : fits memory address bytes.length with
  | false => exact .inl ⟨rfl, if_neg (by simp [memory, hfits])⟩
  | true =>
      refine .inr ⟨rfl, ?_⟩
      have hload : simulation.loadImage address bytes =
          ((memory.writeBytes address bytes).mapError .memory >>= fun after =>
            .ok { simulation with hart := { simulation.hart with memory := after } }) :=
        if_pos hfits
      rw [hload]
      cases hwrite : memory.writeBytes address bytes with
      | error error =>
          obtain rfl := MemoryMap.writeBytes_eq_error hwrite
          exact .inl ⟨rfl, rfl⟩
      | ok after => exact .inr ⟨after, rfl, rfl⟩

theorem exists_loadImage_iff :
    (∃ loaded, simulation.loadImage address bytes = .ok loaded) ↔
      fits simulation.hart.memory address bytes.length = true ∧
        ∃ after, simulation.hart.memory.writeBytes address bytes = .ok after := by
  rcases loadImage_cases simulation address bytes with
    ⟨hfits, hload⟩ | ⟨hfits, ⟨hwrite, hload⟩ | ⟨after, hwrite, hload⟩⟩
  · simp [hfits, hload]
  · simp [hwrite, hload]
  · simp [hfits, hwrite, hload]

/-- Both checks of an image together: an image that is not empty lies in one region, and ends
before the last address of all. -/
theorem loadable_iff (hseparate : simulation.hart.memory.Separate) (hne : bytes ≠ []) :
    (∃ loaded, simulation.loadImage address bytes = .ok loaded) ↔
      address.toNat + bytes.length ≠ wordCount ∧
        ∃ region ∈ simulation.hart.memory.regions, region.Spans address bytes.length := by
  have hcount : 0 < bytes.length := List.length_pos_iff.mpr hne
  rw [exists_loadImage_iff, fits_iff, MemoryMap.exists_writeBytes_iff]
  constructor
  · rintro ⟨hempty | ⟨hrange, -, -⟩, region, hfind, hfits⟩
    · exact absurd hempty hne
    · -- the last address may be mapped by another region, so only the region's own check helps here
      refine ⟨Nat.ne_of_lt hrange, region, List.mem_of_find?_eq_some hfind, ?_⟩
      exact (Region.spans_iff hcount).mpr
        ⟨Nat.le_of_lt hrange, MemoryMap.contains_of_find? hfind, hfits⟩
  · rintro ⟨hend, region, hmem, hspans⟩
    obtain ⟨last, hlast, hcontainsLast⟩ :=
      hspans (bytes.length - 1) (Nat.sub_one_lt_of_lt hcount)
    obtain ⟨hrange, hcontains, hfits⟩ := (Region.spans_iff hcount).mp hspans
    have hlt : address.toNat + bytes.length < wordCount := Nat.lt_of_le_of_ne hrange hend
    have hplace : address + BitVec.ofNat 64 (bytes.length - 1) = last := by
      apply BitVec.eq_of_toNat_eq
      rw [hlast, toNat_add_ofNat (by omega)]
    have hlower : address ≠ lastAddress := Region.ne_lastAddress_of_toNat_lt (by omega)
    have mapped (place : Word) (hheld : region.contains place = true) :
        simulation.hart.memory.contains place = true :=
      List.any_eq_true.mpr ⟨region, hmem, hheld⟩
    exact ⟨.inr ⟨hlt, mapped address hcontains, hplace ▸ mapped last hcontainsLast⟩, region,
      hseparate.find?_of_contains hlower hmem hcontains, hfits⟩

theorem loadable_nil_iff :
    (∃ loaded, simulation.loadImage address [] = .ok loaded) ↔
      simulation.hart.memory.contains address = true := by
  rw [exists_loadImage_iff, fits_iff, MemoryMap.exists_writeBytes_iff,
    MemoryMap.contains_iff_find?]
  constructor
  · rintro ⟨-, region, hfind, -⟩
    exact ⟨region, hfind⟩
  · rintro ⟨region, hfind⟩
    have hcontains := Region.contains_iff.mp (MemoryMap.contains_of_find? hfind)
    exact ⟨.inl rfl, region, hfind, Nat.le_of_lt hcontains.2⟩

/-- A loaded image is written as a whole, and nothing but memory changes. -/
theorem overwrites_of_loadImage (hload : simulation.loadImage address bytes = .ok loaded) :
    ∃ after, loaded = { simulation with hart := { simulation.hart with memory := after } } ∧
      MemoryMap.Overwrites address bytes simulation.hart.memory after ∧
      address.toNat + bytes.length < wordCount := by
  rcases loadImage_cases simulation address bytes with
    ⟨-, hrefused⟩ | ⟨hfits, ⟨-, hrefused⟩ | ⟨after, hwrite, hloaded⟩⟩
  · rw [hrefused] at hload
    cases hload
  · rw [hrefused] at hload
    cases hload
  · rw [hloaded] at hload
    cases hload
    refine ⟨after, rfl, MemoryMap.overwrites_of_writeBytes hwrite, ?_⟩
    rcases fits_iff.mp hfits with rfl | ⟨hrange, -⟩
    · exact address.isLt
    · exact hrange

/-- A loaded image is in memory, and nothing else has changed. -/
theorem byte?_of_loadImage (hseparate : simulation.hart.memory.Separate)
    (hload : simulation.loadImage address bytes = .ok loaded) :
    ∃ after, loaded = { simulation with hart := { simulation.hart with memory := after } } ∧
      ∀ other, after.byte? other =
        (bytes[(other - address).toNat]?).or (simulation.hart.memory.byte? other) := by
  obtain ⟨after, hloaded, hover, hrange⟩ := overwrites_of_loadImage hload
  exact ⟨after, hloaded, hover.byte?_of_lt hseparate hrange⟩

/-- The simulation after an attempt to load an image. -/
def tryImage (simulation : Simulation) (address : Word) (bytes : List Byte) : Simulation :=
  match simulation.loadImage address bytes with
  | .ok loaded => loaded
  | .error _ => simulation

/-- An image is loaded just if it is empty and its address is mapped, or lies in one region and does
not end at the last address of all. Its bytes are all that changes, and a refused image changes
nothing. -/
theorem loadImage_exact (hreached : simulation.hart.memory.Reached) (address : Word)
    (bytes : List Byte) :
    let memory := simulation.hart.memory
    let result := simulation.loadImage address bytes
    ((∃ loaded, result = .ok loaded) ↔
      (bytes = [] ∧ memory.contains address = true) ∨
        (bytes ≠ [] ∧ address.toNat + bytes.length ≠ wordCount ∧
          ∃ region ∈ memory.regions, region.Spans address bytes.length)) ∧
    (∀ loaded, result = .ok loaded →
      ∃ after, loaded = { simulation with hart := { simulation.hart with memory := after } } ∧
        ∀ other, after.byte? other = (bytes[(other - address).toNat]?).or (memory.byte? other)) ∧
    (∀ error, result = .error error →
      (simulation.tryImage address bytes).hart.memory.byte? = memory.byte? ∧
        (error = .imageOutOfRange address bytes.length ∨
          error = .memory (.outOfRange address .byte))) ∧
    ((bytes = [] → memory.contains address = true) →
      address.toNat + bytes.length ≠ wordCount →
        ((∃ loaded, result = .ok loaded) ↔
          bytes = [] ∨ ∃ region ∈ memory.regions, region.Spans address bytes.length)) := by
  intro memory result
  have hseparate := hreached.separate
  refine ⟨?_, fun loaded hload => byte?_of_loadImage hseparate hload, ?_, ?_⟩
  · by_cases hempty : bytes = []
    · subst hempty
      simp [result, loadable_nil_iff, memory]
    · simp [result, loadable_iff hseparate hempty, hempty, memory]
  · intro error herror
    refine ⟨by rw [tryImage, show simulation.loadImage address bytes = _ from herror], ?_⟩
    rcases loadImage_cases simulation address bytes with
      ⟨-, hrefused⟩ | ⟨-, ⟨-, hrefused⟩ | ⟨after, -, hloaded⟩⟩
    · rw [show result = _ from hrefused] at herror
      cases herror
      exact .inl rfl
    · rw [show result = _ from hrefused] at herror
      cases herror
      exact .inr rfl
    · rw [show result = _ from hloaded] at herror
      cases herror
  · intro hmapped hend
    by_cases hempty : bytes = []
    · subst hempty
      simp [result, loadable_nil_iff, memory, hmapped rfl]
    · simp [result, loadable_iff hseparate hempty, hempty, hend, memory]

/-- A simulation of nothing but a memory. -/
def ofMemory (memory : MemoryMap) : Simulation where
  hart := .initial .standard memory (.identity .empty) .x64 0
  config := .default
  executed := 0

/-- Images on one side of the border of two regions, and across it. -/
theorem loadImage_exact_border :
    let simulation :=
      ofMemory ((MemoryMap.withRegion 0x1000 0x10).apply (.add (.zeroed 0x1010 0x10)))
    simulation.hart.memory.Reached ∧
      (∃ loaded, simulation.loadImage 0x100C [1, 2, 3, 4] = .ok loaded) ∧
      ¬∃ loaded, simulation.loadImage 0x100E [1, 2, 3, 4] = .ok loaded := by
  intro simulation
  have hreached : simulation.hart.memory.Reached :=
    .apply (.single 0x1000 0x10) (.add (.zeroed 0x1010 0x10))
  obtain ⟨hinside, -, -, -⟩ := loadImage_exact hreached 0x100C [1, 2, 3, 4]
  obtain ⟨hacross, -, -, -⟩ := loadImage_exact hreached 0x100E [1, 2, 3, 4]
  refine ⟨hreached, hinside.mpr (by decide +kernel), fun hloaded => ?_⟩
  exact absurd (hacross.mp hloaded) (by decide +kernel)

/-- An image that lies in a region up to the last address of all is refused, and so is an empty
image at an address outside memory. -/
theorem loadImage_at_lastAddress_and_empty :
    (let simulation := ofMemory (.withRegion 0xFFFFFFFFFFFFF000 0x1000)
      let image := List.replicate 16 0xAB
      (∃ region ∈ simulation.hart.memory.regions, region.Spans 0xFFFFFFFFFFFFFFF0 image.length) ∧
        simulation.loadImage 0xFFFFFFFFFFFFFFF0 image =
          .error (.imageOutOfRange 0xFFFFFFFFFFFFFFF0 16)) ∧
      (ofMemory (.withRegion 0 0x10)).loadImage 0x1000 [] =
        .error (.memory (.outOfRange 0x1000 .byte)) := by
  refine ⟨⟨by decide +kernel, if_neg (by decide +kernel)⟩, ?_⟩
  rfl

end Simulation

end RiscvMachine
