import RiscvMachine.Memory.Map
/-!
Regions that share addresses. A map compares the ends of regions, and an end stops at the last
address of all; so that address is left out of the comparison, and an empty region counts as a
place between two addresses.
-/

namespace RiscvMachine

def lastAddress : Word :=
  BitVec.allOnes 64

namespace Region

/-- Some address lies in both regions. -/
def Meets (region other : Region) : Prop :=
  ∃ address, region.contains address = true ∧ other.contains address = true

/-- An empty region that is neither at the start nor at the end of the other one. -/
def EmptyInside (region other : Region) : Prop :=
  region.size = 0 ∧ other.base < region.base ∧ region.base ≠ lastAddress ∧
    other.contains region.base = true

/-- The regions share an address before the last one, or one is an empty place in the other. -/
def Collides (region other : Region) : Prop :=
  (∃ address ≠ lastAddress, region.contains address = true ∧ other.contains address = true) ∨
    region.EmptyInside other ∨ other.EmptyInside region

/-- The region has an address, and its end is an address too. -/
def Bounded (region : Region) : Prop :=
  0 < region.size ∧ region.base.toNat + region.size < wordCount

theorem contains_iff {region : Region} {address : Word} :
    region.contains address = true ↔
      region.base.toNat ≤ address.toNat ∧ address.toNat < region.base.toNat + region.size := by
  rw [contains, Bool.and_eq_true, decide_eq_true_iff, decide_eq_true_iff, BitVec.le_def]
  omega

theorem toNat_lt_of_ne_lastAddress {address : Word} (hne : address ≠ lastAddress) :
    address.toNat < wordCount - 1 := by
  have hlast : lastAddress.toNat = wordCount - 1 := rfl
  have hlt : address.toNat < wordCount := address.isLt
  have hnat : address.toNat ≠ lastAddress.toNat := fun heq => hne (BitVec.eq_of_toNat_eq heq)
  omega

theorem ne_lastAddress_of_toNat_lt {address : Word} (hlt : address.toNat < wordCount - 1) :
    address ≠ lastAddress := by
  rintro rfl
  exact Nat.lt_irrefl _ hlt

theorem not_contains_lastAddress {region : Region} (hbounded : region.Bounded) :
    region.contains lastAddress = false := by
  refine Bool.eq_false_iff.mpr fun hcontains => ?_
  have hlast : lastAddress.toNat = wordCount - 1 := rfl
  have hend := (contains_iff.mp hcontains).2
  have := hbounded.2
  omega

theorem Bounded.not_emptyInside {region : Region} (hbounded : region.Bounded) (other : Region) :
    ¬region.EmptyInside other := by
  intro hempty
  exact Nat.ne_of_gt hbounded.1 hempty.1

/-- Of two regions that start before each other's end, the later start is in both, unless one of
them is empty. -/
theorem collides_iff {region other : Region} :
    region.Collides other ↔
      region.base.toNat < MemoryMap.endOf other.base other.size ∧
        other.base.toNat < MemoryMap.endOf region.base region.size := by
  simp only [MemoryMap.endOf, Nat.lt_min]
  constructor
  · rintro (⟨address, hne, hregion, hother⟩ | ⟨hempty, hlt, hne, hother⟩ | ⟨hempty, hlt, hne, hother⟩)
    · have haddress := toNat_lt_of_ne_lastAddress hne
      rw [contains_iff] at hregion hother
      omega
    · have hbase := toNat_lt_of_ne_lastAddress hne
      rw [contains_iff] at hother
      rw [BitVec.lt_def] at hlt
      omega
    · have hbase := toNat_lt_of_ne_lastAddress hne
      rw [contains_iff] at hother
      rw [BitVec.lt_def] at hlt
      omega
  · rintro ⟨⟨hregion, hregionLast⟩, hother, hotherLast⟩
    have hregionNe := ne_lastAddress_of_toNat_lt hregionLast
    have hotherNe := ne_lastAddress_of_toNat_lt hotherLast
    by_cases hempty : region.size = 0
    · refine .inr (.inl ⟨hempty, ?_, hregionNe, contains_iff.mpr ?_⟩)
      · rw [BitVec.lt_def]
        omega
      · omega
    by_cases hotherEmpty : other.size = 0
    · refine .inr (.inr ⟨hotherEmpty, ?_, hotherNe, contains_iff.mpr ?_⟩)
      · rw [BitVec.lt_def]
        omega
      · omega
    rcases Nat.le_total region.base.toNat other.base.toNat with hle | hle
    · refine .inl ⟨other.base, hotherNe, contains_iff.mpr ?_, contains_iff.mpr ?_⟩ <;> omega
    · refine .inl ⟨region.base, hregionNe, contains_iff.mpr ?_, contains_iff.mpr ?_⟩ <;> omega

theorem collides_iff_meets {region other : Region} (hregion : region.Bounded)
    (hother : other.Bounded) : region.Collides other ↔ region.Meets other := by
  constructor
  · rintro (⟨address, -, hboth⟩ | hempty | hempty)
    · exact ⟨address, hboth⟩
    · exact absurd hempty (hregion.not_emptyInside other)
    · exact absurd hempty (hother.not_emptyInside region)
  · rintro ⟨address, hboth⟩
    refine .inl ⟨address, ?_, hboth⟩
    rintro rfl
    exact Bool.false_ne_true ((not_contains_lastAddress hregion).symm.trans hboth.1)

end Region

namespace MemoryMap

/-- The map after an attempt to add a region. -/
def attach (memory : MemoryMap) (region : Region) : MemoryMap :=
  match memory.add region with
  | .ok grown => grown
  | .error _ => memory

/-- The maps that come about by attempts to add regions to no region or to one. -/
inductive Assembled : MemoryMap → Prop
  | empty : Assembled .empty
  | single (base : Word) (size : Nat) : Assembled (.withRegion base size)
  | attach {memory : MemoryMap} (hmemory : Assembled memory) (region : Region) :
      Assembled (memory.attach region)

/-- The regions that hold an address. -/
def holding (memory : MemoryMap) (address : Word) : List Region :=
  memory.regions.filter fun region => region.contains address

variable {memory : MemoryMap} {region : Region}

/-- A region is added behind the others, or collides with one of them. -/
theorem add_cases (memory : MemoryMap) (region : Region) :
    ((∃ other ∈ memory.regions, region.Collides other) ∧
      memory.add region = .error (.overlap region.base region.size)) ∨
    ((∀ other ∈ memory.regions, ¬region.Collides other) ∧
      memory.add region = .ok ⟨memory.regions ++ [region]⟩) := by
  have hcollides : (memory.regions.any fun other =>
      region.base.toNat < endOf other.base other.size &&
        other.base.toNat < endOf region.base region.size) = true ↔
      ∃ other ∈ memory.regions, region.Collides other := by
    simp only [List.any_eq_true, Bool.and_eq_true, decide_eq_true_iff, Region.collides_iff]
  by_cases hany : ∃ other ∈ memory.regions, region.Collides other
  · exact .inl ⟨hany, if_pos (hcollides.mpr hany)⟩
  · refine .inr ⟨fun other hother hcollision => hany ⟨other, hother, hcollision⟩, ?_⟩
    exact if_neg fun hfound => hany (hcollides.mp hfound)

theorem add_eq_overlap_iff :
    memory.add region = .error (.overlap region.base region.size) ↔
      ∃ other ∈ memory.regions, region.Collides other := by
  rcases add_cases memory region with ⟨hcollides, hadd⟩ | ⟨hfree, hadd⟩
  · exact ⟨fun _ => hcollides, fun _ => hadd⟩
  · constructor
    · intro hoverlap
      rw [hadd] at hoverlap
      cases hoverlap
    · rintro ⟨other, hother, hcollides⟩
      exact absurd hcollides (hfree other hother)

theorem attach_of_overlap (hoverlap : memory.add region = .error (.overlap region.base region.size)) :
    memory.attach region = memory := by
  rw [attach, hoverlap]

/-- No two regions have an address in common, unless it is the last one. -/
def Separate (memory : MemoryMap) : Prop :=
  memory.regions.Pairwise fun region other =>
    ∀ address ≠ lastAddress, ¬(region.contains address = true ∧ other.contains address = true)

theorem Separate.attach (hseparate : memory.Separate) (region : Region) :
    (memory.attach region).Separate := by
  rcases add_cases memory region with ⟨-, hadd⟩ | ⟨hfree, hadd⟩
  · rwa [attach_of_overlap hadd]
  · rw [MemoryMap.attach, hadd]
    refine List.pairwise_append.mpr ⟨hseparate, List.pairwise_singleton _ _, ?_⟩
    intro other hother added hadded address hne hboth
    rw [List.mem_singleton.mp hadded] at hboth
    exact hfree other hother (.inl ⟨address, hne, hboth.2, hboth.1⟩)

theorem Assembled.separate (hassembled : memory.Assembled) : memory.Separate := by
  induction hassembled with
  | empty => exact .nil
  | single base size => exact List.pairwise_singleton _ _
  | attach _ region ih => exact ih.attach region

theorem Separate.length_holding_le (hseparate : memory.Separate) {address : Word}
    (hne : address ≠ lastAddress) : (memory.holding address).length ≤ 1 := by
  have hpairwise := hseparate.filter fun region => region.contains address
  have hholds : ∀ region ∈ memory.holding address, region.contains address = true :=
    fun region hmem => (List.mem_filter.mp hmem).2
  rw [holding] at hholds ⊢
  generalize memory.regions.filter (fun region => region.contains address) = holders
    at hpairwise hholds ⊢
  match holders with
  | [] => exact Nat.zero_le 1
  | [_] => exact Nat.le_refl 1
  | first :: second :: rest =>
      have hapart := (List.pairwise_cons.mp hpairwise).1 second List.mem_cons_self address hne
      exact absurd ⟨hholds first (by simp), hholds second (by simp)⟩ hapart

theorem holding_lastAddress (hbounded : ∀ region ∈ memory.regions, region.Bounded) :
    memory.holding lastAddress = [] := by
  refine List.filter_eq_nil_iff.mpr fun region hmem hcontains => ?_
  exact Bool.false_ne_true
    ((Region.not_contains_lastAddress (hbounded region hmem)).symm.trans hcontains)

/-- Regions are told apart by all their addresses but the last one of all; where each has an address
and none reaches the end of the address space, they overlap just if they meet. -/
theorem add_eq_overlap_iff_of_assembled (hassembled : memory.Assembled) (region : Region) :
    (memory.add region = .error (.overlap region.base region.size) ↔
      ∃ other ∈ memory.regions, region.Collides other) ∧
    (memory.add region = .error (.overlap region.base region.size) →
      memory.attach region = memory) ∧
    (∀ address ≠ lastAddress, (memory.holding address).length ≤ 1) ∧
    ((∀ other ∈ region :: memory.regions, other.Bounded) →
      (memory.add region = .error (.overlap region.base region.size) ↔
        ∃ other ∈ memory.regions, region.Meets other) ∧
      ∀ address, (memory.holding address).length ≤ 1) := by
  have hsingle : ∀ address ≠ lastAddress, (memory.holding address).length ≤ 1 :=
    fun address hne => hassembled.separate.length_holding_le hne
  refine ⟨add_eq_overlap_iff, attach_of_overlap, hsingle, fun hbounded => ⟨?_, ?_⟩⟩
  · rw [add_eq_overlap_iff]
    refine exists_congr fun other => and_congr_right fun hother => ?_
    exact Region.collides_iff_meets (hbounded region List.mem_cons_self)
      (hbounded other (List.mem_cons_of_mem _ hother))
  · intro address
    by_cases hlast : address = lastAddress
    · have hbounded : ∀ other ∈ memory.regions, other.Bounded :=
        fun other hother => hbounded other (List.mem_cons_of_mem _ hother)
      rw [hlast, holding_lastAddress hbounded]
      exact Nat.zero_le 1
    · exact hsingle address hlast

/-- A region that begins in the first of two regions and ends behind it. -/
theorem add_astride :
    let memory := (withRegion 0x1000 0x100).attach (.zeroed 0x2000 0x100)
    let region := Region.zeroed 0x10F0 0x20
    memory.Assembled ∧ (∀ other ∈ region :: memory.regions, other.Bounded) ∧
      (∃ other ∈ memory.regions, region.Meets other) ∧
      memory.add region = .error (.overlap 0x10F0 0x20) ∧ memory.attach region = memory ∧
      ∀ address, (memory.holding address).length ≤ 1 := by
  intro memory region
  have hassembled : memory.Assembled := .attach (.single _ _) _
  have hregions : memory.regions = [.zeroed 0x1000 0x100, .zeroed 0x2000 0x100] := rfl
  have hbounded : ∀ other ∈ region :: memory.regions, other.Bounded := by
    rw [hregions]
    simp only [List.forall_mem_cons, List.not_mem_nil, false_implies, implies_true, and_true]
    exact ⟨⟨by decide, by decide⟩, ⟨by decide, by decide⟩, ⟨by decide, by decide⟩⟩
  have hmeets : ∃ other ∈ memory.regions, region.Meets other :=
    ⟨_, by rw [hregions]; exact List.mem_cons_self, 0x10F0, by decide, by decide⟩
  obtain ⟨-, hkept, -, hexact⟩ := add_eq_overlap_iff_of_assembled hassembled region
  obtain ⟨hoverlap, hsingle⟩ := hexact hbounded
  exact ⟨hassembled, hbounded, hmeets, hoverlap.mpr hmeets, hkept (hoverlap.mpr hmeets), hsingle⟩

/-- Two regions of the last address alone are both accepted; an empty region inside another one is
refused, although nothing is in it. -/
theorem add_at_lastAddress_and_empty :
    let top := Region.zeroed lastAddress 1
    let inner := Region.zeroed 8 0
    ((withRegion lastAddress 1).add top = .ok ⟨[top, top]⟩ ∧ top.Meets top) ∧
      (withRegion 0 16).add inner = .error (.overlap 8 0) ∧
      ∀ other, ¬inner.Meets other := by
  intro top inner
  refine ⟨⟨rfl, lastAddress, by decide, by decide⟩, rfl, ?_⟩
  rintro other ⟨address, hinner, -⟩
  have hrange := Region.contains_iff.mp hinner
  exact absurd (Nat.lt_of_le_of_lt hrange.1 hrange.2) (Nat.lt_irrefl _)

end MemoryMap

end RiscvMachine
