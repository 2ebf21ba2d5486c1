import RiscvMachine.Decoder.Listing
import RiscvMachine.Proofs.TreeTests
/-!
The numbered form of a tree. Nodes are only ever appended, with children that are there already, and
a leaf only where its declaration has none; the node that a tree is numbered by unfolds to it.
-/

namespace RiscvMachine

namespace Decoder

namespace Node

/-- The nodes that a node goes on to. -/
def children : Node → List Nat
  | .illegal | .nop _ | .leaf _ => []
  | .branch _ ifZero ifOne => [ifZero, ifOne]
  | .switch _ cases otherwise => otherwise :: cases.map Prod.snd

/-- The declaration that a node is a leaf of. -/
def declared? : Node → Option Nat
  | .nop id | .leaf id => some id
  | .illegal | .branch .. | .switch .. => none

/-- The leaf of an entry. -/
def ofEntry (entry : Entry) : Node :=
  match entry.declaration.kind with
  | .nop => .nop entry.id
  | .regular | .illegal => .leaf entry.id

/-- A node that tests bits, with keys that fit if it is a switch. -/
inductive Dispatches : Node → Prop
  | branch {bit ifZero ifOne : Nat} : Dispatches (.branch bit ifZero ifOne)
  | switch {mask : Encoding} {cases : List (Encoding × Nat)} {otherwise : Nat}
      (hkeys : KeysFit mask (cases.map Prod.fst)) : Dispatches (.switch mask cases otherwise)

theorem declared?_ofEntry (entry : Entry) : (ofEntry entry).declared? = some entry.id := by
  rw [ofEntry]
  split <;> rfl

theorem children_ofEntry (entry : Entry) : (ofEntry entry).children = [] := by
  rw [ofEntry]
  split <;> rfl

theorem ofEntry_ne_illegal (entry : Entry) : ofEntry entry ≠ .illegal := by
  rw [ofEntry]
  split <;> nofun

theorem ofEntry_ne_switch (entry : Entry) (mask : Encoding) (cases : List (Encoding × Nat))
    (otherwise : Nat) : ofEntry entry ≠ .switch mask cases otherwise := by
  rw [ofEntry]
  split <;> nofun

end Node

/-! ### Unfolding -/

/-- The node of a number, with the nodes below it, is a tree. -/
inductive At (nodes : Array Node) : Nat → Tree → Prop
  | illegal {number : Nat} (hnode : nodes[number]? = some .illegal) : At nodes number .illegal
  | nop {number : Nat} {entry : Entry} (hnode : nodes[number]? = some (.nop entry.id)) :
      At nodes number (.nop entry)
  | leaf {number : Nat} {entry : Entry} (hnode : nodes[number]? = some (.leaf entry.id)) :
      At nodes number (.leaf entry)
  | branch {number bit ifZero ifOne : Nat} {zero one : Tree}
      (hnode : nodes[number]? = some (.branch bit ifZero ifOne)) (hzero : At nodes ifZero zero)
      (hone : At nodes ifOne one) : At nodes number (.branch bit zero one)
  | switch {number other : Nat} {mask : Encoding} {numbers : List (Encoding × Nat)}
      {cases : List (Encoding × Tree)} {otherwise : Tree}
      (hnode : nodes[number]? = some (.switch mask numbers other))
      (hkeys : numbers.map Prod.fst = cases.map Prod.fst)
      (hcases : ∀ (position : Nat) (numbered : Encoding × Nat) (case : Encoding × Tree),
        numbers[position]? = some numbered → cases[position]? = some case →
          At nodes numbered.2 case.2)
      (hotherwise : At nodes other otherwise) : At nodes number (.switch mask cases otherwise)

theorem At.lt_size {nodes : Array Node} {number : Nat} {tree : Tree} (hat : At nodes number tree) :
    number < nodes.size := by
  cases hat with
  | illegal hnode | nop hnode | leaf hnode | branch hnode | switch hnode =>
      exact (Array.getElem?_eq_some_iff.mp hnode).1

/-! ### Growth -/

namespace Listing

/-- The second listing has all nodes of the first one under their numbers. -/
def Extends (before after : Listing) : Prop :=
  ∀ (number : Nat) (node : Node),
    before.nodes[number]? = some node → after.nodes[number]? = some node

theorem Extends.refl (listing : Listing) : listing.Extends listing :=
  fun _ _ hnode => hnode

theorem Extends.trans {before middle after : Listing} (hfirst : before.Extends middle)
    (hsecond : middle.Extends after) : before.Extends after :=
  fun number node hnode => hsecond number node (hfirst number node hnode)

theorem extends_push (listing : Listing) (node : Node) :
    listing.Extends (listing.push node).2 := by
  intro number other hother
  obtain ⟨hless, -⟩ := Array.getElem?_eq_some_iff.mp hother
  rw [push, Array.getElem?_push, if_neg (Nat.ne_of_lt hless)]
  exact hother

end Listing

theorem At.extend {before after : Listing} (hextends : before.Extends after) {number : Nat} {tree : Tree}
    (hat : At before.nodes number tree) : At after.nodes number tree := by
  induction hat with
  | illegal hnode => exact .illegal (hextends _ _ hnode)
  | nop hnode => exact .nop (hextends _ _ hnode)
  | leaf hnode => exact .leaf (hextends _ _ hnode)
  | branch hnode _ _ ihZero ihOne => exact .branch (hextends _ _ hnode) ihZero ihOne
  | switch hnode hkeys _ _ ihCases ihOtherwise =>
      exact .switch (hextends _ _ hnode) hkeys ihCases ihOtherwise

namespace Listing

variable {entries : List Entry} {listing : Listing}

/-! ### Well-formed listings -/

/-- What holds of the nodes after every addition. -/
structure Valid (entries : List Entry) (listing : Listing) : Prop where
  illegal_iff : ∀ number : Nat, listing.nodes[number]? = some .illegal ↔ number = 0
  child_lt : ∀ (number : Nat) (node : Node), listing.nodes[number]? = some node →
    ∀ child ∈ node.children, child < number
  keysFit : ∀ (number : Nat) (mask : Encoding) (cases : List (Encoding × Nat)) (otherwise : Nat),
    listing.nodes[number]? = some (.switch mask cases otherwise) → KeysFit mask (cases.map Prod.fst)
  lookup_of_declared : ∀ (number : Nat) (node : Node) (id : Nat),
    listing.nodes[number]? = some node → node.declared? = some id → listing.leaves.lookup id = some number
  ofEntry_of_lookup : ∀ id number : Nat, listing.leaves.lookup id = some number →
    ∃ entry ∈ entries, entry.id = id ∧ listing.nodes[number]? = some (.ofEntry entry)

theorem valid_initial (entries : List Entry) : Valid entries .initial := by
  have hnode (number : Nat) (node : Node) :
      initial.nodes[number]? = some node ↔ number = 0 ∧ node = .illegal := by
    cases number with
    | zero => simp [initial, eq_comm]
    | succ number => simp [initial]
  refine ⟨fun number => ?_, ?_, ?_, ?_, nofun⟩
  · rw [hnode]
    exact and_iff_left rfl
  · intro number node hget child hchild
    obtain ⟨-, rfl⟩ := (hnode number node).mp hget
    cases hchild
  · intro number mask cases otherwise hget
    exact absurd ((hnode number _).mp hget).2 nofun
  · intro number node id hget hdeclared
    obtain ⟨-, rfl⟩ := (hnode number node).mp hget
    cases hdeclared

theorem getElem?_push_cases {number : Nat} {node other : Node}
    (hget : (listing.push node).2.nodes[number]? = some other) :
    number = listing.nodes.size ∧ other = node ∨ listing.nodes[number]? = some other := by
  rw [push, Array.getElem?_push] at hget
  split at hget
  · rename_i hlast
    exact .inl ⟨hlast, (Option.some.inj hget).symm⟩
  · exact .inr hget

theorem getElem?_push_self (listing : Listing) (node : Node) :
    (listing.push node).2.nodes[(listing.push node).1]? = some node := by
  rw [push, Array.getElem?_push, if_pos rfl]

/-- A node may be appended behind its children, if it is entered as a leaf whenever it is one. -/
theorem Valid.append (hvalid : listing.Valid entries) {node : Node} {leaves : List (Nat × Nat)}
    (hillegal : node ≠ .illegal) (hchildren : ∀ child ∈ node.children, child < listing.nodes.size)
    (hkeys : ∀ mask cases otherwise, node = .switch mask cases otherwise →
      KeysFit mask (cases.map Prod.fst))
    (hkept : ∀ id number, listing.leaves.lookup id = some number → leaves.lookup id = some number)
    (hdeclared : ∀ id, node.declared? = some id → leaves.lookup id = some listing.nodes.size)
    (hentered : ∀ id number, leaves.lookup id = some number →
      listing.leaves.lookup id = some number ∨
        ∃ entry ∈ entries, entry.id = id ∧ number = listing.nodes.size ∧ node = .ofEntry entry) :
    Valid entries ⟨listing.nodes.push node, leaves⟩ where
  illegal_iff := by
    intro number
    refine ⟨fun hget => ?_, fun hzero => extends_push _ _ _ _ ((hvalid.illegal_iff number).mpr hzero)⟩
    rcases getElem?_push_cases hget with ⟨-, hsame⟩ | hget
    · exact absurd hsame.symm hillegal
    · exact (hvalid.illegal_iff number).mp hget
  child_lt := by
    intro number other hget
    rcases getElem?_push_cases hget with ⟨rfl, rfl⟩ | hget
    · exact hchildren
    · exact hvalid.child_lt number other hget
  keysFit := by
    intro number mask cases otherwise hget
    rcases getElem?_push_cases hget with ⟨-, hsame⟩ | hget
    · exact hkeys mask cases otherwise hsame.symm
    · exact hvalid.keysFit number mask cases otherwise hget
  lookup_of_declared := by
    intro number other id hget hother
    rcases getElem?_push_cases hget with ⟨rfl, rfl⟩ | hget
    · exact hdeclared id hother
    · exact hkept id number (hvalid.lookup_of_declared number other id hget hother)
  ofEntry_of_lookup := by
    intro id number hlookup
    rcases hentered id number hlookup with hlookup | ⟨entry, hmem, hid, rfl, rfl⟩
    · obtain ⟨entry, hmem, hid, hget⟩ := hvalid.ofEntry_of_lookup id number hlookup
      exact ⟨entry, hmem, hid, extends_push _ _ _ _ hget⟩
    · exact ⟨entry, hmem, hid, getElem?_push_self listing _⟩

theorem Valid.pushTest (hvalid : listing.Valid entries) {node : Node}
    (hdispatches : node.Dispatches)
    (hchildren : ∀ child ∈ node.children, child < listing.nodes.size) :
    (listing.push node).2.Valid entries := by
  refine hvalid.append ?_ hchildren ?_ (fun _ _ hlookup => hlookup) ?_ (fun _ _ => .inl)
  · rintro rfl
    cases hdispatches
  · rintro mask cases otherwise rfl
    cases hdispatches with
    | switch hkeys => exact hkeys
  · intro id hdeclared
    cases hdispatches <;> cases hdeclared

theorem Valid.pushLeaf (hvalid : listing.Valid entries) {entry : Entry} (hmem : entry ∈ entries)
    (hnew : listing.leaves.lookup entry.id = none) :
    Valid entries ⟨listing.nodes.push (.ofEntry entry),
      (entry.id, listing.nodes.size) :: listing.leaves⟩ := by
  refine hvalid.append (Node.ofEntry_ne_illegal entry) ?_ ?_ ?_ ?_ ?_
  · rw [Node.children_ofEntry]
    nofun
  · exact fun mask cases otherwise hswitch =>
      absurd hswitch (Node.ofEntry_ne_switch entry mask cases otherwise)
  · intro id number hlookup
    have hne : id ≠ entry.id := by
      rintro rfl
      rw [hnew] at hlookup
      cases hlookup
    rw [List.lookup_cons, beq_eq_false_iff_ne.mpr hne]
    exact hlookup
  · intro id hdeclared
    rw [Node.declared?_ofEntry] at hdeclared
    cases hdeclared
    rw [List.lookup_cons, beq_self_eq_true]
  · intro id number hlookup
    rw [List.lookup_cons] at hlookup
    split at hlookup
    · rename_i hsame
      cases hlookup
      exact .inr ⟨entry, hmem, (beq_iff_eq.mp hsame).symm, rfl, rfl⟩
    · exact .inl hlookup

/-! ### Additions -/

/-- What an addition of a tree does: it appends nodes, and its number unfolds to the tree. -/
structure Adds (entries : List Entry) (before : Listing) (tree : Tree) (added : Nat × Listing) :
    Prop where
  valid : added.2.Valid entries
  grows : before.Extends added.2
  unfolds : At added.2.nodes added.1 tree

/-- Two entries of one position are the same one. -/
def Distinct (entries : List Entry) : Prop :=
  ∀ first ∈ entries, ∀ second ∈ entries, first.id = second.id → first = second

/-- A declaration has its leaf already, or gets one. -/
theorem Valid.leaf (hvalid : listing.Valid entries) (hdistinct : Distinct entries) {entry : Entry}
    (hmem : entry ∈ entries) :
    let added := listing.leaf entry.id (.ofEntry entry)
    added.2.Valid entries ∧ listing.Extends added.2 ∧
      added.2.nodes[added.1]? = some (.ofEntry entry) := by
  dsimp only
  rw [Listing.leaf]
  split
  · rename_i number hlookup
    obtain ⟨other, hother, hid, hget⟩ := hvalid.ofEntry_of_lookup entry.id number hlookup
    obtain rfl := hdistinct other hother entry hmem hid
    exact ⟨hvalid, .refl listing, hget⟩
  · rename_i hnew
    exact ⟨hvalid.pushLeaf hmem hnew, extends_push listing _, getElem?_push_self listing _⟩

/-- The numbers of cases unfold to them, and come before what is appended next. -/
structure AddsCases (entries : List Entry) (before : Listing) (cases : List (Encoding × Tree))
    (added : List (Encoding × Nat) × Listing) : Prop where
  valid : added.2.Valid entries
  grows : before.Extends added.2
  keys_eq : added.1.map Prod.fst = cases.map Prod.fst
  lt_size : ∀ numbered ∈ added.1, numbered.2 < added.2.nodes.size
  unfolds : ∀ (position : Nat) (numbered : Encoding × Nat) (case : Encoding × Tree),
    added.1[position]? = some numbered → cases[position]? = some case →
      At added.2.nodes numbered.2 case.2

theorem addsCases_of_adds {cases : List (Encoding × Tree)} (hvalid : listing.Valid entries)
    (hcases : ∀ case ∈ cases, ∀ listing : Listing, listing.Valid entries →
      Adds entries listing case.2 (listing.add case.2)) :
    AddsCases entries listing cases (listing.addCases cases) := by
  induction cases generalizing listing with
  | nil =>
      rw [addCases]
      refine ⟨hvalid, .refl listing, rfl, ?_, ?_⟩
      · simp
      · simp
  | cons first rest ih =>
      obtain ⟨key, child⟩ := first
      obtain ⟨hfirst, hrest⟩ := List.forall_mem_cons.mp hcases
      have hchild := hfirst listing hvalid
      have hothers := ih hchild.valid hrest
      have hunfolds := hchild.unfolds.extend hothers.grows
      rw [addCases]
      refine ⟨hothers.valid, hchild.grows.trans hothers.grows, ?_, ?_, ?_⟩
      · rw [List.map_cons, List.map_cons, hothers.keys_eq]
      · exact List.forall_mem_cons.mpr ⟨hunfolds.lt_size, hothers.lt_size⟩
      · intro position numbered case hnumbered hcase
        cases position with
        | zero =>
            cases hnumbered
            cases hcase
            exact hunfolds
        | succ position => exact hothers.unfolds position numbered case hnumbered hcase

/-- A sound tree is added node by node, its children before it. -/
theorem adds_of_sound (hdistinct : Distinct entries) {decided : Encoding} {tree : Tree}
    (hsound : tree.Sound entries decided) :
    ∀ listing : Listing, listing.Valid entries → Adds entries listing tree (listing.add tree) := by
  induction hsound with
  | illegal =>
      intro listing hvalid
      rw [add]
      exact ⟨hvalid, .refl listing, .illegal ((hvalid.illegal_iff 0).mpr rfl)⟩
  | nop hmem hkind =>
      intro listing hvalid
      obtain ⟨hafter, hgrows, hnode⟩ := hvalid.leaf hdistinct hmem
      rw [Node.ofEntry, hkind] at hafter hgrows hnode
      rw [add]
      exact ⟨hafter, hgrows, .nop hnode⟩
  | leaf hmem hkind =>
      intro listing hvalid
      obtain ⟨hafter, hgrows, hnode⟩ := hvalid.leaf hdistinct hmem
      rw [Node.ofEntry, hkind] at hafter hgrows hnode
      rw [add]
      exact ⟨hafter, hgrows, .leaf hnode⟩
  | @branch _ bit zero one _ _ _ ihZero ihOne =>
      intro listing hvalid
      -- what the first child unfolds to stays where it is while the second one is added
      have hzero := ihZero listing hvalid
      have hone := ihOne _ hzero.valid
      have hzeroLater := hzero.unfolds.extend hone.grows
      have hpush := extends_push ((listing.add zero).2.add one).2
        (.branch bit (listing.add zero).1 ((listing.add zero).2.add one).1)
      rw [add]
      refine ⟨hone.valid.pushTest .branch ?_, (hzero.grows.trans hone.grows).trans hpush, ?_⟩
      · intro child hchild
        simp only [Node.children, List.mem_cons, List.not_mem_nil, or_false] at hchild
        rcases hchild with rfl | rfl
        · exact hzeroLater.lt_size
        · exact hone.unfolds.lt_size
      · exact .branch (getElem?_push_self _ _) (hzeroLater.extend hpush) (hone.unfolds.extend hpush)
  | @switch _ mask cases otherwise _ _ hkeys _ _ ihCases ihOtherwise =>
      intro listing hvalid
      have hother := ihOtherwise listing hvalid
      have hcases := addsCases_of_adds hother.valid ihCases
      have hotherLater := hother.unfolds.extend hcases.grows
      have hpush := extends_push ((listing.add otherwise).2.addCases cases).2
        (.switch mask ((listing.add otherwise).2.addCases cases).1 (listing.add otherwise).1)
      rw [add]
      refine ⟨hcases.valid.pushTest (.switch ?_) ?_, (hother.grows.trans hcases.grows).trans hpush, ?_⟩
      · rw [hcases.keys_eq]
        exact hkeys
      · intro child hchild
        rcases List.mem_cons.mp hchild with rfl | hchild
        · exact hotherLater.lt_size
        · obtain ⟨numbered, hnumbered, rfl⟩ := List.mem_map.mp hchild
          exact hcases.lt_size numbered hnumbered
      · refine .switch (getElem?_push_self _ _) hcases.keys_eq ?_ (hotherLater.extend hpush)
        intro position numbered case hnumbered hcase
        exact (hcases.unfolds position numbered case hnumbered hcase).extend hpush

end Listing

end Decoder

end RiscvMachine
