import RiscvMachine.Proofs.NumberedNodes
/-!
The shape of decoders. The numbered nodes form a graph without cycles, in which every way from the
root to a leaf tests other bits at each node; so an encoding is decided after 31 tests at most.
-/

namespace RiscvMachine

namespace Decoder

/-! ### Ways through the nodes -/

namespace Node

/-- The bits that a node tests. -/
def tested : Node → Encoding
  | .branch bit _ _ => (1 : Encoding) <<< bit
  | .switch mask _ _ => mask
  | .illegal | .nop _ | .leaf _ => 0

/-- The node that an encoding goes on to. -/
def next? (raw : Encoding) : Node → Option Nat
  | .branch bit ifZero ifOne => some (if raw.getLsbD bit then ifOne else ifZero)
  | .switch mask cases otherwise =>
      match search (cases.map Prod.fst) (raw &&& mask) with
      | some position => cases[position]?.map Prod.snd
      | none => some otherwise
  | .illegal | .nop _ | .leaf _ => none

end Node

/-- What is tested on a way from a node down to a leaf. -/
inductive Path (nodes : Array Node) : Nat → List Encoding → Prop
  | leaf {number : Nat} {node : Node} (hnode : nodes[number]? = some node)
      (hleaf : node.children = []) : Path nodes number []
  | step {number child : Nat} {node : Node} {tests : List Encoding}
      (hnode : nodes[number]? = some node) (hchild : child ∈ node.children)
      (hpath : Path nodes child tests) : Path nodes number (node.tested :: tests)

/-- The way of an encoding: the nodes that test it, and the leaf that it comes to. -/
inductive Walk (nodes : Array Node) (raw : Encoding) : Nat → List Nat → Node → Prop
  | leaf {number : Nat} {node : Node} (hnode : nodes[number]? = some node)
      (hleaf : node.children = []) : Walk nodes raw number [] node
  | step {number child : Nat} {node last : Node} {visited : List Nat}
      (hnode : nodes[number]? = some node) (hnext : node.next? raw = some child)
      (hwalk : Walk nodes raw child visited last) : Walk nodes raw number (number :: visited) last

/-- What a leaf says of the encodings that come to it. -/
def decisionOf (decoder : Decoder) : Node → Decision
  | .nop id => (decoder.declaration? id).elim .illegal fun declaration => .nop ⟨id, declaration⟩
  | .leaf id =>
      (decoder.declaration? id).elim .illegal fun declaration => .instruction ⟨id, declaration⟩
  | .illegal | .branch .. | .switch .. => .illegal

/-! ### Subtrees -/

namespace Tree

def children : Tree → List Tree
  | illegal | nop _ | leaf _ => []
  | branch _ zero one => [zero, one]
  | switch _ cases otherwise => otherwise :: cases.map Prod.snd

def tested : Tree → Encoding
  | branch bit _ _ => (1 : Encoding) <<< bit
  | switch mask _ _ => mask
  | illegal | nop _ | leaf _ => 0

theorem depth_le_caseDepth {cases : List (Encoding × Tree)} {case : Encoding × Tree}
    (hmem : case ∈ cases) : case.2.depth ≤ caseDepth cases := by
  induction cases with
  | nil => cases hmem
  | cons first rest ih =>
      rw [caseDepth]
      rcases List.mem_cons.mp hmem with rfl | hmem
      · exact le_max_left _ _
      · exact (ih hmem).trans (le_max_right _ _)

theorem exists_depth_eq_caseDepth {cases : List (Encoding × Tree)} (hsome : 0 < caseDepth cases) :
    ∃ case ∈ cases, case.2.depth = caseDepth cases := by
  induction cases with
  | nil =>
      rw [caseDepth] at hsome
      exact absurd hsome (Nat.lt_irrefl 0)
  | cons first rest ih =>
      rw [caseDepth] at hsome ⊢
      rcases Nat.le_total (caseDepth rest) first.2.depth with hle | hle
      · exact ⟨first, List.mem_cons_self, (max_eq_left hle).symm⟩
      · rw [max_eq_right hle] at hsome ⊢
        obtain ⟨case, hcase, hdepth⟩ := ih hsome
        exact ⟨case, List.mem_cons_of_mem _ hcase, hdepth⟩

variable {tree subtree : Tree}

theorem depth_lt_of_mem_children (hmem : subtree ∈ tree.children) : subtree.depth < tree.depth := by
  cases tree with
  | illegal | nop | leaf => cases hmem
  | branch bit zero one =>
      rw [depth]
      simp only [children, List.mem_cons, List.not_mem_nil, or_false] at hmem
      rcases hmem with rfl | rfl <;> omega
  | switch mask cases otherwise =>
      rw [depth]
      rcases List.mem_cons.mp hmem with rfl | hmem
      · omega
      · obtain ⟨case, hcase, rfl⟩ := List.mem_map.mp hmem
        have hle := depth_le_caseDepth hcase
        omega

/-- A tree is one deeper than the deepest of its subtrees. -/
theorem exists_depth_eq_of_children (hsome : tree.children ≠ []) :
    ∃ subtree ∈ tree.children, tree.depth = subtree.depth + 1 := by
  cases tree with
  | illegal | nop | leaf => exact absurd rfl hsome
  | branch bit zero one =>
      rw [depth]
      rcases Nat.le_total one.depth zero.depth with hle | hle
      · exact ⟨zero, by simp [children], by omega⟩
      · exact ⟨one, by simp [children], by omega⟩
  | switch mask cases otherwise =>
      rw [depth]
      rcases Nat.lt_or_ge otherwise.depth (caseDepth cases) with hless | hle
      · obtain ⟨case, hcase, hdepth⟩ := exists_depth_eq_caseDepth (Nat.zero_lt_of_lt hless)
        exact ⟨case.2, List.mem_cons_of_mem _ (List.mem_map_of_mem hcase), by omega⟩
      · exact ⟨otherwise, List.mem_cons_self, by omega⟩

theorem depth_eq_zero_of_children (hnone : tree.children = []) : tree.depth = 0 := by
  cases tree with
  | illegal | nop | leaf => rw [depth]
  | branch | switch => cases hnone

/-- A subtree is sound where the bits of the test above it are decided as well. -/
theorem Sound.of_mem_children {entries : List Entry} {decided : Encoding}
    (hsound : tree.Sound entries decided) (hmem : subtree ∈ tree.children) :
    tree.tested ≠ 0 ∧ tree.tested &&& decided = 0 ∧
      subtree.Sound entries (decided ||| tree.tested) := by
  cases hsound with
  | illegal | nop | leaf => cases hmem
  | @branch _ bit zero one hbit hzero hone =>
      refine ⟨flag_ne_zero (mem_undecidedBits.mp hbit).1, flag_and_decided hbit, ?_⟩
      simp only [children, List.mem_cons, List.not_mem_nil, or_false] at hmem
      rcases hmem with rfl | rfl
      · exact hzero
      · exact hone
  | switch hne hfresh _ hcases hotherwise =>
      refine ⟨hne, hfresh, ?_⟩
      rcases List.mem_cons.mp hmem with rfl | hmem
      · exact hotherwise
      · obtain ⟨case, hcase, rfl⟩ := List.mem_map.mp hmem
        exact hcases case hcase

end Tree

theorem exists_getElem?_of_length_eq {α β : Type} {first : List α} {second : List β}
    (hlength : first.length = second.length) {position : Nat} {element : α}
    (hfirst : first[position]? = some element) : ∃ other, second[position]? = some other := by
  have hless := (List.getElem?_eq_some_iff.mp hfirst).1
  exact ⟨_, List.getElem?_eq_getElem (hlength ▸ hless)⟩

variable {nodes : Array Node} {number : Nat} {tree : Tree}

/-- The children of a node unfold to the subtrees of what it unfolds to. -/
theorem At.exists_node (hat : At nodes number tree) :
    ∃ node, nodes[number]? = some node ∧ node.tested = tree.tested ∧
      (∀ child ∈ node.children, ∃ subtree ∈ tree.children, At nodes child subtree) ∧
        ∀ subtree ∈ tree.children, ∃ child ∈ node.children, At nodes child subtree := by
  cases hat with
  | illegal hnode | nop hnode | leaf hnode => exact ⟨_, hnode, rfl, nofun, nofun⟩
  | branch hnode hzero hone =>
      refine ⟨_, hnode, rfl, ?_, ?_⟩
      · simp only [Node.children, Tree.children, List.mem_cons, List.not_mem_nil, or_false]
        rintro child (rfl | rfl)
        · exact ⟨_, .inl rfl, hzero⟩
        · exact ⟨_, .inr rfl, hone⟩
      · simp only [Node.children, Tree.children, List.mem_cons, List.not_mem_nil, or_false]
        rintro subtree (rfl | rfl)
        · exact ⟨_, .inl rfl, hzero⟩
        · exact ⟨_, .inr rfl, hone⟩
  | @switch _ other mask numbers cases otherwise hnode hkeys hcases hotherwise =>
      have hlength : numbers.length = cases.length := by
        simpa using congrArg List.length hkeys
      refine ⟨_, hnode, rfl, ?_, ?_⟩
      · intro child hchild
        rcases List.mem_cons.mp hchild with rfl | hchild
        · exact ⟨otherwise, List.mem_cons_self, hotherwise⟩
        · obtain ⟨numbered, hnumbered, rfl⟩ := List.mem_map.mp hchild
          obtain ⟨position, hposition⟩ := List.mem_iff_getElem?.mp hnumbered
          obtain ⟨case, hcase⟩ := exists_getElem?_of_length_eq hlength hposition
          exact ⟨case.2, List.mem_cons_of_mem _ (List.mem_map_of_mem (List.mem_of_getElem? hcase)),
            hcases position numbered case hposition hcase⟩
      · intro subtree hsubtree
        rcases List.mem_cons.mp hsubtree with rfl | hsubtree
        · exact ⟨other, List.mem_cons_self, hotherwise⟩
        · obtain ⟨case, hcase, rfl⟩ := List.mem_map.mp hsubtree
          obtain ⟨position, hposition⟩ := List.mem_iff_getElem?.mp hcase
          obtain ⟨numbered, hnumbered⟩ := exists_getElem?_of_length_eq hlength.symm hposition
          exact ⟨numbered.2,
            List.mem_cons_of_mem _ (List.mem_map_of_mem (List.mem_of_getElem? hnumbered)),
            hcases position numbered case hnumbered hposition⟩

/-! ### Paths -/

/-- No test on a path is about bits that were decided before. -/
theorem tests_of_path {entries : List Entry} {decided : Encoding} {tests : List Encoding}
    (hsound : tree.Sound entries decided) (hat : At nodes number tree)
    (hpath : Path nodes number tests) :
    (∀ test ∈ tests, test ≠ 0 ∧ test &&& decided = 0) ∧
      tests.Pairwise fun first second => first &&& second = 0 := by
  induction hpath generalizing tree decided with
  | leaf => exact ⟨nofun, .nil⟩
  | @step _ child node tests hnode hchild _ ih =>
      obtain ⟨_, hget, htested, hdown, -⟩ := hat.exists_node
      obtain rfl := Option.some.inj (hnode.symm.trans hget)
      obtain ⟨subtree, hsubtree, hatChild⟩ := hdown child hchild
      obtain ⟨hne, hfresh, hsoundChild⟩ := hsound.of_mem_children hsubtree
      obtain ⟨hbelow, hpairwise⟩ := ih hsoundChild hatChild
      rw [htested]
      have hlater : ∀ test ∈ tests, test &&& decided = 0 ∧ tree.tested &&& test = 0 := by
        intro test htest
        have hboth := (hbelow test htest).2
        rw [BitVec.and_or_distrib_left] at hboth
        obtain ⟨hbefore, htop⟩ := BitVec.or_eq_zero_iff.mp hboth
        exact ⟨hbefore, (BitVec.and_comm _ _).trans htop⟩
      refine ⟨List.forall_mem_cons.mpr ⟨⟨hne, hfresh⟩, fun test htest => ?_⟩, ?_⟩
      · exact ⟨(hbelow test htest).1, (hlater test htest).1⟩
      · exact List.pairwise_cons.mpr ⟨fun test htest => (hlater test htest).2, hpairwise⟩

theorem length_le_depth {tests : List Encoding} (hat : At nodes number tree)
    (hpath : Path nodes number tests) : tests.length ≤ tree.depth := by
  induction hpath generalizing tree with
  | leaf => exact Nat.zero_le _
  | step hnode hchild _ ih =>
      obtain ⟨_, hget, -, hdown, -⟩ := hat.exists_node
      obtain rfl := Option.some.inj (hnode.symm.trans hget)
      obtain ⟨subtree, hsubtree, hatChild⟩ := hdown _ hchild
      have hless := Tree.depth_lt_of_mem_children hsubtree
      have hle := ih hatChild
      rw [List.length_cons]
      omega

theorem exists_path_of_depth (hat : At nodes number tree) :
    ∃ tests, Path nodes number tests ∧ tests.length = tree.depth := by
  generalize hdepth : tree.depth = depth
  induction depth generalizing tree number with
  | zero =>
      obtain ⟨node, hnode, -, hdown, -⟩ := hat.exists_node
      refine ⟨[], .leaf hnode ?_, rfl⟩
      refine List.eq_nil_iff_forall_not_mem.mpr fun child hchild => ?_
      obtain ⟨subtree, hsubtree, -⟩ := hdown child hchild
      have hless := Tree.depth_lt_of_mem_children hsubtree
      omega
  | succ depth ih =>
      have hsome : tree.children ≠ [] := by
        intro hnone
        rw [Tree.depth_eq_zero_of_children hnone] at hdepth
        cases hdepth
      obtain ⟨node, hnode, -, -, hup⟩ := hat.exists_node
      obtain ⟨subtree, hsubtree, hdeepest⟩ := Tree.exists_depth_eq_of_children hsome
      obtain ⟨child, hchild, hatChild⟩ := hup subtree hsubtree
      obtain ⟨tests, hpath, hlength⟩ := ih hatChild (by omega)
      exact ⟨node.tested :: tests, .step hnode hchild hpath, by rw [List.length_cons, hlength]⟩

/-! ### Walks -/

/-- Where an encoding goes on to, the tree goes on to as well. -/
theorem exists_next (raw : Encoding) (hat : At nodes number tree) (hsome : tree.children ≠ []) :
    ∃ node child subtree, nodes[number]? = some node ∧ node.next? raw = some child ∧
      subtree ∈ tree.children ∧ At nodes child subtree ∧ tree.decide raw = subtree.decide raw := by
  cases hat with
  | illegal | nop | leaf => exact absurd rfl hsome
  | @branch _ bit ifZero ifOne zero one hnode hzero hone =>
      rw [Tree.decide]
      cases hset : raw.getLsbD bit with
      | false =>
          refine ⟨_, ifZero, zero, hnode, ?_, by simp [Tree.children], hzero, rfl⟩
          rw [Node.next?, hset]
          rfl
      | true =>
          refine ⟨_, ifOne, one, hnode, ?_, by simp [Tree.children], hone, rfl⟩
          rw [Node.next?, hset]
          rfl
  | @switch _ other mask numbers cases otherwise hnode hkeys hcases hotherwise =>
      rw [Tree.decide]
      cases hsearch : search (cases.map Prod.fst) (raw &&& mask) with
      | none =>
          refine ⟨_, other, otherwise, hnode, ?_, List.mem_cons_self, hotherwise, rfl⟩
          rw [Node.next?, hkeys, hsearch]
      | some position =>
          -- both lists have the key at the position that the search has found
          have hcaseKey := getElem?_of_search hsearch
          have hnumberKey := hcaseKey
          rw [← hkeys] at hnumberKey
          rw [List.getElem?_map] at hcaseKey hnumberKey
          obtain ⟨case, hcase, -⟩ := Option.map_eq_some_iff.mp hcaseKey
          obtain ⟨numbered, hnumbered, -⟩ := Option.map_eq_some_iff.mp hnumberKey
          refine ⟨_, numbered.2, case.2, hnode, ?_, ?_, hcases position numbered case hnumbered hcase,
            decideAt_of_getElem? hcase⟩
          · rw [Node.next?, hkeys, hsearch]
            dsimp only
            rw [hnumbered]
            rfl
          · exact List.mem_cons_of_mem _ (List.mem_map_of_mem (List.mem_of_getElem? hcase))

variable {decoder : Decoder} {decided : Encoding}

theorem exists_leaf (raw : Encoding)
    (hsound : tree.Sound (entriesOf decoder.declarations) decided) (hat : At nodes number tree)
    (hnone : tree.children = []) :
    ∃ node, nodes[number]? = some node ∧ node.children = [] ∧
      decoder.decisionOf node = tree.decide raw := by
  cases hsound with
  | illegal =>
      cases hat with
      | illegal hnode =>
          refine ⟨_, hnode, rfl, ?_⟩
          rw [Tree.decide]
          rfl
  | nop hmem =>
      cases hat with
      | nop hnode =>
          refine ⟨_, hnode, rfl, ?_⟩
          rw [Tree.decide, decisionOf, declaration?, mem_entriesOf.mp hmem]
          rfl
  | leaf hmem =>
      cases hat with
      | leaf hnode =>
          refine ⟨_, hnode, rfl, ?_⟩
          rw [Tree.decide, decisionOf, declaration?, mem_entriesOf.mp hmem]
          rfl
  | branch | switch => cases hnone

/-- An encoding comes to the leaf of its decision, past no more nodes than the tree is deep. -/
theorem exists_walk (raw : Encoding)
    (hsound : tree.Sound (entriesOf decoder.declarations) decided) (hat : At nodes number tree) :
    ∃ visited last, Walk nodes raw number visited last ∧ visited.length ≤ tree.depth ∧
      decoder.decisionOf last = tree.decide raw := by
  generalize hdepth : tree.depth = depth
  induction depth using Nat.strongRecOn generalizing tree number decided with
  | ind depth ih =>
      by_cases hnone : tree.children = []
      · obtain ⟨node, hnode, hleaf, hdecision⟩ := exists_leaf raw hsound hat hnone
        exact ⟨[], node, .leaf hnode hleaf, Nat.zero_le _, hdecision⟩
      · obtain ⟨node, child, subtree, hnode, hnext, hsubtree, hatChild, hdecide⟩ :=
          exists_next raw hat hnone
        have hless := Tree.depth_lt_of_mem_children hsubtree
        obtain ⟨-, -, hsoundChild⟩ := hsound.of_mem_children hsubtree
        obtain ⟨visited, last, hwalk, hlength, hdecision⟩ :=
          ih subtree.depth (hdepth ▸ hless) hsoundChild hatChild rfl
        refine ⟨number :: visited, last, .step hnode hnext hwalk, ?_, hdecision.trans hdecide.symm⟩
        rw [List.length_cons]
        omega

/-! ### Decoders -/

/-- The shape of a decoder with numbered nodes. -/
structure Shape (decoder : Decoder) (root : Nat) (nodes : Array Node) : Prop where
  illegal_iff : ∀ number : Nat, nodes[number]? = some .illegal ↔ number = 0
  root_last : root + 1 = nodes.size
  root_switch : ∃ mask cases otherwise,
    nodes[root]? = some (.switch mask cases otherwise) ∧ mask &&& 3 = 3
  child_lt : ∀ (number : Nat) (node : Node), nodes[number]? = some node →
    ∀ child ∈ node.children, child < number
  keysFit : ∀ (number : Nat) (mask : Encoding) (cases : List (Encoding × Nat)) (otherwise : Nat),
    nodes[number]? = some (.switch mask cases otherwise) → KeysFit mask (cases.map Prod.fst)
  leaf_unique : ∀ (first second : Nat) (node other : Node) (id : Nat),
    nodes[first]? = some node → nodes[second]? = some other →
      node.declared? = some id → other.declared? = some id → first = second
  tests_disjoint : ∀ tests, Path nodes root tests →
    (∀ test ∈ tests, test ≠ 0) ∧ tests.Pairwise fun first second => first &&& second = 0
  longest : ∃ tests, Path nodes root tests ∧ tests.length = decoder.depth
  length_le : ∀ tests, Path nodes root tests → tests.length ≤ decoder.depth
  depth_le : decoder.depth ≤ 31
  decides : ∀ raw, ∃ visited last, Walk nodes raw root visited last ∧ visited.length ≤ 31 ∧
    decoder.decisionOf last = decoder.decide raw

theorem distinct_entriesOf (declarations : List Declaration) :
    Listing.Distinct (entriesOf declarations) :=
  fun _ hfirst _ hsecond => eq_of_id_eq hfirst hsecond

theorem shape_of_build {xlen : Xlen} {declarations : List Declaration}
    (hbuild : build xlen declarations = .ok decoder) :
    Shape decoder decoder.listing.1 decoder.listing.2 := by
  obtain ⟨-, hdeclarations, hnonempty, hcheck, hsplit⟩ := build_eq_ok hbuild
  obtain ⟨mask, cases, otherwise, htree, hcovers⟩ :=
    exists_switch_of_split hnonempty hcheck hsplit
  rw [← hdeclarations] at hsplit
  have hsound : decoder.tree.Sound (entriesOf decoder.declarations) 0 :=
    sound_of_split (fun _ hmem => hmem) hsplit
  have hadds := Listing.adds_of_sound (distinct_entriesOf decoder.declarations) hsound .initial
    (Listing.valid_initial _)
  have hvalid := hadds.valid
  have hat := hadds.unfolds
  have hdepth : decoder.depth ≤ 31 := by
    rw [htree] at hsound
    rw [depth, htree]
    exact depth_le_of_covers hsound hcovers
  exact {
    illegal_iff := hvalid.illegal_iff
    root_last := by
      simp only [listing, htree, Listing.add, Listing.push, Array.size_push]
    root_switch := by
      have hroot : At decoder.listing.2 decoder.listing.1 (.switch mask cases otherwise) := by
        rw [← htree]
        exact hat
      cases hroot with
      | switch hnode => exact ⟨mask, _, _, hnode, hcovers⟩
    child_lt := hvalid.child_lt
    keysFit := hvalid.keysFit
    leaf_unique := by
      intro first second node other id hfirst hsecond hnode hother
      have hsame := (hvalid.lookup_of_declared first node id hfirst hnode).symm.trans
        (hvalid.lookup_of_declared second other id hsecond hother)
      exact Option.some.inj hsame
    tests_disjoint := by
      intro tests hpath
      obtain ⟨htests, hpairwise⟩ := tests_of_path hsound hat hpath
      exact ⟨fun test htest => (htests test htest).1, hpairwise⟩
    longest := exists_path_of_depth hat
    length_le := fun tests hpath => length_le_depth hat hpath
    depth_le := hdepth
    decides := by
      intro raw
      obtain ⟨visited, last, hwalk, hlength, hdecision⟩ := exists_walk raw hsound hat
      exact ⟨visited, last, hwalk, hlength.trans hdepth, hdecision⟩ }

/-- The construction ends by itself for all declarations: fuel for more steps than an encoding has
bits changes nothing. Where it succeeds, the decoder is in shape. -/
theorem build_wellShaped (xlen : Xlen) (declarations : List Declaration) :
    (∀ fuel, 32 < fuel → split fuel (entriesOf (included xlen declarations)) 0 0 =
      split 33 (entriesOf (included xlen declarations)) 0 0) ∧
      ∀ decoder, build xlen declarations = .ok decoder →
        Shape decoder decoder.listing.1 decoder.listing.2 := by
  refine ⟨fun fuel hfuel => ?_, fun decoder hbuild => shape_of_build hbuild⟩
  have hbits := card_undecidedBits_le 0
  exact split_congr_fuel (by omega) (by omega)

theorem build_wellShaped_overlapping :
    ∃ decoder, build .x64 overlapping = .ok decoder ∧
      Shape decoder decoder.listing.1 decoder.listing.2 := by
  have hbuilt : (build .x64 overlapping).toBool = true := by decide +kernel
  obtain ⟨decoder, hbuild⟩ := exists_ok_of_toBool hbuilt
  exact ⟨decoder, hbuild, (build_wellShaped .x64 overlapping).2 decoder hbuild⟩

end Decoder

end RiscvMachine
