import EconomicLedger.Lib.StableSort
import EconomicLedger.Trace.Rebuild

/-!
# Flattening and rebuilding

A tree that carries its own trace addresses is rebuilt from the rows of its pre-order.
-/

namespace EconomicLedger.Trace
open Model Fallible

/-! ## Assigned addresses -/

theorem assign_address (addr : List Int) (tree : RawTrace) :
    (assignTraceAddresses addr tree).traceAddress = addr := by
  cases tree
  rfl

theorem assign_calls (addr : List Int) (tree : RawTrace) :
    (assignTraceAddresses addr tree).calls = assignChildAddresses addr 0 tree.calls := by
  cases tree
  rfl

theorem assigned_children (addr : List Int) (i : Nat) (calls : List RawTrace)
    (assigned : assignChildAddresses addr i calls = calls) :
    (∀ child ∈ calls, assignTraceAddresses child.traceAddress child = child ∧
      ∃ j : Nat, i ≤ j ∧ child.traceAddress = addr ++ [(j : Int)]) ∧
    calls.Pairwise fun child child' => child.lastComponent < child'.lastComponent := by
  induction calls generalizing i with
  | nil => simp
  | cons child rest ih =>
      rw [assignChildAddresses, List.cons.injEq] at assigned
      obtain ⟨here, later⟩ := assigned
      have address : child.traceAddress = addr ++ [(i : Int)] := by
        rw [← here, assign_address]
      obtain ⟨below, order⟩ := ih (i + 1) later
      refine ⟨?_, List.Pairwise.cons ?_ order⟩
      · intro child' member
        rcases List.mem_cons.mp member with rfl | member
        · exact ⟨by rw [address, here], i, le_refl i, address⟩
        · obtain ⟨own, j, above, address'⟩ := below child' member
          exact ⟨own, j, by omega, address'⟩
      · intro child' member
        obtain ⟨-, j, above, address'⟩ := below child' member
        rw [lastComponent_concat child addr i address, lastComponent_concat child' addr j address']
        omega

theorem assigned_calls (node : RawTrace)
    (assigned : assignTraceAddresses node.traceAddress node = node) :
    assignChildAddresses node.traceAddress 0 node.calls = node.calls := by
  rw [← assign_calls, assigned]

theorem assigned_below (addr : List Int) (tree : RawTrace)
    (assigned : assignTraceAddresses addr tree = tree) :
    ∀ node ∈ flattenCallTree tree, assignTraceAddresses node.traceAddress node = node := by
  induction tree using tree_induction generalizing addr with
  | step tree ih =>
      intro node inside
      have own : tree.traceAddress = addr := by rw [← assigned, assign_address]
      rw [flattenCallTree_eq] at inside
      rcases List.mem_cons.mp inside with rfl | deeper
      · rw [own, assigned]
      · obtain ⟨child, call, under⟩ := List.mem_flatMap.mp deeper
        have children := assigned_children _ 0 _ (assigned_calls tree (own ▸ assigned))
        exact ih child call _ (children.1 child call).1 node under

/-! ## Nodes of the pre-order -/

theorem parent_of_node (tree : RawTrace) :
    ∀ node ∈ flattenCallTree tree, node = tree ∨ ∃ parent ∈ flattenCallTree tree, node ∈ parent.calls := by
  induction tree using tree_induction with
  | step tree ih =>
      intro node inside
      rw [flattenCallTree_eq] at inside ⊢
      rcases List.mem_cons.mp inside with rfl | deeper
      · exact Or.inl rfl
      · obtain ⟨child, call, under⟩ := List.mem_flatMap.mp deeper
        right
        rcases ih child call node under with rfl | ⟨parent, above, member⟩
        · exact ⟨tree, List.mem_cons_self, call⟩
        · exact ⟨parent, List.mem_cons_of_mem _ (List.mem_flatMap.mpr ⟨child, call, above⟩), member⟩

theorem child_mem_flatten (tree : RawTrace) :
    ∀ node ∈ flattenCallTree tree, ∀ child ∈ node.calls, child ∈ flattenCallTree tree := by
  induction tree using tree_induction with
  | step tree ih =>
      intro node inside child call
      rw [flattenCallTree_eq] at inside ⊢
      apply List.mem_cons_of_mem
      rcases List.mem_cons.mp inside with rfl | deeper
      · exact List.mem_flatMap.mpr ⟨child, call, root_mem_flatten child⟩
      · obtain ⟨first, above, under⟩ := List.mem_flatMap.mp deeper
        exact List.mem_flatMap.mpr ⟨first, above, ih first above node under child call⟩

mutual
theorem flatten_eq_frames (ancestors : List RawTrace) :
    (tree : RawTrace) → flattenCallTree tree = (frames ancestors tree).map Frame.node
  | ⟨_, _, _, _, _, _, _, _, _, _, _, _, _, calls, _⟩ => by
      rw [flattenCallTree, frames_eq, List.map_cons, flattenCalls_eq_frames]
theorem flattenCalls_eq_frames (ancestors : List RawTrace) :
    (calls : List RawTrace) → flattenCalls calls = (framesBelow ancestors calls).map Frame.node
  | [] => rfl
  | child :: rest => by
      rw [flattenCalls, framesBelow, List.map_append, flatten_eq_frames ancestors child,
        flattenCalls_eq_frames ancestors rest]
end

theorem flatten_assigned_sorted (tree : RawTrace) (assigned : Assigned tree) :
    (flattenCallTree tree).Pairwise fun node node' => node.traceAddress < node'.traceAddress := by
  rw [flatten_eq_frames [], List.pairwise_map]
  exact frames_sorted tree assigned

/-! ## The tree grown from its own rows -/

theorem grow_eq_self (traces : List RawTrace) (depth : Nat) (tree : RawTrace)
    (children : ∀ node ∈ flattenCallTree tree, childrenOf traces node.traceAddress = node.calls.map bare)
    (deeper : ∀ node ∈ flattenCallTree tree, ∀ child ∈ node.calls,
      child.traceAddress.length = node.traceAddress.length + 1)
    (bound : ∀ node ∈ flattenCallTree tree, node.traceAddress.length < tree.traceAddress.length + depth) :
    grow traces depth (bare tree) = tree := by
  induction tree using tree_induction generalizing depth with
  | step tree ih =>
      have self := root_mem_flatten tree
      have under : ∀ child ∈ tree.calls, ∀ node ∈ flattenCallTree child, node ∈ flattenCallTree tree := by
        intro child call node inside
        rw [flattenCallTree_eq]
        exact List.mem_cons_of_mem _ (List.mem_flatMap.mpr ⟨child, call, inside⟩)
      cases depth with
      | zero => exact absurd (bound tree self) (by simp)
      | succ depth =>
          have calls : (childrenOf traces tree.traceAddress).map (grow traces depth) = tree.calls := by
            rw [children tree self, List.map_map]
            refine (List.map_congr_left fun child call => ?_).trans (List.map_id _)
            refine ih child call depth (fun node inside => children node (under child call node inside))
              (fun node inside => deeper node (under child call node inside)) fun node inside => ?_
            have reach := bound node (under child call node inside)
            have length := deeper tree self child call
            omega
          rw [grow]
          change { bare tree with calls := (childrenOf traces tree.traceAddress).map (grow traces depth) } = tree
          rw [calls]
          cases tree
          rfl

theorem traceRows_of_assigned (tree : RawTrace) (assigned : Assigned tree)
    (oneTx : ∀ node ∈ flattenCallTree tree, node.txHash = tree.txHash) :
    TraceRows ((flattenCallTree tree).map bare) where
  nonempty := by
    rw [flattenCallTree_eq]
    exact List.cons_ne_nil _ _
  oneTx := by
    intro t member t' member'
    obtain ⟨node, inside, rfl⟩ := List.mem_map.mp member
    obtain ⟨node', inside', rfl⟩ := List.mem_map.mp member'
    exact (oneTx node inside).trans (oneTx node' inside').symm
  distinct := by
    rw [List.map_map]
    exact addresses_nodup (flatten_assigned_sorted tree assigned)
  closed := by
    intro t member nonempty
    obtain ⟨node, inside, rfl⟩ := List.mem_map.mp member
    rw [List.map_map]
    rcases parent_of_node tree node inside with rfl | ⟨parent, above, call⟩
    · refine absurd ?_ nonempty
      change node.traceAddress = []
      rw [← assigned, assign_address]
    · have own := assigned_below [] tree assigned parent above
      obtain ⟨-, j, -, address⟩ := (assigned_children _ 0 _ (assigned_calls parent own)).1 node call
      refine List.mem_map.mpr ⟨parent, above, ?_⟩
      change parent.traceAddress = node.traceAddress.dropLast
      rw [address, List.dropLast_concat]

theorem children_of_assigned (tree : RawTrace) (assigned : Assigned tree) (node : RawTrace)
    (inside : node ∈ flattenCallTree tree) :
    (∀ child ∈ node.calls, ∃ i, child.traceAddress = node.traceAddress ++ [i]) ∧
    node.calls.Pairwise fun child child' => child.lastComponent < child'.lastComponent := by
  obtain ⟨below, order⟩ := assigned_children _ 0 _
    (assigned_calls node (assigned_below [] tree assigned node inside))
  refine ⟨fun child call => ?_, order⟩
  obtain ⟨-, j, -, address⟩ := below child call
  exact ⟨j, address⟩

theorem call_of_address (tree : RawTrace) (assigned : Assigned tree) (node child : RawTrace) (i : Int)
    (inside : node ∈ flattenCallTree tree) (here : child ∈ flattenCallTree tree)
    (below : child.traceAddress = node.traceAddress ++ [i]) : child ∈ node.calls := by
  rcases parent_of_node tree child here with rfl | ⟨parent, above, call⟩
  · have root : child.traceAddress = [] := by rw [← assigned, assign_address]
    rw [root] at below
    exact absurd below (by simp)
  · obtain ⟨j, own⟩ := (children_of_assigned tree assigned parent above).1 child call
    rw [own] at below
    have same := (List.append_inj' below rfl).1
    exact eq_of_same_address (flatten_assigned_sorted tree assigned) above inside same ▸ call

theorem childrenOf_assigned (tree : RawTrace) (assigned : Assigned tree)
    (sorted : DepthSorted (inDepthOrder ((flattenCallTree tree).map bare))) (node : RawTrace)
    (inside : node ∈ flattenCallTree tree) :
    childrenOf (inDepthOrder ((flattenCallTree tree).map bare)) node.traceAddress =
      node.calls.map bare := by
  obtain ⟨below, order⟩ := children_of_assigned tree assigned node inside
  refine StableSort.eq_of_strict RawTrace.lastComponent (childrenOf_sorted sorted node.traceAddress)
    (List.pairwise_map.mpr order) ?_
  intro t
  rw [mem_childrenOf, (inDepthOrder_perm _).mem_iff]
  constructor
  · rintro ⟨member, i, address⟩
    obtain ⟨child, here, rfl⟩ := List.mem_map.mp member
    exact List.mem_map_of_mem (call_of_address tree assigned node child i inside here address)
  · intro member
    obtain ⟨child, call, rfl⟩ := List.mem_map.mp member
    exact ⟨List.mem_map_of_mem (child_mem_flatten tree node inside child call), below child call⟩

/-- `build_call_tree` inverts `flatten_call_tree` on a tree that carries its own addresses. -/
theorem buildCallTree_flatten (tree : RawTrace) (assigned : Assigned tree)
    (oneTx : ∀ node ∈ flattenCallTree tree, node.txHash = tree.txHash) (rows : List TraceRow)
    (chainId : Option Int)
    (converted : rows.mapM (rowToRawTrace chainId) = .ok ((flattenCallTree tree).map bare)) :
    buildCallTree rows chainId = .ok tree := by
  have shape := traceRows_of_assigned tree assigned oneTx
  have self := root_mem_flatten tree
  have address : tree.traceAddress = [] := by rw [← assigned, assign_address]
  rw [buildCallTree_eq_grow converted shape (bare tree) (List.mem_map_of_mem self) address]
  refine congrArg Except.ok (grow_eq_self _ _ tree
    (childrenOf_assigned tree assigned shape.depthSorted) ?_ ?_)
  · intro node inside child call
    obtain ⟨i, own⟩ := (children_of_assigned tree assigned node inside).1 child call
    simp [own]
  · intro node inside
    have bound := le_longestAddress _ (bare node) (List.mem_map_of_mem inside)
    change node.traceAddress.length ≤ _ at bound
    omega

end EconomicLedger.Trace
