import EconomicLedger.Trace.Addresses
import EconomicLedger.Trace.Frames
import Mathlib.Data.List.Dedup
import Mathlib.Data.List.Induction

/-!
# Rebuilding a call tree from its rows

Rows whose addresses are distinct and closed under taking the parent form one tree. `grow` hangs
under every node the rows one component longer; the loop of `build_call_tree` and its sort compute
`grow` of the sorted rows.
-/

namespace EconomicLedger.Trace
open Model Fallible

def bare (node : RawTrace) : RawTrace := { node with calls := [] }

/-- The rows one component below an address. -/
def childrenOf (traces : List RawTrace) (addr : List Int) : List RawTrace :=
  traces.filter fun t => t.traceAddress ≠ [] ∧ t.traceAddress.dropLast = addr

def grow (traces : List RawTrace) : Nat → RawTrace → RawTrace
  | 0, node => node
  | depth + 1, node =>
      { node with calls := (childrenOf traces node.traceAddress).map (grow traces depth) }

theorem one_below_iff (addr address : List Int) :
    (address ≠ [] ∧ address.dropLast = addr) ↔ ∃ i, address = addr ++ [i] := by
  constructor
  · intro ⟨nonempty, above⟩
    exact ⟨address.getLast nonempty, by rw [← above, List.dropLast_concat_getLast]⟩
  · rintro ⟨i, below⟩
    simp [below]

theorem mem_childrenOf (traces : List RawTrace) (addr : List Int) (t : RawTrace) :
    t ∈ childrenOf traces addr ↔ t ∈ traces ∧ ∃ i, t.traceAddress = addr ++ [i] := by
  simp only [childrenOf, List.mem_filter, decide_eq_true_eq, one_below_iff]

theorem bare_eq_self (node : RawTrace) (leaf : node.calls = []) : bare node = node := by
  cases node
  rw [bare]
  exact congrArg₂ _ leaf.symm rfl

theorem flattenCalls_eq (calls : List RawTrace) : flattenCalls calls = calls.flatMap flattenCallTree := by
  induction calls with
  | nil => rfl
  | cons child rest ih => rw [flattenCalls, ih, List.flatMap_cons]

theorem flattenCallTree_eq (node : RawTrace) :
    flattenCallTree node = node :: node.calls.flatMap flattenCallTree := by
  rw [← flattenCalls_eq]
  cases node
  rfl

theorem root_mem_flatten (root : RawTrace) : root ∈ flattenCallTree root := by
  rw [flattenCallTree_eq]
  exact List.mem_cons_self

theorem addresses_nodup {nodes : List RawTrace}
    (sorted : nodes.Pairwise fun node node' => node.traceAddress < node'.traceAddress) :
    (nodes.map RawTrace.traceAddress).Nodup :=
  List.pairwise_map.mpr (sorted.imp fun order => ne_of_lt order)

theorem eq_of_same_address {nodes : List RawTrace}
    (sorted : nodes.Pairwise fun node node' => node.traceAddress < node'.traceAddress)
    {node node' : RawTrace} (inside : node ∈ nodes) (inside' : node' ∈ nodes)
    (same : node.traceAddress = node'.traceAddress) : node = node' :=
  List.inj_on_of_nodup_map (addresses_nodup sorted) inside inside' same

/-! ## Rows that form a tree -/

/-- Rows of one transaction, with distinct addresses that are closed under taking the parent. -/
structure TraceRows (traces : List RawTrace) : Prop where
  nonempty : traces ≠ []
  oneTx : ∀ t ∈ traces, ∀ t' ∈ traces, t.txHash = t'.txHash
  distinct : (traces.map RawTrace.traceAddress).Nodup
  closed : ∀ t ∈ traces, t.traceAddress ≠ [] →
    t.traceAddress.dropLast ∈ traces.map RawTrace.traceAddress

theorem TraceRows.perm {traces traces' : List RawTrace} (rows : TraceRows traces)
    (same : traces'.Perm traces) : TraceRows traces' where
  nonempty := fun empty => rows.nonempty (List.nil_perm.mp (empty ▸ same))
  oneTx := fun t member t' member' => rows.oneTx t (same.mem_iff.mp member) t' (same.mem_iff.mp member')
  distinct := (same.map _).nodup_iff.mpr rows.distinct
  closed := fun t member nonempty =>
    (same.map _).mem_iff.mpr (rows.closed t (same.mem_iff.mp member) nonempty)

theorem TraceRows.eq_of_address {traces : List RawTrace} (rows : TraceRows traces) {t t' : RawTrace}
    (member : t ∈ traces) (member' : t' ∈ traces) (same : t.traceAddress = t'.traceAddress) : t = t' :=
  List.inj_on_of_nodup_map rows.distinct member member' same

theorem TraceRows.prefix_mem {traces : List RawTrace} (rows : TraceRows traces) (addr rest : List Int)
    (member : addr ++ rest ∈ traces.map RawTrace.traceAddress) :
    addr ∈ traces.map RawTrace.traceAddress := by
  induction rest using List.reverseRecOn with
  | nil => simpa using member
  | append_singleton rest i ih =>
      apply ih
      obtain ⟨t, here, address⟩ := List.mem_map.mp member
      have above := rows.closed t here (by simp [address])
      rwa [address, ← List.append_assoc, List.dropLast_concat] at above

theorem TraceRows.exists_root {traces : List RawTrace} (rows : TraceRows traces) :
    ∃ root ∈ traces, root.traceAddress = [] := by
  obtain ⟨t, member⟩ := List.exists_mem_of_ne_nil _ rows.nonempty
  have here := rows.prefix_mem [] t.traceAddress (List.mem_map_of_mem member)
  exact List.mem_map.mp here

/-! ## The grown tree -/

variable {traces : List RawTrace}

theorem grow_address (depth : Nat) (t : RawTrace) : (grow traces depth t).traceAddress = t.traceAddress := by
  cases depth <;> rfl

theorem bare_grow (depth : Nat) (t : RawTrace) : bare (grow traces depth t) = bare t := by
  cases depth <;> rfl

theorem flatten_grow (depth : Nat) (t : RawTrace) :
    flattenCallTree (grow traces (depth + 1) t) = grow traces (depth + 1) t ::
      (childrenOf traces t.traceAddress).flatMap fun child => flattenCallTree (grow traces depth child) := by
  rw [flattenCallTree_eq]
  exact congrArg _ (List.flatMap_map (grow traces depth) flattenCallTree _)

def Reaches (traces : List RawTrace) (depth : Nat) (t : RawTrace) : Prop :=
  ∀ s ∈ traces, s.traceAddress.length < t.traceAddress.length + depth

theorem Reaches.child {depth : Nat} {t child : RawTrace} (reaches : Reaches traces (depth + 1) t)
    (member : child ∈ childrenOf traces t.traceAddress) : Reaches traces depth child := by
  obtain ⟨-, i, below⟩ := (mem_childrenOf traces _ child).mp member
  intro s here
  have bound := reaches s here
  rw [below, List.length_append, List.length_singleton]
  omega

theorem mem_flatten_grow (rows : TraceRows traces) (leaves : ∀ t ∈ traces, t.calls = []) (depth : Nat)
    (t : RawTrace) (member : t ∈ traces) (reaches : Reaches traces depth t) (s : RawTrace) :
    s ∈ (flattenCallTree (grow traces depth t)).map bare ↔
      s ∈ traces ∧ t.traceAddress <+: s.traceAddress := by
  induction depth generalizing t with
  | zero => exact absurd (reaches t member) (by simp)
  | succ depth ih =>
      rw [flatten_grow, List.map_cons, List.mem_cons, bare_grow,
        bare_eq_self t (leaves t member)]
      have deeper : s ∈ ((childrenOf traces t.traceAddress).flatMap fun child =>
          flattenCallTree (grow traces depth child)).map bare ↔
          ∃ child ∈ childrenOf traces t.traceAddress,
            s ∈ traces ∧ child.traceAddress <+: s.traceAddress := by
        rw [List.map_flatMap, List.mem_flatMap]
        refine exists_congr fun child => and_congr_right fun call => ?_
        exact ih child ((mem_childrenOf traces _ child).mp call).1 (reaches.child call)
      rw [deeper]
      constructor
      · rintro (rfl | ⟨child, call, here, below⟩)
        · exact ⟨member, List.prefix_refl _⟩
        · obtain ⟨-, i, address⟩ := (mem_childrenOf traces _ child).mp call
          exact ⟨here, ((List.prefix_append _ [i]).trans (address ▸ below))⟩
      · rintro ⟨here, rest, below⟩
        cases rest with
        | nil =>
            rw [List.append_nil] at below
            exact Or.inl (rows.eq_of_address here member below.symm)
        | cons i rest =>
            have address : (t.traceAddress ++ [i]) ++ rest = s.traceAddress := by simpa using below
            obtain ⟨child, childHere, childAddress⟩ := List.mem_map.mp
              (rows.prefix_mem (t.traceAddress ++ [i]) rest (address ▸ List.mem_map_of_mem here))
            refine Or.inr ⟨child, (mem_childrenOf traces _ child).mpr ⟨childHere, i, childAddress⟩,
              here, ?_⟩
            exact childAddress ▸ ⟨rest, address⟩

theorem calls_of_grow (leaves : ∀ t ∈ traces, t.calls = []) (depth : Nat) (t : RawTrace)
    (member : t ∈ traces) (reaches : Reaches traces depth t) :
    ∀ node ∈ flattenCallTree (grow traces depth t),
      node.calls.map bare = childrenOf traces node.traceAddress := by
  induction depth generalizing t with
  | zero => exact absurd (reaches t member) (by simp)
  | succ depth ih =>
      intro node inside
      rw [flatten_grow] at inside
      rcases List.mem_cons.mp inside with rfl | deeper
      · rw [grow_address]
        change ((childrenOf traces t.traceAddress).map (grow traces depth)).map bare = _
        rw [List.map_map]
        refine (List.map_congr_left fun child call => ?_).trans (List.map_id _)
        rw [Function.comp_apply, bare_grow]
        exact bare_eq_self child (leaves child ((mem_childrenOf traces _ child).mp call).1)
      · obtain ⟨child, call, below⟩ := List.mem_flatMap.mp deeper
        exact ih child ((mem_childrenOf traces _ child).mp call).1 (reaches.child call) node below

/-! ## Sorted rows -/

def DepthSorted (traces : List RawTrace) : Prop :=
  traces.Pairwise fun t t' => t.depthKey < t'.depthKey

theorem lastComponent_concat (t : RawTrace) (addr : List Int) (i : Int)
    (below : t.traceAddress = addr ++ [i]) : t.lastComponent = i := by
  simp [RawTrace.lastComponent, below]

theorem childrenOf_sorted (sorted : DepthSorted traces) (addr : List Int) :
    (childrenOf traces addr).Pairwise fun t t' => t.lastComponent < t'.lastComponent := by
  refine (sorted.sublist (List.filter_sublist (l := traces))).imp_of_mem ?_
  intro t t' member member' order
  obtain ⟨-, i, below⟩ := (mem_childrenOf traces addr t).mp member
  obtain ⟨-, j, below'⟩ := (mem_childrenOf traces addr t').mp member'
  rw [lastComponent_concat t addr i below, lastComponent_concat t' addr j below']
  rcases Prod.Lex.lt_iff.mp order with shorter | ⟨-, before⟩
  · simp [RawTrace.depthKey, below, below'] at shorter
  · simp only [RawTrace.depthKey, ofLex_toLex, below, below'] at before
    by_contra reversed
    rcases (not_lt.mp reversed).lt_or_eq with later | same
    · have after : addr ++ [j] < addr ++ [i] :=
        List.append_left_lt (List.cons_lt_cons_iff.mpr (Or.inl later))
      exact lt_asymm before after
    · exact lt_irrefl _ (same ▸ before)

theorem flatten_grow_sorted (rows : TraceRows traces) (leaves : ∀ t ∈ traces, t.calls = [])
    (sorted : DepthSorted traces) (depth : Nat) (t : RawTrace) (member : t ∈ traces)
    (reaches : Reaches traces depth t) :
    (flattenCallTree (grow traces depth t)).Pairwise
      fun node node' => node.traceAddress < node'.traceAddress := by
  have extends_of : ∀ depth t, t ∈ traces → Reaches traces depth t →
      ∀ node ∈ flattenCallTree (grow traces depth t), t.traceAddress <+: node.traceAddress :=
    fun depth t member reaches node inside =>
      ((mem_flatten_grow rows leaves depth t member reaches (bare node)).mp
        (List.mem_map_of_mem inside)).2
  induction depth generalizing t with
  | zero => exact absurd (reaches t member) (by simp)
  | succ depth ih =>
      rw [flatten_grow]
      have below : ∀ child ∈ childrenOf traces t.traceAddress,
          ∀ node ∈ flattenCallTree (grow traces depth child), child.traceAddress <+: node.traceAddress :=
        fun child call => extends_of depth child ((mem_childrenOf traces _ child).mp call).1
          (reaches.child call)
      refine List.Pairwise.cons ?_ (List.pairwise_flatMap.mpr ⟨?_, ?_⟩)
      · intro node inside
        obtain ⟨child, call, under⟩ := List.mem_flatMap.mp inside
        obtain ⟨-, i, address⟩ := (mem_childrenOf traces _ child).mp call
        rw [grow_address]
        exact lt_of_child _ _ i (address ▸ below child call node under)
      · intro child call
        exact ih child ((mem_childrenOf traces _ child).mp call).1 (reaches.child call)
      · refine (childrenOf_sorted sorted t.traceAddress).imp_of_mem ?_
        intro child child' call call' order node inside node' inside'
        obtain ⟨-, i, address⟩ := (mem_childrenOf traces _ child).mp call
        obtain ⟨-, j, address'⟩ := (mem_childrenOf traces _ child').mp call'
        rw [lastComponent_concat child _ i address, lastComponent_concat child' _ j address'] at order
        exact lt_of_sibling t.traceAddress _ _ i j order (address ▸ below child call node inside)
          (address' ▸ below child' call' node' inside')

/-! ## The loop -/

def attachedCalls (traces : List RawTrace) : Dict String (List RawTrace) :=
  Dict.groupBy (fun t => serializeTraceAddress t.traceAddress.dropLast)
    (traces.filter fun t => t.traceAddress ≠ [])

theorem attachedCalls_get (traces : List RawTrace) (addr : List Int) :
    ((attachedCalls traces).get? (serializeTraceAddress addr)).getD [] = childrenOf traces addr := by
  have group : (traces.filter fun t => t.traceAddress ≠ []).filter
      (fun t => serializeTraceAddress t.traceAddress.dropLast = serializeTraceAddress addr) =
      childrenOf traces addr := by
    rw [childrenOf, List.filter_filter]
    refine List.filter_congr fun t _ => ?_
    simp only [serialize_injective.eq_iff, Bool.decide_and, Bool.and_comm]
  rw [attachedCalls, Dict.get?_groupBy, group]
  split
  · rfl
  next absent =>
    symm
    rw [Option.getD_none, ← group, List.filter_eq_nil_iff]
    intro t member same
    exact absent (List.mem_map.mpr ⟨t, member, by simpa using same⟩)

/-- One pass of the loop over rows whose parents are all known, at most one of them a root. -/
theorem foldlM_attach (byAddr : Dict String RawTrace) (traces : List RawTrace) (state : Attached)
    (parents : ∀ t ∈ traces, t.traceAddress ≠ [] →
      (byAddr.get? (serializeTraceAddress t.traceAddress.dropLast)).isSome = true)
    (roots : (state.root.toList ++ traces.filter (·.traceAddress = [])).length ≤ 1) :
    traces.foldlM (attach byAddr) state = .ok {
      root := state.root.or (traces.find? (·.traceAddress = []))
      calls := Dict.gather (fun t => serializeTraceAddress t.traceAddress.dropLast)
        (fun o t => o.getD [] ++ [t]) state.calls (traces.filter fun t => t.traceAddress ≠ []) } := by
  induction traces generalizing state with
  | nil => simp [Dict.gather, pure, Except.pure]
  | cons t rest ih =>
      obtain ⟨here, later⟩ := List.forall_mem_cons.mp parents
      rw [List.foldlM_cons]
      by_cases isRoot : t.traceAddress = []
      · have noRoot : state.root = none := by
          cases known : state.root with
          | none => rfl
          | some root => simp [known, isRoot] at roots
        have first : attach byAddr state t = .ok { state with root := some t } := by
          simp only [attach, if_pos isRoot, noRoot]
        rw [first]
        change rest.foldlM (attach byAddr) { state with root := some t } = _
        rw [ih _ later (by simpa [isRoot, noRoot] using roots)]
        simp [isRoot, noRoot]
      · obtain ⟨parent, known⟩ := Option.isSome_iff_exists.mp (here isRoot)
        have first : attach byAddr state t = .ok { state with
            calls := state.calls.upsert (serializeTraceAddress t.traceAddress.dropLast)
              fun o => o.getD [] ++ [t] } := by
          simp only [attach, if_neg isRoot, known]
        rw [first]
        change rest.foldlM (attach byAddr) _ = _
        rw [ih _ later (by simpa [isRoot] using roots)]
        simp [isRoot, Dict.gather]

theorem sortRecursive_eq_grow (sorted : DepthSorted traces) (depth : Nat) (t : RawTrace) :
    sortRecursive (attachedCalls traces) depth t = grow traces depth t := by
  induction depth generalizing t with
  | zero => rfl
  | succ depth ih =>
      -- the rows came in depth order, so the sort finds every list sorted
      have inOrder := (childrenOf_sorted sorted t.traceAddress).imp fun order => le_of_lt order
      have same : sortRecursive (attachedCalls traces) depth = grow traces depth := funext ih
      rw [sortRecursive, grow, attachedCalls_get, List.Pairwise.insertionSort_eq inOrder, same]

/-! ## The reconstruction -/

def inDepthOrder (traces : List RawTrace) : List RawTrace :=
  traces.insertionSort (·.depthKey ≤ ·.depthKey)

theorem inDepthOrder_perm (traces : List RawTrace) : (inDepthOrder traces).Perm traces :=
  List.perm_insertionSort _ _

theorem TraceRows.depthSorted (rows : TraceRows traces) : DepthSorted (inDepthOrder traces) := by
  have weak : (inDepthOrder traces).Pairwise fun t t' => t.depthKey ≤ t'.depthKey :=
    List.pairwise_insertionSort _ _
  have distinct := List.pairwise_map.mp (rows.perm (inDepthOrder_perm traces)).distinct
  refine (weak.and distinct).imp fun ⟨order, other⟩ => lt_of_le_of_ne order fun same => other ?_
  exact congrArg (fun key => (ofLex key).2) same

theorem inDepthOrder_eq_of_perm (rows : TraceRows traces) {traces' : List RawTrace}
    (same : traces'.Perm traces) : inDepthOrder traces' = inDepthOrder traces := by
  have perm := (inDepthOrder_perm traces').trans (same.trans (inDepthOrder_perm traces).symm)
  have antisymm : ∀ t t', t ∈ inDepthOrder traces' → t' ∈ inDepthOrder traces →
      t.depthKey < t'.depthKey → t'.depthKey < t.depthKey → t = t' :=
    fun t t' _ _ before after => absurd before (lt_asymm after)
  exact perm.eq_of_pairwise antisymm (rows.perm same).depthSorted rows.depthSorted

theorem le_longestAddress (traces : List RawTrace) :
    ∀ t ∈ traces, t.traceAddress.length ≤ longestAddress traces := by
  induction traces with
  | nil => simp
  | cons t rest ih =>
      intro s member
      rcases List.mem_cons.mp member with rfl | later
      · exact le_max_left _ _
      · exact (ih s later).trans (le_max_right _ _)

theorem longestAddress_perm {traces' : List RawTrace} (same : traces'.Perm traces) :
    longestAddress traces' = longestAddress traces :=
  (same.map _).foldr_eq 0

theorem rowToRawTrace_leaf (chainId : Option Int) (row : TraceRow) (t : RawTrace)
    (converted : rowToRawTrace chainId row = .ok t) : t.calls = [] := by
  simp only [rowToRawTrace, bind_eq_ok_iff, pure_eq_ok_iff] at converted
  obtain ⟨_, _, _, _, _, _, _, _, _, _, _, _, _, _, rfl⟩ := converted
  rfl

theorem leaves_of_converted {chainId : Option Int} {rows : List TraceRow}
    (converted : rows.mapM (rowToRawTrace chainId) = .ok traces) : ∀ t ∈ traces, t.calls = [] := by
  intro t member
  obtain ⟨row, -, one⟩ := exists_of_mem_mapM _ converted t member
  exact rowToRawTrace_leaf chainId row t one

theorem buildCallTree_eq_grow {rows : List TraceRow} {chainId : Option Int}
    (converted : rows.mapM (rowToRawTrace chainId) = .ok traces) (shape : TraceRows traces)
    (root : RawTrace) (isRoot : root ∈ traces) (address : root.traceAddress = []) :
    buildCallTree rows chainId =
      .ok (grow (inDepthOrder traces) (longestAddress traces + 1) root) := by
  have some_row : rows ≠ [] := by
    rintro rfl
    exact shape.nonempty (Except.ok.inj converted).symm
  have one_tx : ¬ 1 < (traces.map RawTrace.txHash).dedup.length := by
    have members : ∀ h ∈ (traces.map RawTrace.txHash).dedup, h = root.txHash := by
      intro h member
      obtain ⟨t, here, rfl⟩ := List.mem_map.mp (List.mem_dedup.mp member)
      exact shape.oneTx t here root isRoot
    have same := List.eq_replicate_of_mem members
    have single := List.nodup_dedup (traces.map RawTrace.txHash)
    rw [same, List.nodup_replicate] at single
    omega
  let byAddr := Dict.ofList (traces.map fun t => (serializeTraceAddress t.traceAddress, t))
  have keys : byAddr.keys = traces.map fun t => serializeTraceAddress t.traceAddress := by
    have distinct := shape.distinct.map serialize_injective
    rw [List.map_map] at distinct
    refine (Dict.keys_ofList _ ?_).trans (List.map_map ..)
    rwa [List.map_map]
  have no_duplicate : byAddr.entries.length = traces.length := by
    have counted := congrArg List.length keys
    simpa [Dict.keys] using counted
  have parents : ∀ t ∈ inDepthOrder traces, t.traceAddress ≠ [] →
      (byAddr.get? (serializeTraceAddress t.traceAddress.dropLast)).isSome = true := by
    intro t member nonempty
    obtain ⟨parent, here, above⟩ := List.mem_map.mp
      (shape.closed t ((inDepthOrder_perm traces).mem_iff.mp member) nonempty)
    rw [Dict.get?_isSome_iff, keys, ← above]
    exact List.mem_map_of_mem here
  have roots : (inDepthOrder traces).filter (·.traceAddress = []) = [root] := by
    have inOrder := (shape.perm (inDepthOrder_perm traces)).distinct
    have one := Keyed.filter_key RawTrace.traceAddress inOrder
      ((inDepthOrder_perm traces).mem_iff.mpr isRoot)
    simpa only [address] using one
  have loop := foldlM_attach byAddr (inDepthOrder traces) ⟨none, Dict.empty⟩ parents (by simp [roots])
  have found : (inDepthOrder traces).find? (·.traceAddress = []) = some root := by
    rw [← List.head?_filter, roots]
    rfl
  have sorted := sortRecursive_eq_grow shape.depthSorted (longestAddress traces + 1) root
  rw [buildCallTree, if_neg some_row, converted]
  change (if 1 < (traces.map RawTrace.txHash).dedup.length then _
    else if byAddr.entries.length ≠ traces.length then _
    else (inDepthOrder traces).foldlM (attach byAddr) ⟨none, Dict.empty⟩ >>= _) = _
  rw [if_neg one_tx, if_neg (not_not.mpr no_duplicate), loop]
  simp only [found]
  exact congrArg Except.ok sorted

/-- The tree of the rows: its nodes are the rows in lexicographic order, and the calls of a node are
the rows one component below it. -/
structure Rebuilt (traces : List RawTrace) (tree : RawTrace) : Prop extends TraceRows traces where
  address : tree.traceAddress = []
  nodes : ((flattenCallTree tree).map bare).Perm traces
  sorted : (flattenCallTree tree).Pairwise fun node node' => node.traceAddress < node'.traceAddress
  calls : ∀ node ∈ flattenCallTree tree,
    node.calls.map bare = childrenOf (inDepthOrder traces) node.traceAddress

theorem rebuilt_grow {rows : List TraceRow} {chainId : Option Int}
    (converted : rows.mapM (rowToRawTrace chainId) = .ok traces) (shape : TraceRows traces)
    (root : RawTrace) (isRoot : root ∈ traces) (address : root.traceAddress = []) :
    Rebuilt traces (grow (inDepthOrder traces) (longestAddress traces + 1) root) := by
  have inOrder := shape.perm (inDepthOrder_perm traces)
  have leaves : ∀ t ∈ inDepthOrder traces, t.calls = [] := fun t member =>
    leaves_of_converted converted t ((inDepthOrder_perm traces).mem_iff.mp member)
  have rootInOrder := (inDepthOrder_perm traces).mem_iff.mpr isRoot
  have reaches : Reaches (inDepthOrder traces) (longestAddress traces + 1) root := by
    intro s member
    have bound := le_longestAddress traces s ((inDepthOrder_perm traces).mem_iff.mp member)
    omega
  have sorted := flatten_grow_sorted inOrder leaves shape.depthSorted _ root rootInOrder reaches
  refine ⟨shape, (grow_address _ root).trans address, ?_, sorted,
    calls_of_grow leaves _ root rootInOrder reaches⟩
  have distinct : ((flattenCallTree (grow (inDepthOrder traces) (longestAddress traces + 1) root)).map
      bare).Nodup := by
    refine List.Nodup.of_map RawTrace.traceAddress ?_
    rw [List.map_map]
    exact addresses_nodup sorted
  refine (List.perm_ext_iff_of_nodup distinct shape.distinct.of_map).mpr fun t => ?_
  rw [mem_flatten_grow inOrder leaves _ root rootInOrder reaches, address,
    (inDepthOrder_perm traces).mem_iff]
  simp

/-- No row is lost, invented or repeated, whatever the order of the rows: the nodes are the rows in
lexicographic order, and the calls of a node are the rows one component below it, in order. -/
theorem build_call_tree_reconstructs (rows : List TraceRow) (chainId : Option Int)
    (converted : rows.mapM (rowToRawTrace chainId) = .ok traces) (shape : TraceRows traces) :
    ∃ tree,
      (∀ rows', rows'.Perm rows → buildCallTree rows' chainId = .ok tree) ∧
      ((flattenCallTree tree).map bare).Perm traces ∧
      (flattenCallTree tree).Pairwise (fun node node' => node.traceAddress < node'.traceAddress) ∧
      ∀ node ∈ flattenCallTree tree,
        (∀ t, t ∈ node.calls.map bare ↔ t ∈ traces ∧ ∃ i, t.traceAddress = node.traceAddress ++ [i]) ∧
        node.calls.Pairwise fun child child' => child.lastComponent < child'.lastComponent := by
  obtain ⟨root, isRoot, address⟩ := shape.exists_root
  have rebuilt := rebuilt_grow converted shape root isRoot address
  refine ⟨grow (inDepthOrder traces) (longestAddress traces + 1) root, ?_, rebuilt.nodes,
    rebuilt.sorted, ?_⟩
  · intro rows' same
    obtain ⟨traces', converted', perm⟩ := mapM_perm _ converted same
    rw [buildCallTree_eq_grow converted' (shape.perm perm) root (perm.mem_iff.mpr isRoot) address,
      inDepthOrder_eq_of_perm shape perm, longestAddress_perm perm]
  · intro node inside
    rw [rebuilt.calls node inside]
    refine ⟨fun t => ?_, ?_⟩
    · rw [mem_childrenOf, (inDepthOrder_perm traces).mem_iff]
    · have order := childrenOf_sorted shape.depthSorted node.traceAddress
      rw [← rebuilt.calls node inside, List.pairwise_map] at order
      exact order

/-! ### Siblings out of order, with a gap -/

def callRow (traceAddress toAddress : String) : TraceRow :=
  Dict.ofList [("transaction_hash", .str "0xTX"), ("block_number", .int 1),
    ("trace_address", .str traceAddress), ("call_type", .str "call"), ("from_address", .str "0xfrom"),
    ("to_address", .str toAddress), ("value", .str "0"), ("gas", .int 21000), ("gas_used", .int 1000),
    ("input", .str "0x"), ("output", .str "0x"), ("error", .none), ("status", .int 1)]

def callFrame (traceAddress : List Int) (toAddress : String) : RawTrace :=
  { chainId := 1
    blockNumber := 1
    txHash := "0xtx"
    type := "CALL"
    fromAddr := "0xfrom"
    toAddr := some toAddress
    value := 0
    gas := 21000
    gasUsed := 1000
    inputData := "0x"
    output := "0x"
    error := none
    revertReason := none
    calls := []
    traceAddress := traceAddress }

def gapRows : List TraceRow := [callRow "0,10" "0xd", callRow "" "0xa", callRow "0,2" "0xc", callRow "0" "0xb"]

def gapFrames : List RawTrace :=
  [callFrame [0, 10] "0xd", callFrame [] "0xa", callFrame [0, 2] "0xc", callFrame [0] "0xb"]

theorem gapFrames_rows : TraceRows gapFrames where
  nonempty := List.cons_ne_nil _ _
  oneTx := by simp [gapFrames, callFrame]
  distinct := by decide
  closed := by simp [gapFrames, callFrame]

theorem build_call_tree_reconstructs_gap :
    ∃ tree,
      (∀ rows', rows'.Perm gapRows → buildCallTree rows' (some 1) = .ok tree) ∧
      ((flattenCallTree tree).map bare).Perm gapFrames ∧
      (flattenCallTree tree).Pairwise (fun node node' => node.traceAddress < node'.traceAddress) ∧
      ∀ node ∈ flattenCallTree tree,
        (∀ t, t ∈ node.calls.map bare ↔ t ∈ gapFrames ∧ ∃ i, t.traceAddress = node.traceAddress ++ [i]) ∧
        node.calls.Pairwise fun child child' => child.lastComponent < child'.lastComponent :=
  build_call_tree_reconstructs gapRows (some 1) rfl gapFrames_rows

end EconomicLedger.Trace
