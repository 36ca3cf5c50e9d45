import EconomicLedger.Lib.Runs
import EconomicLedger.Model.ReservesResolver
import EconomicLedger.Trace.Malformed
import EconomicLedger.Trace.RoundTrip

/-!
# The path of an inflow

The path of an inflow is to list the receivers of the successful calls on the way to its frame. The walk
reads the components of the trace address as positions and does not look at success. Where every component
is a position it lists the receivers of all calls on the way, which are those of the successful ones when no
receiver in a row of calls is called in vain.
-/

namespace EconomicLedger.Trace
open Model Text Fallible StableSort Runs

/-! ## The law -/

/-- The frames on the way from the root to an address, the root left out. -/
def wayTo (root : RawTrace) (a : List Int) : List RawTrace :=
  (flattenCallTree root).filter fun node => node.traceAddress ≠ [] ∧ node.traceAddress <+: a

/-- The lower-cased receivers, without missing ones and without repeats in a row. -/
def receivers (nodes : List RawTrace) : List String :=
  ((nodes.filterMap RawTrace.toAddr).map lower).destutter (· ≠ ·)

def PathLaw (inflow : ReservesInflow) (root : RawTrace) (a : List Int) : Prop :=
  enrichInflowWithPath inflow root a =
    some { inflow with path := receivers ((wayTo root a).filter RawTrace.succeeded) }

/-! ## The walk -/

/-- The nodes the walk enters. -/
def visited : RawTrace → List Int → Option (List RawTrace)
  | _, [] => some []
  | node, idx :: rest =>
      if node.calls.length ≤ idx then some []
      else (pyIndex node.calls idx).bind fun child => (visited child rest).map (child :: ·)

theorem walkPath_eq (path : List String) (node : RawTrace) (rest : List Int) :
    walkPath path node rest = (visited node rest).map fun nodes =>
      nodes.foldl (fun path n => appendReceiver path n.toAddr) path := by
  induction rest generalizing path node with
  | nil => rfl
  | cons idx rest ih =>
      rw [walkPath, visited]
      split
      · rfl
      · cases pyIndex node.calls idx with
        | none => rfl
        | some child =>
            rw [Option.bind_some, Option.bind_some, ih, Option.map_map]
            rfl

theorem foldl_appendReceiver (nodes : List RawTrace) (path : List String) :
    nodes.foldl (fun path n => appendReceiver path n.toAddr) path =
      ((nodes.filterMap RawTrace.toAddr).map lower).foldl addKey path := by
  induction nodes generalizing path with
  | nil => rfl
  | cons node rest ih =>
      rw [List.foldl_cons, ih]
      cases called : node.toAddr with
      | none => rw [List.filterMap_cons_none called, appendReceiver]
      | some addr => rw [List.filterMap_cons_some called, List.map_cons, List.foldl_cons, appendReceiver, addKey]

theorem receivers_eq_foldl (nodes : List RawTrace) :
    receivers nodes = nodes.foldl (fun path n => appendReceiver path n.toAddr) [] := by
  rw [foldl_appendReceiver, receivers, destutter_eq_foldl]

theorem pathLaw_iff (inflow : ReservesInflow) (root : RawTrace) (a : List Int) :
    PathLaw inflow root a ↔ ∃ nodes, visited root a = some nodes ∧
      receivers nodes = receivers ((wayTo root a).filter RawTrace.succeeded) := by
  rw [PathLaw, enrichInflowWithPath, walkPath_eq]
  cases visited root a with
  | none => simp
  | some nodes => simp [receivers_eq_foldl]

theorem pyIndex_map {α β : Type} (f : α → β) (l : List α) (idx : Int) :
    pyIndex (l.map f) idx = (pyIndex l idx).map f := by
  simp only [pyIndex, List.length_map, List.getElem?_map]
  split_ifs <;> rfl

theorem mem_of_pyIndex {α : Type} (l : List α) (idx : Int) (a : α) (located : pyIndex l idx = some a) :
    a ∈ l := by
  unfold pyIndex at located
  split_ifs at located
  · exact List.mem_of_getElem? located
  · exact List.mem_of_getElem? located

theorem not_beyond_of_pyIndex {α : Type} {l : List α} {idx : Int} {a : α} (located : pyIndex l idx = some a) :
    ¬ (l.length : Int) ≤ idx := by
  intro beyond
  have outside : l[idx.toNat]? = none := List.getElem?_eq_none (by omega)
  rw [pyIndex, if_pos (by omega), outside] at located
  cases located

/-! ## The shape of a tree -/

/-- An address and whether the call there succeeded. -/
abbrev Call := List Int × Bool

def callOf (node : RawTrace) : Call := (node.traceAddress, node.succeeded)

/-- The tree without its receivers: its calls in pre-order. -/
def shape (root : RawTrace) : List Call := (flattenCallTree root).map callOf

/-- The calls one component below an address. -/
def callsAt (calls : List Call) (addr : List Int) : List Call :=
  calls.filter fun call => call.1 ≠ [] ∧ call.1.dropLast = addr

/-- Every component is the position of its call among the calls beside it. -/
def Placed (calls : List Call) : List Int → List Int → Prop
  | _, [] => True
  | addr, i :: rest =>
      (pyIndex (callsAt calls addr) i).map Prod.fst = some (addr ++ [i]) ∧ Placed calls (addr ++ [i]) rest

/-- The components lead down to a frame on the way, and the next one, if any, is beyond the last position. -/
def Ends (root : RawTrace) (front a : List Int) : Prop :=
  Placed (shape root) [] front ∧ (a = front ∨
    ∃ i rest, a = front ++ i :: rest ∧ ((callsAt (shape root) front).length : Int) ≤ i)

variable {traces : List RawTrace} {root : RawTrace}

theorem rebuilt_of_built {rows : List TraceRow} {chainId : Option Int}
    (built : buildCallTree rows chainId = .ok root) :
    ∃ traces, rows.mapM (rowToRawTrace chainId) = .ok traces ∧ Rebuilt traces root := by
  have parsed : ∃ traces, rows.mapM (rowToRawTrace chainId) = .ok traces := by
    unfold buildCallTree at built
    split at built
    · cases built
    · obtain ⟨traces, converted, -⟩ := (bind_eq_ok_iff _ _ _).mp built
      exact ⟨traces, converted⟩
  obtain ⟨traces, converted⟩ := parsed
  rcases buildCallTree_cases converted with ⟨message, raised⟩ | rowsShape
  · rw [raised] at built
    cases built
  · obtain ⟨first, isRoot, address⟩ := rowsShape.exists_root
    rw [buildCallTree_eq_grow converted rowsShape first isRoot address] at built
    exact ⟨traces, converted, Except.ok.inj built ▸ rebuilt_grow converted rowsShape first isRoot address⟩

theorem Rebuilt.mem_shape (rebuilt : Rebuilt traces root) (call : Call) :
    call ∈ shape root ↔ call ∈ traces.map callOf := by
  have sameCalls := rebuilt.nodes.map callOf
  rw [List.map_map] at sameCalls
  exact sameCalls.mem_iff

theorem Rebuilt.shape_sorted (rebuilt : Rebuilt traces root) :
    (shape root).Pairwise fun call call' => call.1 < call'.1 :=
  List.pairwise_map.mpr rebuilt.sorted

theorem Rebuilt.mem_calls (rebuilt : Rebuilt traces root) (node : RawTrace)
    (inside : node ∈ flattenCallTree root) (t : RawTrace) :
    t ∈ node.calls.map bare ↔ t ∈ traces ∧ ∃ i, t.traceAddress = node.traceAddress ++ [i] := by
  rw [rebuilt.calls node inside, mem_childrenOf, (inDepthOrder_perm traces).mem_iff]

theorem Rebuilt.calls_below (rebuilt : Rebuilt traces root) (node child : RawTrace)
    (inside : node ∈ flattenCallTree root) (call : child ∈ node.calls) :
    ∃ i, child.traceAddress = node.traceAddress ++ [i] :=
  ((rebuilt.mem_calls node inside (bare child)).mp (List.mem_map_of_mem call)).2

theorem Rebuilt.calls_sorted (rebuilt : Rebuilt traces root) (node : RawTrace)
    (inside : node ∈ flattenCallTree root) :
    node.calls.Pairwise fun child child' => child.traceAddress < child'.traceAddress := by
  have order := childrenOf_sorted rebuilt.depthSorted node.traceAddress
  rw [← rebuilt.calls node inside, List.pairwise_map] at order
  refine order.imp_of_mem fun {child child'} call call' less => ?_
  obtain ⟨i, below⟩ := rebuilt.calls_below node child inside call
  obtain ⟨j, below'⟩ := rebuilt.calls_below node child' inside call'
  have components : i < j := by
    rw [← lastComponent_concat child _ i below, ← lastComponent_concat child' _ j below']
    exact less
  rw [below, below']
  exact lt_of_sibling node.traceAddress _ _ i j components (List.prefix_refl _) (List.prefix_refl _)

theorem Rebuilt.callsAt_shape (rebuilt : Rebuilt traces root) (node : RawTrace)
    (inside : node ∈ flattenCallTree root) :
    callsAt (shape root) node.traceAddress = node.calls.map callOf := by
  refine StableSort.eq_of_strict Prod.fst (rebuilt.shape_sorted.filter _)
    (List.pairwise_map.mpr (rebuilt.calls_sorted node inside)) fun call => ?_
  rw [callsAt, List.mem_filter, decide_eq_true_eq, one_below_iff, rebuilt.mem_shape]
  constructor
  · rintro ⟨here, below⟩
    obtain ⟨t, member, rfl⟩ := List.mem_map.mp here
    obtain ⟨child, call, rfl⟩ := List.mem_map.mp ((rebuilt.mem_calls node inside t).mpr ⟨member, below⟩)
    exact List.mem_map.mpr ⟨child, call, rfl⟩
  · intro here
    obtain ⟨child, call, rfl⟩ := List.mem_map.mp here
    obtain ⟨member, below⟩ := (rebuilt.mem_calls node inside (bare child)).mp (List.mem_map_of_mem call)
    exact ⟨List.mem_map.mpr ⟨bare child, member, rfl⟩, below⟩

/-! ## The rest of the way -/

/-- The frames on the way to an address below one that is reached. -/
def wayBelow (root : RawTrace) (addr a : List Int) : List RawTrace :=
  (flattenCallTree root).filter fun node =>
    addr.length < node.traceAddress.length ∧ node.traceAddress <+: a

theorem wayTo_eq (root : RawTrace) (a : List Int) : wayTo root a = wayBelow root [] a := by
  refine List.filter_congr fun node _ => decide_eq_decide.mpr (and_congr_left fun _ => ?_)
  exact List.length_pos_iff.symm

theorem mem_wayBelow (root : RawTrace) (addr a : List Int) (node : RawTrace) :
    node ∈ wayBelow root addr a ↔ node ∈ flattenCallTree root ∧
      addr.length < node.traceAddress.length ∧ node.traceAddress <+: a := by
  rw [wayBelow, List.mem_filter, decide_eq_true_eq]

theorem lt_of_prefix_length {addr addr' a : List Int} (here : addr <+: a) (there : addr' <+: a)
    (longer : addr.length < addr'.length) : addr < addr' := by
  obtain ⟨rest, rfl⟩ := List.prefix_of_prefix_length_le here there longer.le
  cases rest with
  | nil => simp at longer
  | cons j rest => exact lt_of_child addr _ j ⟨rest, by simp⟩

theorem eq_of_prefix_length {addr addr' a : List Int} (here : addr <+: a) (there : addr' <+: a)
    (same : addr.length = addr'.length) : addr = addr' :=
  (List.prefix_of_prefix_length_le here there same.le).eq_of_length same

theorem Rebuilt.wayBelow_sorted (rebuilt : Rebuilt traces root) (addr a : List Int) :
    (wayBelow root addr a).Pairwise fun node node' =>
      node.traceAddress.length < node'.traceAddress.length := by
  refine (rebuilt.sorted.filter _).imp_of_mem fun {node node'} member member' order => ?_
  obtain ⟨-, -, here⟩ := (mem_wayBelow root addr a node).mp member
  obtain ⟨-, -, there⟩ := (mem_wayBelow root addr a node').mp member'
  by_contra notLonger
  rcases (not_lt.mp notLonger).lt_or_eq with shorter | same
  · exact lt_asymm order (lt_of_prefix_length there here shorter)
  · exact order.ne (eq_of_prefix_length here there same.symm)

theorem wayBelow_self (root : RawTrace) (addr : List Int) : wayBelow root addr addr = [] := by
  refine List.filter_eq_nil_iff.mpr fun node _ onTheWay => ?_
  obtain ⟨longer, here⟩ := of_decide_eq_true onTheWay
  exact absurd here.length_le (not_le.mpr longer)

/-- One component down, the call there is the first frame of the way. -/
theorem Rebuilt.wayBelow_child (rebuilt : Rebuilt traces root) (node child : RawTrace) (i : Int)
    (inside : node ∈ flattenCallTree root) (call : child ∈ node.calls)
    (below : child.traceAddress = node.traceAddress ++ [i]) (a : List Int)
    (onTheWay : child.traceAddress <+: a) :
    wayBelow root node.traceAddress a = child :: wayBelow root child.traceAddress a := by
  have childInside := child_mem_flatten root node inside child call
  have length : child.traceAddress.length = node.traceAddress.length + 1 := by simp [below]
  refine StableSort.eq_of_strict RawTrace.traceAddress (rebuilt.sorted.filter _)
    (List.Pairwise.cons ?_ (rebuilt.sorted.filter _)) fun frame => ?_
  · intro frame member
    obtain ⟨-, longer, here⟩ := (mem_wayBelow _ _ _ _).mp member
    exact lt_of_prefix_length onTheWay here longer
  · rw [mem_wayBelow, List.mem_cons, mem_wayBelow]
    constructor
    · rintro ⟨frameInside, longer, here⟩
      rcases Nat.lt_or_ge child.traceAddress.length frame.traceAddress.length with further | next
      · exact Or.inr ⟨frameInside, further, here⟩
      · have sameAddress := eq_of_prefix_length here onTheWay (by omega)
        exact Or.inl (eq_of_same_address rebuilt.sorted frameInside childInside sameAddress)
    · rintro (rfl | ⟨frameInside, longer, here⟩)
      · exact ⟨childInside, by omega, onTheWay⟩
      · exact ⟨frameInside, by omega, here⟩

/-! ## Where the walk goes -/

theorem Rebuilt.position (rebuilt : Rebuilt traces root) (node : RawTrace)
    (inside : node ∈ flattenCallTree root) (i : Int) :
    pyIndex (callsAt (shape root) node.traceAddress) i = (pyIndex node.calls i).map callOf := by
  rw [rebuilt.callsAt_shape node inside, pyIndex_map]

theorem Rebuilt.callsAt_length (rebuilt : Rebuilt traces root) (node : RawTrace)
    (inside : node ∈ flattenCallTree root) :
    (callsAt (shape root) node.traceAddress).length = node.calls.length := by
  rw [rebuilt.callsAt_shape node inside, List.length_map]

/-- The calls on the way down to a frame are visited one after the other, and the walk goes on from there. -/
theorem Rebuilt.visited_append (rebuilt : Rebuilt traces root) (node : RawTrace)
    (inside : node ∈ flattenCallTree root) (front : List Int)
    (placed : Placed (shape root) node.traceAddress front) :
    ∃ last ∈ flattenCallTree root, last.traceAddress = node.traceAddress ++ front ∧
      ∀ more, visited node (front ++ more) =
        (visited last more).map (wayBelow root node.traceAddress (node.traceAddress ++ front) ++ ·) := by
  induction front generalizing node with
  | nil =>
      refine ⟨node, inside, (List.append_nil _).symm, fun more => ?_⟩
      rw [List.append_nil, wayBelow_self, List.nil_append]
      exact Option.map_id'.symm
  | cons i front ih =>
      rw [Placed, rebuilt.position node inside, Option.map_map] at placed
      obtain ⟨located, further⟩ := placed
      obtain ⟨child, found, below⟩ := Option.map_eq_some_iff.mp located
      have call := mem_of_pyIndex _ _ _ found
      have own : child.traceAddress = node.traceAddress ++ [i] := below
      have within : ¬ (node.calls.length : Int) ≤ i := not_beyond_of_pyIndex found
      rw [← own] at further
      obtain ⟨last, lastInside, address, walked⟩ :=
        ih child (child_mem_flatten root node inside child call) further
      have whole : node.traceAddress ++ i :: front = child.traceAddress ++ front := by simp [own]
      refine ⟨last, lastInside, address.trans whole.symm, fun more => ?_⟩
      rw [List.cons_append, visited, if_neg within, found, Option.bind_some, walked, whole,
        rebuilt.wayBelow_child node child i inside call own _ (List.prefix_append _ _), Option.map_map]
      rfl

theorem Rebuilt.visited_of_ends (rebuilt : Rebuilt traces root) {front a : List Int}
    (ends : Ends root front a) : visited root a = some (wayTo root front) := by
  obtain ⟨placed, rest⟩ := ends
  rw [← rebuilt.address] at placed
  obtain ⟨last, inside, address, walked⟩ :=
    rebuilt.visited_append root (root_mem_flatten root) front placed
  rw [rebuilt.address, List.nil_append] at address walked
  rw [wayTo_eq]
  rcases rest with rfl | ⟨i, rest, rfl, beyond⟩
  · have whole := walked []
    rwa [List.append_nil, visited, Option.map_some, List.append_nil] at whole
  · rw [← address, rebuilt.callsAt_length last inside] at beyond
    rw [walked, visited, if_pos beyond, Option.map_some, List.append_nil]

theorem Rebuilt.wayTo_append (rebuilt : Rebuilt traces root) (front more : List Int) :
    wayTo root (front ++ more) = wayTo root front ++ wayBelow root front (front ++ more) := by
  rw [wayTo_eq, wayTo_eq]
  refine StableSort.eq_of_strict RawTrace.traceAddress (rebuilt.sorted.filter _) ?_ fun node => ?_
  · refine List.pairwise_append.mpr ⟨rebuilt.sorted.filter _, rebuilt.sorted.filter _, ?_⟩
    intro node above node' further
    obtain ⟨-, -, here⟩ := (mem_wayBelow _ _ _ _).mp above
    obtain ⟨-, longer, there⟩ := (mem_wayBelow _ _ _ _).mp further
    exact lt_of_prefix_length (here.trans (List.prefix_append _ _)) there (here.length_le.trans_lt longer)
  · rw [List.mem_append, mem_wayBelow, mem_wayBelow, mem_wayBelow]
    constructor
    · rintro ⟨inside, below, here⟩
      rcases Nat.lt_or_ge front.length node.traceAddress.length with further | above
      · exact Or.inr ⟨inside, further, here⟩
      · exact Or.inl ⟨inside, below, List.prefix_of_prefix_length_le here (List.prefix_append _ _) above⟩
    · rintro (⟨inside, below, here⟩ | ⟨inside, further, here⟩)
      · exact ⟨inside, below, here.trans (List.prefix_append _ _)⟩
      · exact ⟨inside, List.length_nil ▸ (Nat.zero_le _).trans_lt further, here⟩

/-! ## Calls in vain -/

/-- The receivers of the calls that have one, with the success of each call. -/
def callsTo (nodes : List RawTrace) : List (String × Bool) :=
  nodes.filterMap fun node => node.toAddr.map fun addr => (lower addr, node.succeeded)

/-- Of the calls in a row to one receiver, calls without receiver aside, one succeeded. -/
def Vouched (nodes : List RawTrace) : Prop :=
  ∀ run ∈ runs Prod.fst (callsTo nodes), ∃ call ∈ run, call.2 = true

instance (nodes : List RawTrace) : Decidable (Vouched nodes) :=
  List.decidableBAll (fun run : List (String × Bool) => ∃ call ∈ run, call.2 = true) _

theorem receivers_eq (nodes : List RawTrace) :
    receivers nodes = ((callsTo nodes).map Prod.fst).destutter (· ≠ ·) := by
  rw [receivers, callsTo, List.map_filterMap, List.map_filterMap]
  congr 1
  refine List.filterMap_congr fun node _ => ?_
  cases node.toAddr <;> rfl

theorem callsTo_succeeded (nodes : List RawTrace) :
    callsTo (nodes.filter RawTrace.succeeded) = (callsTo nodes).filter Prod.snd := by
  rw [callsTo, callsTo, List.filterMap_filter, List.filter_filterMap]
  refine List.filterMap_congr fun node _ => ?_
  cases node.toAddr <;> cases node.succeeded <;> simp [Option.filter]

theorem callsTo_append (nodes more : List RawTrace) :
    callsTo (nodes ++ more) = callsTo nodes ++ callsTo more :=
  List.filterMap_append

theorem receivers_succeeded_iff (nodes : List RawTrace) :
    receivers (nodes.filter RawTrace.succeeded) = receivers nodes ↔ Vouched nodes := by
  rw [receivers_eq, receivers_eq, callsTo_succeeded]
  exact destutter_filter_eq_iff Prod.fst Prod.snd (callsTo nodes)

/-- The receivers of the calls on the way down to a frame are those of the successful ones, and no successful
call from there to the address has another receiver than the last of them. -/
structure Listed (root : RawTrace) (front a : List Int) : Prop where
  vouched : Vouched (wayTo root front)
  silent : ∀ node ∈ wayBelow root front a, node.succeeded = true → ∀ addr ∈ node.toAddr,
    (callsTo (wayTo root front)).getLast?.map Prod.fst = some (lower addr)

theorem getLast?_succeeded {nodes : List RawTrace} (vouched : Vouched nodes) :
    ((callsTo (nodes.filter RawTrace.succeeded)).map Prod.fst).getLast? =
      (callsTo nodes).getLast?.map Prod.fst := by
  rw [← getLast?_destutter, ← receivers_eq, (receivers_succeeded_iff nodes).mpr vouched, receivers_eq,
    getLast?_destutter, List.getLast?_map]

theorem receivers_append_iff {nodes : List RawTrace} (vouched : Vouched nodes) (more : List RawTrace) :
    receivers ((nodes ++ more).filter RawTrace.succeeded) = receivers nodes ↔
      ∀ node ∈ more, node.succeeded = true → ∀ addr ∈ node.toAddr,
        (callsTo nodes).getLast?.map Prod.fst = some (lower addr) := by
  rw [← (receivers_succeeded_iff nodes).mpr vouched, List.filter_append, receivers_eq, receivers_eq,
    callsTo_append, List.map_append, destutter_append_eq_iff, getLast?_succeeded vouched]
  simp only [List.forall_mem_map, callsTo, List.mem_filterMap, List.mem_filter, Option.map_eq_some_iff,
    Option.mem_def]
  constructor
  · intro last node member succeeded addr called
    exact last _ ⟨node, ⟨member, succeeded⟩, addr, called, rfl⟩
  · rintro last _ ⟨node, ⟨member, succeeded⟩, addr, called, rfl⟩
    exact last node member succeeded addr called

theorem Rebuilt.pathLaw_of_ends (rebuilt : Rebuilt traces root) {front a : List Int}
    (ends : Ends root front a) (inflow : ReservesInflow) : PathLaw inflow root a ↔
      receivers ((wayTo root front ++ wayBelow root front a).filter RawTrace.succeeded) =
        receivers (wayTo root front) := by
  have way : wayTo root a = wayTo root front ++ wayBelow root front a := by
    rcases ends.2 with rfl | ⟨i, rest, rfl, -⟩
    · rw [wayBelow_self, List.append_nil]
    · exact rebuilt.wayTo_append front (i :: rest)
  rw [pathLaw_iff, rebuilt.visited_of_ends ends, ← way]
  simp only [Option.some.injEq, exists_eq_left']
  exact eq_comm

/-- Where the walk ends at a frame on the way, the law holds of what is listed as it should be, and of nothing
else where the walk goes all the way or where it lists no call in vain. -/
theorem inflow_path_follows (rows : List TraceRow) (chainId : Option Int) (root : RawTrace)
    (built : buildCallTree rows chainId = .ok root) (a : List Int) :
    ((wayTo root a).Pairwise fun node node' => node.traceAddress.length < node'.traceAddress.length) ∧
    ∀ front, Ends root front a → ∀ inflow,
      (Listed root front a → PathLaw inflow root a) ∧
      (a = front ∨ Vouched (wayTo root front) → PathLaw inflow root a → Listed root front a) := by
  obtain ⟨traces, -, rebuilt⟩ := rebuilt_of_built built
  refine ⟨wayTo_eq root a ▸ rebuilt.wayBelow_sorted [] a, fun front ends inflow => ?_⟩
  rw [rebuilt.pathLaw_of_ends ends inflow]
  refine ⟨fun listed => (receivers_append_iff listed.vouched _).mpr listed.silent, fun known law => ?_⟩
  have vouched : Vouched (wayTo root front) := by
    rcases known with rfl | vouched
    · rw [wayBelow_self, List.append_nil] at law
      exact (receivers_succeeded_iff _).mp law
    · exact vouched
  exact ⟨vouched, (receivers_append_iff vouched _).mp law⟩

/-! ### A failed call without a receiver -/

def tracedInflow : ReservesInflow := ⟨"0xtx", 1, 5, "0xfrom", [], "trace"⟩

def createdRows : List TraceRow :=
  [callRow "" "0xa", ((callRow "0" "").set "status" (.int 0)).set "to_address" .none, callRow "0,0" "0xc"]

def createdFrame : RawTrace :=
  { callFrame [0] "" with toAddr := none, error := some "reverted", revertReason := some "status=0" }

def createdFrames : List RawTrace := [callFrame [] "0xa", createdFrame, callFrame [0, 0] "0xc"]

def createdTree : RawTrace :=
  { callFrame [] "0xa" with calls := [{ createdFrame with calls := [callFrame [0, 0] "0xc"] }] }

theorem createdTree_built : buildCallTree createdRows (some 1) = .ok createdTree := by
  have converted : createdRows.mapM (rowToRawTrace (some 1)) = .ok createdFrames := rfl
  have rowsShape : TraceRows createdFrames := {
    nonempty := List.cons_ne_nil _ _
    oneTx := by simp [createdFrames, createdFrame, callFrame]
    distinct := by decide
    closed := by simp [createdFrames, createdFrame, callFrame] }
  rw [buildCallTree_eq_grow converted rowsShape _ List.mem_cons_self rfl]
  rfl

theorem inflow_path_follows_created :
    (Ends createdTree [0, 0] [0, 0] ∧ Listed createdTree [0, 0] [0, 0]) ∧
      PathLaw tracedInflow createdTree [0, 0] := by
  have ends : Ends createdTree [0, 0] [0, 0] := ⟨⟨rfl, rfl, trivial⟩, Or.inl rfl⟩
  have listed : Listed createdTree [0, 0] [0, 0] := {
    vouched := by decide
    silent := by simp [wayBelow_self] }
  exact ⟨⟨ends, listed⟩,
    ((inflow_path_follows createdRows (some 1) createdTree createdTree_built [0, 0]).2 [0, 0] ends
      tracedInflow).1 listed⟩

/-! ### A gap before the call and a failed call above it -/

def gapTree : RawTrace :=
  { callFrame [] "0xa" with
    calls := [{ callFrame [0] "0xb" with calls := [callFrame [0, 2] "0xc", callFrame [0, 10] "0xd"] }] }

theorem gapTree_built : buildCallTree gapRows (some 1) = .ok gapTree := by
  have converted : gapRows.mapM (rowToRawTrace (some 1)) = .ok gapFrames := rfl
  have isRoot : callFrame [] "0xa" ∈ gapFrames := by simp [gapFrames]
  rw [buildCallTree_eq_grow converted gapFrames_rows _ isRoot rfl]
  rfl

def failedRows : List TraceRow :=
  [callRow "" "0xa", (callRow "0" "0xb").set "status" (.int 0), callRow "0,0" "0xc"]

def failedFrame : RawTrace :=
  { callFrame [0] "0xb" with error := some "reverted", revertReason := some "status=0" }

def failedTree : RawTrace :=
  { callFrame [] "0xa" with calls := [{ failedFrame with calls := [callFrame [0, 0] "0xc"] }] }

def failedFrames : List RawTrace := [callFrame [] "0xa", failedFrame, callFrame [0, 0] "0xc"]

theorem failedTree_built : buildCallTree failedRows (some 1) = .ok failedTree := by
  have converted : failedRows.mapM (rowToRawTrace (some 1)) = .ok failedFrames := rfl
  have rowsShape : TraceRows failedFrames := {
    nonempty := List.cons_ne_nil _ _
    oneTx := by simp [failedFrames, failedFrame, callFrame]
    distinct := by decide
    closed := by simp [failedFrames, failedFrame, callFrame] }
  rw [buildCallTree_eq_grow converted rowsShape _ List.mem_cons_self rfl]
  rfl

/-- Both trees leave the law: the gap ends the path early, the failed call is listed. -/
theorem path_of_gap_and_failure :
    buildCallTree gapRows (some 1) = .ok gapTree ∧
    callFrame [0, 2] "0xc" ∈ flattenCallTree gapTree ∧
    enrichInflowWithPath tracedInflow gapTree [0, 2] = some { tracedInflow with path := ["0xb"] } ∧
    receivers ((wayTo gapTree [0, 2]).filter RawTrace.succeeded) = ["0xb", "0xc"] ∧
    ¬ PathLaw tracedInflow gapTree [0, 2] ∧
    buildCallTree failedRows (some 1) = .ok failedTree ∧
    callFrame [0, 0] "0xc" ∈ flattenCallTree failedTree ∧
    enrichInflowWithPath tracedInflow failedTree [0, 0] = some { tracedInflow with path := ["0xb", "0xc"] } ∧
    receivers ((wayTo failedTree [0, 0]).filter RawTrace.succeeded) = ["0xc"] ∧
    ¬ PathLaw tracedInflow failedTree [0, 0] := by
  have gapped : receivers ((wayTo gapTree [0, 2]).filter RawTrace.succeeded) = ["0xb", "0xc"] := by
    decide
  have failed : receivers ((wayTo failedTree [0, 0]).filter RawTrace.succeeded) = ["0xc"] := by
    decide
  have short : enrichInflowWithPath tracedInflow gapTree [0, 2] =
      some { tracedInflow with path := ["0xb"] } := by decide
  have listed : enrichInflowWithPath tracedInflow failedTree [0, 0] =
      some { tracedInflow with path := ["0xb", "0xc"] } := by decide
  refine ⟨gapTree_built, ?_, short, gapped, ?_, failedTree_built, ?_, listed, failed, ?_⟩
  · exact List.mem_of_getElem? (i := 2) rfl
  · rw [PathLaw, short, gapped]
    decide
  · exact List.mem_of_getElem? (i := 2) rfl
  · rw [PathLaw, listed, failed]
    decide

end EconomicLedger.Trace
