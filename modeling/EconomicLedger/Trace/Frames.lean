import EconomicLedger.Lib.Fallible
import EconomicLedger.Model.TraceDecoder
import Mathlib.Data.List.Basic
import Mathlib.Data.List.Lex
import Mathlib.Order.Defs.LinearOrder

/-!
# The frames of a call tree

A frame is a node with its proper ancestors. `frames` lists them in pre-order, which is the
lexicographic order of the assigned trace addresses, and the recursive walk of the decoder is a
flat pass over them.
-/

namespace EconomicLedger.Trace
open Model Fallible

structure Frame where
  ancestors : List RawTrace
  node : RawTrace

mutual
def frames (ancestors : List RawTrace) : RawTrace → List Frame
  | node@⟨_, _, _, _, _, _, _, _, _, _, _, _, _, calls, _⟩ =>
      ⟨ancestors, node⟩ :: framesBelow (ancestors ++ [node]) calls
def framesBelow (ancestors : List RawTrace) : List RawTrace → List Frame
  | [] => []
  | child :: rest => frames ancestors child ++ framesBelow ancestors rest
end

theorem frames_eq (ancestors : List RawTrace) (node : RawTrace) :
    frames ancestors node = ⟨ancestors, node⟩ :: framesBelow (ancestors ++ [node]) node.calls := by
  cases node
  rfl

theorem framesBelow_eq (ancestors calls : List RawTrace) :
    framesBelow ancestors calls = calls.flatMap (frames ancestors) := by
  induction calls with
  | nil => rfl
  | cons child rest ih => rw [framesBelow, ih, List.flatMap_cons]

/-! ## Frames are the nodes of the tree -/

/-- A node under a root, with the path of its proper ancestors. -/
inductive Below (root : RawTrace) : List RawTrace → RawTrace → Prop
  | root : Below root [] root
  | call {ancestors : List RawTrace} {node child : RawTrace} (above : Below root ancestors node)
      (member : child ∈ node.calls) : Below root (ancestors ++ [node]) child

mutual
/-- Induction on a call tree, from the subcalls of a node to the node. -/
theorem tree_induction {motive : RawTrace → Prop}
    (step : ∀ node, (∀ child ∈ node.calls, motive child) → motive node) : (tree : RawTrace) → motive tree
  | ⟨_, _, _, _, _, _, _, _, _, _, _, _, _, calls, _⟩ => step _ (calls_induction step calls)
theorem calls_induction {motive : RawTrace → Prop}
    (step : ∀ node, (∀ child ∈ node.calls, motive child) → motive node) :
    (calls : List RawTrace) → ∀ child ∈ calls, motive child
  | [], child, member => by cases member
  | first :: rest, child, member => by
      rcases List.mem_cons.mp member with same | later
      · exact same ▸ tree_induction step first
      · exact calls_induction step rest child later
end

theorem below_of_frame (root tree : RawTrace) (ancestors : List RawTrace)
    (above : Below root ancestors tree) :
    ∀ frame ∈ frames ancestors tree, Below root frame.ancestors frame.node := by
  induction tree using tree_induction generalizing ancestors with
  | step node ih =>
      intro frame member
      rw [frames_eq, framesBelow_eq] at member
      rcases List.mem_cons.mp member with rfl | deeper
      · exact above
      · obtain ⟨child, call, below⟩ := List.mem_flatMap.mp deeper
        exact ih child call (ancestors ++ [node]) (Below.call above call) frame below

theorem frames_closed (tree : RawTrace) (ancestors : List RawTrace) :
    ∀ frame ∈ frames ancestors tree, ∀ child ∈ frame.node.calls,
      ⟨frame.ancestors ++ [frame.node], child⟩ ∈ frames ancestors tree := by
  induction tree using tree_induction generalizing ancestors with
  | step node ih =>
      intro frame member child call
      rw [frames_eq, framesBelow_eq] at member ⊢
      apply List.mem_cons_of_mem
      rcases List.mem_cons.mp member with rfl | deeper
      · exact List.mem_flatMap.mpr ⟨child, call, by rw [frames_eq]; exact List.mem_cons_self⟩
      · obtain ⟨first, above, below⟩ := List.mem_flatMap.mp deeper
        exact List.mem_flatMap.mpr ⟨first, above, ih first above _ frame below child call⟩

theorem frame_of_below {root node : RawTrace} {ancestors : List RawTrace}
    (below : Below root ancestors node) : ⟨ancestors, node⟩ ∈ frames [] root := by
  induction below with
  | root =>
      rw [frames_eq]
      exact List.mem_cons_self
  | call above member ih => exact frames_closed root [] _ ih _ member

theorem mem_frames_iff (root : RawTrace) (frame : Frame) :
    frame ∈ frames [] root ↔ Below root frame.ancestors frame.node :=
  ⟨below_of_frame root root [] Below.root frame, frame_of_below⟩

/-! ## The walk is a pass over the frames -/

variable (sha256 : Digest) (libs : ExternalLibs) (registry : AbiRegistry)

def allSucceeded (ancestors : List RawTrace) : Bool := ancestors.all RawTrace.succeeded

def decodeFrame (frame : Frame) : Py DecodedCall :=
  decodeNode sha256 libs registry frame.node (allSucceeded frame.ancestors)

theorem allSucceeded_concat (ancestors : List RawTrace) (node : RawTrace) :
    allSucceeded (ancestors ++ [node]) = (allSucceeded ancestors && node.succeeded) := by
  simp [allSucceeded]

mutual
theorem walk_eq (ancestors : List RawTrace) :
    (node : RawTrace) → walk sha256 libs registry node (allSucceeded ancestors) =
      (frames ancestors node).mapM (decodeFrame sha256 libs registry)
  | node@⟨_, _, _, _, _, _, _, _, _, _, _, _, _, calls, _⟩ => by
      rw [frames_eq, List.mapM_cons, walk, ← allSucceeded_concat, walkCalls_eq]
      rfl
theorem walkCalls_eq (ancestors : List RawTrace) :
    (calls : List RawTrace) → walkCalls sha256 libs registry calls (allSucceeded ancestors) =
      (framesBelow ancestors calls).mapM (decodeFrame sha256 libs registry)
  | [] => rfl
  | child :: rest => by
      rw [walkCalls, framesBelow, List.mapM_append, walk_eq ancestors child,
        walkCalls_eq ancestors rest]
end

theorem decodeTraceCalls_eq (tree : RawTrace) :
    decodeTraceCalls sha256 libs tree registry =
      (frames [] tree).mapM (decodeFrame sha256 libs registry) :=
  walk_eq sha256 libs registry [] tree

/-! ## Trace addresses -/

/-- The trace addresses of a tree are those the code assigns. -/
def Assigned (tree : RawTrace) : Prop := assignTraceAddresses [] tree = tree

def Frame.address (frame : Frame) : List Int := frame.node.traceAddress

mutual
theorem frames_address_extends (ancestors : List RawTrace) (addr : List Int) :
    (tree : RawTrace) → ∀ frame ∈ frames ancestors (assignTraceAddresses addr tree),
      addr <+: frame.address
  | ⟨_, _, _, _, _, _, _, _, _, _, _, _, _, calls, _⟩, frame, member => by
      rw [assignTraceAddresses, frames_eq] at member
      rcases List.mem_cons.mp member with rfl | deeper
      · exact List.prefix_refl addr
      · obtain ⟨j, -, below⟩ := framesBelow_address_extends _ addr 0 calls frame deeper
        exact (List.prefix_append addr [(j : Int)]).trans below
theorem framesBelow_address_extends (ancestors : List RawTrace) (addr : List Int) (i : Nat) :
    (calls : List RawTrace) →
      ∀ frame ∈ framesBelow ancestors (assignChildAddresses addr i calls),
        ∃ j : Nat, i ≤ j ∧ addr ++ [(j : Int)] <+: frame.address
  | [], frame, member => by cases member
  | child :: rest, frame, member => by
      rw [assignChildAddresses, framesBelow] at member
      rcases List.mem_append.mp member with here | later
      · exact ⟨i, le_refl i, frames_address_extends ancestors (addr ++ [(i : Int)]) child frame here⟩
      · obtain ⟨j, above, below⟩ :=
          framesBelow_address_extends ancestors addr (i + 1) rest frame later
        exact ⟨j, by omega, below⟩
end

theorem lt_of_child (addr address : List Int) (j : Int) (below : addr ++ [j] <+: address) :
    addr < address := by
  obtain ⟨rest, rfl⟩ := below
  rw [List.append_assoc]
  have below : addr ++ [] < addr ++ j :: rest := List.append_left_lt (List.nil_lt_cons _ _)
  simpa using below

theorem lt_of_sibling (addr address address' : List Int) (i j : Int) (order : i < j)
    (below : addr ++ [i] <+: address) (below' : addr ++ [j] <+: address') :
    address < address' := by
  obtain ⟨rest, rfl⟩ := below
  obtain ⟨rest', rfl⟩ := below'
  rw [List.append_assoc, List.append_assoc]
  apply List.append_left_lt
  exact List.cons_lt_cons_iff.mpr (Or.inl order)

mutual
theorem frames_address_sorted (ancestors : List RawTrace) (addr : List Int) :
    (tree : RawTrace) → (frames ancestors (assignTraceAddresses addr tree)).Pairwise
      fun frame frame' => frame.address < frame'.address
  | ⟨_, _, _, _, _, _, _, _, _, _, _, _, _, calls, _⟩ => by
      rw [assignTraceAddresses, frames_eq]
      refine List.Pairwise.cons (fun frame deeper => ?_) (framesBelow_address_sorted _ addr 0 calls)
      obtain ⟨j, -, below⟩ := framesBelow_address_extends _ addr 0 calls frame deeper
      exact lt_of_child addr _ j below
theorem framesBelow_address_sorted (ancestors : List RawTrace) (addr : List Int) (i : Nat) :
    (calls : List RawTrace) →
      (framesBelow ancestors (assignChildAddresses addr i calls)).Pairwise
        fun frame frame' => frame.address < frame'.address
  | [] => List.Pairwise.nil
  | child :: rest => by
      rw [assignChildAddresses, framesBelow, List.pairwise_append]
      refine ⟨frames_address_sorted ancestors _ child,
        framesBelow_address_sorted ancestors addr (i + 1) rest, ?_⟩
      intro frame here frame' later
      obtain ⟨j, above, below⟩ :=
        framesBelow_address_extends ancestors addr (i + 1) rest frame' later
      exact lt_of_sibling addr _ _ i j (by omega)
        (frames_address_extends ancestors (addr ++ [(i : Int)]) child frame here) below
end

theorem frames_sorted (tree : RawTrace) (assigned : Assigned tree) :
    (frames [] tree).Pairwise fun frame frame' => frame.address < frame'.address := by
  have sorted := frames_address_sorted [] [] tree
  rwa [assigned] at sorted

mutual
theorem frames_address_nonneg (ancestors : List RawTrace) (addr : List Int)
    (nonneg : ∀ component ∈ addr, 0 ≤ component) : (tree : RawTrace) →
      ∀ frame ∈ frames ancestors (assignTraceAddresses addr tree), ∀ component ∈ frame.address, 0 ≤ component
  | ⟨_, _, _, _, _, _, _, _, _, _, _, _, _, calls, _⟩, frame, member => by
      rw [assignTraceAddresses, frames_eq] at member
      rcases List.mem_cons.mp member with rfl | deeper
      · exact nonneg
      · exact framesBelow_address_nonneg _ addr 0 nonneg calls frame deeper
theorem framesBelow_address_nonneg (ancestors : List RawTrace) (addr : List Int) (i : Nat)
    (nonneg : ∀ component ∈ addr, 0 ≤ component) : (calls : List RawTrace) →
      ∀ frame ∈ framesBelow ancestors (assignChildAddresses addr i calls),
        ∀ component ∈ frame.address, 0 ≤ component
  | [], frame, member => by cases member
  | child :: rest, frame, member => by
      rw [assignChildAddresses, framesBelow] at member
      rcases List.mem_append.mp member with here | later
      · have extended : ∀ component ∈ addr ++ [(i : Int)], 0 ≤ component := by
          intro component inside
          rcases List.mem_append.mp inside with above | last
          · exact nonneg component above
          · exact List.mem_singleton.mp last ▸ Int.natCast_nonneg i
        exact frames_address_nonneg ancestors _ extended child frame here
      · exact framesBelow_address_nonneg ancestors addr (i + 1) nonneg rest frame later
end

theorem assigned_nonneg (tree : RawTrace) (assigned : Assigned tree) :
    ∀ frame ∈ frames [] tree, ∀ component ∈ frame.address, 0 ≤ component := by
  have nonneg := frames_address_nonneg [] [] (by simp) tree
  rwa [assigned] at nonneg

end EconomicLedger.Trace
