import EconomicLedger.Matching.OrderIndependence
import EconomicLedger.Matching.Outcome
import Mathlib.Data.List.Sigma

/-!
# Edge identifiers

An identifier is made of the endpoints of its edge, the status and a number: the place in its batch
for a partial edge, the position in the list for an unexpected movement. Within one report this
tells all edges apart; between two orders of the movements it is the numbers that may differ.
-/

namespace EconomicLedger.Matching
open Model Text

/-! ## Keys -/

structure EdgeKey where
  actionId : String
  movementId : String
  status : Status
  idx : Nat
deriving DecidableEq

variable (sha256 : Digest)

def EdgeKey.edgeId (key : EdgeKey) : String :=
  computeEdgeId sha256 (some key.actionId) (some key.movementId) key.status key.idx

theorem orText_some_empty (s : String) : orText (some s) "" = s := by
  by_cases blank : s = ""
  · simp [orText, blank]
  · simp [orText, blank]

theorem status_value_injective : Function.Injective Status.value := by
  intro status status' same
  cases status <;> cases status' <;> first | rfl | exact absurd same (by decide)

theorem barFree_status (status : Status) : BarFree status.value := by
  cases status <;> decide

theorem edgeId_inj (injective : Function.Injective sha256) {key key' : EdgeKey}
    (free : BarFree key.actionId) (free' : BarFree key'.actionId) :
    key.edgeId sha256 = key'.edgeId sha256 ↔ key = key' := by
  refine ⟨fun same => ?_, fun same => by rw [same]⟩
  have same := injective same
  simp only [orText_some_empty] at same
  have tag : BarFree "edge" := by decide
  obtain ⟨-, same⟩ := (joinBar_cons_inj tag tag (by simp) (by simp)).mp same
  obtain ⟨actionId, same⟩ := (joinBar_cons_inj free free' (by simp) (by simp)).mp same
  -- the movement id may hold bars: the number and the status are read off the other end
  obtain ⟨same, idx⟩ := (joinBar_concat_inj (x := [key.movementId, key.status.value])
    (y := [key'.movementId, key'.status.value]) (barFree_nat _) (barFree_nat _)
    (by simp) (by simp)).mp same
  obtain ⟨movementId, status⟩ := (joinBar_concat_inj (x := [key.movementId])
    (y := [key'.movementId]) (barFree_status _) (barFree_status _) (by simp) (by simp)).mp same
  have idx : key.idx = key'.idx := (toString_nat_inj _ _).mp idx
  have status := status_value_injective status
  have movementId : key.movementId = key'.movementId := movementId
  cases key
  cases key'
  simp only at actionId movementId status idx
  rw [actionId, movementId, status, idx]

/-! ## The keys of a report -/

def actionKeys (movements : List TokenMovement) (action : EconomicAction) : List EdgeKey :=
  match settle action movements with
  | none => [⟨action.actionId, "", actionStatus action movements, 0⟩]
  | some subset => subset.zipIdx.map fun (m, i) =>
      ⟨action.actionId, m.movementId, actionStatus action movements, i⟩

def unexpectedKeys (actions : List EconomicAction) (movements : List TokenMovement) : List EdgeKey :=
  (unmatchedMovements sha256 actions movements).map fun (m, i) => ⟨"", m.movementId, .unexpected, i⟩

def reportKeys (actions : List EconomicAction) (movements : List TokenMovement) : List EdgeKey :=
  actions.flatMap (actionKeys movements) ++ unexpectedKeys sha256 actions movements

def edgeIds (actions : List EconomicAction) (movements : List TokenMovement) : List String :=
  (matchTxEconomics sha256 actions movements).edges.map ActionMovementMatch.edgeId

theorem matchActionToMovements_numbered (action : EconomicAction) (movements : List TokenMovement) :
    (matchActionToMovements sha256 action movements).map ActionMovementMatch.edgeId =
      (matchActionToMovements sha256 action movements).zipIdx.map fun (edge, i) =>
        computeEdgeId sha256 edge.actionId edge.movementId edge.status i := by
  have batch (subset : List TokenMovement) :
      (partialEdges sha256 action subset).map ActionMovementMatch.edgeId =
        (partialEdges sha256 action subset).zipIdx.map fun (edge, i) =>
          computeEdgeId sha256 edge.actionId edge.movementId edge.status i := by
    apply List.ext_getElem
    · simp
    · intro i _ _
      simp [partialEdges, matchEdge]
  unfold matchActionToMovements
  split
  · rfl
  · simp only
    split
    · rfl
    · split
      · rfl
      · rfl
      · split
        · exact batch _
        · rfl

theorem edgeIds_action (action : EconomicAction) (movements : List TokenMovement) :
    (matchActionToMovements sha256 action movements).map ActionMovementMatch.edgeId =
      (actionKeys movements action).map (EdgeKey.edgeId sha256) := by
  have matched := matchActionToMovements_matched sha256 action movements
  have own : ((matchActionToMovements sha256 action movements).zipIdx.map fun (edge, i) =>
      computeEdgeId sha256 edge.actionId edge.movementId edge.status i) =
        ((matchActionToMovements sha256 action movements).map allocation).zipIdx.map fun (named, i) =>
          computeEdgeId sha256 (some action.actionId) named.1 (actionStatus action movements) i := by
    rw [List.zipIdx_map, List.map_map]
    apply List.map_congr_left
    intro numbered member
    have inside := List.fst_mem_of_mem_zipIdx member
    simp only [matched.owned _ inside, matched.status _ inside]
    rfl
  rw [matchActionToMovements_numbered, own, matched.allocations, actionKeys]
  cases settle action movements with
  | none => rfl
  | some subset =>
      simp only
      rw [List.zipIdx_map, List.map_map, List.map_map]
      rfl

theorem edgeIds_eq (actions : List EconomicAction) (movements : List TokenMovement) :
    edgeIds sha256 actions movements =
      (reportKeys sha256 actions movements).map (EdgeKey.edgeId sha256) := by
  rw [edgeIds, (matchTxEconomics_fields sha256 actions movements).1, txEdges, List.map_append,
    reportKeys, List.map_append, actionEdges, List.map_flatMap, List.map_flatMap, unexpectedKeys,
    List.map_map, List.map_map]
  simp only [edgeIds_action]
  rfl

/-! ## Places -/

def Taken (actions : List EconomicAction) (movements : List TokenMovement) (movementId : String) : Prop :=
  ∃ action ∈ actions, ∃ m, Takes action movements m ∧ m.movementId = movementId

def BatchPlace (actions : List EconomicAction) (movements : List TokenMovement)
    (actionId movementId : String) (i : Nat) : Prop :=
  ∃ action ∈ actions, action.actionId = actionId ∧ ∃ subset m, Settlement action movements subset ∧
    2 ≤ subset.length ∧ subset[i]? = some m ∧ m.movementId = movementId

def UnexpectedPlace (actions : List EconomicAction) (movements : List TokenMovement)
    (movementId : String) (i : Nat) : Prop :=
  (∃ m, movements[i]? = some m ∧ m.movementId = movementId) ∧ ¬ Taken actions movements movementId

/-- The movements of a batch have the same numbers in it, and the movements that no action takes have
the same positions. -/
structure SamePlaces (actions : List EconomicAction) (movements movements' : List TokenMovement) :
    Prop where
  batches : ∀ actionId movementId i, BatchPlace actions movements' actionId movementId i ↔
    BatchPlace actions movements actionId movementId i
  unexpected : ∀ movementId i, UnexpectedPlace actions movements' movementId i ↔
    UnexpectedPlace actions movements movementId i

theorem mem_unexpectedKeys (actions : List EconomicAction) (movements : List TokenMovement)
    (oneTx : OneTx actions movements) (key : EdgeKey) :
    key ∈ unexpectedKeys sha256 actions movements ↔ key.actionId = "" ∧ key.status = .unexpected ∧
      UnexpectedPlace actions movements key.movementId key.idx := by
  have place (m : TokenMovement) (i : Nat) : (m, i) ∈ unmatchedMovements sha256 actions movements ↔
      movements[i]? = some m ∧ ¬ Taken actions movements m.movementId := by
    rw [unmatchedMovements, unexpectedMovements, List.mem_filter, List.mk_mem_zipIdx_iff_getElem?]
    apply and_congr_right
    intro located
    have ownTx := headTx_eq actions movements oneTx m (List.mem_of_getElem? located)
    simp only [ownTx, decide_true, Bool.true_and, Bool.not_eq_true', decide_eq_false_iff_not]
    exact not_congr (matchedId_iff sha256 actions movements m.movementId)
  simp only [unexpectedKeys, List.mem_map, Prod.exists, place]
  constructor
  · rintro ⟨m, i, ⟨located, free⟩, rfl⟩
    exact ⟨rfl, rfl, ⟨m, located, rfl⟩, free⟩
  · rintro ⟨blank, unexpected, ⟨m, located, named⟩, free⟩
    refine ⟨m, key.idx, ⟨located, named ▸ free⟩, ?_⟩
    cases key
    simp_all

theorem batchPlace_iff (actions : List EconomicAction) (movements : List TokenMovement)
    (actionId movementId : String) (i : Nat) :
    BatchPlace actions movements actionId movementId i ↔
      ∃ action ∈ actions, ⟨actionId, movementId, .partialMatch, i⟩ ∈ actionKeys movements action := by
  apply exists_congr
  intro action
  apply and_congr_right
  intro _
  constructor
  · rintro ⟨rfl, subset, m, settled, several, located, rfl⟩
    have found := (settle_eq_some_iff action movements subset).mpr settled
    have nothing : ofItsAmount action movements = [] := by
      by_contra some
      have := settled.length_eq_one_iff.mpr some
      omega
    rw [actionKeys, found]
    simp only [settled.batched nothing]
    exact List.mem_map.mpr ⟨(m, i), List.mk_mem_zipIdx_iff_getElem?.mpr located, rfl⟩
  · intro member
    cases found : settle action movements with
    | none =>
        simp only [actionKeys, found, List.mem_singleton, EdgeKey.mk.injEq] at member
        obtain ⟨subset, settled, -⟩ := batch_of_partial member.2.2.1.symm
        rw [found] at settled
        cases settled
    | some subset =>
        simp only [actionKeys, found, List.mem_map, Prod.exists, EdgeKey.mk.injEq] at member
        obtain ⟨m, j, numbered, rfl, rfl, status, rfl⟩ := member
        obtain ⟨subset', found', nothing⟩ := batch_of_partial status
        obtain rfl : subset = subset' := Option.some.inj (found.symm.trans found')
        exact ⟨rfl, subset, m, (settle_eq_some_iff action movements subset).mp found,
          (batch_smallest found nothing).sized.1, List.mk_mem_zipIdx_iff_getElem?.mp numbered, rfl⟩

theorem actionKeys_actionId (movements : List TokenMovement) (action : EconomicAction) (key : EdgeKey)
    (member : key ∈ actionKeys movements action) :
    key.actionId = action.actionId ∧ key.status = actionStatus action movements := by
  unfold actionKeys at member
  split at member
  · rw [List.mem_singleton.mp member]
    exact ⟨rfl, rfl⟩
  · obtain ⟨numbered, -, rfl⟩ := List.mem_map.mp member
    exact ⟨rfl, rfl⟩

/-! ## Replays -/

def namedEdges (edges : List ActionMovementMatch) : List (Option String × Status) :=
  edges.map fun edge => (edge.movementId, edge.status)

def SameEdges (actions : List EconomicAction) (movements movements' : List TokenMovement) : Prop :=
  ∀ action ∈ actions, ∀ named,
    named ∈ namedEdges (matchActionToMovements sha256 action movements') ↔
      named ∈ namedEdges (matchActionToMovements sha256 action movements)

theorem namedEdges_eq (action : EconomicAction) (movements : List TokenMovement) :
    namedEdges (matchActionToMovements sha256 action movements) =
      match settle action movements with
      | none => [(none, actionStatus action movements)]
      | some subset => subset.map fun m => (some m.movementId, actionStatus action movements) := by
  have matched := matchActionToMovements_matched sha256 action movements
  have own : namedEdges (matchActionToMovements sha256 action movements) =
      ((matchActionToMovements sha256 action movements).map allocation).map fun named =>
        (named.1, actionStatus action movements) := by
    rw [namedEdges, List.map_map]
    apply List.map_congr_left
    intro edge member
    simp only [matched.status edge member]
    rfl
  rw [own, matched.allocations]
  cases settle action movements with
  | none => rfl
  | some subset =>
      simp only
      rw [List.map_map]
      rfl

theorem actionKeys_single (action : EconomicAction) {movements movements' : List TokenMovement}
    (reordered : movements'.Perm movements)
    (same : ∀ named, named ∈ namedEdges (matchActionToMovements sha256 action movements') ↔
      named ∈ namedEdges (matchActionToMovements sha256 action movements))
    (single : actionStatus action movements ≠ .partialMatch) :
    actionKeys movements' action = actionKeys movements action := by
  have status := actionStatus_perm reordered action
  have alone (ms : List TokenMovement) (subset : List TokenMovement)
      (found : settle action ms = some subset) (notBatch : actionStatus action ms ≠ .partialMatch) :
      ∃ m, subset = [m] := by
    have settled := (settle_eq_some_iff action ms subset).mp found
    exact List.length_eq_one_iff.mp
      (settled.length_eq_one_iff.mpr fun nothing => notBatch (settled.batched nothing))
  have settled := settle_isSome_perm reordered action
  simp only [namedEdges_eq, status] at same
  unfold actionKeys
  cases found : settle action movements with
  | none =>
      have found' : settle action movements' = none := by
        rw [found] at settled
        simpa using settled
      simp only [found', status]
  | some subset =>
      obtain ⟨subset', found'⟩ : ∃ subset', settle action movements' = some subset' := by
        rw [found] at settled
        exact Option.isSome_iff_exists.mp (settled.mpr rfl)
      obtain ⟨m, rfl⟩ := alone movements subset found single
      obtain ⟨m', rfl⟩ := alone movements' subset' found' (status ▸ single)
      have names := (same (some m.movementId, actionStatus action movements)).mpr (by simp [found])
      simp only [found', List.map_cons, List.map_nil, List.mem_singleton, Prod.mk.injEq,
        Option.some.injEq, and_true] at names
      simp [found', names, status]

theorem reportKeys_barFree (actions : List EconomicAction) (movements : List TokenMovement)
    (free : ∀ action ∈ actions, BarFree action.actionId) (key : EdgeKey)
    (member : key ∈ reportKeys sha256 actions movements) : BarFree key.actionId := by
  rcases List.mem_append.mp member with own | unexpected
  · obtain ⟨action, isAction, inside⟩ := List.mem_flatMap.mp own
    rw [(actionKeys_actionId movements action key inside).1]
    exact free action isAction
  · obtain ⟨place, -, rfl⟩ := List.mem_map.mp unexpected
    exact (by decide : BarFree "")

theorem mem_edgeIds_iff (injective : Function.Injective sha256) (actions : List EconomicAction)
    (movements : List TokenMovement) (free : ∀ action ∈ actions, BarFree action.actionId)
    (key : EdgeKey) (keyFree : BarFree key.actionId) :
    key.edgeId sha256 ∈ edgeIds sha256 actions movements ↔ key ∈ reportKeys sha256 actions movements := by
  rw [edgeIds_eq, List.mem_map]
  constructor
  · rintro ⟨key', member, same⟩
    have keyFree' := reportKeys_barFree sha256 actions movements free key' member
    rwa [(edgeId_inj sha256 injective keyFree' keyFree).mp same] at member
  · intro member
    exact ⟨key, member, rfl⟩

theorem sameIds_iff (injective : Function.Injective sha256) (actions : List EconomicAction)
    (movements movements' : List TokenMovement) (free : ∀ action ∈ actions, BarFree action.actionId) :
    (∀ edgeId, edgeId ∈ edgeIds sha256 actions movements' ↔ edgeId ∈ edgeIds sha256 actions movements) ↔
      ∀ key, key ∈ reportKeys sha256 actions movements' ↔ key ∈ reportKeys sha256 actions movements := by
  constructor
  · intro same key
    have half (ms ms' : List TokenMovement)
        (ids : ∀ edgeId, edgeId ∈ edgeIds sha256 actions ms → edgeId ∈ edgeIds sha256 actions ms')
        (member : key ∈ reportKeys sha256 actions ms) : key ∈ reportKeys sha256 actions ms' := by
      have keyFree := reportKeys_barFree sha256 actions ms free key member
      have inside := (mem_edgeIds_iff sha256 injective actions ms free key keyFree).mpr member
      exact (mem_edgeIds_iff sha256 injective actions ms' free key keyFree).mp (ids _ inside)
    exact ⟨half movements' movements fun id => (same id).mp, half movements movements' fun id => (same id).mpr⟩
  · intro same edgeId
    simp only [edgeIds_eq, List.mem_map, same]

theorem mem_reportKeys_iff (actions : List EconomicAction) (movements : List TokenMovement)
    (oneTx : OneTx actions movements) (key : EdgeKey) :
    key ∈ reportKeys sha256 actions movements ↔
      (∃ action ∈ actions, key ∈ actionKeys movements action) ∨ key.actionId = "" ∧
        key.status = .unexpected ∧ UnexpectedPlace actions movements key.movementId key.idx := by
  rw [reportKeys, List.mem_append, List.mem_flatMap, mem_unexpectedKeys sha256 actions movements oneTx]

/-- A single edge has number 0, so only the numbers in a batch depend on the order. -/
theorem mem_actionKeys_iff_of_samePlaces (actions : List EconomicAction)
    (movements movements' : List TokenMovement) (reordered : movements'.Perm movements)
    (same : SameEdges sha256 actions movements movements')
    (places : SamePlaces actions movements movements') (key : EdgeKey) :
    (∃ action ∈ actions, key ∈ actionKeys movements' action) ↔
      ∃ action ∈ actions, key ∈ actionKeys movements action := by
  by_cases batch : key.status = .partialMatch
  · obtain ⟨actionId, movementId, status, i⟩ := key
    obtain rfl : status = .partialMatch := batch
    rw [← batchPlace_iff, ← batchPlace_iff, places.batches]
  · apply exists_congr
    intro action
    apply and_congr_right
    intro isAction
    by_cases single : actionStatus action movements = .partialMatch
    · have none (ms : List TokenMovement) (status : actionStatus action ms = .partialMatch) :
          key ∉ actionKeys ms action := fun inside =>
        batch ((actionKeys_actionId ms action key inside).2.trans status)
      simp [none movements single,
        none movements' ((actionStatus_perm reordered action).trans single)]
    · rw [actionKeys_single sha256 action reordered (same action isAction) single]

theorem sameKeys_iff (actions : List EconomicAction) (movements movements' : List TokenMovement)
    (oneTx : OneTx actions movements) (reordered : movements'.Perm movements)
    (same : SameEdges sha256 actions movements movements') :
    (∀ key, key ∈ reportKeys sha256 actions movements' ↔ key ∈ reportKeys sha256 actions movements) ↔
      SamePlaces actions movements movements' := by
  have oneTx' : OneTx actions movements' := by
    obtain ⟨txHash, own, moved⟩ := oneTx
    exact ⟨txHash, own, fun m member => moved m (reordered.mem_iff.mp member)⟩
  simp only [mem_reportKeys_iff sha256 actions movements oneTx,
    mem_reportKeys_iff sha256 actions movements' oneTx']
  have expected (ms : List TokenMovement) (key : EdgeKey) (action : EconomicAction)
      (inside : key ∈ actionKeys ms action) : key.status ≠ .unexpected := by
    rw [(actionKeys_actionId ms action key inside).2]
    exact actionStatus_ne_unexpected action ms
  constructor
  · intro keys
    constructor
    · intro actionId movementId i
      have here := keys ⟨actionId, movementId, .partialMatch, i⟩
      rw [batchPlace_iff, batchPlace_iff]
      simpa using here
    · intro movementId i
      have here := keys ⟨"", movementId, .unexpected, i⟩
      have none (ms : List TokenMovement) :
          ¬ ∃ action ∈ actions, ⟨"", movementId, .unexpected, i⟩ ∈ actionKeys ms action :=
        fun ⟨action, _, inside⟩ => expected ms _ action inside rfl
      simpa [none] using here
  · intro places key
    apply or_congr
    · exact mem_actionKeys_iff_of_samePlaces sha256 actions movements movements' reordered same places key
    · rw [places.unexpected]

theorem edgeIds_nodup (injective : Function.Injective sha256) (actions : List EconomicAction)
    (movements : List TokenMovement) (free : ∀ action ∈ actions, BarFree action.actionId)
    (distinct : (actions.map EconomicAction.actionId).Nodup) :
    (edgeIds sha256 actions movements).Nodup := by
  have numbered (subset : List TokenMovement) (f : TokenMovement × Nat → EdgeKey)
      (own : ∀ place, (f place).idx = place.2) : (subset.zipIdx.map f).Nodup := by
    apply List.Nodup.of_map EdgeKey.idx
    rw [List.map_map]
    have indices : EdgeKey.idx ∘ f = Prod.snd := funext own
    rw [indices]
    exact List.nodup_zipIdx_map_snd subset
  have keys : (reportKeys sha256 actions movements).Nodup := by
    rw [reportKeys, List.nodup_append']
    refine ⟨?_, ?_, ?_⟩
    · apply Keyed.nodup_flatMap_of_key EconomicAction.actionId _ distinct
      · intro action _
        unfold actionKeys
        split
        · simp
        · exact numbered _ _ fun _ => rfl
      · intro action _ action' _ key inside inside'
        exact (actionKeys_actionId movements action key inside).1.symm.trans
          (actionKeys_actionId movements action' key inside').1
    · have sub : (unmatchedMovements sha256 actions movements).Sublist movements.zipIdx :=
        List.filter_sublist
      exact (numbered movements _ fun _ => rfl).sublist (sub.map _)
    · intro key own unexpected
      obtain ⟨action, -, inside⟩ := List.mem_flatMap.mp own
      obtain ⟨place, -, rfl⟩ := List.mem_map.mp unexpected
      exact actionStatus_ne_unexpected action movements
        (actionKeys_actionId movements action _ inside).2.symm
  rw [edgeIds_eq]
  apply keys.map_on
  intro key member key' member' same
  exact (edgeId_inj sha256 injective (reportKeys_barFree sha256 actions movements free key member)
    (reportKeys_barFree sha256 actions movements free key' member')).mp same

/-- Two replays with the same edges have the same identifiers exactly when they number the same
movements alike; within one replay no identifier is given twice. -/
theorem edgeIds_stable_iff (injective : Function.Injective sha256) (actions : List EconomicAction)
    (movements movements' : List TokenMovement) (free : ∀ action ∈ actions, BarFree action.actionId)
    (oneTx : OneTx actions movements) (reordered : movements'.Perm movements)
    (same : SameEdges sha256 actions movements movements') :
    ((∀ edgeId, edgeId ∈ edgeIds sha256 actions movements' ↔
        edgeId ∈ edgeIds sha256 actions movements) ↔ SamePlaces actions movements movements') ∧
      ((actions.map EconomicAction.actionId).Nodup → (edgeIds sha256 actions movements).Nodup) := by
  constructor
  · rw [sameIds_iff sha256 injective actions movements movements' free]
    exact sameKeys_iff sha256 actions movements movements' oneTx reordered same
  · exact edgeIds_nodup sha256 injective actions movements free

def firstRead : List TokenMovement := [movementOf "m1" 7, movementOf "m2" 1, movementOf "m3" 2]

def secondRead : List TokenMovement := [movementOf "m2" 1, movementOf "m1" 7, movementOf "m3" 2]

theorem sameEdges_secondRead : SameEdges id [stakeOf "stake" 7] firstRead secondRead := by
  intro action isStake named
  obtain rfl := List.mem_singleton.mp isStake
  have edges : namedEdges (matchActionToMovements id (stakeOf "stake" 7) secondRead) =
      namedEdges (matchActionToMovements id (stakeOf "stake" 7) firstRead) := by
    decide +kernel
  rw [edges]

theorem renamed_secondRead : "edge||m2|unexpected|0" ∈ edgeIds id [stakeOf "stake" 7] secondRead ∧
    "edge||m2|unexpected|0" ∉ edgeIds id [stakeOf "stake" 7] firstRead := by
  decide +kernel

theorem edgeIds_stable_secondRead : ¬ SamePlaces [stakeOf "stake" 7] firstRead secondRead ∧
    (edgeIds id [stakeOf "stake" 7] firstRead).Nodup := by
  have stable := edgeIds_stable_iff id Function.injective_id [stakeOf "stake" 7] firstRead secondRead
    (by decide) ⟨"0x01", by decide, by decide⟩ (by decide) sameEdges_secondRead
  refine ⟨fun places => ?_, stable.2 (by decide)⟩
  exact renamed_secondRead.2 ((stable.1.mpr places _).mp renamed_secondRead.1)

/-- The movement that no action takes comes first in the second read. -/
theorem secondRead_renames_unexpected :
    OneTx [stakeOf "stake" 7] firstRead ∧ secondRead.Perm firstRead ∧
      SameEdges id [stakeOf "stake" 7] firstRead secondRead ∧
      ¬ ∀ edgeId, edgeId ∈ edgeIds id [stakeOf "stake" 7] secondRead ↔
        edgeId ∈ edgeIds id [stakeOf "stake" 7] firstRead := by
  refine ⟨⟨"0x01", by decide, by decide⟩, by decide, sameEdges_secondRead, fun stable => ?_⟩
  exact renamed_secondRead.2 ((stable _).mp renamed_secondRead.1)

end EconomicLedger.Matching
