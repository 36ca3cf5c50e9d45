import EconomicLedger.Movements.Flows
import EconomicLedger.Trace.AncestorSuccess

/-!
# What the traces add to the balances

Every observed transfer has a log and a call. The call of `transfer()` carries no sender, so it never
meets its log; a call of `transferFrom()` misses its log where packed trace addresses collide with
log indices or with each other.
-/

namespace EconomicLedger.Movements
open Model Text Keyed Fallible Trace

variable (sha256 : Digest) (libs : ExternalLibs)

/-! ## Addresses -/

def AddressText (s : String) : Prop := s ≠ "" ∧ BarFree s

theorem addressText_lower (s : String) : AddressText (lower s) ↔ AddressText s := by
  simp [AddressText]

/-- `eth_abi` decodes an `address` to its hex text and a `uint256` to a natural number. -/
structure AddressAbi (libs : ExternalLibs) : Prop where
  transfer : ∀ data values, libs.abiDecode ["address", "uint256"] data = .ok values →
    ∃ recipient amount, values = [.str recipient, .int amount] ∧ AddressText recipient ∧ 0 ≤ amount
  transferFrom : ∀ data values, libs.abiDecode ["address", "address", "uint256"] data = .ok values →
    ∃ sender recipient amount, values = [.str sender, .str recipient, .int amount] ∧
      AddressText sender ∧ AddressText recipient ∧ 0 ≤ amount

variable {libs} in
theorem AddressAbi.typed (abi : AddressAbi libs) : TypedAbi libs where
  transfer := fun data values decoded => by
    obtain ⟨recipient, amount, same, -⟩ := abi.transfer data values decoded
    exact ⟨recipient, amount, same⟩
  transferFrom := fun data values decoded => by
    obtain ⟨sender, recipient, amount, same, -⟩ := abi.transferFrom data values decoded
    exact ⟨sender, recipient, amount, same⟩

structure Addressed (args : Erc20Transfer) : Prop where
  recipient : AddressText args.toAddr
  sender : ∀ sender, args.fromAddr = some sender → AddressText sender
  amount : 0 ≤ args.amount

theorem decodeErc20TransferCalldata_addressed (abi : AddressAbi libs) (calldata : String)
    (args : Erc20Transfer) (decoded : decodeErc20TransferCalldata libs calldata = .ok (some args)) :
    Addressed args := by
  obtain ⟨body, -, decoded⟩ := (bind_eq_ok_iff _ _ _).mp decoded
  simp only [erc20ArgumentTypes] at decoded
  by_cases isTransfer : extractMethodSelector calldata = erc20TransferSelector
  · simp only [if_pos isTransfer] at decoded
    split_ifs at decoded
    · cases decoded
    · cases values : libs.abiDecode ["address", "uint256"] (body.take 64) with
      | error exc => simp [values, pure, Except.pure] at decoded
      | ok values' =>
          obtain ⟨recipient, amount, rfl, isAddress, nonneg⟩ := abi.transfer _ _ values
          rw [values] at decoded
          obtain rfl := Option.some.inj (Except.ok.inj decoded)
          exact ⟨(addressText_lower _).mpr isAddress, by simp, nonneg⟩
  · simp only [if_neg isTransfer] at decoded
    by_cases isTransferFrom : extractMethodSelector calldata = erc20TransferFromSelector
    · simp only [if_pos isTransferFrom] at decoded
      split_ifs at decoded
      · cases decoded
      · cases values : libs.abiDecode ["address", "address", "uint256"] (body.take 96) with
        | error exc => simp [values, pure, Except.pure] at decoded
        | ok values' =>
            obtain ⟨sender, recipient, amount, rfl, isSender, isRecipient, nonneg⟩ :=
              abi.transferFrom _ _ values
            rw [values] at decoded
            obtain rfl := Option.some.inj (Except.ok.inj decoded)
            refine ⟨(addressText_lower _).mpr isRecipient, fun _ same => ?_, nonneg⟩
            obtain rfl := Option.some.inj same
            exact (addressText_lower _).mpr isSender
    · simp [if_neg isTransferFrom, pure, Except.pure] at decoded

theorem argsOf_addressed (abi : AddressAbi libs) (node : RawTrace) (args : Erc20Transfer)
    (decoded : argsOf libs node = some args) : Addressed args := by
  unfold argsOf at decoded
  split at decoded
  next same =>
    subst decoded
    exact decodeErc20TransferCalldata_addressed libs abi _ args same
  next => cases decoded

/-! ## Observed transfers -/

def eventSighting (ev : DecodedEvent) : Sighting :=
  { chainId := ev.chainId
    blockNumber := ev.blockNumber
    txHash := lower ev.txHash
    fromAddr := ev.fromAddr
    toAddr := ev.toAddr
    amount := amountOf ev
    position := ev.logIndex }

def callSighting (call : TraceTokenCall) : Sighting :=
  { chainId := call.chainId
    blockNumber := call.blockNumber
    txHash := lower call.txHash
    fromAddr := lower call.fromAddr
    toAddr := lower call.toAddr
    amount := call.amount
    position := packed call.traceAddress }

def frameTransfer (frame : Frame) : Option Transfer :=
  (argsOf libs frame.node).map fun args =>
    { chainId := frame.node.chainId
      blockNumber := frame.node.blockNumber
      txHash := lower frame.node.txHash
      fromAddr := lower (args.fromAddr.getD frame.node.fromAddr)
      toAddr := lower args.toAddr
      amount := args.amount }

/-- A `transferFrom()` frame, at its packed trace address. -/
def transferFromSighting (frame : Frame) : Option Sighting :=
  (argsOf libs frame.node).bind fun args => args.fromAddr.map fun sender =>
    { chainId := frame.node.chainId
      blockNumber := frame.node.blockNumber
      txHash := lower frame.node.txHash
      fromAddr := lower sender
      toAddr := lower args.toAddr
      amount := args.amount
      position := packed frame.address }

def transferEvents (events : List DecodedEvent) : List DecodedEvent := events.filter (·.isTransfer)

variable (tokenAddress : String) (receiptsByTx : Dict String Receipt)

def observedFrames (trees : List RawTrace) : List Frame :=
  (trees.flatMap (frames [])).filter (observed tokenAddress receiptsByTx)

/-- Call trees of distinct transactions, and the logs of the transfers observed in them: one for each,
from its true sender. -/
structure Observation (trees : List RawTrace) (events : List DecodedEvent) : Prop where
  hexInput : ∀ tree ∈ trees, ∀ frame ∈ frames [] tree, HexInput frame.node.inputData
  assigned : ∀ tree ∈ trees, Assigned tree
  oneTransaction : ∀ tree ∈ trees, ∀ frame ∈ frames [] tree, frame.node.chainId = tree.chainId ∧
    frame.node.blockNumber = tree.blockNumber ∧ frame.node.txHash = tree.txHash
  distinctHashes : (trees.map fun tree => lower tree.txHash).Nodup
  callers : ∀ tree ∈ trees, ∀ frame ∈ frames [] tree, AddressText frame.node.fromAddr
  amounts : ∀ ev ∈ transferEvents events, ∃ amount, ev.transferAmount = .ok amount
  positions : ((transferEvents events).map fun ev => (lower ev.txHash, ev.logIndex)).Nodup
  logged : ((transferEvents events).map fun ev => (eventSighting ev).toTransfer).Perm
    ((observedFrames tokenAddress receiptsByTx trees).filterMap (frameTransfer libs))

/-! ## Identifiers of sightings -/

structure Legible (trees : List RawTrace) (transfer : Transfer) : Prop where
  placed : ∃ tree ∈ trees, transfer.chainId = tree.chainId ∧ transfer.blockNumber = tree.blockNumber ∧
    transfer.txHash = lower tree.txHash
  lowerFrom : lower transfer.fromAddr = transfer.fromAddr
  lowerTo : lower transfer.toAddr = transfer.toAddr
  freeFrom : BarFree transfer.fromAddr
  freeTo : BarFree transfer.toAddr

def Sighting.movementId (s : Sighting) : String :=
  computeMovementId sha256 s.chainId s.txHash s.fromAddr s.toAddr s.amount s.position

theorem builtLog_movementId (ev : DecodedEvent) :
    (builtLog sha256 ev).movementId = (eventSighting ev).movementId sha256 := by
  simp [builtLog, logMovement, Sighting.movementId, eventSighting, computeMovementId, movementStem]

theorem builtTrace_movementId (call : TraceTokenCall) :
    (builtTrace sha256 call).movementId = (callSighting call).movementId sha256 := by
  simp [builtTrace, traceMovement, Sighting.movementId, callSighting, computeMovementId, movementStem]

variable {trees : List RawTrace} {events : List DecodedEvent}

theorem movementId_inj (injective : Function.Injective sha256)
    (distinctHashes : (trees.map fun tree => lower tree.txHash).Nodup) (s s' : Sighting)
    (legible : Legible trees s.toTransfer) (legible' : Legible trees s'.toTransfer) :
    s.movementId sha256 = s'.movementId sha256 ↔ s = s' := by
  refine ⟨fun same => ?_, fun same => same ▸ rfl⟩
  obtain ⟨stem, position⟩ := (computeMovementId_inj injective _ _ _ _ _ _ _ _ _ _ _ _).mp same
  obtain ⟨chain, hash, sender, recipient, amount⟩ :=
    (joinBar_movementStem_inj _ _ _ _ _ _ _ _ _ _ legible.freeFrom legible'.freeFrom legible.freeTo
      legible'.freeTo).mp stem
  obtain ⟨tree, member, -, block, isHash⟩ := legible.placed
  obtain ⟨tree', member', -, block', isHash'⟩ := legible'.placed
  rw [isHash, isHash', lower_lower, lower_lower] at hash
  obtain rfl := List.inj_on_of_nodup_map distinctHashes member member' hash
  rw [legible.lowerFrom, legible'.lowerFrom] at sender
  rw [legible.lowerTo, legible'.lowerTo] at recipient
  exact Sighting.ext chain (block.trans block'.symm) (isHash.trans isHash'.symm) sender recipient amount
    position

/-! ## The pipeline -/

section
variable (trees) in
def tokenCalls : List TraceTokenCall :=
  (observedFrames tokenAddress receiptsByTx trees).map (frameTokenCall sha256 libs tokenAddress)

variable {tokenAddress : String} {receiptsByTx : Dict String Receipt}
  (obs : Observation libs tokenAddress receiptsByTx trees events) (abi : AddressAbi libs)

theorem mem_observedFrames (frame : Frame) (member : frame ∈ observedFrames tokenAddress receiptsByTx trees) :
    ∃ tree ∈ trees, frame ∈ frames [] tree := List.mem_flatMap.mp (List.mem_filter.mp member).1

include obs abi in
theorem decoded_eq : flatMapM (fun tree => decodeTraceCalls sha256 libs tree AbiRegistry.empty) trees =
    .ok ((trees.flatMap (frames [])).map (frameCall sha256 libs)) := by
  have each : ∀ tree ∈ trees, decodeTraceCalls sha256 libs tree AbiRegistry.empty =
      .ok ((frames [] tree).map (frameCall sha256 libs)) := fun tree member =>
    decodeTraceCalls_empty sha256 libs abi.typed tree fun frame inside =>
      (obs.hexInput tree member frame inside).readable
  rw [exists_flatMapM _ _ fun tree member => ⟨_, each tree member⟩, List.map_flatMap]
  congr 1
  exact List.flatMap_congr fun tree member => by rw [each tree member, results_ok]

include obs abi in
theorem extracted_eq (token : tokenAddress ≠ "") :
    extractErc20TransferCalls tokenAddress receiptsByTx
        ((trees.flatMap (frames [])).map (frameCall sha256 libs)) =
      .ok (tokenCalls sha256 libs tokenAddress receiptsByTx trees) := by
  apply extract_frames sha256 libs tokenAddress receiptsByTx token abi.typed
  intro frame member
  obtain ⟨tree, inTrees, inFrames⟩ := List.mem_flatMap.mp member
  exact (obs.hexInput tree inTrees frame inFrames).readable

include obs in
theorem built_traces_eq :
    buildMovementsFromTraceCalls sha256 (tokenCalls sha256 libs tokenAddress receiptsByTx trees) =
    .ok ((tokenCalls sha256 libs tokenAddress receiptsByTx trees).map (builtTrace sha256)) := by
  rw [buildMovementsFromTraceCalls_eq_ok_iff]
  refine ⟨fun call member => ?_, rfl⟩
  obtain ⟨frame, inside, rfl⟩ := List.mem_map.mp member
  obtain ⟨tree, inTrees, inFrames⟩ := mem_observedFrames frame inside
  exact assigned_nonneg tree (obs.assigned tree inTrees) frame inFrames

include obs in
theorem built_logs_eq : buildMovementsFromTransferLogs sha256 events =
    .ok ((transferEvents events).map (builtLog sha256)) :=
  (buildMovementsFromTransferLogs_eq_ok_iff sha256 events _).mpr ⟨obs.amounts, rfl⟩

/-! ## What the sightings say -/

include obs abi in
theorem legible_call (frame : Frame) (member : frame ∈ observedFrames tokenAddress receiptsByTx trees) :
    Legible trees (callSighting (frameTokenCall sha256 libs tokenAddress frame)).toTransfer := by
  obtain ⟨tree, inTrees, inFrames⟩ := mem_observedFrames frame member
  obtain ⟨chain, block, hash⟩ := obs.oneTransaction tree inTrees frame inFrames
  have sender : BarFree (((argsOf libs frame.node).bind Erc20Transfer.fromAddr).getD "") := by
    cases args : (argsOf libs frame.node).bind Erc20Transfer.fromAddr with
    | none => decide
    | some sender =>
        obtain ⟨decoded, arguments, isSender⟩ := Option.bind_eq_some_iff.mp args
        exact ((argsOf_addressed libs abi frame.node decoded arguments).sender sender isSender).2
  have recipient : BarFree (((argsOf libs frame.node).map Erc20Transfer.toAddr).getD "") := by
    cases args : argsOf libs frame.node with
    | none => decide
    | some decoded => exact (argsOf_addressed libs abi frame.node decoded args).recipient.2
  constructor
  · exact ⟨tree, inTrees, chain, block, by simp [callSighting, frameTokenCall, hash]⟩
  · simp [callSighting]
  · simp [callSighting]
  · simpa [callSighting, frameTokenCall] using sender
  · simpa [callSighting, frameTokenCall] using recipient

include obs abi in
theorem legible_event (ev : DecodedEvent) (member : ev ∈ transferEvents events) :
    Legible trees (eventSighting ev).toTransfer ∧ (eventSighting ev).fromAddr ≠ "" := by
  have inLogs := obs.logged.subset (List.mem_map_of_mem (f := fun ev => (eventSighting ev).toTransfer) member)
  obtain ⟨frame, inside, isTransfer⟩ := List.mem_filterMap.mp inLogs
  obtain ⟨args, decoded, same⟩ := Option.map_eq_some_iff.mp isTransfer
  obtain ⟨tree, inTrees, inFrames⟩ := mem_observedFrames frame inside
  obtain ⟨chain, block, hash⟩ := obs.oneTransaction tree inTrees frame inFrames
  have addressed := argsOf_addressed libs abi frame.node args decoded
  have sender : AddressText (args.fromAddr.getD frame.node.fromAddr) := by
    cases isSender : args.fromAddr with
    | none => exact obs.callers tree inTrees frame inFrames
    | some sender => exact addressed.sender sender isSender
  have lowered := (addressText_lower _).mpr sender
  rw [← same]
  refine ⟨⟨⟨tree, inTrees, chain, block, congrArg lower hash⟩, lower_lower _, lower_lower _, lowered.2,
    ((addressText_lower _).mpr addressed.recipient).2⟩, lowered.1⟩

/-- No observed `transfer()` call moves anything. -/
def TransfersVoid (tokenAddress : String) (receiptsByTx : Dict String Receipt) (trees : List RawTrace) : Prop :=
  ∀ frame ∈ observedFrames tokenAddress receiptsByTx trees, ∀ args, argsOf libs frame.node = some args →
    args.method = .transfer → args.amount = 0

theorem frame_nonzero (typed : TypedAbi libs) (frame : Frame) (hex : HexInput frame.node.inputData)
    (void : ∀ args, argsOf libs frame.node = some args → args.method = .transfer → args.amount = 0) :
    (∀ p : Sighting → Bool, (∀ s : Sighting, s.amount = 0 → p s = false) →
      (some (callSighting (frameTokenCall sha256 libs tokenAddress frame))).filter p =
        (transferFromSighting libs frame).filter p) ∧
    ∀ q : Transfer → Bool, (∀ t : Transfer, t.amount = 0 → q t = false) →
      (frameTransfer libs frame).filter q =
        (some (callSighting (frameTokenCall sha256 libs tokenAddress frame)).toTransfer).filter q := by
  have fits := (argsOf_spec libs typed frame.node hex.readable).2
  cases decoded : argsOf libs frame.node with
  | none =>
      refine ⟨fun p zero => ?_, fun q zero => ?_⟩
      · have gone := zero (callSighting (frameTokenCall sha256 libs tokenAddress frame))
          (by simp [callSighting, frameTokenCall, decoded])
        simp [transferFromSighting, decoded, Option.filter, gone]
      · have gone := zero (callSighting (frameTokenCall sha256 libs tokenAddress frame)).toTransfer
          (by simp [callSighting, frameTokenCall, decoded])
        simp [frameTransfer, decoded, Option.filter, gone]
  | some args =>
      rcases fits args decoded with ⟨-, method, noSender⟩ | ⟨-, method, isSender⟩
      · have nothing := void args decoded method
        refine ⟨fun p zero => ?_, fun q zero => ?_⟩
        · have gone := zero (callSighting (frameTokenCall sha256 libs tokenAddress frame))
            (by simp [callSighting, frameTokenCall, decoded, nothing])
          simp [transferFromSighting, decoded, noSender, Option.filter, gone]
        · have gone := zero (callSighting (frameTokenCall sha256 libs tokenAddress frame)).toTransfer
            (by simp [callSighting, frameTokenCall, decoded, nothing])
          have gone' := zero
            { chainId := frame.node.chainId
              blockNumber := frame.node.blockNumber
              txHash := lower frame.node.txHash
              fromAddr := lower (args.fromAddr.getD frame.node.fromAddr)
              toAddr := lower args.toAddr
              amount := args.amount } nothing
          simp [frameTransfer, decoded, Option.filter, gone, gone']
      · obtain ⟨sender, isSender⟩ := Option.isSome_iff_exists.mp isSender
        refine ⟨fun p _ => ?_, fun q _ => ?_⟩
        · simp [transferFromSighting, callSighting, frameTokenCall, decoded, isSender, Frame.address]
        · simp [frameTransfer, callSighting, frameTokenCall, decoded, isSender]

section
variable (injective : Function.Injective sha256)
include obs abi

theorem filter_calls_eq (void : TransfersVoid libs tokenAddress receiptsByTx trees) (p : Sighting → Bool)
    (zero : ∀ s : Sighting, s.amount = 0 → p s = false) :
    ((tokenCalls sha256 libs tokenAddress receiptsByTx trees).map callSighting).filter p =
      ((observedFrames tokenAddress receiptsByTx trees).filterMap (transferFromSighting libs)).filter p := by
  rw [tokenCalls, List.map_map, ← List.filterMap_eq_map, List.filter_filterMap, List.filter_filterMap]
  apply List.filterMap_congr
  intro frame member
  obtain ⟨tree, inTrees, inFrames⟩ := mem_observedFrames frame member
  exact (frame_nonzero sha256 libs abi.typed frame (obs.hexInput tree inTrees frame inFrames)
    (void frame member)).1 p zero

theorem even_buckets (void : TransfersVoid libs tokenAddress receiptsByTx trees) (bucket : BucketKey)
    (nonzero : bucket.2.2.2 ≠ 0) :
    (inBucket ((transferEvents events).map eventSighting) bucket).length =
      (inBucket ((tokenCalls sha256 libs tokenAddress receiptsByTx trees).map callSighting) bucket).length := by
  have count (sightings : List Sighting) : (inBucket sightings bucket).length =
      ((sightings.map Sighting.toTransfer).filter (·.bucket = bucket)).length := by
    rw [inBucket, List.filter_map, List.length_map]
    rfl
  have zero : ∀ t : Transfer, t.amount = 0 → decide (t.bucket = bucket) = false := by
    intro t nothing
    apply decide_eq_false
    rintro rfl
    exact nonzero nothing
  have logSide : ((transferEvents events).map eventSighting).map Sighting.toTransfer =
      (transferEvents events).map fun ev => (eventSighting ev).toTransfer := List.map_map
  rw [count, count, logSide, (obs.logged.filter _).length_eq, tokenCalls, List.map_map, List.map_map,
    ← List.filterMap_eq_map, List.filter_filterMap, List.filter_filterMap]
  refine congrArg List.length (List.filterMap_congr ?_)
  intro frame member
  obtain ⟨tree, inTrees, inFrames⟩ := mem_observedFrames frame member
  exact (frame_nonzero sha256 libs abi.typed frame (obs.hexInput tree inTrees frame inFrames)
    (void frame member)).2 _ zero

theorem void_of_noNetFlow
    (noFlow : NoNetFlow (recountedSightings ((transferEvents events).map eventSighting)
      ((tokenCalls sha256 libs tokenAddress receiptsByTx trees).map callSighting))) :
    TransfersVoid libs tokenAddress receiptsByTx trees := by
  intro frame member args decoded method
  have ofCall (s : Sighting) (inside : s ∈ (tokenCalls sha256 libs tokenAddress receiptsByTx trees).map callSighting) :
      ∃ frame, s = callSighting (frameTokenCall sha256 libs tokenAddress frame) := by
    obtain ⟨call, isCall, rfl⟩ := List.mem_map.mp inside
    obtain ⟨frame, -, rfl⟩ := List.mem_map.mp isCall
    exact ⟨frame, rfl⟩
  have nonneg : ∀ s ∈ (tokenCalls sha256 libs tokenAddress receiptsByTx trees).map callSighting, 0 ≤ s.amount := by
    intro s inside
    obtain ⟨frame, rfl⟩ := ofCall s inside
    cases args : argsOf libs frame.node with
    | none => simp [callSighting, frameTokenCall, args]
    | some args' =>
        simpa [callSighting, frameTokenCall, args] using (argsOf_addressed libs abi frame.node args' args).amount
  have recipients : ∀ s ∈ (tokenCalls sha256 libs tokenAddress receiptsByTx trees).map callSighting,
      s.toAddr = "" → s.amount = 0 := by
    intro s inside toNoOne
    obtain ⟨frame, rfl⟩ := ofCall s inside
    cases args : argsOf libs frame.node with
    | none => simp [callSighting, frameTokenCall, args]
    | some args' =>
        have recipient := (argsOf_addressed libs abi frame.node args' args).recipient.1
        simp [callSighting, frameTokenCall, args, recipient] at toNoOne
  have senders : ∀ s ∈ (transferEvents events).map eventSighting, s.fromAddr ≠ "" := by
    intro s inside
    obtain ⟨ev, isEvent, rfl⟩ := List.mem_map.mp inside
    exact (legible_event libs obs abi ev isEvent).2
  obtain ⟨tree, inTrees, inFrames⟩ := mem_observedFrames frame member
  have noSender : args.fromAddr = none := by
    have readable := (obs.hexInput tree inTrees frame inFrames).readable
    rcases (argsOf_spec libs abi.typed frame.node readable).2 args decoded with
      ⟨-, -, none⟩ | ⟨-, other, -⟩
    · exact none
    · rw [method] at other
      cases other
  have isCall : callSighting (frameTokenCall sha256 libs tokenAddress frame) ∈
      (tokenCalls sha256 libs tokenAddress receiptsByTx trees).map callSighting :=
    List.mem_map_of_mem (List.mem_map_of_mem member)
  have nothing := senderless_void noFlow nonneg recipients senders _ isCall
    (by simp [callSighting, frameTokenCall, decoded, noSender])
  simpa [callSighting, frameTokenCall, decoded] using nothing

include injective in
theorem sum_effectIn_unify (target : String) (fromBlock toBlock : Int) :
    ((unifyMovements ((transferEvents events).map (builtLog sha256))
        ((tokenCalls sha256 libs tokenAddress receiptsByTx trees).map (builtTrace sha256))).map fun m =>
          (transferOf m).effectIn target fromBlock toBlock).sum =
      (((transferEvents events).map (builtLog sha256)).map fun m =>
          (transferOf m).effectIn target fromBlock toBlock).sum +
        ((recountedSightings ((transferEvents events).map eventSighting)
          ((tokenCalls sha256 libs tokenAddress receiptsByTx trees).map callSighting)).map fun s =>
            s.toTransfer.effectIn target fromBlock toBlock).sum := by
  have legibleCall (call : TraceTokenCall) (member : call ∈ tokenCalls sha256 libs tokenAddress receiptsByTx trees) :
      Legible trees (callSighting call).toTransfer := by
    obtain ⟨frame, inside, rfl⟩ := List.mem_map.mp member
    exact legible_call sha256 libs obs abi frame inside
  have distinct : (ids ((transferEvents events).map (builtLog sha256))).Nodup := by
    rw [ids, List.map_map]
    refine nodup_map_of_key _ _ obs.positions fun ev member ev' member' same => ?_
    rw [Function.comp_apply, Function.comp_apply, builtLog_movementId, builtLog_movementId,
      movementId_inj sha256 injective obs.distinctHashes _ _ (legible_event libs obs abi ev member).1
        (legible_event libs obs abi ev' member').1] at same
    exact Prod.ext (congrArg (fun s : Sighting => s.txHash) same) (congrArg Sighting.position same)
  obtain ⟨again, recountedCalls, recountedSeen⟩ := recounted_map (transferEvents events)
    (tokenCalls sha256 libs tokenAddress receiptsByTx trees) (builtLog sha256) (builtTrace sha256)
    eventSighting callSighting
    (fun call member ev isEvent => by
      rw [builtLog_movementId, builtTrace_movementId, movementId_inj sha256 injective obs.distinctHashes _ _
        (legible_event libs obs abi ev isEvent).1 (legibleCall call member)])
    (fun call member call' member' => by
      rw [builtTrace_movementId, builtTrace_movementId, movementId_inj sha256 injective obs.distinctHashes _ _
        (legibleCall call member) (legibleCall call' member')])
    (fun _ => rfl) (fun _ => rfl)
  rw [sum_unifyMovements (built_sources sha256 _ _ distinct) _ fun _ _ => rfl, recountedCalls, ← recountedSeen,
    List.map_map, List.map_map, List.map_map]
  rfl

include injective in
/-- The traces leave every balance alone exactly when the observed `transfer()` calls move nothing and
the calls at colliding positions carry no net flow. Else the balance of a real address changes. -/
theorem no_double_counting_iff (token : tokenAddress ≠ "") :
    ∃ decoded calls traces logs,
      flatMapM (fun tree => decodeTraceCalls sha256 libs tree AbiRegistry.empty) trees = .ok decoded ∧
      extractErc20TransferCalls tokenAddress receiptsByTx decoded = .ok calls ∧
      buildMovementsFromTraceCalls sha256 calls = .ok traces ∧
      buildMovementsFromTransferLogs sha256 events = .ok logs ∧
      ((∀ address fromBlock toBlock,
          computeBalanceDelta (unifyMovements logs traces) address fromBlock toBlock =
            computeBalanceDelta logs address fromBlock toBlock) ↔
        TransfersVoid libs tokenAddress receiptsByTx trees ∧
          NoNetFlow (countedAgain ((transferEvents events).map eventSighting)
            ((observedFrames tokenAddress receiptsByTx trees).filterMap (transferFromSighting libs)))) ∧
      ((∀ address, address ≠ "" → ∀ fromBlock toBlock,
          computeBalanceDelta (unifyMovements logs traces) address fromBlock toBlock =
            computeBalanceDelta logs address fromBlock toBlock) →
        ∀ address fromBlock toBlock,
          computeBalanceDelta (unifyMovements logs traces) address fromBlock toBlock =
            computeBalanceDelta logs address fromBlock toBlock) := by
  refine ⟨_, _, _, _, decoded_eq sha256 libs obs abi, extracted_eq sha256 libs obs abi token,
    built_traces_eq sha256 libs obs, built_logs_eq sha256 libs obs, ?_, ?_⟩
  · simp only [computeBalanceDelta_eq, sum_effectIn_unify sha256 libs obs abi injective, add_eq_left,
      ← noNetFlow_iff]
    have flows (void : TransfersVoid libs tokenAddress receiptsByTx trees) := noNetFlow_recounted_iff _
      (filter_calls_eq sha256 libs obs abi void (fun s => decide (s.amount ≠ 0)) (by simp))
      (even_buckets sha256 libs obs abi void)
    constructor
    · intro noFlow
      have void := void_of_noNetFlow sha256 libs obs abi noFlow
      exact ⟨void, (flows void).mp noFlow⟩
    · rintro ⟨void, noFlow⟩
      exact (flows void).mpr noFlow
  · simp only [computeBalanceDelta_eq, sum_effectIn_unify sha256 libs obs abi injective, add_eq_left,
      ← noNetFlow_iff]
    exact noNetFlow_of_addresses _

end

end

/-! ### A `transfer()` call and its log -/

theorem addressText_hex (bytes : List UInt8) : AddressText ("0x" ++ toHex bytes) := by
  have digits : ∀ n < 16, Nat.digitChar n ≠ '|' := by decide
  refine ⟨fun blank => by simpa using congrArg String.toList blank, fun bar => ?_⟩
  rw [String.toList_append, List.mem_append] at bar
  rcases bar with tag | body
  · exact absurd tag (by decide)
  · rw [toHex, String.toList_ofList] at body
    obtain ⟨b, -, inside⟩ := List.mem_flatMap.mp body
    have small : b.toNat < 256 := b.toNat_lt
    rcases List.mem_cons.mp inside with high | low
    · exact digits (b.toNat / 16) (by omega) high.symm
    · exact digits (b.toNat % 16) (by omega) (List.mem_singleton.mp low).symm

theorem wordLibs_addressed : AddressAbi Decode.wordLibs where
  transfer := fun data values decoded => by
    obtain ⟨recipient, amount, same⟩ := Decode.wordDecode_transfer data values decoded
    exact ⟨_, amount, same, addressText_hex recipient, Int.natCast_nonneg amount⟩
  transferFrom := fun data values decoded => by
    obtain ⟨sender, recipient, amount, same⟩ := Decode.wordDecode_transferFrom data values decoded
    exact ⟨_, _, amount, same, addressText_hex sender, addressText_hex recipient, Int.natCast_nonneg amount⟩

def callOf (inputData : String) : RawTrace :=
  assignTraceAddresses [] (callTo "0xaa" linkToken inputData none [])

def recipient : String := "0xcccccccccccccccccccccccccccccccccccccccc"

def sender : String := "0xaaaaaaaaaaaaaaaaaaaaaaaaaaaaaaaaaaaaaaaa"

def logOfSeven (fromAddr : String) : DecodedEvent :=
  { rawLogId := "raw"
    decodedEventId := "event"
    chainId := 1
    blockNumber := 100
    txHash := "0xab"
    logIndex := 3
    contractAddress := linkToken
    eventName := "Transfer"
    eventSignature := erc20TransferTopic0
    indexedParams := Dict.ofList
      [("from", .str fromAddr), ("to", .str recipient)]
    dataParams := Dict.ofList [("value", .int 7)] }

theorem frames_callOf (inputData : String) : frames [] (callOf inputData) = [⟨[], callOf inputData⟩] := by
  rw [frames_eq]
  rfl

theorem observedFrames_callOf (inputData : String)
    (selector : isErc20Selector (extractMethodSelector inputData) = true) :
    observedFrames linkToken successfulReceipt [callOf inputData] = [⟨[], callOf inputData⟩] := by
  have isObserved : observed linkToken successfulReceipt ⟨[], callOf inputData⟩ = true :=
    observed_callTo inputData selector
  simp [observedFrames, frames_callOf, isObserved]

theorem transferEvents_logOfSeven (fromAddr : String) :
    transferEvents [logOfSeven fromAddr] = [logOfSeven fromAddr] := by
  simp [transferEvents, DecodedEvent.isTransfer, logOfSeven]

theorem eventSighting_logOfSeven :
    eventSighting (logOfSeven "0xaa") = ⟨⟨1, 100, "0xab", "0xaa", recipient, 7⟩, 3⟩ := by
  decide

theorem observation_callOf (inputData fromAddr : String) (args : Erc20Transfer) (hex : HexInput inputData)
    (selector : isErc20Selector (extractMethodSelector inputData) = true)
    (decoded : argsOf Decode.wordLibs (callOf inputData) = some args)
    (logged : (eventSighting (logOfSeven fromAddr)).toTransfer =
      { chainId := 1
        blockNumber := 100
        txHash := "0xab"
        fromAddr := lower (args.fromAddr.getD "0xaa")
        toAddr := lower args.toAddr
        amount := args.amount }) :
    Observation Decode.wordLibs linkToken successfulReceipt [callOf inputData] [logOfSeven fromAddr] := by
  have events := transferEvents_logOfSeven fromAddr
  constructor
  · have node : HexInput (callOf inputData).inputData := hex
    simpa [frames_callOf] using node
  · simp [Assigned, callOf, assignTraceAddresses, callTo, assignChildAddresses]
  · simp [frames_callOf]
  · simp
  · have text : AddressText "0xaa" := ⟨by decide, by decide⟩
    have caller : AddressText (callOf inputData).fromAddr := text
    simpa [frames_callOf] using caller
  · rw [events]
    intro ev member
    obtain rfl := List.mem_singleton.mp member
    exact ⟨7, rfl⟩
  · simp [events]
  · have transfers : (observedFrames linkToken successfulReceipt [callOf inputData]).filterMap
        (frameTransfer Decode.wordLibs) = [(eventSighting (logOfSeven fromAddr)).toTransfer] := by
      have hash : lower "0xAB" = "0xab" := by decide
      rw [logged, ← hash, observedFrames_callOf inputData selector]
      simp only [frameTransfer, List.filterMap_cons, List.filterMap_nil, decoded, Option.map_some]
      rfl
    rw [events, transfers]
    exact List.Perm.refl _

theorem transferSeven_selector : extractMethodSelector transferSeven = erc20TransferSelector :=
  (extractMethodSelector_calldataOf transferDigits (by decide +kernel)).trans (by decide +kernel)

theorem argsOf_transferSeven :
    argsOf Decode.wordLibs (callOf transferSeven) = some ⟨.transfer, none, recipient, 7⟩ := by
  have body : calldataBody transferSeven = fromHex (transferDigits.drop 8) :=
    calldataBody_calldataOf transferDigits (by decide +kernel)
  have selector := transferSeven_selector
  refine argsOf_eq Decode.wordLibs (callOf transferSeven) _ transferSeven rfl ?_
  generalize transferSeven = calldata at body selector ⊢
  rw [decodeErc20TransferCalldata, selector, body]
  decide +kernel

theorem observation_transferSeven :
    Observation Decode.wordLibs linkToken successfulReceipt [callOf transferSeven] [logOfSeven "0xaa"] :=
  observation_callOf transferSeven "0xaa" ⟨.transfer, none, recipient, 7⟩
    (hexInput_calldataOf transferDigits (by decide +kernel) (by decide +kernel))
    (by rw [transferSeven_selector]; decide) argsOf_transferSeven
    (by rw [eventSighting_logOfSeven]; decide)

def transferFromDigits : List Char :=
  "23b872dd".toList ++ hexWord (List.replicate 40 'a') ++ hexWord (List.replicate 40 'c') ++ hexWord ['7']

def transferFromSeven : String := calldataOf transferFromDigits

theorem transferFromSeven_selector :
    extractMethodSelector transferFromSeven = erc20TransferFromSelector :=
  (extractMethodSelector_calldataOf transferFromDigits (by decide +kernel)).trans (by decide +kernel)

theorem argsOf_transferFromSeven :
    argsOf Decode.wordLibs (callOf transferFromSeven) = some ⟨.transferFrom, some sender, recipient, 7⟩ := by
  have body : calldataBody transferFromSeven = fromHex (transferFromDigits.drop 8) :=
    calldataBody_calldataOf transferFromDigits (by decide +kernel)
  have selector := transferFromSeven_selector
  refine argsOf_eq Decode.wordLibs (callOf transferFromSeven) _ transferFromSeven rfl ?_
  generalize transferFromSeven = calldata at body selector ⊢
  rw [decodeErc20TransferCalldata, selector, body]
  decide +kernel

theorem observation_transferFromSeven :
    Observation Decode.wordLibs linkToken successfulReceipt [callOf transferFromSeven] [logOfSeven sender] :=
  observation_callOf transferFromSeven sender ⟨.transferFrom, some sender, recipient, 7⟩
    (hexInput_calldataOf transferFromDigits (by decide +kernel) (by decide +kernel))
    (by rw [transferFromSeven_selector]; decide) argsOf_transferFromSeven (by decide +kernel)

theorem countedAgain_transferFromSeven :
    countedAgain ((transferEvents [logOfSeven sender]).map eventSighting)
      ((observedFrames linkToken successfulReceipt [callOf transferFromSeven]).filterMap
        (transferFromSighting Decode.wordLibs)) = [] := by
  have selector : isErc20Selector (extractMethodSelector transferFromSeven) = true := by
    rw [transferFromSeven_selector]
    decide
  have called : transferFromSighting Decode.wordLibs ⟨[], callOf transferFromSeven⟩ =
      some ⟨⟨1, 100, "0xab", sender, recipient, 7⟩, 0⟩ := by
    rw [transferFromSighting, argsOf_transferFromSeven]
    decide +kernel
  have logged : eventSighting (logOfSeven sender) = ⟨⟨1, 100, "0xab", sender, recipient, 7⟩, 3⟩ := by
    decide +kernel
  rw [transferEvents_logOfSeven, observedFrames_callOf _ selector, List.map_singleton, logged,
    List.filterMap_cons_some called, List.filterMap_nil]
  decide +kernel

theorem no_double_counting_transferFrom :
    ∃ decoded calls traces logs,
      flatMapM (fun tree => decodeTraceCalls id Decode.wordLibs tree AbiRegistry.empty)
        [callOf transferFromSeven] = .ok decoded ∧
      extractErc20TransferCalls linkToken successfulReceipt decoded = .ok calls ∧
      buildMovementsFromTraceCalls id calls = .ok traces ∧
      buildMovementsFromTransferLogs id [logOfSeven sender] = .ok logs ∧
      ∀ address fromBlock toBlock,
        computeBalanceDelta (unifyMovements logs traces) address fromBlock toBlock =
          computeBalanceDelta logs address fromBlock toBlock := by
  obtain ⟨decoded, calls, traces, logs, decodes, extracts, buildsTraces, buildsLogs, counted, -⟩ :=
    no_double_counting_iff id Decode.wordLibs observation_transferFromSeven wordLibs_addressed
      Function.injective_id (by decide)
  refine ⟨decoded, calls, traces, logs, decodes, extracts, buildsTraces, buildsLogs, counted.mpr ⟨?_, ?_⟩⟩
  · have selector : isErc20Selector (extractMethodSelector transferFromSeven) = true := by
      rw [transferFromSeven_selector]
      decide
    rw [TransfersVoid, observedFrames_callOf _ selector]
    intro frame member args decoded isTransfer
    rw [List.mem_singleton.mp member, argsOf_transferFromSeven] at decoded
    rw [← Option.some.inj decoded] at isTransfer
    cases isTransfer
  · rw [countedAgain_transferFromSeven]
    exact fun _ _ => rfl

/-- The transfer of 7 is counted from its log and again from its call. -/
theorem transfer_counted_twice :
    Observation Decode.wordLibs linkToken successfulReceipt [callOf transferSeven] [logOfSeven "0xaa"] ∧
    ∃ decoded calls traces logs,
      flatMapM (fun tree => decodeTraceCalls id Decode.wordLibs tree AbiRegistry.empty)
        [callOf transferSeven] = .ok decoded ∧
      extractErc20TransferCalls linkToken successfulReceipt decoded = .ok calls ∧
      buildMovementsFromTraceCalls id calls = .ok traces ∧
      buildMovementsFromTransferLogs id [logOfSeven "0xaa"] = .ok logs ∧
      computeBalanceDelta logs recipient 100 100 = 7 ∧
      computeBalanceDelta (unifyMovements logs traces) recipient 100 100 = 14 := by
  have obs := observation_transferSeven
  have selector : isErc20Selector (extractMethodSelector transferSeven) = true := by
    rw [transferSeven_selector]
    decide
  have events := transferEvents_logOfSeven "0xaa"
  have called : (tokenCalls id Decode.wordLibs linkToken successfulReceipt
      [callOf transferSeven]).map callSighting = [⟨⟨1, 100, "0xab", "", recipient, 7⟩, 0⟩] := by
    simp only [tokenCalls, observedFrames_callOf transferSeven selector, List.map_cons, List.map_nil,
      frameTokenCall, argsOf_transferSeven]
    decide
  have fromLog : computeBalanceDelta
      ((transferEvents [logOfSeven "0xaa"]).map (builtLog id)) recipient 100 100 = 7 := by
    have same : transferOf (builtLog id (logOfSeven "0xaa")) =
        (eventSighting (logOfSeven "0xaa")).toTransfer := rfl
    rw [computeBalanceDelta_eq, events, List.map_singleton, List.map_singleton, same,
      eventSighting_logOfSeven]
    decide
  refine ⟨obs, _, _, _, _, decoded_eq id Decode.wordLibs obs wordLibs_addressed,
    extracted_eq id Decode.wordLibs obs wordLibs_addressed (by decide),
    built_traces_eq id Decode.wordLibs obs, built_logs_eq id Decode.wordLibs obs, fromLog, ?_⟩
  -- the call has no sender, so it is recounted beside the log
  rw [computeBalanceDelta_eq, sum_effectIn_unify id Decode.wordLibs obs wordLibs_addressed
    Function.injective_id, ← computeBalanceDelta_eq, fromLog, called, events, List.map_singleton,
    eventSighting_logOfSeven]
  decide

end EconomicLedger.Movements
