import EconomicLedger.Trace.Rebuild

/-!
# The row sets that are rejected

Rows whose fields parse are rejected exactly when they do not form a tree: when there are none, when
they are of several transactions, when two share an address, when a parent is absent or when there is
no root.
-/

namespace EconomicLedger.Trace
open Model Fallible Text

/-! ## What one pass over the rows can raise -/

theorem attach_error (byAddr : Dict String RawTrace) (state : Attached) (t : RawTrace) (e : PyError)
    (raised : attach byAddr state t = .error e) : ∃ message, e = .valueError message := by
  unfold attach at raised
  split at raised
  · split at raised
    · cases raised
      exact ⟨_, rfl⟩
    · cases raised
  · dsimp only at raised
    split at raised
    · cases raised
      exact ⟨_, rfl⟩
    · cases raised

theorem attach_ok (byAddr : Dict String RawTrace) (state state' : Attached) (t : RawTrace)
    (attached : attach byAddr state t = .ok state') (nonempty : t.traceAddress ≠ []) :
    (byAddr.get? (serializeTraceAddress t.traceAddress.dropLast)).isSome = true := by
  simp only [attach, if_neg nonempty] at attached
  split at attached
  · cases attached
  next parent known => rw [known, Option.isSome_some]

theorem foldlM_attach_error (byAddr : Dict String RawTrace) (traces : List RawTrace) (state : Attached)
    (e : PyError) (raised : traces.foldlM (attach byAddr) state = .error e) :
    ∃ message, e = .valueError message := by
  induction traces generalizing state with
  | nil => cases raised
  | cons t rest ih =>
      rw [List.foldlM_cons] at raised
      cases first : attach byAddr state t with
      | error e' =>
          rw [first] at raised
          cases raised
          exact attach_error byAddr state t _ first
      | ok state' =>
          rw [first] at raised
          exact ih state' raised

theorem foldlM_attach_ok (byAddr : Dict String RawTrace) (traces : List RawTrace)
    (state state' : Attached) (attached : traces.foldlM (attach byAddr) state = .ok state') :
    ∀ t ∈ traces, t.traceAddress ≠ [] →
      (byAddr.get? (serializeTraceAddress t.traceAddress.dropLast)).isSome = true := by
  induction traces generalizing state with
  | nil => simp
  | cons t rest ih =>
      rw [List.foldlM_cons, bind_eq_ok_iff] at attached
      obtain ⟨next, first, others⟩ := attached
      exact List.forall_mem_cons.mpr ⟨attach_ok byAddr state next t first, ih next others⟩

/-! ## Rows that are accepted -/

variable {traces : List RawTrace}

theorem dedup_le_one {hashes : List String} (few : ¬ 1 < hashes.dedup.length) :
    ∀ h ∈ hashes, ∀ h' ∈ hashes, h = h' := by
  intro h member h' member'
  have inside := List.mem_dedup.mpr member
  have inside' := List.mem_dedup.mpr member'
  cases unique : hashes.dedup with
  | nil => simp [unique] at inside
  | cons first rest =>
      cases rest with
      | nil =>
          rw [unique, List.mem_singleton] at inside inside'
          rw [inside, inside']
      | cons second more => simp [unique] at few

theorem nodup_of_byAddr (traces : List RawTrace)
    (full : (Dict.ofList (traces.map fun t => (serializeTraceAddress t.traceAddress, t))).entries.length =
      traces.length) : (traces.map RawTrace.traceAddress).Nodup := by
  let pairs := traces.map fun t => (serializeTraceAddress t.traceAddress, t)
  have keys : (Dict.ofList pairs).keys = (Keyed.firstByKey Prod.fst pairs).map Prod.fst := by
    rw [Dict.ofList_eq_gather, Dict.keys_gather]
    simp
  have counted := congrArg List.length keys
  have distinct : (pairs.map Prod.fst).Nodup := by
    apply (Keyed.firstByKey_length_eq_iff Prod.fst pairs).mp
    simpa [Dict.keys, pairs, full] using counted.symm
  rw [List.map_map] at distinct
  refine List.Nodup.of_map serializeTraceAddress ?_
  rwa [List.map_map]

theorem mem_of_byAddr (traces : List RawTrace) (addr : List Int)
    (found : ((Dict.ofList (traces.map fun t => (serializeTraceAddress t.traceAddress, t))).get?
      (serializeTraceAddress addr)).isSome = true) : addr ∈ traces.map RawTrace.traceAddress := by
  rw [Dict.get?_isSome_iff, Dict.ofList_eq_gather, Dict.mem_keys_gather] at found
  rcases found with empty | named
  · cases empty
  · rw [List.map_map] at named
    obtain ⟨t, here, same⟩ := List.mem_map.mp named
    exact List.mem_map.mpr ⟨t, here, serialize_injective same⟩

/-- Rows whose fields parse raise a `ValueError` or form a tree. -/
theorem buildCallTree_cases {rows : List TraceRow} {chainId : Option Int}
    (converted : rows.mapM (rowToRawTrace chainId) = .ok traces) :
    (∃ message, buildCallTree rows chainId = .error (.valueError message)) ∨ TraceRows traces := by
  unfold buildCallTree
  split
  next => exact Or.inl ⟨_, rfl⟩
  next nonempty =>
    rw [converted, ok_bind]
    dsimp only
    split
    next => exact Or.inl ⟨_, rfl⟩
    next few =>
      split
      next => exact Or.inl ⟨_, rfl⟩
      next full =>
        cases loop : (traces.insertionSort (·.depthKey ≤ ·.depthKey)).foldlM (attach (Dict.ofList
            (traces.map fun t => (serializeTraceAddress t.traceAddress, t)))) ⟨none, Dict.empty⟩ with
        | error e =>
            obtain ⟨message, rfl⟩ := foldlM_attach_error _ _ _ _ loop
            exact Or.inl ⟨message, rfl⟩
        | ok attached =>
            have parents := foldlM_attach_ok _ _ _ _ loop
            refine Or.inr ⟨?_, ?_, nodup_of_byAddr traces (not_not.mp full), ?_⟩
            · rintro rfl
              exact nonempty (List.forall₂_nil_right_iff.mp ((mapM_eq_ok_iff _ _ _).mp converted))
            · intro t member t' member'
              exact dedup_le_one few _ (List.mem_map_of_mem member) _ (List.mem_map_of_mem member')
            · intro t member nonroot
              have inOrder := (List.perm_insertionSort (·.depthKey ≤ ·.depthKey) traces).mem_iff.mpr member
              exact mem_of_byAddr traces _ (parents t inOrder nonroot)

theorem buildCallTree_valueError_iff {rows : List TraceRow} {chainId : Option Int}
    (converted : rows.mapM (rowToRawTrace chainId) = .ok traces) :
    (∃ message, buildCallTree rows chainId = .error (.valueError message)) ↔ ¬ TraceRows traces := by
  constructor
  · rintro ⟨message, raised⟩ shape
    obtain ⟨root, isRoot, address⟩ := shape.exists_root
    have built := buildCallTree_eq_grow converted shape root isRoot address
    rw [raised] at built
    cases built
  · intro shapeless
    rcases buildCallTree_cases converted with raised | shape
    · exact raised
    · exact absurd shape shapeless

/-! ## Malformed rows -/

/-- The lower-cased transaction hash of a row. -/
def rowTxHash (row : TraceRow) : String :=
  lower ((row.field "transaction_hash").orElse (row.fieldOr "tx_hash" (.str ""))).text

def rowAddress (row : TraceRow) : Py (List Int) := parseTraceAddress (row.field "trace_address")

inductive Malformed (rows : List TraceRow) : Prop
  | empty (none : rows = []) : Malformed rows
  | mixedTxs {row row' : TraceRow} (member : row ∈ rows) (member' : row' ∈ rows)
      (differ : rowTxHash row ≠ rowTxHash row') : Malformed rows
  | sameAddress (repeated : ¬ (rows.map rowAddress).Nodup) : Malformed rows
  | orphan {row : TraceRow} (member : row ∈ rows) {parent : List Int} {i : Int}
      (address : rowAddress row = .ok (parent ++ [i]))
      (absent : ∀ row' ∈ rows, rowAddress row' ≠ .ok parent) : Malformed rows
  | rootless (none : ∀ row ∈ rows, rowAddress row ≠ .ok []) : Malformed rows

theorem rowToRawTrace_fields (chainId : Option Int) (row : TraceRow) (t : RawTrace)
    (converted : rowToRawTrace chainId row = .ok t) :
    rowTxHash row = t.txHash ∧ rowAddress row = .ok t.traceAddress := by
  simp only [rowToRawTrace, bind_eq_ok_iff, pure_eq_ok_iff] at converted
  obtain ⟨addr, address, _, _, _, _, _, _, _, _, _, _, _, _, rfl⟩ := converted
  exact ⟨rfl, address⟩

theorem nodup_addresses {rows : List TraceRow}
    (fields : List.Forall₂ (fun row t => rowAddress row = .ok t.traceAddress) rows traces) :
    (rows.map rowAddress).Nodup ↔ (traces.map RawTrace.traceAddress).Nodup := by
  have same : rows.map rowAddress = (traces.map RawTrace.traceAddress).map Except.ok := by
    rw [List.map_map, ← List.forall₂_eq_eq_eq, List.forall₂_map_left_iff, List.forall₂_map_right_iff]
    exact fields
  rw [same]
  exact List.nodup_map_iff fun _ _ => Except.ok.inj

section
variable {rows : List TraceRow} (fields : List.Forall₂ (fun row t => rowTxHash row = t.txHash ∧
  rowAddress row = .ok t.traceAddress) rows traces)
include fields

theorem not_traceRows_of_malformed (malformed : Malformed rows) : ¬ TraceRows traces := by
  intro shape
  have traceOf := exists_of_forall₂_left fields
  cases malformed with
  | empty none =>
      subst none
      exact shape.nonempty (List.forall₂_nil_left_iff.mp fields)
  | mixedTxs member member' differ =>
      obtain ⟨t, here, hash, -⟩ := traceOf _ member
      obtain ⟨t', here', hash', -⟩ := traceOf _ member'
      rw [hash, hash'] at differ
      exact differ (shape.oneTx t here t' here')
  | sameAddress repeated =>
      exact repeated ((nodup_addresses (fields.imp fun _ _ both => both.2)).mpr shape.distinct)
  | orphan member address absent =>
      obtain ⟨t, here, -, own⟩ := traceOf _ member
      have below := Except.ok.inj (own.symm.trans address)
      obtain ⟨above, there, parent⟩ := List.mem_map.mp (shape.closed t here (by simp [below]))
      obtain ⟨row', member', -, address'⟩ := exists_of_forall₂_right fields above there
      apply absent row' member'
      rw [address', parent, below, List.dropLast_concat]
  | rootless none =>
      obtain ⟨root, isRoot, address⟩ := shape.exists_root
      obtain ⟨row, member, -, own⟩ := exists_of_forall₂_right fields root isRoot
      exact none row member (address ▸ own)

theorem traceRows_of_wellFormed (wellFormed : ¬ Malformed rows) : TraceRows traces := by
  have rowOf := exists_of_forall₂_right fields
  constructor
  · rintro rfl
    exact wellFormed (.empty (List.forall₂_nil_right_iff.mp fields))
  · intro t here t' here'
    obtain ⟨row, member, hash, -⟩ := rowOf t here
    obtain ⟨row', member', hash', -⟩ := rowOf t' here'
    by_contra differ
    rw [← hash, ← hash'] at differ
    exact wellFormed (.mixedTxs member member' differ)
  · by_contra repeated
    exact wellFormed (.sameAddress fun nodup =>
      repeated ((nodup_addresses (fields.imp fun _ _ both => both.2)).mp nodup))
  · intro t here nonroot
    obtain ⟨row, member, -, address⟩ := rowOf t here
    by_contra absent
    rw [← List.dropLast_concat_getLast nonroot] at address
    refine wellFormed (.orphan member address fun row' member' present => absent ?_)
    obtain ⟨above, there, -, own⟩ := exists_of_forall₂_left fields row' member'
    exact List.mem_map.mpr ⟨above, there, Except.ok.inj (own.symm.trans present)⟩

end

theorem malformed_iff {rows : List TraceRow} {chainId : Option Int}
    (converted : rows.mapM (rowToRawTrace chainId) = .ok traces) :
    Malformed rows ↔ ¬ TraceRows traces := by
  have fields := ((mapM_eq_ok_iff _ _ _).mp converted).imp (rowToRawTrace_fields chainId)
  refine ⟨not_traceRows_of_malformed fields, fun shapeless => ?_⟩
  by_contra wellFormed
  exact shapeless (traceRows_of_wellFormed fields wellFormed)

theorem build_call_tree_accepts (rows : List TraceRow) (chainId : Option Int)
    (parses : ∀ row ∈ rows, ∃ t, rowToRawTrace chainId row = .ok t) :
    ((∃ message, buildCallTree rows chainId = .error (.valueError message)) ↔ Malformed rows) ∧
      (¬ Malformed rows → ∃ tree, buildCallTree rows chainId = .ok tree) := by
  obtain ⟨traces, converted, -⟩ := exists_mapM (rowToRawTrace chainId) (fun _ _ => True) rows
    fun row member => (parses row member).imp fun _ converts => ⟨converts, trivial⟩
  refine ⟨?_, ?_⟩
  · rw [buildCallTree_valueError_iff converted, malformed_iff converted]
  · intro wellFormed
    have shape := not_not.mp (mt (malformed_iff converted).mpr wellFormed)
    obtain ⟨root, isRoot, address⟩ := shape.exists_root
    exact ⟨_, buildCallTree_eq_grow converted shape root isRoot address⟩

/-! ### A row without its parent -/

def orphanRows : List TraceRow := [callRow "" "0xa", callRow "0,1" "0xb"]

theorem build_call_tree_accepts_orphan :
    Malformed orphanRows ∧
      ∃ message, buildCallTree orphanRows (some 1) = .error (.valueError message) := by
  have readable : orphanRows.mapM (rowToRawTrace (some 1)) =
      .ok [callFrame [] "0xa", callFrame [0, 1] "0xb"] := rfl
  have address : rowAddress (callRow "0,1" "0xb") = .ok ([0] ++ [1]) := rfl
  have orphan : Malformed orphanRows :=
    .orphan (List.mem_cons_of_mem _ (List.mem_singleton_self _)) address (by decide +kernel)
  exact ⟨orphan, (build_call_tree_accepts orphanRows (some 1) (ok_of_mem_mapM _ readable)).1.mpr orphan⟩

end EconomicLedger.Trace
