import EconomicLedger.Lib.Fallible
import EconomicLedger.Model.Checkpoint

/-!
# The entries of a checkpoint store

A call rewrites the entry of its own key, and what `save` writes is read back as it was.
-/

namespace EconomicLedger.Checkpoint
open EconomicLedger.Model

/-! ## One key -/

def entryAfter (o : Option CheckpointState) (call : CheckpointCall) : Option CheckpointState :=
  match call with
  | .advance key blockNumber blockHash =>
      match o with
      | none => some ⟨key.1, key.2, blockNumber, some blockHash, []⟩
      | some s =>
          if s.lastBlock < blockNumber then
            some { s with lastBlock := blockNumber, lastBlockHash := some blockHash }
          else some s
  | .markReplay key range =>
      let s := o.getD (unadvanced key)
      if s.pendingReplays.contains range then some s
      else some { s with pendingReplays := s.pendingReplays ++ [range] }
  | .clearReplay _ range =>
      o.map fun s => { s with pendingReplays := s.pendingReplays.filter (· ≠ range) }

theorem get?_apply (state : Checkpoints) (call : CheckpointCall) (key : CheckpointKey) :
    (call.apply state).get? key =
      if call.key = key then entryAfter (state.get? key) call else state.get? key := by
  by_cases own : call.key = key
  · subst own
    rw [if_pos rfl]
    cases call with
    | advance key blockNumber blockHash =>
        simp only [CheckpointCall.key, CheckpointCall.apply, advance, entryAfter]
        cases found : state.get? key with
        | none => simp [Dict.get?_set]
        | some s => by_cases higher : s.lastBlock < blockNumber <;> simp [higher, Dict.get?_set, found]
    | markReplay key range =>
        simp only [CheckpointCall.key, CheckpointCall.apply, markReplay, entryAfter, Dict.get?_set,
          if_true, List.contains_iff_mem]
        exact apply_ite some _ _ _
    | clearReplay key range =>
        simp only [CheckpointCall.key, CheckpointCall.apply, clearReplay, entryAfter]
        cases found : state.get? key with
        | none => simp [found]
        | some s => simp [Dict.get?_set]
  · have other : key ≠ call.key := fun same => own same.symm
    rw [if_neg own]
    cases call with
    | advance key' blockNumber blockHash =>
        simp only [CheckpointCall.key] at other
        simp only [CheckpointCall.apply, advance]
        cases state.get? key' with
        | none => simp [Dict.get?_set, other]
        | some s => by_cases higher : s.lastBlock < blockNumber <;> simp [higher, Dict.get?_set, other]
    | markReplay key' range =>
        simp only [CheckpointCall.key] at other
        simp [CheckpointCall.apply, markReplay, Dict.get?_set, other]
    | clearReplay key' range =>
        simp only [CheckpointCall.key] at other
        simp only [CheckpointCall.apply, clearReplay]
        cases state.get? key' with
        | none => rfl
        | some s => simp [Dict.get?_set, other]

theorem get?_calls (state : Checkpoints) (calls : List CheckpointCall) (key : CheckpointKey) :
    (calls.foldl CheckpointCall.apply state).get? key =
      (calls.filter (·.key = key)).foldl entryAfter (state.get? key) :=
  Dict.get?_foldl_local CheckpointCall.apply CheckpointCall.key entryAfter get?_apply state calls key

/-! ## The file -/

def Keyed (state : Checkpoints) : Prop :=
  ∀ key s, state.get? key = some s → (s.chainId, s.sourceName) = key

theorem keyed_empty : Keyed Dict.empty := by
  intro key s found
  cases found

theorem entryAfter_keyed (call : CheckpointCall) (o : Option CheckpointState)
    (named : ∀ s, o = some s → (s.chainId, s.sourceName) = call.key) (s : CheckpointState)
    (left : entryAfter o call = some s) : (s.chainId, s.sourceName) = call.key := by
  cases call with
  | advance key blockNumber blockHash =>
      cases o with
      | none =>
          cases left
          rfl
      | some before =>
          have own := named before rfl
          simp only [entryAfter] at left
          split at left <;> cases left <;> exact own
  | markReplay key range =>
      have own : ((o.getD (unadvanced key)).chainId, (o.getD (unadvanced key)).sourceName) = key := by
        cases o with
        | none => rfl
        | some before => exact named before rfl
      simp only [entryAfter] at left
      split at left <;> cases left <;> exact own
  | clearReplay key range =>
      cases o with
      | none => cases left
      | some before =>
          cases left
          exact named before rfl

theorem keyed_apply (state : Checkpoints) (keyed : Keyed state) (call : CheckpointCall) :
    Keyed (call.apply state) := by
  intro key s found
  rw [get?_apply] at found
  split at found
  · next own =>
      subst own
      exact entryAfter_keyed call _ (keyed call.key) s found
  · exact keyed key s found

theorem loadRange_entry (r : Int × Int) : loadRange (.arr [.num r.1, .num r.2]) = .ok r := rfl

theorem loadEntry_entry (s : CheckpointState) :
    loadEntry s.entry = .ok ((s.chainId, s.sourceName), s) := by
  have ranges : (s.pendingReplays.map fun r => Json.arr [.num r.1, .num r.2]).mapM loadRange =
      .ok s.pendingReplays :=
    Fallible.mapM_written _ loadRange s.pendingReplays fun r _ => loadRange_entry r
  cases s with
  | mk chainId sourceName lastBlock lastBlockHash pending =>
      cases lastBlockHash with
      | none =>
          simp [loadEntry, CheckpointState.entry, Json.member, Json.member?, Json.toInt, Json.text,
            Json.iterate, Json.optionalText, ranges, Bind.bind, Except.bind, Pure.pure, Except.pure]
      | some hash =>
          simp [loadEntry, CheckpointState.entry, Json.member, Json.member?, Json.toInt, Json.text,
            Json.iterate, Json.optionalText, ranges, Bind.bind, Except.bind, Pure.pure, Except.pure]

theorem loadStore_saveStore (state : Checkpoints) (keyed : Keyed state) :
    loadStore (saveStore state) = .ok state := by
  have written : state.values.map CheckpointState.entry =
      state.entries.map fun e => e.2.entry := by
    rw [Dict.values, List.map_map]
    rfl
  have read : (state.values.map CheckpointState.entry).mapM loadEntry = .ok state.entries := by
    rw [written]
    apply Fallible.mapM_written
    intro e member
    have own := keyed e.1 e.2 ((Dict.get?_eq_some_iff state e.1 e.2).mpr member)
    rw [loadEntry_entry, own]
  have iterated : loadStore (saveStore state) =
      (state.values.map CheckpointState.entry).mapM loadEntry >>= fun pairs =>
        .ok (Dict.ofList pairs) := rfl
  rw [iterated, read, Fallible.ok_bind, Dict.ofList_entries]

end EconomicLedger.Checkpoint
