import EconomicLedger.Checkpoint.Restarts

/-!
# Instances that share a store

Instances constructed on one file, each calling on keys of its own. The file ends as the copy of
the instance that wrote it last, where the keys of the others are as they were at the start.
-/

namespace EconomicLedger.Checkpoint
open EconomicLedger.Model

variable {ι : Type} [DecidableEq ι]

/-! ## What is loaded names its keys -/

theorem loadEntry_keyed (entry : Json) (pair : CheckpointKey × CheckpointState)
    (loaded : loadEntry entry = .ok pair) : (pair.2.chainId, pair.2.sourceName) = pair.1 := by
  unfold loadEntry at loaded
  simp only [Fallible.bind_eq_ok_iff, Fallible.pure_eq_ok_iff] at loaded
  obtain ⟨_, _, _, _, _, _, _, _, _, _, _, _, _, _, _, _, _, _, rfl⟩ := loaded
  rfl

theorem keyed_ofList (pairs : List (CheckpointKey × CheckpointState))
    (named : ∀ pair ∈ pairs, (pair.2.chainId, pair.2.sourceName) = pair.1) :
    Keyed (Dict.ofList pairs) := by
  intro key s found
  exact named (key, s) (Dict.mem_of_get?_ofList pairs key s found)

theorem keyed_loadStore (file : StoreFile) (state : Checkpoints) (loaded : loadStore file = .ok state) :
    Keyed state := by
  have payload (j : Json) (loaded : loadPayload j = .ok state) : Keyed state := by
    unfold loadPayload at loaded
    simp only [Fallible.bind_eq_ok_iff, Fallible.pure_eq_ok_iff] at loaded
    obtain ⟨_, _, entries, _, pairs, read, rfl⟩ := loaded
    apply keyed_ofList
    intro pair member
    obtain ⟨entry, _, one⟩ := Fallible.exists_of_mem_mapM loadEntry read pair member
    exact loadEntry_keyed entry pair one
  cases file with
  | missing =>
      cases loaded
      exact keyed_empty
  | empty => exact payload _ loaded
  | document j => exact payload j loaded

/-! ## Interleaved calls -/

def interleaving (calls : List (ι × CheckpointCall)) : List (Step ι) :=
  calls.map fun c => .call c.1 c.2

def World.opened (file : StoreFile) (state : Checkpoints) : World ι :=
  { state := fun _ => state, file := file }

def World.after (w : World ι) (c : ι × CheckpointCall) : World ι :=
  { state := Function.update w.state c.1 (c.2.apply (w.state c.1))
    file := c.2.file (w.state c.1) w.file }

def writers (copies : ι → Checkpoints) : List (ι × CheckpointCall) → List ι
  | [] => []
  | c :: rest =>
      (if c.2.saves (copies c.1) then [c.1] else []) ++
        writers (Function.update copies c.1 (c.2.apply (copies c.1))) rest

/-- The instance whose copy the file holds at the end; none where no call writes. -/
def lastWriter (state : Checkpoints) (calls : List (ι × CheckpointCall)) : Option ι :=
  (writers (fun _ => state) calls).getLast?

def alone (state : Checkpoints) (calls : List (ι × CheckpointCall)) (key : CheckpointKey) :
    Checkpoints :=
  ((calls.map Prod.snd).filter (·.key = key)).foldl CheckpointCall.apply state

theorem run_interleaving (w : World ι) (calls : List (ι × CheckpointCall)) :
    w.run (interleaving calls) = .ok (calls.foldl World.after w) := by
  induction calls generalizing w with
  | nil => rfl
  | cons c rest ih => exact ih (w.after c)

theorem state_after (w : World ι) (calls : List (ι × CheckpointCall)) (who : ι) :
    (calls.foldl World.after w).state who =
      ((calls.filter (·.1 = who)).map Prod.snd).foldl CheckpointCall.apply (w.state who) := by
  induction calls generalizing w with
  | nil => rfl
  | cons c rest ih =>
      rw [List.foldl_cons, ih, List.filter_cons]
      by_cases own : c.1 = who
      · subst own
        simp [World.after]
      · simp [World.after, own, Function.update_of_ne (Ne.symm own)]

def heldCopy (state : Checkpoints) (w : World ι) : Option ι → Checkpoints
  | none => state
  | some who => w.state who

theorem file_after (state : Checkpoints) (w : World ι) (holder : Option ι)
    (held : loadStore w.file = .ok (heldCopy state w holder)) (keyed : ∀ who, Keyed (w.state who))
    (calls : List (ι × CheckpointCall)) :
    loadStore (calls.foldl World.after w).file =
      .ok (heldCopy state (calls.foldl World.after w) ((writers w.state calls).getLast?.or holder)) := by
  induction calls generalizing w holder with
  | nil => exact held
  | cons c rest ih =>
      have keyedNext : ∀ who, Keyed ((w.after c).state who) := by
        intro who
        by_cases own : who = c.1
        · subst own
          simpa [World.after] using keyed_apply _ (keyed _) c.2
        · simpa [World.after, Function.update_of_ne own] using keyed who
      rw [List.foldl_cons, writers]
      cases saves : c.2.saves (w.state c.1) with
      | true =>
          have written : loadStore (w.after c).file =
              .ok (heldCopy state (w.after c) (some c.1)) := by
            simpa [heldCopy, World.after] using load_file _ c.2 (keyed c.1) saves w.file
          rw [ih (w.after c) (some c.1) written keyedNext, if_pos rfl, List.singleton_append,
            List.getLast?_cons]
          change Except.ok (heldCopy state _ ((writers (w.after c).state rest).getLast?.or _)) =
            Except.ok (heldCopy state _ ((some ((writers (w.after c).state rest).getLast?.getD c.1)).or _))
          cases (writers (w.after c).state rest).getLast? <;> rfl
      | false =>
          have same : w.after c = w := by
            rw [World.after, apply_of_not_saves _ _ saves, Function.update_eq_self,
              CheckpointCall.file, saves]
            rfl
          rw [same, ih w holder held keyed, apply_of_not_saves _ _ saves, Function.update_eq_self]
          rfl

/-! ## No lost update -/

/-- Different instances call on different keys. -/
def OwnKeys (calls : List (ι × CheckpointCall)) : Prop :=
  ∀ c ∈ calls, ∀ d ∈ calls, c.1 ≠ d.1 → c.2.key ≠ d.2.key

instance (calls : List (ι × CheckpointCall)) : Decidable (OwnKeys calls) :=
  inferInstanceAs (Decidable (∀ c ∈ calls, ∀ d ∈ calls, c.1 ≠ d.1 → c.2.key ≠ d.2.key))

omit [DecidableEq ι] in
theorem get?_alone (state : Checkpoints) (calls : List (ι × CheckpointCall)) (key : CheckpointKey) :
    (alone state calls key).get? key =
      ((calls.map Prod.snd).filter (·.key = key)).foldl entryAfter (state.get? key) := by
  rw [alone, get?_calls, List.filter_filter]
  simp

theorem get?_copy (state : Checkpoints) (file : StoreFile) (calls : List (ι × CheckpointCall))
    (who : ι) (key : CheckpointKey) :
    ((calls.foldl World.after (World.opened file state)).state who).get? key =
      ((calls.filter fun c => c.1 = who ∧ c.2.key = key).map Prod.snd).foldl entryAfter
        (state.get? key) := by
  rw [state_after, get?_calls, List.filter_map, List.filter_filter]
  congr 2
  apply List.filter_congr
  intro c _
  rw [Bool.decide_and, Bool.and_comm]
  rfl

theorem copy_of_owner (state : Checkpoints) (file : StoreFile) (calls : List (ι × CheckpointCall))
    (apart : OwnKeys calls) (c : ι × CheckpointCall) (member : c ∈ calls) :
    ((calls.foldl World.after (World.opened file state)).state c.1).get? c.2.key =
      (alone state calls c.2.key).get? c.2.key := by
  rw [get?_copy, get?_alone, List.filter_map]
  congr 2
  apply List.filter_congr
  intro d inside
  by_cases same : d.2.key = c.2.key
  · have owner : d.1 = c.1 := by
      by_contra other
      exact apart d inside c member other same
    simp [same, owner]
  · simp [same]

theorem copy_of_other (state : Checkpoints) (file : StoreFile) (calls : List (ι × CheckpointCall))
    (who : ι) (key : CheckpointKey) (none : ∀ c ∈ calls, c.1 = who → c.2.key ≠ key) :
    ((calls.foldl World.after (World.opened file state)).state who).get? key = state.get? key := by
  have empty : (calls.filter fun c => c.1 = who ∧ c.2.key = key) = [] := by
    rw [List.filter_eq_nil_iff]
    intro c member both
    simp only [decide_eq_true_eq] at both
    exact none c member both.1 both.2
  rw [get?_copy, empty]
  rfl

omit [DecidableEq ι] in
theorem alone_of_unused (state : Checkpoints) (calls : List (ι × CheckpointCall))
    (key : CheckpointKey) (none : ∀ c ∈ calls, c.2.key ≠ key) :
    alone state calls key = state := by
  have empty : (calls.map Prod.snd).filter (·.key = key) = [] := by
    rw [List.filter_eq_nil_iff]
    intro call member same
    obtain ⟨c, inside, rfl⟩ := List.mem_map.mp member
    exact none c inside (by simpa using same)
  rw [alone, empty]
  rfl

theorem report_heldCopy (state : Checkpoints) (file : StoreFile) (calls : List (ι × CheckpointCall))
    (apart : OwnKeys calls) (c : ι × CheckpointCall) (member : c ∈ calls) (holder : Option ι) :
    report (heldCopy state (calls.foldl World.after (World.opened file state)) holder) c.2.key =
      if holder = some c.1 then report (alone state calls c.2.key) c.2.key
      else report state c.2.key := by
  simp only [report_eq]
  cases holder with
  | none => rfl
  | some who =>
      by_cases own : who = c.1
      · subst own
        rw [if_pos rfl, heldCopy, copy_of_owner state file calls apart c member]
      · rw [if_neg (fun same => own (Option.some.inj same)), heldCopy, copy_of_other]
        intro d inside isWho
        exact apart d inside c member (isWho.symm ▸ own)

theorem loaded_after (file : StoreFile) (state : Checkpoints) (loaded : loadStore file = .ok state)
    (calls : List (ι × CheckpointCall)) :
    loadStore (calls.foldl World.after (World.opened file state)).file =
      .ok (heldCopy state (calls.foldl World.after (World.opened file state))
        (lastWriter state calls)) := by
  have after := file_after state (World.opened file state) none loaded
    (fun _ => keyed_loadStore file state loaded) calls
  rwa [Option.or_none] at after

theorem no_lost_update_iff (file : StoreFile) (state : Checkpoints)
    (loaded : loadStore file = .ok state) (calls : List (ι × CheckpointCall)) (apart : OwnKeys calls) :
    (∃ w afterwards, (World.opened file state).run (interleaving calls) = .ok w ∧
        loadStore w.file = .ok afterwards ∧
        ∀ key, report afterwards key = report (alone state calls key) key) ↔
      ∀ c ∈ calls, lastWriter state calls ≠ some c.1 →
        report (alone state calls c.2.key) c.2.key = report state c.2.key := by
  have after := loaded_after file state loaded calls
  constructor
  · rintro ⟨w, afterwards, ran, read, reports⟩ c member other
    rw [run_interleaving] at ran
    cases ran
    rw [after] at read
    cases read
    rw [← reports c.2.key, report_heldCopy state file calls apart c member, if_neg other]
  · intro unchanged
    refine ⟨_, _, run_interleaving _ calls, after, fun key => ?_⟩
    by_cases used : ∃ c ∈ calls, c.2.key = key
    · obtain ⟨c, member, rfl⟩ := used
      rw [report_heldCopy state file calls apart c member]
      by_cases own : lastWriter state calls = some c.1
      · rw [if_pos own]
      · rw [if_neg own, unchanged c member own]
    · have unused : ∀ c ∈ calls, c.2.key ≠ key := fun c member same => used ⟨c, member, same⟩
      rw [alone_of_unused state calls key unused, report_eq, report_eq]
      cases lastWriter state calls with
      | none => rfl
      | some who => rw [heldCopy, copy_of_other state file calls who key fun c member _ => unused c member]

def oneWriter : List (Bool × CheckpointCall) :=
  [(false, .advance (1, "staking_v02_logs") 100 "0xa"), (true, .clearReplay (1, "link_transfers") (7, 9)),
    (false, .markReplay (1, "staking_v02_logs") (3, 5))]

theorem no_lost_update_oneWriter :
    ∃ w afterwards, (World.opened .missing Dict.empty).run (interleaving oneWriter) = .ok w ∧
      loadStore w.file = .ok afterwards ∧
      ∀ key, report afterwards key = report (alone Dict.empty oneWriter key) key :=
  (no_lost_update_iff .missing Dict.empty rfl oneWriter (by decide +kernel)).mpr (by decide +kernel)

/-- Both loops advance their own cursor. -/
def twoWriters : List (Bool × CheckpointCall) :=
  [(false, .advance (1, "staking_v02_logs") 100 "0xa"), (true, .advance (1, "link_transfers") 200 "0xb")]

theorem update_lost :
    OwnKeys twoWriters ∧
    ∃ w afterwards, (World.opened .missing Dict.empty).run (interleaving twoWriters) = .ok w ∧
      loadStore w.file = .ok afterwards ∧
      report afterwards (1, "staking_v02_logs") = ⟨0, none, []⟩ ∧
      report (alone Dict.empty twoWriters (1, "staking_v02_logs")) (1, "staking_v02_logs") =
        ⟨100, some "0xa", []⟩ := by
  refine ⟨by decide +kernel, _, _, run_interleaving _ twoWriters, loaded_after .missing _ rfl twoWriters,
    ?_, by decide +kernel⟩
  have last : lastWriter Dict.empty twoWriters = some true := by decide +kernel
  rw [last]
  decide +kernel

end EconomicLedger.Checkpoint
