import EconomicLedger.Checkpoint.Reports
import Mathlib.Logic.Function.Basic

/-!
# Instances and their store

Every instance answers from the copy it read when it was constructed, and a call that saves
replaces the whole file by the copy of its instance.
-/

namespace EconomicLedger.Checkpoint
open EconomicLedger.Model

variable {ι : Type} [DecidableEq ι]

structure World (ι : Type) where
  state : ι → Checkpoints
  file : StoreFile

inductive Step (ι : Type) where
  | call (who : ι) (call : CheckpointCall)
  | construct (who : ι)
deriving DecidableEq

namespace World

def step (w : World ι) : Step ι → Py (World ι)
  | .call who call =>
      .ok { state := Function.update w.state who (call.apply (w.state who))
            file := call.file (w.state who) w.file }
  | .construct who => do
      let state ← loadStore w.file
      return { w with state := Function.update w.state who state }

def run (w : World ι) (steps : List (Step ι)) : Py (World ι) := steps.foldlM step w

def fresh : World ι := { state := fun _ => Dict.empty, file := .missing }

theorem run_cons (w : World ι) (s : Step ι) (rest : List (Step ι)) :
    w.run (s :: rest) = w.step s >>= fun w' => w'.run rest := by
  rw [run, List.foldlM_cons]
  rfl

end World

def Step.call? : Step ι → Option CheckpointCall
  | .call _ made => some made
  | .construct _ => none

def callsOf (steps : List (Step ι)) : List CheckpointCall := steps.filterMap Step.call?

/-! ## Calls of an up-to-date instance -/

def Holds (w : World ι) (state : Checkpoints) : Prop :=
  loadStore w.file = .ok state ∧ Keyed state

theorem apply_of_not_saves (state : Checkpoints) (call : CheckpointCall)
    (silent : call.saves state = false) : call.apply state = state := by
  cases call with
  | advance => cases silent
  | markReplay => cases silent
  | clearReplay key range =>
      have unknown : state.get? key = none := by
        simpa [CheckpointCall.saves] using silent
      simp [CheckpointCall.apply, clearReplay, unknown]

theorem load_file (state : Checkpoints) (call : CheckpointCall) (keyed : Keyed state)
    (saves : call.saves state = true) (before : StoreFile) :
    loadStore (call.file state before) = .ok (call.apply state) := by
  rw [CheckpointCall.file, if_pos saves]
  exact loadStore_saveStore _ (keyed_apply state keyed call)

theorem holds_call (w : World ι) (who : ι) (call : CheckpointCall)
    (current : Holds w (w.state who)) :
    Holds { state := Function.update w.state who (call.apply (w.state who))
            file := call.file (w.state who) w.file } (call.apply (w.state who)) := by
  obtain ⟨held, keyed⟩ := current
  refine ⟨?_, keyed_apply _ keyed call⟩
  cases saves : call.saves (w.state who) with
  | true => exact load_file _ call keyed saves w.file
  | false =>
      rw [apply_of_not_saves _ call saves, CheckpointCall.file, saves]
      exact held

/-- The instance that makes a call has seen what the file holds. -/
def UpToDate (w : World ι) : Step ι → Prop
  | .call who _ => loadStore w.file = .ok (w.state who)
  | .construct _ => True

def UpToDateRun (w : World ι) : List (Step ι) → Prop
  | [] => True
  | s :: rest => UpToDate w s ∧ ∀ w', w.step s = .ok w' → UpToDateRun w' rest

theorem step_upToDate (w : World ι) (state : Checkpoints) (held : Holds w state) (s : Step ι)
    (current : UpToDate w s) :
    ∃ w', w.step s = .ok w' ∧ Holds w' (s.call?.elim state (CheckpointCall.apply state)) := by
  cases s with
  | call who call =>
      have same : w.state who = state := Except.ok.inj (current.symm.trans held.1)
      refine ⟨_, rfl, ?_⟩
      subst same
      exact holds_call w who call held
  | construct who =>
      refine ⟨{ w with state := Function.update w.state who state }, ?_, held⟩
      simp only [World.step, held.1, Fallible.ok_bind]
      rfl

theorem run_upToDate (w : World ι) (state : Checkpoints) (held : Holds w state)
    (steps : List (Step ι)) (current : UpToDateRun w steps) :
    ∃ w', w.run steps = .ok w' ∧
      Holds w' ((callsOf steps).foldl CheckpointCall.apply state) := by
  induction steps generalizing w state with
  | nil => exact ⟨w, rfl, held⟩
  | cons s rest ih =>
      obtain ⟨next, stepped, heldNext⟩ := step_upToDate w state held s current.1
      obtain ⟨last, ran, heldLast⟩ := ih next _ heldNext (current.2 next stepped)
      refine ⟨last, ?_, ?_⟩
      · rw [World.run_cons, stepped, Fallible.ok_bind, ran]
      · cases s <;> exact heldLast

/-! ## One instance at a time -/

theorem step_single (w : World Unit) (held : Holds w (w.state ())) (s : Step Unit) (w' : World Unit)
    (stepped : w.step s = .ok w') : Holds w' (w'.state ()) := by
  cases s with
  | call who call =>
      cases stepped
      have after := holds_call w () call held
      simpa using after
  | construct who =>
      simp only [World.step, held.1, Fallible.ok_bind] at stepped
      cases stepped
      simpa using held

theorem upToDateRun_single (w : World Unit) (held : Holds w (w.state ())) (steps : List (Step Unit)) :
    UpToDateRun w steps := by
  induction steps generalizing w with
  | nil => trivial
  | cons s rest ih =>
      refine ⟨?_, fun w' stepped => ih w' (step_single w held s w' stepped)⟩
      cases s with
      | call => exact held.1
      | construct => trivial

theorem run_single (w : World Unit) (held : Holds w (w.state ())) (steps : List (Step Unit))
    (w' : World Unit) (ran : w.run steps = .ok w') : Holds w' (w'.state ()) := by
  induction steps generalizing w with
  | nil =>
      cases ran
      exact held
  | cons s rest ih =>
      rw [World.run_cons, Fallible.bind_eq_ok_iff] at ran
      obtain ⟨next, stepped, ran⟩ := ran
      exact ih next (step_single w held s next stepped) ran

theorem holds_fresh : Holds (World.fresh : World Unit) Dict.empty := ⟨rfl, keyed_empty⟩

theorem run_fresh (steps : List (Step Unit)) :
    ∃ w, World.fresh.run steps = .ok w ∧
      w.state () = (callsOf steps).foldl CheckpointCall.apply Dict.empty := by
  obtain ⟨w, ran, held⟩ := run_upToDate World.fresh Dict.empty holds_fresh steps
    (upToDateRun_single _ holds_fresh steps)
  have own := run_single World.fresh holds_fresh steps w ran
  exact ⟨w, ran, Except.ok.inj (own.1.symm.trans held.1)⟩

/-! ## Restart equivalence -/

omit [DecidableEq ι] in
theorem callsOf_append (before after : List (Step ι)) :
    callsOf (before ++ after) = callsOf before ++ callsOf after := List.filterMap_append

theorem report_run (steps : List (Step Unit)) (positive : Positive (callsOf steps)) :
    ∃ w, World.fresh.run steps = .ok w ∧
      ∀ key, report (w.state ()) key = historyReport key (callsOf steps) := by
  obtain ⟨w, ran, state⟩ := run_fresh steps
  refine ⟨w, ran, fun key => ?_⟩
  rw [report_eq, state, get?_calls, Dict.get?_empty, reportOf_calls key _ positive]

theorem highestBlock_append_le (key : CheckpointKey) (before after : List CheckpointCall)
    (positive : Positive (before ++ after)) :
    highestBlock key before ≤ highestBlock key (before ++ after) := by
  cases top : ((advances key before).map Prod.fst).max? with
  | none =>
      rw [highestBlock, top, highestBlock]
      cases whole : ((advances key (before ++ after)).map Prod.fst).max? with
      | none => exact Int.le_refl 0
      | some b =>
          obtain ⟨a, member, rfl⟩ := List.mem_map.mp (List.max?_mem whole)
          obtain ⟨call, inside, advanced⟩ := List.mem_filterMap.mp member
          cases call with
          | advance own blockNumber blockHash =>
              simp only [advanceOf] at advanced
              split at advanced
              · cases advanced
                exact Int.le_trans (by decide) (positive own blockNumber blockHash inside)
              · cases advanced
          | markReplay => cases advanced
          | clearReplay => cases advanced
  | some b =>
      obtain ⟨a, member, rfl⟩ := List.mem_map.mp (List.max?_mem top)
      have inside : a ∈ advances key (before ++ after) := by
        rw [advances, List.filterMap_append]
        exact List.mem_append_left _ member
      rw [highestBlock, top]
      exact le_highest _ a inside

theorem checkpoint_restart_equivalence (steps : List (Step Unit)) (positive : Positive (callsOf steps)) :
    ∃ w, World.fresh.run steps = .ok w ∧
      (∀ key,
        lastProcessedBlock (w.state ()) key = highestBlock key (callsOf steps) ∧
        lastProcessedBlockHash (w.state ()) key = hashOfHighest key (callsOf steps) ∧
        pendingReplays (w.state ()) key = Keyed.firstByKey id (uncleared key (callsOf steps))) ∧
      (∀ before after, steps = before ++ after →
        ∃ earlier, World.fresh.run before = .ok earlier ∧
          ∀ key, lastProcessedBlock (earlier.state ()) key ≤ lastProcessedBlock (w.state ()) key) ∧
      (∀ before call, steps = before ++ [.call () call] →
        ∃ earlier, World.fresh.run before = .ok earlier ∧
          ∀ key, key ≠ call.key → report (w.state ()) key = report (earlier.state ()) key) := by
  obtain ⟨w, ran, reports⟩ := report_run steps positive
  refine ⟨w, ran, fun key => ?_, fun before after split => ?_, fun before call split => ?_⟩
  · have answers := reports key
    exact ⟨congrArg Report.lastProcessedBlock answers, congrArg Report.lastProcessedBlockHash answers,
      congrArg Report.pendingReplays answers⟩
  · subst split
    rw [callsOf_append] at positive reports
    obtain ⟨earlier, ranBefore, reportsBefore⟩ := report_run before fun key b h member =>
      positive key b h (List.mem_append_left _ member)
    refine ⟨earlier, ranBefore, fun key => ?_⟩
    have higher := highestBlock_append_le key (callsOf before) (callsOf after) positive
    have now : lastProcessedBlock (w.state ()) key = _ :=
      congrArg Report.lastProcessedBlock (reports key)
    have past : lastProcessedBlock (earlier.state ()) key = _ :=
      congrArg Report.lastProcessedBlock (reportsBefore key)
    rw [now, past]
    exact higher
  · subst split
    rw [callsOf_append] at positive reports
    obtain ⟨earlier, ranBefore, reportsBefore⟩ := report_run before fun key b h member =>
      positive key b h (List.mem_append_left _ member)
    have last : Positive [call] := fun key b h member => positive key b h
      (List.mem_append_right _ (by simpa [callsOf, Step.call?] using member))
    refine ⟨earlier, ranBefore, fun key other => ?_⟩
    have one : callsOf [Step.call () call] = [call] := rfl
    rw [reports key, one, historyReport_concat key _ call last, if_neg (Ne.symm other),
      reportsBefore key]

def replayedSteps : List (Step Unit) :=
  [.call () (.advance (1, "pa_logs") 100 "0xa"), .construct (),
    .call () (.markReplay (1, "pa_logs") (7, 9)), .call () (.markReplay (1, "pa_logs") (3, 5)),
    .construct (), .call () (.advance (1, "pa_logs") 100 "0xb"),
    .call () (.clearReplay (1, "pa_logs") (7, 9))]

theorem checkpoint_restart_equivalence_replayed :
    ∃ w, World.fresh.run replayedSteps = .ok w ∧
      lastProcessedBlock (w.state ()) (1, "pa_logs") = 100 ∧
      lastProcessedBlockHash (w.state ()) (1, "pa_logs") = some "0xa" ∧
      pendingReplays (w.state ()) (1, "pa_logs") = [(3, 5)] := by
  have positive : Positive (callsOf replayedSteps) := by
    intro key blockNumber blockHash member
    simp [callsOf, replayedSteps, Step.call?] at member
    omega
  obtain ⟨w, ran, answers, -⟩ := checkpoint_restart_equivalence replayedSteps positive
  obtain ⟨block, hash, pending⟩ := answers (1, "pa_logs")
  exact ⟨w, ran, block.trans (by decide +kernel), hash.trans (by decide +kernel),
    pending.trans (by decide +kernel)⟩

end EconomicLedger.Checkpoint
