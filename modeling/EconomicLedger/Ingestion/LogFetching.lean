import EconomicLedger.Lib.Ranges
import EconomicLedger.Model.LogFetcher

/-!
# Fetching the logs of a block range

Each round moves the cursor or halves the window, so the loops end; between rounds the logs of the
blocks below the cursor have been collected.
-/

namespace EconomicLedger.Ingestion
open Model Loop Ranges

variable {ε : Type}

/-- Every call raises or returns the logs of the blocks it is asked for, in the order of the chain. -/
structure Serves (chain : List RawLog) (client : LogClient ε) : Prop where
  inOrder : chain.Pairwise (·.blockNumber ≤ ·.blockNumber)
  exact : ∀ call first last logs, client call first last = .ok logs →
    logs = between RawLog.blockNumber first last chain

def logsIn (chain : List RawLog) (fromBlock toBlock : Int) : List RawLog :=
  between RawLog.blockNumber fromBlock toBlock chain

variable {chain : List RawLog} {client : LogClient ε}

/-! ## What has been collected -/

/-- The cursor has passed blocks of the range only, and their logs have been collected. -/
structure Collected (chain : List RawLog) (fromBlock toBlock cur : Int) (out : List RawLog) : Prop where
  started : fromBlock ≤ cur
  within : cur ≤ max fromBlock (toBlock + 1)
  out : out = logsIn chain fromBlock (cur - 1)

theorem collected_start (fromBlock toBlock : Int) : Collected chain fromBlock toBlock fromBlock [] where
  started := Int.le_refl _
  within := by omega
  out := (between_of_lt _ _ _ _ (by omega)).symm

theorem Collected.window {fromBlock toBlock cur : Int} {out logs : List RawLog} {call : Nat}
    {window : Int} (collected : Collected chain fromBlock toBlock cur out) (serves : Serves chain client)
    (positive : 1 ≤ window) (more : cur ≤ toBlock)
    (served : client call cur (min (cur + window - 1) toBlock) = .ok logs) :
    Collected chain fromBlock toBlock (min (cur + window - 1) toBlock + 1) (out ++ logs) := by
  have started := collected.started
  refine ⟨by omega, by omega, ?_⟩
  have adjacent := between_append RawLog.blockNumber fromBlock (cur - 1)
    (min (cur + window - 1) toBlock) chain serves.inOrder (by omega) (by omega)
  rw [sub_add_cancel] at adjacent
  rw [collected.out, serves.exact _ _ _ _ served, add_sub_cancel_right]
  exact adjacent

theorem Collected.whole {fromBlock toBlock cur : Int} {out : List RawLog}
    (collected : Collected chain fromBlock toBlock cur out) (done : ¬ cur ≤ toBlock) :
    out = logsIn chain fromBlock toBlock := by
  rw [collected.out]
  have started := collected.started
  have within := collected.within
  by_cases some : fromBlock ≤ toBlock + 1
  · congr 1
    omega
  · -- the range is empty, and the loop has not begun
    unfold logsIn
    rw [between_of_lt _ _ _ _ (by omega), between_of_lt _ _ _ _ (by omega)]

/-! ## Windows of one size -/

theorem windowedStep_progress (serves : Serves chain client)
    (answers : ∀ call first last, ∃ logs, client call first last = .ok logs)
    (fromBlock toBlock windowSize : Int) (positive : 1 ≤ windowSize) (s : WindowedFetch)
    (collected : Collected chain fromBlock toBlock s.cur s.windows.flatten) :
    (∃ s', windowedStep client toBlock windowSize s = .inl s' ∧
      Collected chain fromBlock toBlock s'.cur s'.windows.flatten ∧
      (toBlock + 1 - s'.cur).toNat < (toBlock + 1 - s.cur).toNat) ∨
    ∃ r, windowedStep client toBlock windowSize s = .inr r ∧
      ∃ windows, r = .ok windows ∧ windows.flatten = logsIn chain fromBlock toBlock := by
  unfold windowedStep
  by_cases more : s.cur ≤ toBlock
  · obtain ⟨logs, served⟩ := answers s.calls s.cur (min (s.cur + windowSize - 1) toBlock)
    simp only [if_pos more, served]
    refine Or.inl ⟨_, rfl, ?_, ?_⟩
    · rw [List.flatten_append, List.flatten_singleton]
      exact collected.window serves positive more served
    · simp only
      omega
  · rw [if_neg more]
    exact Or.inr ⟨_, rfl, s.windows, rfl, collected.whole more⟩

theorem windowed_fetch_exact (serves : Serves chain client)
    (answers : ∀ call first last, ∃ logs, client call first last = .ok logs)
    (fromBlock toBlock windowSize : Int) (positive : 1 ≤ windowSize) :
    ∃ windows, windows.flatten = logsIn chain fromBlock toBlock ∧
      ∀ rounds, (toBlock + 1 - fromBlock).toNat < rounds →
        fetchLogsWindowed client fromBlock toBlock windowSize rounds = some (.ok windows) := by
  obtain ⟨r, ⟨windows, rfl, whole⟩, ended⟩ := run_total (windowedStep client toBlock windowSize)
    (fun s => Collected chain fromBlock toBlock s.cur s.windows.flatten)
    (fun r => ∃ windows, r = .ok windows ∧ windows.flatten = logsIn chain fromBlock toBlock)
    (fun s => (toBlock + 1 - s.cur).toNat)
    (windowedStep_progress serves answers fromBlock toBlock windowSize positive)
    { calls := 0, cur := fromBlock, windows := [] } (collected_start fromBlock toBlock)
  exact ⟨windows, whole, ended⟩

/-! ## Adaptive windows -/

/-- The loop returned what the client raised on a call inside the range, or the logs of the range. -/
def Fetched (chain : List RawLog) (client : LogClient ε) (fromBlock toBlock : Int)
    (result : Except ε (List RawLog)) : Prop :=
  (∃ call first last exc, fromBlock ≤ first ∧ last ≤ toBlock ∧ client call first last = .error exc ∧
    result = .error exc) ∨ result = .ok (logsIn chain fromBlock toBlock)

theorem adaptiveStep_progress (serves : Serves chain client) (caught : ε → Bool)
    (fromBlock toBlock minWindow : Int) (minPositive : 1 ≤ minWindow) (s : AdaptiveFetch)
    (collected : Collected chain fromBlock toBlock s.cur s.out) (positive : 1 ≤ s.window) :
    (∃ s', adaptiveStep client toBlock caught minWindow s = .inl s' ∧
      (Collected chain fromBlock toBlock s'.cur s'.out ∧ 1 ≤ s'.window) ∧
      (toBlock + 1 - s'.cur).toNat + s'.window.toNat < (toBlock + 1 - s.cur).toNat + s.window.toNat) ∨
    ∃ r, adaptiveStep client toBlock caught minWindow s = .inr r ∧
      Fetched chain client fromBlock toBlock r := by
  unfold adaptiveStep
  by_cases more : s.cur ≤ toBlock
  · simp only [if_pos more]
    cases served : client s.calls s.cur (min (s.cur + s.window - 1) toBlock) with
    | ok logs =>
        refine Or.inl ⟨_, rfl, ⟨collected.window serves positive more served, positive⟩, ?_⟩
        simp only
        omega
    | error exc =>
        have raised : Fetched chain client fromBlock toBlock (.error exc) :=
          Or.inl ⟨_, _, _, exc, collected.started, Int.min_le_right _ _, served, rfl⟩
        simp only
        by_cases isCaught : caught exc = true
        · rw [if_pos isCaught]
          by_cases small : s.window / 2 < minWindow
          · rw [if_pos small]
            exact Or.inr ⟨_, rfl, raised⟩
          · rw [if_neg small]
            have halved : 1 ≤ s.window / 2 := by omega
            refine Or.inl ⟨_, rfl, ⟨collected, halved⟩, ?_⟩
            simp only
            omega
        · rw [if_neg isCaught]
          exact Or.inr ⟨_, rfl, raised⟩
  · rw [if_neg more]
    exact Or.inr ⟨_, rfl, Or.inr (congrArg Except.ok (collected.whole more))⟩

/-- Windows of any size give the logs, on a client that never fails. -/
def SameAsWindowed (ε : Type) (chain : List RawLog) (fromBlock toBlock : Int) (logs : List RawLog) :
    Prop :=
  ∀ windowSize, 1 ≤ windowSize → ∀ client : LogClient ε, Serves chain client →
    (∀ call first last, ∃ logs, client call first last = .ok logs) →
    ∃ windows, windows.flatten = logs ∧ ∀ rounds, (toBlock + 1 - fromBlock).toNat < rounds →
      fetchLogsWindowed client fromBlock toBlock windowSize rounds = some (.ok windows)

/-- Whatever the client raises, the loop ends, and it returns the logs of the range or what the client
raised. Every round makes one call at most. -/
theorem adaptive_fetch_exact (serves : Serves chain client) (caught : ε → Bool)
    (fromBlock toBlock initialWindow minWindow : Int) (positive : 1 ≤ initialWindow)
    (minPositive : 1 ≤ minWindow) :
    ∃ result, Fetched chain client fromBlock toBlock result ∧
      (∀ rounds, (toBlock + 1 - fromBlock).toNat + initialWindow.toNat < rounds →
        fetchLogsWithAdaptiveWindow client caught fromBlock toBlock initialWindow minWindow rounds =
          some result) ∧
      ∀ logs, result = .ok logs → SameAsWindowed ε chain fromBlock toBlock logs := by
  obtain ⟨result, fetched, ended⟩ := run_total
    (adaptiveStep client toBlock caught minWindow)
    (fun s => Collected chain fromBlock toBlock s.cur s.out ∧ 1 ≤ s.window)
    (Fetched chain client fromBlock toBlock)
    (fun s => (toBlock + 1 - s.cur).toNat + s.window.toNat)
    (fun s kept => adaptiveStep_progress serves caught fromBlock toBlock minWindow minPositive s
      kept.1 kept.2)
    { calls := 0, cur := fromBlock, window := initialWindow, out := [] }
    ⟨collected_start fromBlock toBlock, positive⟩
  refine ⟨result, fetched, ended, ?_⟩
  intro logs returned windowSize large client' serves' answers
  obtain ⟨windows, whole, windowed⟩ :=
    windowed_fetch_exact serves' answers fromBlock toBlock windowSize large
  refine ⟨windows, ?_, windowed⟩
  rcases fetched with ⟨_, _, _, _, -, -, -, raised⟩ | exact
  · rw [returned] at raised
    cases raised
  · rw [returned] at exact
    rw [whole, Except.ok.inj exact]

/-! ### A client with a limit -/

/-- Ranges of more than `limit` blocks overflow. -/
def limitedTo (limit : Int) (chain : List RawLog) : LogClient String := fun _ first last =>
  if limit < last + 1 - first then .error "query returned more than 10000 results"
  else .ok (logsIn chain first last)

theorem serves_limitedTo (limit : Int) (inOrder : chain.Pairwise (·.blockNumber ≤ ·.blockNumber)) :
    Serves chain (limitedTo limit chain) := by
  refine ⟨inOrder, fun call first last logs served => ?_⟩
  unfold limitedTo at served
  split_ifs at served
  exact (Except.ok.inj served).symm

def logOfBlock (blockNumber : Int) : RawLog :=
  { chainId := 1
    blockNumber := blockNumber
    blockHash := "0x0a"
    txHash := "0xab"
    txIndex := 0
    logIndex := 0
    address := "0x51"
    topics := []
    data := "0x" }

theorem adaptive_fetch_exact_limited :
    ∃ result, Fetched ([100, 101, 101, 103].map logOfBlock)
        (limitedTo 1 ([100, 101, 101, 103].map logOfBlock)) 100 103 result ∧
      (∀ rounds, (103 + 1 - 100 : Int).toNat + (4 : Int).toNat < rounds →
        fetchLogsWithAdaptiveWindow (limitedTo 1 ([100, 101, 101, 103].map logOfBlock)) (fun _ => true)
          100 103 4 1 rounds = some result) ∧
      ∀ logs, result = .ok logs →
        SameAsWindowed String ([100, 101, 101, 103].map logOfBlock) 100 103 logs :=
  adaptive_fetch_exact (serves_limitedTo 1 (by decide)) (fun _ => true) 100 103 4 1 (by decide) (by decide)

/-- The window of 4 blocks is halved twice. -/
example : fetchLogsWithAdaptiveWindow (limitedTo 1 ([100, 101, 101, 103].map logOfBlock)) (fun _ => true)
    100 103 4 1 9 = some (.ok ([100, 101, 101, 103].map logOfBlock)) := by
  rfl

end EconomicLedger.Ingestion
