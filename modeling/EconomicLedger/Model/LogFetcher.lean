import EconomicLedger.Lib.Loop
import EconomicLedger.Model.Types

/-!
# Windowed log fetching (`ingestion/rpc/log_fetcher.py`)

A client is what `client.get_logs` does, for one address and one list of topics, on each of its calls
with the block range it is asked for.
-/

namespace EconomicLedger.Model
open Loop

abbrev LogClient (ε : Type) := Nat → Int → Int → Except ε (List RawLog)

variable {ε : Type} (client : LogClient ε) (toBlock : Int)

/-- The windows yielded so far stand for the generator. -/
structure WindowedFetch where
  calls : Nat
  cur : Int
  windows : List (List RawLog)

def windowedStep (windowSize : Int) (s : WindowedFetch) :
    WindowedFetch ⊕ Except ε (List (List RawLog)) :=
  if s.cur ≤ toBlock then
    let last := min (s.cur + windowSize - 1) toBlock
    match client s.calls s.cur last with
    | .ok logs => .inl { calls := s.calls + 1, cur := last + 1, windows := s.windows ++ [logs] }
    | .error exc => .inr (.error exc)
  else .inr (.ok s.windows)

def fetchLogsWindowed (fromBlock toBlock windowSize : Int) (rounds : Nat) :
    Option (Except ε (List (List RawLog))) :=
  run (windowedStep client toBlock windowSize) rounds { calls := 0, cur := fromBlock, windows := [] }

structure AdaptiveFetch where
  calls : Nat
  cur : Int
  window : Int
  out : List RawLog

/-- `caught` tells what `except Exception` catches. -/
def adaptiveStep (caught : ε → Bool) (minWindow : Int) (s : AdaptiveFetch) :
    AdaptiveFetch ⊕ Except ε (List RawLog) :=
  if s.cur ≤ toBlock then
    let last := min (s.cur + s.window - 1) toBlock
    match client s.calls s.cur last with
    | .ok logs => .inl { s with calls := s.calls + 1, cur := last + 1, out := s.out ++ logs }
    | .error exc =>
        if caught exc then
          let window := s.window / 2
          if window < minWindow then .inr (.error exc)
          else .inl { s with calls := s.calls + 1, window := window }
        else .inr (.error exc)
  else .inr (.ok s.out)

def fetchLogsWithAdaptiveWindow (caught : ε → Bool) (fromBlock toBlock initialWindow minWindow : Int)
    (rounds : Nat) : Option (Except ε (List RawLog)) :=
  run (adaptiveStep client toBlock caught minWindow) rounds
    { calls := 0, cur := fromBlock, window := initialWindow, out := [] }

end EconomicLedger.Model
