import AscendAI.Lib.OwnedLock
import AscendAI.Lib.Runs

/-!
# The browser pool

One browser is shared by the requests of the web reader. `start` and `get_browser` launch it under a
lock, `stop` closes it, and `get_browser` first looks at it without the lock. A call is a process of a
pool. What it awaits happens outside in a step of its own, and the code behind the await is the next
step.
-/

namespace AscendAI.WebSearch
open ProcessPool Runs

/-- A browser by the driver that launched it and its number among the browsers launched so far. -/
structure PooledBrowser where
  driver : ℕ
  serial : ℕ
  deriving DecidableEq

/-- The fields of `BrowserPool`, and outside of it the drivers that are started and not yet stopped,
the browsers that are connected, and how many of each there have been. -/
structure PoolState where
  playwright : Option ℕ := none
  browser : Option PooledBrowser := none
  locked : Bool := false
  drivers : List ℕ := []
  connected : List PooledBrowser := []
  started : ℕ := 0
  launched : ℕ := 0

namespace PoolState

variable (s : PoolState)

/-- The browser if `self._browser is not None and self._browser.is_connected()`. -/
def usable : Option PooledBrowser := s.browser.filter fun b => s.connected.contains b

def disconnect (b : PooledBrowser) : PoolState := { s with connected := s.connected.filter (· ≠ b) }

/-- `stop()` of a driver, which may raise but ends the driver and disconnects its browsers. -/
def stopDriver (d : ℕ) : PoolState :=
  { s with drivers := s.drivers.filter (· ≠ d), connected := s.connected.filter fun b => b.driver ≠ d }

def startDriver : PoolState :=
  { s with drivers := s.drivers ++ [s.started], started := s.started + 1 }

def launch (d : ℕ) : PoolState :=
  { s with connected := s.connected ++ [⟨d, s.launched⟩], launched := s.launched + 1 }

def release : PoolState := { s with locked := false }

end PoolState

/-- The calls that may launch a browser. -/
inductive Opener where
  | start
  | getBrowser
  deriving DecidableEq

inductive PoolCall where
  | opener (o : Opener)
  | stop
  deriving DecidableEq

/-- Where a call stands: before its next step, or at its end. -/
inductive PoolTask where
  | fastPath
  | acquire (o : Opener)
  | recheck (o : Opener)
  | stopPrior (o : Opener)
  | clearPrior (o : Opener)
  | startDriver (o : Opener)
  | storeDriver (o : Opener) (d : ℕ)
  | launchBrowser (o : Opener) (d : ℕ)
  | storeBrowser (o : Opener) (b : PooledBrowser)
  | acquireStop
  | closeBrowser
  | clearBrowser
  | stopDriver
  | clearDriver
  | completed
  | returned (b : PooledBrowser)
  | raised
  deriving DecidableEq

def PoolTask.finished : PoolTask → Bool
  | .completed | .returned _ | .raised => true
  | _ => false

/-- The call is in the block of the lock. -/
def PoolTask.inside : PoolTask → Bool
  | .fastPath | .acquire _ | .acquireStop | .completed | .returned _ | .raised => false
  | _ => true

def PoolCall.first : PoolCall → PoolTask
  | .opener .start => .acquire .start
  | .opener .getBrowser => .fastPath
  | .stop => .acquireStop

/-- `get_browser` returns the browser, `start` nothing. -/
def Opener.finish (b : PooledBrowser) : Opener → PoolTask
  | .start => .completed
  | .getBrowser => .returned b

/-- One step of a call. A call that finds the lock taken waits; `fails` says whether what it awaits
raises. -/
def advancePool (fails : Bool) (s : PoolState) : PoolTask → Outcome PoolState PoolTask
  -- get_browser
  | .fastPath =>
    match s.usable with
    | some b => ⟨s, .returned b, []⟩
    | none => ⟨s, .acquire .getBrowser, []⟩
  | .acquire o =>
    if s.locked then ⟨s, .acquire o, []⟩ else ⟨{ s with locked := true }, .recheck o, []⟩
  | .recheck o =>
    match s.usable with
    | some b => ⟨s.release, o.finish b, []⟩
    | none => ⟨s, .stopPrior o, []⟩
  -- _launch_locked
  | .stopPrior o =>
    match s.playwright with
    | some d => ⟨s.stopDriver d, .clearPrior o, []⟩
    | none => ⟨s, .startDriver o, []⟩
  | .clearPrior o => ⟨{ s with playwright := none }, .startDriver o, []⟩
  | .startDriver o =>
    if fails then ⟨s.release, .raised, []⟩ else ⟨s.startDriver, .storeDriver o s.started, []⟩
  | .storeDriver o d => ⟨{ s with playwright := some d }, .launchBrowser o d, []⟩
  | .launchBrowser o d =>
    if fails then ⟨s.release, .raised, []⟩ else ⟨s.launch d, .storeBrowser o ⟨d, s.launched⟩, []⟩
  | .storeBrowser o b => ⟨{ s with browser := some b, locked := false }, o.finish b, []⟩
  -- stop
  | .acquireStop =>
    if s.locked then ⟨s, .acquireStop, []⟩ else ⟨{ s with locked := true }, .closeBrowser, []⟩
  | .closeBrowser =>
    match s.browser with
    | some b => ⟨if fails then s else s.disconnect b, .clearBrowser, []⟩
    | none => ⟨s, .stopDriver, []⟩
  | .clearBrowser => ⟨{ s with browser := none }, .stopDriver, []⟩
  | .stopDriver =>
    match s.playwright with
    | some d => ⟨s.stopDriver d, .clearDriver, []⟩
    | none => ⟨s.release, .completed, []⟩
  | .clearDriver => ⟨{ s with playwright := none, locked := false }, .completed, []⟩
  | task => ⟨s, task, []⟩

abbrev BrowserPool := ProcessPool PoolState PoolTask

def BrowserPool.init : BrowserPool := ⟨{}, []⟩

/-- A new call, the next step of a call, or a browser that disconnects by itself. -/
inductive PoolEvent where
  | call (c : PoolCall)
  | step (i : ℕ) (fails : Bool)
  | disconnect (b : PooledBrowser)

def BrowserPool.next (pool : BrowserPool) : PoolEvent → BrowserPool
  | .call c => pool.start c.first
  | .step i fails => pool.step (advancePool fails) i
  | .disconnect b => { pool with shared := pool.shared.disconnect b }

/-! ### What is asked of the pool -/

/-- Every browser with which the event makes a call return was launched by the driver that the pool
holds. -/
def BrowserPool.ReturnsOfHeld (pool : BrowserPool) (event : PoolEvent) : Prop :=
  ∀ (i : ℕ) b, pool.procs[i]? ≠ some (.returned b) → (pool.next event).procs[i]? = some (.returned b) →
    (pool.next event).shared.playwright = some b.driver

def PoolEvent.isCall : PoolEvent → Bool
  | .call _ => true
  | _ => false

def PoolEvent.isStepOf (i : ℕ) : PoolEvent → Bool
  | .step j _ => j == i
  | _ => false

/-- A `stop()` that nothing overlaps and that no call follows leaves no driver, and ends after at
most five steps of its own. -/
def BrowserPool.StopLeavesNone (pool : BrowserPool) : Prop :=
  (∀ task ∈ pool.procs, task.finished = true) → ∀ events : List PoolEvent,
    (∀ event ∈ events, event.isCall = false) →
      let stopped := run BrowserPool.next (pool.next (.call .stop)) events
      (stopped.procs[pool.procs.length]? = some .completed → stopped.shared.drivers = []) ∧
      (5 ≤ events.countP (PoolEvent.isStepOf pool.procs.length) →
        stopped.procs[pool.procs.length]? = some .completed)

end AscendAI.WebSearch
