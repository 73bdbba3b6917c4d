import Octo.Ingest.DueWallets
import Octo.Ingest.Process

/-!
# One pass of the supervisor

`Supervisor::tick` (`crates/ingest/src/lib.rs`) pages in the wallets that are due, starts a task for
a page of each, and joins the tasks as they end: a wallet with a full page goes back to the end of
the queue, until its budget for the tick is used up.  The tasks run concurrently, as many at a time
as there are permits.

A `Step` is one thing the pass, a task or the scheduler does: the tables may be any at each page of
wallets, the streams that are live may be any, a task may end in any way, and the tasks may end and
be joined in any order.
-/

namespace Octo.Ingest

open Keyset Conc

/-! ### Constants -/

def maxHorizonPageLimit : Nat := 200

def maxPagesPerTick : Nat := 10

def maxRecordsPerWalletPerTick : Nat := 500

def fanoutPageSize : Nat := 500

/-- `ACTIVE_AFTER_SECS`, `IDLE_INTERVAL_SECS`, `DORMANT_AFTER_SECS`, `DORMANT_INTERVAL_SECS`. -/
def tiers : Backoff := ⟨60 * 60, 120, 24 * 60 * 60, 600⟩

def uuidBound : Nat := 2 ^ 128

/-! ### The tasks -/

structure WalletTurn where
  walletId : Uuid
  pages : Nat
  records : Nat
  deriving DecidableEq

structure PageTask where
  turn : WalletTurn
  limit : Nat
  deriving DecidableEq

/-- What came of a page: all its records processed, or an error or a panic after some. -/
inductive Polled
  | ok (n : Nat)
  | failed (processed : Nat)
  | panicked (processed : Nat)
  deriving DecidableEq

def Polled.processed : Polled → Nat
  | .ok n | .failed n | .panicked n => n

def Polled.counted : Polled → Nat
  | .ok n => n
  | _ => 0

def Polled.isOk : Polled → Bool
  | .ok _ => true
  | _ => false

/-- What a task leaves to be joined.  A panicked one leaves no turn; it is kept to tell whose page
it was. -/
structure Joined where
  turn : WalletTurn
  polled : Polled
  limit : Nat
  deriving DecidableEq

def PageTask.done (t : PageTask) (p : Polled) : Joined where
  turn := { t.turn with pages := t.turn.pages + 1, records := t.turn.records + p.counted }
  polled := p
  limit := t.limit

def pageWasFull (records pageLimit : Nat) : Bool :=
  decide (0 < pageLimit) && decide (pageLimit ≤ records)

def Joined.requeues (j : Joined) : Bool :=
  match j.polled with
  | .ok n => pageWasFull n j.limit && decide (j.turn.pages < maxPagesPerTick) &&
      decide (j.turn.records < maxRecordsPerWalletPerTick)
  | _ => false

/-! ### The pass -/

inductive Phase
  | fetching
  | backpressure
  | draining (fetchError : Option StoreError)
  | returned (result : Except StoreError Nat)
  deriving DecidableEq

structure Page where
  walletId : Uuid
  processed : Nat
  ok : Bool
  deriving DecidableEq

/-- The state of a pass.  `queue` are the tasks that wait for a permit, `running` those that hold
one and `finished` those that have not been joined.  The pass itself does not see `started`, the
wallets given a turn, and `log`, the pages that have ended. -/
structure TickState where
  phase : Phase
  afterId : Option Uuid
  queue : List PageTask
  running : List PageTask
  finished : List Joined
  total : Nat
  started : List Uuid
  log : List Page

namespace TickState

def start : TickState := ⟨.fetching, none, [], [], [], 0, [], []⟩

variable (st : TickState)

def tasks : Nat := st.queue.length + st.running.length + st.finished.length

def inFlight : List Uuid :=
  st.queue.map (·.turn.walletId) ++ st.running.map (·.turn.walletId) ++ st.finished.map
    (·.turn.walletId)

/-- `spawn_page`: never request past the record budget. -/
def spawnPage (pageLimit : Nat) (turn : WalletTurn) : TickState :=
  { st with queue := st.queue ++ [⟨turn,
    min pageLimit (maxRecordsPerWalletPerTick - turn.records)⟩] }

def fanOut (pageLimit : Nat) (page : List Wallet) (live : Uuid → Bool) : TickState :=
  let polled := page.filter (fun w => !live w.id)
  { st with
    phase := if page.length < fanoutPageSize then .draining none else .backpressure
    afterId := page.getLast?.map (·.id)
    queue := st.queue ++ polled.map (fun w =>
      ⟨⟨w.id, 0, 0⟩, min pageLimit (maxRecordsPerWalletPerTick - 0)⟩)
    started := st.started ++ polled.map (·.id) }

def settle (pageLimit : Nat) (j : Joined) (others : List Joined) : TickState :=
  let st' := { st with finished := others, total := st.total + j.polled.counted }
  if j.requeues then st'.spawnPage pageLimit j.turn else st'

def complete (t : PageTask) (p : Polled) (others : List PageTask) : TickState :=
  { st with
    running := others
    finished := st.finished ++ [t.done p]
    log := st.log ++ [⟨t.turn.walletId, p.processed, p.isOk⟩] }

end TickState

/-- A call of `tick`, by a supervisor that lets `permits` pages be polled at a time. -/
structure TickCall where
  network : String
  pageLimit : Nat
  permits : Nat

def TickCall.limit (c : TickCall) : Nat := max 1 (min c.pageLimit maxHorizonPageLimit)

inductive TickStep (c : TickCall) : TickState → TickState → Prop
  /-- A page of wallets is read. -/
  | fetch {st : TickState} (s : PollDb) (now : Time) (live : Uuid → Bool) :
      st.phase = .fetching → (∀ w ∈ s.db.wallets, w.id < uuidBound) →
      TickStep c st (st.fanOut c.limit
        (walletsDueForPollPage c.network now tiers s (some fanoutPageSize) st.afterId) live)
  /-- The store fails; what is in flight is still drained. -/
  | fetchError {st : TickState} (e : StoreError) :
      st.phase = .fetching → TickStep c st { st with phase := .draining (some e) }
  /-- There is room for the next page of wallets. -/
  | resume {st : TickState} :
      st.phase = .backpressure → st.tasks ≤ fanoutPageSize →
      TickStep c st { st with phase := .fetching }
  /-- `join_next` in one of the two loops. -/
  | join {st : TickState} {before after : List Joined} {j : Joined} :
      (st.phase = .backpressure ∧ fanoutPageSize < st.tasks) ∨ (∃ e, st.phase = .draining e) →
      st.finished = before ++ j :: after → TickStep c st (st.settle c.limit j (before ++ after))
  /-- The tasks are drained. -/
  | finish {st : TickState} {e : Option StoreError} :
      st.phase = .draining e → st.tasks = 0 →
      TickStep c st { st with phase := .returned (match e with
        | some e => .error e
        | none => .ok st.total) }
  /-- The semaphore grants a permit, first come first served. -/
  | acquire {st : TickState} {t : PageTask} {rest : List PageTask} :
      st.queue = t :: rest → st.running.length < c.permits →
      TickStep c st { st with queue := rest, running := st.running ++ [t] }
  /-- A page ends.  Horizon answers with at most as many records as it was asked for. -/
  | complete {st : TickState} {before after : List PageTask} {t : PageTask} (p : Polled) :
      st.running = before ++ t :: after → p.processed ≤ t.limit →
      TickStep c st (st.complete t p (before ++ after))

inductive TickRun (c : TickCall) : Nat → TickState → Prop
  | start : TickRun c 0 .start
  | step {k : Nat} {st st' : TickState} : TickRun c k st → TickStep c st st' → TickRun c (k + 1) st'

end Octo.Ingest
