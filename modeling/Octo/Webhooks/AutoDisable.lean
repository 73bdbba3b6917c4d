import Octo.Store.Models

/-!
# Auto-disabling a webhook endpoint

`crates/webhooks/src/lib.rs` sends real events, redeliveries and test pings, and records how a real
event ended on the row of the endpoint (`crates/store/src/webhooks.rs`).  Sends overlap in any way,
but only the one statement that records the outcome touches the row, and it is atomic: so a run is a
list of sends in the order of these statements, the newest first.
-/

namespace Octo.Webhooks

structure Endpoint where
  consecutiveDeadDeliveries : Int
  active : Bool
  autoDisabledAt : Option Time

def Endpoint.created : Endpoint := ⟨0, true, none⟩

/-- `Store::record_webhook_endpoint_outcome`: whether the endpoint was disabled, and the row.  The
statement fails when the streak is no longer an `INTEGER`. -/
def recordWebhookEndpointOutcome (ep : Endpoint) (dead : Bool) (autoDisableAfter : Option Int)
    (now : Time) : Option (Bool × Endpoint) :=
  if !dead then
    some (false,
      if ep.consecutiveDeadDeliveries ≠ 0 then { ep with consecutiveDeadDeliveries := 0 } else ep)
  else if ep.consecutiveDeadDeliveries + 1 > 2147483647 then none
  else
    let trips := autoDisableAfter.any (· ≤ ep.consecutiveDeadDeliveries + 1)
    some (trips && ep.active,
      { consecutiveDeadDeliveries := ep.consecutiveDeadDeliveries + 1
        active := if trips then false else ep.active
        autoDisabledAt := if trips && ep.active then some now else ep.autoDisabledAt })

inductive SendKind
  | event
  | ping

inductive Status
  | delivered
  | failed
  | dead
  deriving DecidableEq

/-- How the attempts end: `execute` returns, or the deadline passes. -/
inductive Attempts
  | ok
  | exhausted
  | circuit
  | deadline
  deriving DecidableEq

def deliverWithRetry (kind : SendKind) : Attempts → Status
  | .ok => .delivered
  | .exhausted | .circuit | .deadline =>
    match kind with
    | .event => .dead
    | .ping => .failed

inductive Path
  | dispatch
  | sendPing
  | redeliver
  deriving DecidableEq

def Path.kind : Path → SendKind
  | .dispatch | .redeliver => .event
  | .sendPing => .ping

/-- A send, with what it meets: whether the URL is safe, how the attempts end, and whether the store
can be reached. -/
structure Send where
  path : Path
  safeUrl : Bool
  attempts : Attempts
  storeAnswers : Bool
  now : Time

/-- `send`: the status it returns, what the store call reported, if it was made and succeeded, and
the row. -/
def send (autoDisableAfter : Option Int) (ep : Endpoint) (s : Send) :
    Status × Option Bool × Endpoint :=
  if !s.safeUrl then (.failed, none, ep)
  else
    let result := deliverWithRetry s.path.kind s.attempts
    match s.path.kind with
    | .ping => (result, none, ep)
    | .event =>
      if !s.storeAnswers then (result, none, ep)
      else match recordWebhookEndpointOutcome ep (result ≠ .delivered) autoDisableAfter s.now with
        | none => (result, none, ep)
        | some (disabled, ep') => (result, some disabled, ep')

/-- The row after the sends, from the creation of the endpoint on. -/
def run (threshold : Int) : List Send → Endpoint
  | [] => .created
  | s :: earlier => (send (some threshold) (run threshold earlier) s).2.2

/-! ### What is to be recorded -/

def deadStreak (recorded : List Bool) : Nat := (recorded.takeWhile id).length

/-- What a send adds to the recorded outcomes (whether each was dead, the newest first), by what it
meets: real events that are sent to a safe URL count, as far as the store can be reached and the
streak stays an `INTEGER`. -/
def record (recorded : List Bool) (s : Send) : List Bool :=
  if s.path = .sendPing ∨ s.safeUrl = false ∨ s.storeAnswers = false then recorded
  else if s.attempts = .ok then false :: recorded
  else if deadStreak recorded < 2147483647 then true :: recorded
  else recorded

def outcomes : List Send → List Bool
  | [] => []
  | s :: earlier => record (outcomes earlier) s

/-! ### One send -/

variable (n : Int) {ep : Endpoint} {recorded : List Bool}

/-- **What a send does to the row**: nothing, or it records that the event was delivered, or that it
is dead; and that is what the send has to record. -/
theorem send_cases (hstreak : ep.consecutiveDeadDeliveries = deadStreak recorded) (s : Send) :
    (record recorded s = recorded ∧ (send (some n) ep s).2 = (none, ep)) ∨
    (record recorded s = false :: recorded ∧
      (send (some n) ep s).2 = (some false, { ep with consecutiveDeadDeliveries := 0 })) ∨
    (record recorded s = true :: recorded ∧ ∃ at', (send (some n) ep s).2 =
      (some (decide (n ≤ ep.consecutiveDeadDeliveries + 1) && ep.active),
        ⟨ep.consecutiveDeadDeliveries + 1,
          if n ≤ ep.consecutiveDeadDeliveries + 1 then false else ep.active, at'⟩)) := by
  obtain ⟨path, safeUrl, attempts, storeAnswers, now⟩ := s
  unfold record send
  by_cases hping : path = .sendPing
  · subst hping
    cases safeUrl <;> exact .inl ⟨rfl, rfl⟩
  have hevent : path.kind = .event := by
    cases path with
    | sendPing => exact absurd rfl hping
    | _ => rfl
  simp only [hevent, hping]
  cases safeUrl with
  | false => exact .inl ⟨rfl, rfl⟩
  | true =>
    cases storeAnswers with
    | false => exact .inl ⟨rfl, rfl⟩
    | true =>
      cases attempts with
      | ok =>
        obtain ⟨streak, _, at'⟩ := ep
        by_cases hz : streak = 0 <;> simp [deliverWithRetry, recordWebhookEndpointOutcome, hz]
      | _ =>
        by_cases hroom : deadStreak recorded < 2147483647
        · have hfits : ¬ ep.consecutiveDeadDeliveries + 1 > 2147483647 := by omega
          exact .inr (.inr (by
            simp [deliverWithRetry, recordWebhookEndpointOutcome, hroom, hfits]))
        · have hover : ep.consecutiveDeadDeliveries + 1 > 2147483647 := by omega
          exact .inl (by simp [deliverWithRetry, recordWebhookEndpointOutcome, hroom, hover])

/-- A ping, or a send to an unsafe URL, touches nothing. -/
theorem send_eq_self (ep : Endpoint) {s : Send} (h : s.path = .sendPing ∨ s.safeUrl = false) :
    (send (some n) ep s).2.2 = ep := by
  rcases h with h | h
  · cases hs : s.safeUrl <;> simp [send, h, hs, Path.kind]
  · simp [send, h]

/-! ### Runs -/

theorem deadStreak_cons_true : deadStreak (true :: recorded) = deadStreak recorded + 1 := rfl

/-- **The stored streak is the dead streak.** -/
theorem streak_eq (sends : List Send) :
    (run n sends).consecutiveDeadDeliveries = deadStreak (outcomes sends) := by
  induction sends with
  | nil => rfl
  | cons s earlier ih =>
    rw [run, outcomes]
    rcases send_cases n ih s with ⟨hrec, h⟩ | ⟨hrec, h⟩ | ⟨hrec, now, h⟩
    · rw [h, hrec, ih]
    · rw [h, hrec]
      rfl
    · rw [h, hrec, deadStreak_cons_true, Int.natCast_succ, ← ih]

/-- **Auto-disable follows the dead streak.**  In every run of sends, redeliveries and pings: the
streak is the number of dead outcomes to be recorded since the last delivered one; an active
endpoint becomes inactive exactly at the dead outcome that brings the streak to the threshold, and
is never active again; pings and refused sends change nothing; and the store reports `true` for the
outcome that disabled the endpoint and for no other. -/
theorem auto_disable_follows_streak (earlier : List Send) (s : Send) :
    let before := run n earlier
    let after := run n (s :: earlier)
    before.consecutiveDeadDeliveries = deadStreak (outcomes earlier) ∧
    (before.active = true → (after.active = false ↔
      outcomes (s :: earlier) = true :: outcomes earlier ∧
        n ≤ deadStreak (outcomes (s :: earlier)))) ∧
    (before.active = false → after.active = false) ∧
    (s.path = .sendPing ∨ s.safeUrl = false → after = before) ∧
    ((send (some n) before s).2.1 = some true ↔ before.active = true ∧ after.active = false) := by
  have hstreak := streak_eq n earlier
  refine ⟨hstreak, ?_, ?_, send_eq_self n _, ?_⟩ <;> rw [run] <;> try rw [outcomes]
  all_goals rcases send_cases n hstreak s with ⟨hrec, h⟩ | ⟨hrec, h⟩ | ⟨hrec, now, h⟩ <;> rw [h]
  · simp [hrec]
  · simp [hrec]
  · intro hactive
    simp [hactive, hrec, hstreak, deadStreak_cons_true]
  · exact id
  · exact id
  · intro hactive
    simp [hactive]
  · simp
  · simp
  · cases (run n earlier).active <;> simp

def deadSend (path : Path) : Send := ⟨path, true, .exhausted, true, 0⟩

/-- With threshold 2, the second dead event disables the endpoint, and the ping between does not. -/
theorem second_dead_disables :
    (run 2 [deadSend .sendPing, deadSend .dispatch]).consecutiveDeadDeliveries = 1 ∧
    (run 2 [deadSend .redeliver, deadSend .sendPing, deadSend .dispatch]).active = false ∧
    (send (some 2) (run 2 [deadSend .sendPing, deadSend .dispatch]) (deadSend .redeliver)).2.1 =
      some true := by
  obtain ⟨hstreak, htrips, -, -, hreport⟩ :=
    auto_disable_follows_streak 2 [deadSend .sendPing, deadSend .dispatch] (deadSend .redeliver)
  have hoff := (htrips rfl).mpr ⟨rfl, by decide⟩
  exact ⟨hstreak, hoff, hreport.mpr ⟨rfl, hoff⟩⟩

end Octo.Webhooks
