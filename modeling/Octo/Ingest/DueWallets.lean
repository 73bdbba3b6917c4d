import Octo.Keyset.Pages
import Octo.Store.Ingest

/-!
# The wallets that are due

`wallets_due_for_poll_page` (`crates/store/src/wallets.rs`) selects the wallets to poll, in the
order of their ids.  A pass of the supervisor reads it page by page, while the polls it has started
write to the columns the query reads.  They write only for wallets that have been returned, and
these are behind the cursor.
-/

namespace Octo.Ingest

open Keyset List

/-- The tables of a pass; `network` and `ingestPaused` are columns of `wallets`. -/
structure PollDb where
  db : Db
  network : Uuid → String
  ingestPaused : Uuid → Bool
  unique : db.wallets.Pairwise (fun w w' => w.id ≠ w'.id)

structure Backoff where
  activeAfterSecs : Int
  idleIntervalSecs : Int
  dormantAfterSecs : Int
  dormantIntervalSecs : Int
  deriving DecidableEq

/-- `make_interval(secs => n)`, in microseconds. -/
def interval (secs : Int) : Int := secs * 1000000

/-- The row of `ingest_cursor` that the left join finds for a wallet. -/
def cursorRow (db : Db) (walletId : Uuid) : Option IngestCursor :=
  db.cursors.find? (fun c => c.walletId == walletId)

/-- The backoff filter at `now()`: never polled, or not polled for as long as the tier says. -/
def isDue (now : Time) (b : Backoff) : Option IngestCursor → Bool
  | none => true
  | some c =>
    match c.lastPolledAt with
    | none => true
    | some polled =>
      let wait :=
        if (now : Int) - interval b.activeAfterSecs < c.updatedAt then 0
        else if (c.updatedAt : Int) ≤ now - interval b.dormantAfterSecs
          then interval b.dormantIntervalSecs
        else interval b.idleIntervalSecs
      decide ((polled : Int) < now - wait)

section

variable (network : String) (now : Time) (b : Backoff)

def selected (s : PollDb) (w : Wallet) : Bool :=
  s.network w.id == network && !s.ingestPaused w.id && isDue now b (cursorRow s.db w.id)

def walletsDueForPollPage (s : PollDb) (limit : Option Nat) (afterId : Option Uuid) : List Wallet :=
  let rows := orderBy (·.id) (s.db.wallets.filter (fun w =>
    selected network now b s w && afterId.all (fun id => decide (id < w.id))))
  match limit with
  | some n => rows.take n
  | none => rows

def walletsDueForPoll (s : PollDb) : List Wallet := walletsDueForPollPage network now b s none none

def duePage (size : Nat) (s : PollDb) (afterId : Option Uuid) : List Wallet × Bool :=
  let page := walletsDueForPollPage network now b s (some size) afterId
  (page, !decide (page.length < size))

end

/-! ### The writes of a pass -/

/-- A write for a wallet that has been returned; the clock may be any other by then. -/
inductive Write (seen : List Wallet) : Db → Db → Prop
  | markPolled {db : Db} {w : Wallet} : w ∈ seen → Write seen db (db.markPolled w.id)
  | setCursor {db : Db} {w : Wallet} (token : String) : w ∈ seen →
      Write seen db (db.setCursor w.id token)
  | clock {db : Db} (now : Time) : Write seen db { db with now := now }

/-- What happens between two reads, when these wallets have been returned. -/
structure Between (seen : List Wallet) (s s' : PollDb) : Prop where
  writes : Relation.ReflTransGen (Write seen) s.db s'.db
  network : s'.network = s.network
  ingestPaused : s'.ingestPaused = s.ingestPaused

variable {seen : List Wallet} {db db' : Db}

theorem write_frame (h : Write seen db db') :
    db'.wallets = db.wallets ∧ ∀ id, (∀ w ∈ seen, w.id ≠ id) →
    cursorRow db' id = cursorRow db id := by
  have hupsert : ∀ w f (i : IngestCursor), i.walletId = w → (∀ c, (f c).walletId = c.walletId) →
      (db.upsertCursor w i f).wallets = db.wallets ∧
        ∀ id, w ≠ id → cursorRow (db.upsertCursor w i f) id = cursorRow db id := by
    intro w f i hi hf
    refine ⟨?_, fun id hne => ?_⟩
    · unfold Db.upsertCursor
      split <;> rfl
    · rw [cursorRow, Db.find?_upsertCursor db hi hf, if_neg (Ne.symm hne)]
      rfl
  cases h with
  | @markPolled w hw =>
    obtain ⟨hwallets, hrows⟩ := hupsert w.id (fun c => { c with lastPolledAt := some db.now })
      ⟨w.id, none, 0, some db.now⟩ rfl (fun _ => rfl)
    exact ⟨hwallets, fun id hid => hrows id (hid w hw)⟩
  | @setCursor w token hw =>
    obtain ⟨hwallets, hrows⟩ :=
      hupsert w.id (fun c => { c with pagingToken := some token, updatedAt := db.now })
      ⟨w.id, some token, db.now, none⟩ rfl (fun _ => rfl)
    exact ⟨hwallets, fun id hid => hrows id (hid w hw)⟩
  | clock => exact ⟨rfl, fun _ _ => rfl⟩

theorem writes_frame (h : Relation.ReflTransGen (Write seen) db db') :
    db'.wallets = db.wallets ∧ ∀ id, (∀ w ∈ seen, w.id ≠ id) →
    cursorRow db' id = cursorRow db id := by
  induction h with
  | refl => exact ⟨rfl, fun _ _ => rfl⟩
  | tail _ hstep ih =>
    obtain ⟨hwallets, hrows⟩ := write_frame hstep
    exact ⟨hwallets.trans ih.1, fun id hid => (hrows id hid).trans (ih.2 id hid)⟩

/-! ### The pages of a pass -/

section

variable {network : String} {now : Time} {b : Backoff} {size n : Nat} {s : Nat → PollDb}

theorem walletsDueForPollPage_eq (s : PollDb) (afterId : Option Uuid) :
    walletsDueForPollPage network now b s none afterId =
      (walletsDueForPoll network now b s).filter (beyond (·.id) afterId) := by
  have hall : walletsDueForPoll network now b s = orderBy (·.id)
      (s.db.wallets.filter (selected network now b s)) := by
    simp [walletsDueForPoll, walletsDueForPollPage]
  rw [hall, filter_orderBy (s.unique.filter _), filter_filter]
  simp only [walletsDueForPollPage, beyond, Bool.and_comm]

theorem mem_walletsDueForPoll {s : PollDb} {w : Wallet}
    (h : w ∈ walletsDueForPoll network now b s) : w ∈ s.db.wallets := by
  exact (mem_filter.mp (mem_orderBy.mp h)).1

theorem cursor_eq_bound (n : Nat) :
    cursor (·.id) (duePage network now b size) s n = bound (·.id) (·.id)
      (duePage network now b size) s n := by
  cases n <;> rfl

theorem page_eq (n : Nat) : page (·.id) (duePage network now b size) s n =
      (rest (·.id) (·.id) (duePage network now b size) s (walletsDueForPoll network now b) n).take
        size := by
  show (walletsDueForPollPage network now b (s n) none (cursor _ _ s n)).take size = _
  rw [walletsDueForPollPage_eq, cursor_eq_bound]
  rfl

/-- **A pass is keyset pagination** in the order of the ids. -/
theorem serves_duePage (hsize : 1 ≤ size) :
    Serves (·.id) (·.id) (duePage network now b size) s (walletsDueForPoll network now b) := by
  have hmore : ∀ n, more (·.id) (duePage network now b size) s n =
      !decide ((page (·.id) (duePage network now b size) s n).length < size) := fun _ => rfl
  refine ⟨fun n => ?_, fun n _ => ?_, fun n _ hlast => ?_, fun n _ hnext => ?_⟩
  · exact orderBy_sorted ((s n).unique.filter _)
  · rw [page_eq]
    exact take_prefix _ _
  · rw [hmore, Bool.not_eq_false', decide_eq_true_eq, page_eq, length_take] at hlast
    rw [page_eq, take_of_length_le (by omega)]
  · rw [hmore, Bool.not_eq_true', decide_eq_false_iff_not] at hnext
    intro hnil
    rw [hnil] at hnext
    exact hnext hsize

variable
  (hbetween : ∀ n, Between (returned (·.id) (duePage network now b size) s (n + 1)) (s n)
    (s (n + 1)))

include hbetween

theorem wallets_eq (n : Nat) : (s n).db.wallets = (s 0).db.wallets := by
  induction n with
  | zero => rfl
  | succ n ih => exact (writes_frame (hbetween n).writes).1.trans ih

theorem filter_beyond_eq (hsize : 1 ≤ size)
    (hn : Reached (·.id) (duePage network now b size) s (n + 1)) :
    (walletsDueForPoll network now b (s (n + 1))).filter
        (beyond (·.id) (bound (·.id) (·.id) (duePage network now b size) s (n + 1))) =
      (walletsDueForPoll network now b (s n)).filter
        (beyond (·.id) (bound (·.id) (·.id) (duePage network now b size) s (n + 1))) := by
  obtain ⟨hwallets, hrows⟩ := writes_frame (hbetween n).writes
  rw [← walletsDueForPollPage_eq, ← walletsDueForPollPage_eq]
  simp only [walletsDueForPollPage, hwallets]
  congr 1
  refine filter_congr (fun w _ => ?_)
  cases hafter : (bound (·.id) (·.id) (duePage network now b size) s (n + 1)).all
    (fun id => decide (id < w.id)) with
  | false => rw [Bool.and_false, Bool.and_false]
  | true =>
    -- a wallet beyond the cursor has not been returned
    have hnew : ∀ v ∈ returned (·.id) (duePage network now b size) s (n + 1), v.id ≠ w.id := by
      intro v hv heq
      obtain ⟨k, hk, hle⟩ := (serves_duePage hsize).le_bound hn hv
      have hlt : k < w.id := by simpa [hk] using hafter
      exact absurd hlt (Nat.not_lt.mpr (heq ▸ hle))
    rw [selected, selected, (hbetween n).network, (hbetween n).ingestPaused, hrows w.id hnew]

/-- **The paged selection is the unpaged one.**  The pass ends, and its pages are the wallets that
were due when it began, each once and in the order of their ids. -/
theorem paged_eq_unpaged (hsize : 1 ≤ size) :
    ∃ N, EndsAt (·.id) (duePage network now b size) s N ∧
      returned (·.id) (duePage network now b size) s (N + 1) = walletsDueForPoll network now b
        (s 0) ∧
      (returned (·.id) (duePage network now b size) s (N + 1)).Pairwise
        (fun w w' => w.id < w'.id) := by
  have hs : Serves (·.id) (·.id) (duePage network now b size) s (walletsDueForPoll network now b) :=
    serves_duePage hsize
  have hfinite := List.finite_toSet ((s 0).db.wallets.map (·.id))
  obtain ⟨N, hN⟩ := hs.exists_endsAt hfinite.wellFoundedOn
    (fun n w hw => List.mem_map_of_mem (wallets_eq hbetween n ▸ mem_walletsDueForPoll hw))
  refine ⟨N, hN, hs.returned_eq hN (fun n hn => ?_), hs.returned_sorted hN.1⟩
  exact filter_beyond_eq hbetween hsize (hN.1.of_le hn)

end

def exampleWallet (id : Uuid) : Wallet := ⟨id, "G", 1, none⟩

def exampleStart : PollDb where
  db := ⟨5, 3, [exampleWallet 1, exampleWallet 2], [], [], [], [], []⟩
  network := fun _ => "testnet"
  ingestPaused := fun _ => false
  unique := by decide

/-- A pass in which the first wallet is polled before the second page is read. -/
def examplePass : Nat → PollDb
  | 0 => exampleStart
  | _ + 1 => { exampleStart with db := exampleStart.db.markPolled 1, unique := exampleStart.unique }

theorem examplePass_between (n : Nat) :
    Between (returned (·.id) (duePage "testnet" 5 ⟨0, 0, 0, 0⟩ 1) examplePass (n + 1))
      (examplePass n) (examplePass (n + 1)) := by
  cases n with
  | zero =>
    exact ⟨.single (.markPolled mem_cons_self), rfl, rfl⟩
  | succ => exact ⟨.refl, rfl, rfl⟩

/-- Both wallets are returned. -/
theorem examplePass_complete :
    ∃ N, returned (·.id) (duePage "testnet" 5 ⟨0, 0, 0, 0⟩ 1) examplePass (N + 1) =
      [exampleWallet 1, exampleWallet 2] := by
  obtain ⟨N, -, hall, -⟩ := paged_eq_unpaged examplePass_between Nat.one_pos
  exact ⟨N, hall.trans (by decide)⟩

end Octo.Ingest
