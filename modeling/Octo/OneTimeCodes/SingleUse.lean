import Octo.OneTimeCodes.System

/-!
# A code authorises one transaction
-/

namespace Octo.OneTimeCodes

open Conc Octo.Api List

variable {out : Outside} {c : Conf}

/-! ### Used once -/

variable {id : Uuid} {i : Nat} {ch : Choice} {w : World} {α : Type} {p : α → Prop} {o : Op}
  {a : Ans o}

theorem not_used_again {s s' t t' : State} {ch ch' : Choice}
    (h : exec out (.consumeOtp id) ch s = some (.ok true, s')) (hg : Grows s' t)
    (h' : exec out (.consumeOtp id) ch' t = some (.ok true, t')) : False := by
  obtain ⟨hused, hs'⟩ := exec_consume h
  obtain ⟨r0, hr0, hid0, -⟩ := OtpTable.consumeOtp_true hused
  obtain ⟨r', hr', hid', hnone⟩ := OtpTable.consumeOtp_true (exec_consume h').1
  have hlt : r'.id < s'.otps.nextId := by
    rw [hid', ← hid0, hs']
    exact s.otps.ids_lt r0 hr0
  obtain ⟨r, hr, hid, -, hkept⟩ := hg.rows r' hr' hlt
  rw [hs'] at hr
  have hsome := hkept (OtpTable.consumed_of_consumeOtp hr (hid.trans hid'))
  rw [hnone] at hsome
  cases hsome

theorem used_once (hc : Reachable (system out) AnyState c) {i i' : Nat}
    (h : UsedUp id (c.world.trace i)) (h' : UsedUp id (c.world.trace i')) : i = i' := by
  have hch := (discipline out).chained hc
  obtain ⟨s, s', hm⟩ := h
  obtain ⟨t, t', hm'⟩ := h'
  obtain ⟨ch, he⟩ : ∃ ch, exec out (.consumeOtp id) ch s = some (.ok true, s') := hch.exec_of_mem hm
  obtain ⟨ch', he'⟩ : ∃ ch, exec out (.consumeOtp id) ch t = some (.ok true, t') :=
    hch.exec_of_mem hm'
  rcases hch.comparable (World.mem_trace.mp hm) (World.mem_trace.mp hm') with heq | hlt | hlt
  · exact congrArg Event.tid heq
  · exact (not_used_again he hlt he').elim
  · exact (not_used_again he' hlt he).elim

/-! ### Compared five times at most -/

def isComparison (id : Uuid) (x : Act) : Bool :=
  match x with
  | ⟨.claimAttempt _ _, .ok (some (otpId, _, _)), _, _⟩ => otpId == id
  | _ => false

def comparisons (w : World) (id : Uuid) : Nat := w.hist.countP (fun e => isComparison id e.act)

def AttemptsCount (w : World) : Prop :=
  ∀ id, comparisons w id ≤ OtpTable.maxAttempts ∧ (w.db.otps.nextId ≤ id → comparisons w id = 0) ∧
    ∀ r ∈ w.db.otps.rows, r.id = id → comparisons w id ≤ r.attempts

theorem exec_comparison {s s' : State}
    (he : exec out o ch s = some (a, s')) (h : isComparison id ⟨o, a, s, s'⟩ = true) :
    ∃ r ∈ s.otps.rows, r.id = id ∧ r.attempts < OtpTable.maxAttempts ∧
      s'.otps.nextId = s.otps.nextId ∧
      ∀ r' ∈ s'.otps.rows, r'.id = id → r'.attempts = r.attempts + 1 := by
  unfold isComparison at h
  split at h
  · rename_i otpId hash bound _ _ heq
    cases heq
    obtain rfl : otpId = id := by simpa using h
    obtain ⟨r, hr, -, -, hlive, rfl, -, -, hs'⟩ := exec_claim he
    simp only [OtpTable.isLive, Bool.and_eq_true, decide_eq_true_eq] at hlive
    refine ⟨r, hr, rfl, hlive.1.2, by rw [hs']; rfl, ?_⟩
    intro r' hr' hid
    rw [hs'] at hr'
    obtain ⟨r0, hr0, -, ⟨-, rfl⟩ | ⟨hp, rfl⟩⟩ := OtpTable.mem_update hr'
    · rw [OtpTable.eq_of_id hr0 hr hid]
    · simp [hid] at hp
  · cases h

theorem AttemptsCount.exec {s : State} (h : AttemptsCount w)
    (he : exec out o ch w.db = some (a, s)) : AttemptsCount (w.record i o a s) := by
  intro id
  obtain ⟨hmax, hfresh, hrows⟩ := h id
  have hg := exec_grows he
  by_cases hcmp : isComparison id ⟨o, a, w.db, s⟩ = true
  · have hcount : comparisons (w.record i o a s) id = comparisons w id + 1 := by
      simp [comparisons, hcmp]
    obtain ⟨r, hr, hid, hlt, hnext, hnew⟩ := exec_comparison he hcmp
    have hle := hrows r hr hid
    rw [hcount]
    refine ⟨by omega, ?_, ?_⟩
    · intro hfreshId
      have hrlt := w.db.otps.ids_lt r hr
      rw [World.record_db, hnext] at hfreshId
      exact absurd (Nat.lt_of_lt_of_le hrlt hfreshId) (by rw [hid]; exact Nat.lt_irrefl _)
    · intro r' hr' hid'
      rw [hnew r' hr' hid']
      omega
  · have hcount : comparisons (w.record i o a s) id = comparisons w id := by
      simp [comparisons, hcmp]
    rw [hcount]
    refine ⟨hmax, fun hle => hfresh (Nat.le_trans hg.nextId hle), ?_⟩
    intro r' hr' hid'
    by_cases hlt : r'.id < w.db.otps.nextId
    · obtain ⟨r, hr, hid, ha, -⟩ := hg.rows r' hr' hlt
      exact Nat.le_trans (hrows r hr (hid.trans hid')) ha
    · rw [hfresh (by rw [← hid']; exact Nat.not_lt.mp hlt)]
      exact Nat.zero_le _

theorem compared_reach (hc : Reachable (system out) AnyState c) : AttemptsCount c.world := by
  refine (discipline out).invariant ?_ ?_ ?_ ?_ hc
  · intro s _ id
    exact ⟨Nat.zero_le _, fun _ => rfl, fun _ _ _ => Nat.zero_le _⟩
  · exact fun w j hI _ _ => hI
  · intro w i j o ch a s hI _ _ _ he _
    exact hI.exec he
  · intro w e s hI he _ id
    obtain ⟨r, -, rfl⟩ := Option.map_eq_some_iff.mp he
    exact hI id

/-! ### Codes and transactions -/

def HandsOver (w : World) (i : Nat) : Prop := ∃ x ∈ w.trace i, ∃ o, x.op = .relay o

theorem exists_last {l : List α} (h : ∃ x ∈ l, p x) :
    ∃ front x rest, l = front ++ x :: rest ∧ p x ∧ ∀ y ∈ rest, ¬ p y := by
  induction l with
  | nil =>
    obtain ⟨x, hx, -⟩ := h
    exact absurd hx not_mem_nil
  | cons a l ih =>
    by_cases hl : ∃ x ∈ l, p x
    · obtain ⟨front, x, rest, rfl, hx, hrest⟩ := ih hl
      exact ⟨a :: front, x, rest, rfl, hx, hrest⟩
    · obtain ⟨x, hx, hpx⟩ := h
      rcases mem_cons.mp hx with rfl | hx
      · exact ⟨[], x, l, rfl, hpx, fun y hy hpy => hl ⟨y, hy, hpy⟩⟩
      · exact absurd ⟨x, hx, hpx⟩ hl

theorem rest_subset {front front' rest rest' : List α} {x x' : α}
    (h : front ++ x :: rest = front' ++ x' :: rest') (hx' : p x') (hrest : ∀ y ∈ rest, ¬ p y) :
    rest ⊆ rest' := by
  rcases append_eq_append_iff.mp h with ⟨mid, -, hmid⟩ | ⟨mid, -, hmid⟩
  · cases mid with
    | nil =>
      rw [(cons.inj hmid).2]
      exact List.Subset.refl _
    | cons =>
      refine absurd hx' (hrest x' ?_)
      exact mem_of_split (cons.inj hmid).2
  · cases mid with
    | nil =>
      rw [(cons.inj hmid).2]
      exact List.Subset.refl _
    | cons =>
      rw [(cons.inj hmid).2]
      exact fun z hz => mem_append_right _ (mem_cons_of_mem _ hz)

/-- The call `o` of the relay is made for the transaction of the request, which the code `r` has
authorised. -/
def Serves (out : Outside) (req : WithdrawRequest) (r : Otp) (before : List Act)
    (o : Withdrawal.Op) : Prop :=
  Authorised out req r before ∧ ∃ xdr, req.transactionXdr = some xdr ∧ Carries out.relay xdr o

/-- A thread that has handed over its transaction runs a confirmation, and one code authorised it
before all calls of its relay. -/
theorem serves_of_handsOver (hc : Reachable (system out) AnyState c) (h : HandsOver c.world i) :
    ∃ r walletId req, c.world.jobs[i]? = some (.withdrawConfirm walletId req) ∧
      ∀ later x before o, c.world.trace i = later ++ x :: before → x.op = .relay o →
        Serves out req r before o := by
  obtain ⟨_, x, _, htr, ⟨o, ho⟩, hfirst⟩ :=
    exists_last h
  have hmem : x ∈ c.world.trace i := mem_of_split htr
  obtain ⟨j, hj⟩ := reach_job_of_trace hc hmem
  have hL := (discipline out).allowed hc hj htr
  rw [ho] at hL
  cases j with
  | withdrawConfirm walletId req =>
    obtain ⟨⟨r, hr⟩, -⟩ := hL
    refine ⟨r, walletId, req, hj, ?_⟩
    intro later' x' before' o' htr' ho'
    have hL' := (discipline out).allowed hc hj htr'
    rw [ho'] at hL'
    exact ⟨hr.mono (rest_subset (htr.symm.trans htr') ⟨o', ho'⟩ hfirst), hL'.2⟩
  | _ => exact hL.elim

/-- **Withdrawal codes authorise exactly one transaction each.**  In whatever order requests for
codes, confirmations and other uses of codes make their calls: the transactions that confirmations
hand to the relay go with different codes, where each was issued to the user for withdrawals and for
that transaction, was live when the attempt was counted and was used up before the relay made its
first call; the relay submits that transaction and no other; and no code is ever compared with more
than five submitted codes. -/
theorem codes_authorise_once (hc : Reachable (system out) AnyState c) :
    (∃ row : Nat → Otp,
      (∀ i, HandsOver c.world i →
        ∃ walletId req, c.world.jobs[i]? = some (.withdrawConfirm walletId req) ∧
          ∀ later x before o, c.world.trace i = later ++ x :: before → x.op = .relay o →
            Serves out req (row i) before o) ∧
      ∀ i i', HandsOver c.world i → HandsOver c.world i' → (row i).id = (row i').id → i = i') ∧
    ∀ id, comparisons c.world id ≤ 5 := by
  have hrow : ∀ i, ∃ r : Otp, HandsOver c.world i →
      ∃ walletId req, c.world.jobs[i]? = some (.withdrawConfirm walletId req) ∧
        ∀ later x before o, c.world.trace i = later ++ x :: before → x.op = .relay o →
          Serves out req r before o := by
    intro i
    by_cases hi : HandsOver c.world i
    · obtain ⟨r, hr⟩ := serves_of_handsOver hc hi
      exact ⟨r, fun _ => hr⟩
    · exact ⟨⟨0, 0, .signup, "", none, 0, none, 0, 0⟩, fun h => absurd h hi⟩
  obtain ⟨row, hrow⟩ := Classical.axiomOfChoice hrow
  have hused : ∀ i, HandsOver c.world i → UsedUp (row i).id (c.world.trace i) := by
    intro i hi
    obtain ⟨_, req, -, hserves⟩ := hrow i hi
    obtain ⟨x, hx, o, ho⟩ := hi
    obtain ⟨later, before, htr⟩ := List.append_of_mem hx
    obtain ⟨⟨_, xdr, _, _, -, -, -, -, -, -, -, s, s', hm⟩, -⟩ :=
      hserves later x before o htr ho
    refine ⟨s, s', ?_⟩
    exact mem_of_before htr hm
  refine ⟨⟨row, hrow, ?_⟩, fun id => (compared_reach hc id).1⟩
  intro i i' hi hi' hid
  have h' := hused i' hi'
  rw [← hid] at h'
  exact used_once hc (hused i hi) h'

/-! ### An example -/

/-- Addresses are not looked into: every one is that of the payer's key. -/
def oneKey : Strkey :=
  ⟨fun _ => "GDEST", fun _ => some (exampleKey 1).bytes, fun _ _ => "MDEST", fun _ => none⟩

def oneEnvelope : Xdr where
  fromXdrBase64 _ := some (.tx onePayment.envelope)
  base64Decode _ := some [2]
  fromXdr _ := some (.tx onePayment.envelope)
  xdrBytes _ := some [2]
  payloadHash _ := some onePayment.hash
  fromUtf8Lossy _ := []

def exampleOut : Outside :=
  ⟨⟨oneKey, oneEnvelope, ⟨3, fun _ => none⟩, fun _ => none⟩, fun code => "sha256 " ++ code⟩

def exampleConfirm : WithdrawRequest := ⟨some "AAAAAg==", some "042817"⟩

def exampleUser : Auth.User := ⟨7, "owner@example.com", "hash", 0, none, none⟩

def exampleState : State where
  otps := ⟨[], 0, List.nodup_nil, fun _ hr => nomatch hr⟩
  relay := ⟨⟨0, 0, [], [], [], [], [], []⟩, .ofAddresses 1 ["GDEST"], ⟨.closed, 0, 5, 30⟩, [], 0⟩

/-- A request of the user for the wallet: the calls that both endpoints make first. -/
def ownMoves (i : Nat) : List (Move Job Choice Withdrawal.Env) :=
  [.call i (.login (.ok 7)), .call i (.wallet (.ok ⟨⟨1, "GOWNER", 1, none⟩, some 7⟩)),
    .call i (.user (.ok (some exampleUser)))]

def served : Choice := .store (.served 0)

def confirmMoves : List (Move Job Choice Withdrawal.Env) :=
  [.start (.withdrawRequestOtp 1 ⟨some "AAAAAg==", none⟩)] ++ ownMoves 0 ++
    [.call 0 (.code "042817"), .call 0 served, .call 0 (.sent true),
      .start (.withdrawConfirm 1 exampleConfirm)] ++ ownMoves 1 ++
    [.call 1 served, .call 1 served] ++ List.replicate 3 (.call 1 (.relay (.store (.served 0)))) ++
    List.replicate 2 (.call 1 (.relay (.http .transport)))

def submits (xdr : String) (x : Act) : Bool :=
  match x.op with
  | .relay (.horizon (.request (.postTransactions y))) => y == xdr
  | _ => false

theorem op_of_submits {xdr : String} {x : Act} (h : submits xdr x = true) :
    x.op = .relay (.horizon (.request (.postTransactions xdr))) := by
  unfold submits at h
  split at h
  · rename_i hy
    rw [hy, eq_of_beq h]
  · cases h

/-- The code for `AAAAAg==` is used up before `AAAAAg==` is submitted. -/
theorem code_confirms_payment : ∃ c : Conf, Reachable (system exampleOut) AnyState c ∧
    (∃ x ∈ c.world.trace 1, x.op = .relay (.horizon (.request (.postTransactions "AAAAAg==")))) ∧
    (∃ r : Otp, r.codeHash = "sha256 042817" ∧ r.txHashBound = exampleOut.relay.txHash "AAAAAg==" ∧
      UsedUp r.id (c.world.trace 1)) ∧ comparisons c.world 0 ≤ 5 := by
  obtain ⟨c, hc, ⟨x, hx, hsub⟩, hjob⟩ := exists_reachable_of_runMoves (S := system exampleOut)
    (show AnyState exampleState from trivial) confirmMoves
    (p := fun c => (∃ x ∈ c.world.trace 1, submits "AAAAAg==" x) ∧
      c.world.jobs[1]? = some (.withdrawConfirm 1 exampleConfirm)) (by decide +kernel)
  have ho := op_of_submits hsub
  obtain ⟨⟨row, hrow, -⟩, hfive⟩ := codes_authorise_once hc
  obtain ⟨_, req, hj, hserves⟩ := hrow 1 ⟨x, hx, _, ho⟩
  rw [hjob] at hj
  cases hj
  obtain ⟨later, before, htr⟩ := List.append_of_mem hx
  obtain ⟨⟨_, xdr, _, _, -, hxdr, hcode, hhash, hcodeHash, hbound, -, s, s', hused⟩,
    -⟩ :=
    hserves later x before _ htr ho
  cases hcode
  cases hxdr
  refine ⟨c, hc, ⟨x, hx, ho⟩, ⟨row 1, hcodeHash, hbound.trans hhash.symm, s, s', ?_⟩, hfive 0⟩
  exact mem_of_before htr hused

end Octo.OneTimeCodes
