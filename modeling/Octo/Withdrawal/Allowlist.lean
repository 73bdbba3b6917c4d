import Octo.Withdrawal.Alone

/-!
# What the withdrawal allowlist covers

With the allowlist on, every destination of a transaction handed to Horizon ought to be on it.  The
relay looks at one destination only, that of the first Payment, so

* for one allowlist, this holds exactly if all destinations are listed or the relay stops the
  transaction, which it does when the first Payment's destination is not listed;
* for all allowlists, it holds exactly if all payments go to the account of the first Payment.

Both are `allowlist_enforced_iff`; `allowlist_bypassed` is a transaction of two Payments.
-/

namespace Octo.Withdrawal

open Conc Octo.Api Resilience List

def OnAllowlist (out : Outside) (al : Allowlist) (walletId : Uuid) (d : MuxedAccount) : Prop :=
  al.isAddressWhitelisted walletId (out.strkey.publicKeyToString d.key.bytes) = true

def AllListed (out : Outside) (al : Allowlist) (walletId : Uuid) (xdr : String) : Prop :=
  ∀ v1, out.xdr.fromXdrBase64 xdr = some (.tx v1) → ∀ d ∈ destinations v1.tx,
    OnAllowlist out al walletId d

/-- Whatever a relay request for `xdr` hands to Horizon, in any run, pays only listed accounts. -/
def Enforced (out : Outside) (wallet : Wallet) (al : Allowlist) (xdr : String) : Prop :=
  ∀ c, Reachable (system out) (fun s => Initial s ∧ s.allowlist = al) c →
    ∀ i, c.world.jobs[i]? = some (.relay wallet xdr) → ∀ x ∈ c.world.trace i, ∀ y o,
      sent? x = some (.postTransactions y, o) → AllListed out al wallet.id y

/-- The relay accepts the transaction, and the destination of its first Payment is listed. -/
def LetThrough (out : Outside) (wallet : Wallet) (al : Allowlist) (xdr : String) : Prop :=
  ∃ payment hash v1, Accepted out wallet xdr payment hash ∧
    out.xdr.fromXdrBase64 xdr = some (.tx v1) ∧
    ∀ p, firstPayment v1.tx = some p → OnAllowlist out al wallet.id p.1

/-- All payments of an accepted transaction go to the account its first Payment goes to. -/
def OneDestination (out : Outside) (wallet : Wallet) (xdr : String) : Prop :=
  ∀ payment hash v1, Accepted out wallet xdr payment hash →
    out.xdr.fromXdrBase64 xdr = some (.tx v1) →
    ∀ d ∈ destinations v1.tx, ∃ p, firstPayment v1.tx = some p ∧ p.1.key = d.key

variable {out : Outside} {wallet : Wallet} {al : Allowlist} {xdr : String} {sk : Strkey}

theorem toBaseAccount_muxedToString (h : sk.Lawful) (d : MuxedAccount) :
    sk.toBaseAccount (muxedToString sk d) = some (sk.publicKeyToString d.key.bytes) := by
  cases d with
  | ed25519 k => exact Strkey.toBaseAccount_ofKey h k.length_eq
  | muxedEd25519 id k => exact Strkey.toBaseAccount_ofMuxed h k.length_eq id.toNat_lt

theorem publicKeyToString_inj (h : sk.Lawful) {k k' : Ed25519}
    (he : sk.publicKeyToString k.bytes = sk.publicKeyToString k'.bytes) : k = k' := by
  have hk := h.publicKey_roundTrip k.bytes k.length_eq
  rw [he, h.publicKey_roundTrip k'.bytes k'.length_eq] at hk
  obtain ⟨bytes, hlen⟩ := k
  cases Option.some.inj hk
  rfl

variable {c : Conf Job Op Ans State} {s s' : State} {ch : Choice} {w : Uuid} {i : Nat} {x : Act}

theorem allowlist_of_reach (hc : Reachable (system out) (fun s => Initial s ∧ s.allowlist = al) c) :
    c.world.db.allowlist = al := by
  obtain ⟨s, ⟨-, hs⟩, hg⟩ := (discipline out).above_init hc
  rw [hg.allowlist, hs]

theorem allowlist_of_trace (hc : Reachable (system out) (fun s => Initial s ∧ s.allowlist = al) c)
    (hx : x ∈ c.world.trace i) : x.pre.allowlist = al := by
  have hch := (discipline out).chained hc
  obtain ⟨ch, he⟩ := hch.executed _ (World.mem_trace.mp hx)
  have hpost := (hch.below_of_mem hx).allowlist
  rw [allowlist_of_reach hc] at hpost
  rw [← (exec_grows he).allowlist, ← hpost]

theorem exec_config {config : Option WithdrawalAllowlistConfig}
    (h : exec out (.getWithdrawalAllowlistConfig w) ch s = some (.ok config, s')) :
    s.allowlist.config w = config := by
  simp only [exec] at h
  split at h
  · obtain ⟨-, n, hn⟩ := storeRead_ok h
    exact Except.ok.inj hn
  · cases h

theorem exec_isAddressWhitelisted {a : String} {found : Bool}
    (h : exec out (.isAddressWhitelisted w a) ch s = some (.ok found, s')) :
    s.allowlist.isAddressWhitelisted w a = found := by
  simp only [exec] at h
  split at h
  · obtain ⟨-, n, hn⟩ := storeRead_ok h
    exact Except.ok.inj hn
  · cases h

/-- **What is handed to Horizon was let through.** -/
theorem letThrough_of_sent (hsk : out.strkey.Lawful) (hon : al.enabled wallet.id = true)
    (hc : Reachable (system out) (fun s => Initial s ∧ s.allowlist = al) c)
    (hj : c.world.jobs[i]? = some (.relay wallet xdr)) (hx : x ∈ c.world.trace i) {y : String}
    {o : HttpOutcome} (hs : sent? x = some (.postTransactions y, o)) :
    y = xdr ∧ LetThrough out wallet al xdr := by
  obtain ⟨s, s', rfl⟩ := sent?_eq_some hs
  obtain ⟨_, hsub, hy, -, payment, hash, ha, hclear⟩ :=
    (discipline out).allowed_before hc hj hx
  obtain ⟨v1, hdec, hsum⟩ := validateSignedXdr_ok ha.valid
  refine ⟨Request.postTransactions.inj hy, payment, hash, v1, ha, hdec, ?_⟩
  intro p hp
  rw [hp] at hsum
  obtain ⟨config, t1, t1', hm1, hlisted⟩ := hclear _ hsum
  have hch := (discipline out).chained hc
  -- the configuration that was read is the one of `al`, so the address was looked up, and in `al`
  obtain ⟨ch1, he1⟩ := exec_of_trace hch (hsub hm1)
  have hconfig := exec_config he1
  rw [allowlist_of_trace hc (hsub hm1)] at hconfig
  have hen : config.any (·.enabled) = true := by
    rw [← hconfig]
    exact hon
  obtain ⟨_, t2, t2', hbase, hm2⟩ := hlisted hen
  obtain ⟨ch2, he2⟩ := exec_of_trace hch (hsub hm2)
  have hfound := exec_isAddressWhitelisted he2
  rw [allowlist_of_trace hc (hsub hm2)] at hfound
  have hb := (toBaseAccount_muxedToString hsk p.1).symm.trans hbase
  rw [← Option.some.inj hb] at hfound
  exact hfound

/-- **What is let through is handed to Horizon**, in some run. -/
theorem exists_sent_of_letThrough (hsk : out.strkey.Lawful) (h : LetThrough out wallet al xdr) :
    ∃ c, Reachable (system out) (fun s => Initial s ∧ s.allowlist = al) c ∧
      c.world.jobs[0]? = some (.relay wallet xdr) ∧ ∃ x ∈ c.world.trace 0, ∃ o,
        sent? x = some (.postTransactions xdr, o) := by
  obtain ⟨payment, _, v1, ha, hdec, hfirst⟩ := h
  obtain ⟨v1', hdec', hsum⟩ := validateSignedXdr_ok ha.valid
  rw [hdec] at hdec'
  cases hdec'
  have hclear : ∀ p, payment = some p → (State.start al).allowlist.enabled wallet.id = true →
      ∃ base, out.strkey.toBaseAccount p.destination = some base ∧
        (State.start al).allowlist.isAddressWhitelisted wallet.id base = true := by
    intro p hp _
    rw [hsum] at hp
    obtain ⟨q, hq, rfl⟩ := Option.map_eq_some_iff.mp hp
    exact ⟨_, toBaseAccount_muxedToString hsk q.1, hfirst q hq⟩
  obtain ⟨tr, s', hr, hsent, -⟩ := exists_relay ha rfl hclear .transport
  have pool : ∃ c, Reachable (system out) (fun s => Initial s ∧ s.allowlist = al) c ∧
      c.world.jobs = [.relay wallet xdr] ∧ c.world.db = s' ∧ c.world.trace 0 = tr :=
    exists_reachable_of_runs ⟨State.start_initial al, rfl⟩ rfl hr
  obtain ⟨c, hc, hjobs, -, htr⟩ := pool
  obtain ⟨_, t, t', _, hmem, -⟩ := sent_eq_cons hsent
  refine ⟨c, hc, by rw [hjobs]; rfl,
    ⟨.horizon (.request (.postTransactions xdr)), .transport, t, t'⟩, ?_, .transport, rfl⟩
  rw [htr, hmem]
  exact mem_append_right _ mem_cons_self

theorem enforced_iff (hsk : out.strkey.Lawful) (hon : al.enabled wallet.id = true) :
    Enforced out wallet al xdr ↔
    (LetThrough out wallet al xdr → AllListed out al wallet.id xdr) := by
  constructor
  · intro h hlet
    obtain ⟨c, hc, hj, x, hx, o, hs⟩ := exists_sent_of_letThrough hsk hlet
    exact h c hc 0 hj x hx xdr o hs
  · intro h c hc i hj x hx y o hs
    obtain ⟨rfl, hlet⟩ := letThrough_of_sent hsk hon hc hj hx hs
    exact h hlet

theorem oneDestination_of_enforced (hsk : out.strkey.Lawful)
    (h : ∀ al : Allowlist, al.enabled wallet.id = true → Enforced out wallet al xdr) :
    OneDestination out wallet xdr := by
  intro payment hash v1 ha hdec d hd
  have try_list : ∀ addresses : List String,
      (∀ p, firstPayment v1.tx = some p → out.strkey.publicKeyToString p.1.key.bytes ∈ addresses) →
      out.strkey.publicKeyToString d.key.bytes ∈ addresses := by
    intro addresses hfirst
    have hon := Allowlist.ofAddresses_enabled wallet.id addresses
    have hlet : LetThrough out wallet (Allowlist.ofAddresses wallet.id addresses) xdr :=
      ⟨payment, hash, v1, ha, hdec, fun p hp => Allowlist.ofAddresses_isAddressWhitelisted.mpr
        (hfirst p hp)⟩
    have hall := (enforced_iff hsk hon).mp (h _ hon) hlet
    exact Allowlist.ofAddresses_isAddressWhitelisted.mp (hall v1 hdec d hd)
  cases hf : firstPayment v1.tx with
  | none =>
    have hmem := try_list [] (fun p hp => by rw [hf] at hp; cases hp)
    exact absurd hmem not_mem_nil
  | some p =>
    refine ⟨p, rfl, ?_⟩
    have hmem := try_list [out.strkey.publicKeyToString p.1.key.bytes] (by
      intro q hq
      rw [hf] at hq
      cases hq
      exact mem_singleton_self _)
    exact publicKeyToString_inj hsk (mem_singleton.mp hmem).symm

/-- **When the allowlist is enforced on every destination**: for one allowlist, exactly if the relay
stops the transaction or all its destinations are listed; for every allowlist, exactly if all
payments go to the account of the first Payment. -/
theorem allowlist_enforced_iff (out : Outside) (hsk : out.strkey.Lawful) (wallet : Wallet)
    (xdr : String) :
    (∀ al : Allowlist, al.enabled wallet.id = true →
      (Enforced out wallet al xdr ↔
        (LetThrough out wallet al xdr → AllListed out al wallet.id xdr))) ∧
    ((∀ al : Allowlist, al.enabled wallet.id = true → Enforced out wallet al xdr) ↔
      OneDestination out wallet xdr) := by
  refine ⟨fun al hon => enforced_iff hsk hon, oneDestination_of_enforced hsk, ?_⟩
  intro h al hon
  refine (enforced_iff hsk hon).mpr ?_
  rintro ⟨payment, hash, v1, ha, hdec, hfirst⟩ v1' hdec' d hd
  rw [hdec] at hdec'
  cases hdec'
  obtain ⟨p, hp, hkey⟩ := h payment hash v1 ha hdec d hd
  have hlisted := hfirst p hp
  unfold OnAllowlist at hlisted ⊢
  rw [← hkey]
  exact hlisted

/-! ### Two transactions of one account -/

def exampleAllowlist : Allowlist := .ofAddresses 1 [exampleAccountG 2]

theorem allowlist_bypassed : exampleAllowlist.enabled exampleWallet.id = true ∧
    ¬ Enforced (exampleOutside twoPayments) exampleWallet exampleAllowlist twoPayments.text := by
  have hon : exampleAllowlist.enabled exampleWallet.id = true := Allowlist.ofAddresses_enabled 1 _
  refine ⟨hon, fun henf => ?_⟩
  obtain ⟨payment, ha⟩ := exampleKnown_accepted twoPayments (by decide) rfl (by
    intro op hop
    rcases List.mem_cons.mp hop with rfl | hop
    · exact ⟨2, rfl⟩
    · exact ⟨3, List.mem_singleton.mp hop⟩)
  have hlet : LetThrough (exampleOutside twoPayments) exampleWallet exampleAllowlist
      twoPayments.text := by
    refine ⟨payment, _, _, ha, twoPayments.fromXdrBase64, fun p hp => ?_⟩
    cases hp
    exact Allowlist.ofAddresses_isAddressWhitelisted.mpr (List.mem_singleton_self _)
  have hall := (enforced_iff sep23_lawful hon).mp henf hlet _ twoPayments.fromXdrBase64
    (.ed25519 (exampleKey 3)) (List.mem_cons_of_mem _ List.mem_cons_self)
  have hmem := List.mem_singleton.mp (Allowlist.ofAddresses_isAddressWhitelisted.mp hall)
  have hkey := exampleKey_inj (publicKeyToString_inj sep23_lawful hmem)
  exact absurd hkey (by decide)

/-- A transaction of one Payment goes only to listed accounts, whatever the allowlist. -/
theorem allowlist_enforced_onePayment : sep23.Lawful ∧
    ∀ al : Allowlist, al.enabled exampleWallet.id = true →
      Enforced (exampleOutside onePayment) exampleWallet al onePayment.text := by
  refine ⟨sep23_lawful, ?_⟩
  refine (allowlist_enforced_iff (exampleOutside onePayment) sep23_lawful exampleWallet
    onePayment.text).2.mpr ?_
  intro payment hash v1 _ hdec d hd
  obtain ⟨-, henv⟩ := onePayment.fromXdrBase64_eq_some hdec
  cases henv
  have hd' : d = .ed25519 (exampleKey 2) := List.mem_singleton.mp hd
  exact ⟨(.ed25519 (exampleKey 2), .native, 100), rfl, by rw [hd']⟩

/-! ### What is submitted -/

/-- **A transaction is submitted by one request for it, once**: it was accepted for the wallet of
that request, its first payment was cleared before, and nothing else is sent, whatever the circuit
breaker and the retries do. -/
theorem submitted_by_relay {c : Conf Job Op Ans State} {init : State → Prop}
    (hc : Reachable (system out) init c) {i : Nat} {o : HttpOutcome}
    (hm : (.postTransactions xdr, o) ∈ sent (c.world.trace i)) :
    ∃ wallet payment hash, c.world.jobs[i]? = some (.relay wallet xdr) ∧
      sent (c.world.trace i) = [(.postTransactions xdr, o)] ∧ Accepted out wallet xdr payment hash ∧
      ∀ p, payment = some p → Cleared out wallet.id p (c.world.trace i) := by
  obtain ⟨x, hx, hs⟩ := List.mem_filterMap.mp hm
  obtain ⟨j, hj⟩ := reach_job_of_trace hc hx
  obtain ⟨later, _, htr⟩ := List.append_of_mem hx
  obtain ⟨s, s', rfl⟩ := sent?_eq_some hs
  have hL := (discipline out).allowed hc hj htr
  cases j with
  | reconcile => exact absurd rfl (hL.1 xdr)
  | relay wallet =>
    obtain ⟨hy, hfirst, payment, hash, ha, hclear⟩ := hL
    cases hy
    refine ⟨wallet, payment, hash, hj, ?_, ha,
      fun p hp => (hclear p hp).mono (fun _ => mem_of_before htr)⟩
    -- a request sent after this one would have found it in the trace
    have hlast : sent later = [] := by
      cases hlater : sent later with
      | nil => rfl
      | cons =>
        obtain ⟨_, t, t', _, rfl, -⟩ := sent_eq_cons hlater
        rw [List.append_assoc, List.cons_append] at htr
        have hnone := ((discipline out).allowed hc hj htr).2.1
        rw [sent_append, sent_cons] at hnone
        simp [hs] at hnone
    rw [htr, sent_append, sent_cons, hlast, hfirst]
    rfl

theorem onePayment_submitted : ∃ c o,
    Reachable (system (exampleOutside onePayment)) (fun s => Initial s ∧
      s.allowlist = exampleAllowlist) c ∧
    sent (c.world.trace 0) = [(.postTransactions onePayment.text, o)] := by
  obtain ⟨payment, ha⟩ := exampleKnown_accepted onePayment (by decide) rfl
    (fun op hop => ⟨2, List.mem_singleton.mp hop⟩)
  have hlet : LetThrough (exampleOutside onePayment) exampleWallet exampleAllowlist
      onePayment.text := by
    refine ⟨payment, _, _, ha, onePayment.fromXdrBase64, fun p hp => ?_⟩
    cases hp
    exact Allowlist.ofAddresses_isAddressWhitelisted.mpr (List.mem_singleton_self _)
  obtain ⟨c, hc, -, x, hx, o, hs⟩ := exists_sent_of_letThrough sep23_lawful hlet
  obtain ⟨-, -, -, -, hone, -⟩ := submitted_by_relay hc (List.mem_filterMap.mpr ⟨x, hx, hs⟩)
  exact ⟨c, o, hc, hone⟩

end Octo.Withdrawal
