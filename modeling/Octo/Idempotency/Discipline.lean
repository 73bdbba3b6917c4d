import Octo.Idempotency.Keys

/-!
# What requests with a key do

A request claims its key first.  After the claim it creates at most one link, completes the key with
a link that it created, and releases the key only when it has created none.
-/

namespace Octo.Idempotency

open Conc Octo.Api List

/-! ### What a call did -/

/-- The request hash with which the call claimed the key. -/
def claimedHash (k : KeyId) (x : Act) : Option String :=
  match x with
  | ⟨.claim k' hash, .ok true, _, _⟩ => if k' = k then some hash else none
  | _ => none

def releases (k : KeyId) (x : Act) : Bool :=
  match x with
  | ⟨.release k', .ok _, _, _⟩ => decide (k' = k)
  | _ => false

/-- The row of the key that the call read. -/
def selected (k : KeyId) (x : Act) : Option KeyRow :=
  match x with
  | ⟨.select k', .ok r, _, _⟩ => if k' = k then some r else none
  | _ => none

def createdLink (x : Act) : Option PaymentLink :=
  match x with
  | ⟨.db (.createPaymentLink _), .ok l, _, _⟩ => some l
  | _ => none

def Claimed (k : KeyId) (hash : String) (tr : List Act) : Prop :=
  ∃ x ∈ tr, claimedHash k x = some hash

def Creates (l : PaymentLink) (tr : List Act) : Prop := ∃ x ∈ tr, createdLink x = some l

def Selected (k : KeyId) (r : KeyRow) (tr : List Act) : Prop := ∃ x ∈ tr, selected k x = some r

def NoRelease (tr : List Act) : Prop := ∀ x ∈ tr, ∀ k, x.op ≠ .release k

/-! ### What requests do -/

/-- The key a request claims: that of its wallet, scope and header. -/
def Job.keyId : Job → Option KeyId
  | .createPaymentLink walletId (some key) _ _ => some ⟨walletId, createLinkScope, key⟩
  | _ => none

def Job.body : Job → Option String
  | .createPaymentLink _ _ body _ => some body
  | .purge => none

/-- When a request `j` that has made the calls `tr` may make a call. -/
def Allowed (out : Outside) (j : Job) (tr : List Act) : Op → Prop
  | .claim k hash => j.keyId = some k ∧ j.body.map out.sha256 = some hash
  | .complete k _ l => (∃ hash, Claimed k hash tr) ∧ NoRelease tr ∧ Creates l tr
  | .release k => (∃ hash, Claimed k hash tr) ∧ NoRelease tr ∧ ∀ l, ¬ Creates l tr
  | .db o => ∀ n, o = .createPaymentLink n →
      (∀ l, ¬ Creates l tr) ∧ ∀ k, j.keyId = some k → (∃ hash, Claimed k hash tr) ∧ NoRelease tr
  | .respond (.created l) => Creates l tr
  | .respond (.replayed _ l) => ∃ k r, j.keyId = some k ∧ Selected k r tr ∧
      j.body.map out.sha256 = some r.requestHash ∧ r.response = some l
  | .respond (.error _) | .select _ | .purge => True

def NoLink (as : List (Sigma Ingest.Ans)) : Prop := ∀ y ∈ as, ∀ n, y.1 ≠ .createPaymentLink n

def OneLink (as : List (Sigma Ingest.Ans)) (o : Ingest.Op) : Prop :=
  ∀ n, o = .createPaymentLink n → NoLink as

/-- A returned link was created by one of the calls; on an error, none was. -/
def LinkMade (r : Except ApiError PaymentLink) (as : List (Sigma Ingest.Ans)) : Prop :=
  match r with
  | .ok l => ∃ n, (⟨.createPaymentLink n, .ok l⟩ : Sigma Ingest.Ans) ∈ as
  | .error _ => ∀ n l, (⟨.createPaymentLink n, .ok l⟩ : Sigma Ingest.Ans) ∉ as

variable {as : List (Sigma Ingest.Ans)} {α : Type} {more : List Act} {k : KeyId}
  {body slug : String} {o : Ingest.Op}

theorem linkMade_error (h : NoLink as) (e : ApiError) : LinkMade (.error e) as :=
  fun n _ hm => h _ hm n rfl

theorem NoLink.cons (h : NoLink as) (ho : ∀ n, o ≠ .createPaymentLink n) (a : Ingest.Ans o) :
    NoLink (⟨o, a⟩ :: as) := by
  intro y hy n
  rcases mem_cons.mp hy with rfl | hy
  · exact ho n
  · exact h y hy n

/-- Code that creates no link. -/
abbrev Prepares {α : Type} (p : PaymentLinks.ApiM α) (as : List (Sigma Ingest.Ans)) : Prop :=
  p.run.Ends OneLink (fun _ as' => NoLink as') as

theorem Prepares.bind {p : PaymentLinks.ApiM α} {f : α → PaymentLinks.ApiM PaymentLink}
    (h : Prepares p as) (hf : ∀ a as', NoLink as' → (f a).run.Ends OneLink LinkMade as') :
    (p >>= f).run.Ends OneLink LinkMade as := by
  refine ends_bind (Prog.Ends.imp h ?_)
  intro r as' hno
  cases r with
  | ok a => exact hf a as' hno
  | error e => exact linkMade_error hno e

theorem prepares_orFail {r : Except ApiError α} (h : NoLink as) :
    Prepares (PaymentLinks.orFail r) as :=
  h

theorem prepares_tryCall {f : Ingest.Ans o → Except ApiError α} (h : NoLink as)
    (ho : ∀ n, o ≠ .createPaymentLink n) : Prepares (Prog.tryCall o f) as :=
  ⟨fun n hn => absurd hn (ho n), fun a => h.cons ho a⟩

theorem prepares_checkExpiry {expiresAt : Option Time} (h : NoLink as) :
    Prepares (PaymentLinks.checkExpiry expiresAt) as := by
  cases expiresAt with
  | none => exact h
  | some =>
    exact ⟨fun n hn => (nomatch hn),
      fun now => h.cons (o := .utcNow) (fun n hn => nomatch hn) now⟩

/-- `create_link` inserts last, so it creates at most the link that it returns. -/
theorem ends_createLink (out : Ingest.Outside) (walletId : Uuid)
    (req : PaymentLinks.CreatePaymentLinkRequest) (slug : String) :
    (PaymentLinks.createLink out walletId req slug).run.Ends OneLink LinkMade [] := by
  have hnil : NoLink [] := forall_mem_nil _
  unfold PaymentLinks.createLink
  split
  · exact linkMade_error hnil _
  · refine Prepares.bind (prepares_orFail hnil) (fun _ as1 h1 => ?_)
    refine Prepares.bind (prepares_orFail h1) (fun _ as2 h2 => ?_)
    refine Prepares.bind (prepares_checkExpiry h2) (fun _ as3 h3 => ?_)
    refine Prepares.bind (prepares_tryCall h3 (fun n hn => nomatch hn)) (fun wallet as4 h4 => ?_)
    refine Prepares.bind (prepares_tryCall h4 (fun n hn => nomatch hn)) (fun address as5 h5 => ?_)
    refine ⟨fun _ _ => h5, fun a => ?_⟩
    cases a with
    | ok => exact ⟨_, mem_cons_self⟩
    | error =>
      intro n l hm
      rcases mem_cons.mp hm with heq | hm
      · cases heq
      · exact h5 _ hm n rfl

abbrev AnyOrder : State → State → Prop := fun _ _ => True

abbrev Keeps {ε α : Type} (out : Outside) (j : Job) (p : ExceptT ε (Prog Op Ans) α)
    (P : α → List Act → Prop) (tr : List Act) : Prop :=
  Does (system out) AnyOrder (Allowed out j) p P tr

variable {out : Outside} {j : Job} {tr : List Act} {walletId : Uuid} {hash : String}

/-- What the creation of a link adds to the calls `tr`. -/
def Created (tr : List Act) (r : Except ApiError PaymentLink) (tr' : List Act) : Prop :=
  tr ⊆ tr' ∧ NoRelease tr' ∧
    match r with
    | .ok l => Creates l tr'
    | .error _ => ∀ l, ¬ Creates l tr'

abbrev SeesDb (x : Act) (y : Sigma Ingest.Ans) : Prop := Sees Op.db (fun _ a => a) x y

/-- The links created by the calls of `create_link` are those its answers tell of. -/
theorem creates_of_sees (h : List.Forall₂ SeesDb more as) (l : PaymentLink) :
    Creates l more ↔ ∃ n, (⟨.createPaymentLink n, .ok l⟩ : Sigma Ingest.Ans) ∈ as := by
  induction h with
  | nil => simp [Creates]
  | @cons x y more as hx hs ih =>
    obtain ⟨a, s, s', rfl, rfl⟩ := hx
    obtain ⟨o, a⟩ := y
    have hhead : createdLink ⟨.db o, a, s, s'⟩ = some l ↔
        ∃ n, (⟨.createPaymentLink n, .ok l⟩ : Sigma Ingest.Ans) = ⟨o, a⟩ := by
      cases o with
      | createPaymentLink =>
        cases a with
        | ok => simp [createdLink, eq_comm]
        | error => simp [createdLink]
      | _ => simp [createdLink]
    simp only [Creates, mem_cons, exists_eq_or_imp, exists_or] at ih ⊢
    rw [hhead, ih]

theorem noRelease_of_sees (h : List.Forall₂ SeesDb more as) : NoRelease more := by
  refine forall_of_sees (P := fun x => ∀ k, x.op ≠ Op.release k) (fun o a s s' k hop => ?_) h
  cases hop

theorem creates_append {l : PaymentLink} {tr : List Act} :
    Creates l (more ++ tr) ↔ Creates l more ∨ Creates l tr := by
  simp only [Creates, mem_append, or_and_right, exists_or]

theorem NoRelease.append {tr : List Act} (h : NoRelease more) (h' : NoRelease tr) :
    NoRelease (more ++ tr) := by
  exact forall_mem_append.mpr ⟨h, h'⟩

theorem Claimed.mono {tr tr' : List Act} (h : Claimed k hash tr) (hsub : tr ⊆ tr') :
    Claimed k hash tr' := by
  obtain ⟨x, hx, hc⟩ := h
  exact ⟨x, hsub hx, hc⟩

theorem calls_createLink (hno : ∀ l, ¬ Creates l tr) (hrel : NoRelease tr)
    (hclaim : ∀ k, j.keyId = some k → ∃ hash, Claimed k hash tr) :
    Calls (system out) AnyOrder (Allowed out j) (createLink out walletId body slug).run (Created tr)
      tr := by
  unfold createLink
  split
  · exact ⟨List.Subset.refl _, hrel, hno⟩
  · rename_i req _
    refine Calls.imp (calls_embed ?_ (ends_createLink out.links walletId req slug)) ?_
    · intro more as hs o ho n hn
      refine ⟨?_, ?_⟩
      · intro l hl
        rcases creates_append.mp hl with hl | hl
        · obtain ⟨n', hm⟩ := (creates_of_sees hs l).mp hl
          exact ho n hn _ hm n' rfl
        · exact hno l hl
      · intro k hk
        obtain ⟨hash, hc⟩ := hclaim k hk
        exact ⟨⟨hash, hc.mono (subset_append_right _ _)⟩, (noRelease_of_sees hs).append hrel⟩
    · intro r tr' hend
      obtain ⟨_, as, rfl, hs, hr⟩ := hend
      refine ⟨subset_append_right _ _, (noRelease_of_sees hs).append hrel, ?_⟩
      cases r with
      | ok l => exact creates_append.mpr (.inl ((creates_of_sees hs l).mpr hr))
      | error =>
        intro l hl
        rcases creates_append.mp hl with hl | hl
        · obtain ⟨n, hm⟩ := (creates_of_sees hs l).mp hl
          exact hr n l hm
        · exact hno l hl

def MayAnswer (out : Outside) (j : Job) (r : Response) (tr : List Act) : Prop :=
  Allowed out j tr (.respond r)

theorem keeps_attempt {o : Op} {P : Unit → List Act → Prop} (hL : Allowed out j tr o)
    (h : ∀ a s s', P () (⟨o, a, s, s'⟩ :: tr)) : Keeps out j (attempt o) P tr :=
  does_tryCall hL (fun s _ a s' _ _ _ _ => h a s s')

/-- A key that was claimed is completed with the new link, or released if there is none. -/
theorem keeps_createAndComplete (hno : ∀ l, ¬ Creates l tr) (hrel : NoRelease tr)
    (hk : j.keyId = some k) (hclaim : ∃ hash, Claimed k hash tr) :
    Keeps out j (createAndComplete out k body slug) (MayAnswer out j) tr := by
  have hclaim' : ∀ k', j.keyId = some k' → ∃ hash, Claimed k' hash tr := by
    intro k' hk'
    rw [← Option.some.inj (hk.symm.trans hk')]
    exact hclaim
  refine calls_lift (Calls.imp (calls_createLink hno hrel hclaim') ?_)
  intro r tr' hr
  obtain ⟨hsub, hrel', hmade⟩ := hr
  obtain ⟨hash, hc⟩ := hclaim
  have hc' := hc.mono hsub
  cases r with
  | ok l =>
    refine Does.bind (keeps_attempt (P := fun _ tr => Creates l tr) ⟨⟨hash, hc'⟩, hrel', hmade⟩ ?_)
      ?_
    · intro a s s'
      obtain ⟨x, hx, hl⟩ := hmade
      exact ⟨x, mem_cons_of_mem _ hx, hl⟩
    · exact fun _ tr'' hl => does_pure hl
  | error =>
    refine Does.bind (keeps_attempt (P := fun _ _ => True) ⟨⟨hash, hc'⟩, hrel', hmade⟩
      (fun _ _ _ => trivial)) ?_
    exact fun _ _ _ => does_throw

/-- What each answer to a claim says of the calls made. -/
def ClaimCame (out : Outside) (j : Job) (k : KeyId) (r : IdempotencyClaim) (tr : List Act) : Prop :=
  match r with
  | .claimed => (∀ l, ¬ Creates l tr) ∧ NoRelease tr ∧ ∃ hash, Claimed k hash tr
  | .replay code l => MayAnswer out j (.replayed code l) tr
  | .mismatch | .inProgress => True

/-- A replay answers a row read under the hash of this body. -/
theorem keeps_claimIdempotencyKey (hk : j.keyId = some k) (hh : j.body.map out.sha256 = some hash) :
    Keeps out j (claimIdempotencyKey k hash) (ClaimCame out j k) [] := by
  have hclaim : Keeps out j (Prog.tryCall (.claim k hash) id)
      (fun claimed tr => claimed = true → ClaimCame out j k .claimed tr) [] := by
    refine does_tryCall ⟨hk, hh⟩ ?_
    intro s ch a s' v _ _ hv hclaimed
    obtain rfl : a = .ok true := by rw [← hclaimed]; exact hv
    refine ⟨?_, ?_, hash, _, mem_cons_self, ?_⟩
    · intro l hl
      obtain ⟨x, hx, hc⟩ := hl
      rw [mem_singleton.mp hx] at hc
      cases hc
    · intro x hx k' hop
      rw [mem_singleton.mp hx] at hop
      cases hop
    · simp [claimedHash]
  refine Does.bind hclaim ?_
  intro claimed tr hcame
  cases claimed with
  | true => exact does_pure (hcame rfl)
  | false =>
    have hselect : Keeps out j (Prog.tryCall (.select k) id) (fun r tr => Selected k r tr) tr := by
      refine does_tryCall trivial ?_
      intro s ch a s' v _ _ hv
      obtain rfl : a = .ok v := hv
      exact ⟨_, mem_cons_self, by simp [selected]⟩
    refine Does.bind hselect ?_
    intro row tr' hrow
    by_cases hhash : row.requestHash ≠ hash
    · simp only [if_pos hhash]
      exact does_pure trivial
    · simp only [if_neg hhash]
      split
      · rename_i hl
        refine does_pure ⟨k, row, hk, hrow, ?_, hl⟩
        rw [hh, Decidable.not_not.mp hhash]
      · exact does_pure trivial

theorem keeps_createPaymentLink {header : Option String} :
    Keeps out (.createPaymentLink walletId header body slug)
      (createPaymentLink out walletId header body slug)
      (MayAnswer out (.createPaymentLink walletId header body slug)) [] := by
  have hnone : ∀ l, ¬ Creates l [] := fun l hl => by simp [Creates] at hl
  have hrel : NoRelease [] := forall_mem_nil _
  refine Does.bind (P := fun key tr => tr = [] ∧ key = header) (does_result ?_) ?_
  · intro key hkey
    refine ⟨rfl, ?_⟩
    unfold idempotencyKey at hkey
    split at hkey
    · exact (Except.ok.inj hkey).symm
    · split at hkey
      · exact (Except.ok.inj hkey).symm
      · cases hkey
  intro key tr hkey
  obtain ⟨rfl, rfl⟩ := hkey
  cases key with
  | none =>
    refine Does.bind ?_ (fun view tr hv => does_pure hv)
    refine Calls.imp (calls_createLink hnone hrel (fun k hk => nomatch hk)) ?_
    intro r tr hr v hv
    subst hv
    exact hr.2.2
  | some key =>
    refine Does.bind (P := ClaimCame out (.createPaymentLink walletId (some key) body slug)
      ⟨walletId, createLinkScope, key⟩) ?_ ?_
    · refine calls_bind (Calls.imp (keeps_claimIdempotencyKey rfl rfl) ?_)
      intro r tr hr v hv
      cases r with
      | ok =>
        cases hv
        exact hr _ rfl
      | error => cases hv
    · intro claim tr hclaim
      cases claim with
      | claimed => exact keeps_createAndComplete hclaim.1 hclaim.2.1 rfl hclaim.2.2
      | replay => exact does_pure hclaim
      | mismatch | inProgress => exact does_throw

/-- **Every request keeps to `Allowed`.** -/
theorem discipline (out : Outside) : Discipline (system out) AnyOrder (Allowed out) where
  refl _ := trivial
  trans _ _ := trivial
  exec _ := trivial
  env _ := trivial
  code j := by
    cases j with
    | createPaymentLink =>
      refine calls_bind (Calls.imp keeps_createPaymentLink ?_)
      intro r tr hr
      cases r with
      | ok response => exact ⟨hr response rfl, fun _ _ _ _ _ _ => trivial⟩
      | error => exact ⟨trivial, fun _ _ _ _ _ _ => trivial⟩
    | purge => exact ⟨trivial, fun _ _ _ _ _ _ => trivial⟩

end Octo.Idempotency
