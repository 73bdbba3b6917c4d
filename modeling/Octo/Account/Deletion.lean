import Octo.Api.Error
import Octo.Conc.Trace
import Octo.Store.Call
import Octo.Store.OwnedWallets

/-!
# Account deletion and requests in flight

`delete_account` of `crates/api/src/routes/account.rs` from the point where the password was
checked, and the requests of the same user that insert rows: `create_wallet` (`wallets.rs`),
`generate_key` (`apikeys.rs`) and `create_webhook` (`webhooks.rs`), each from the point where the
caller is authenticated and the body validated.  Notices, audit rows and funding after the last
write are left out.
-/

namespace Octo.Account

open Conc Octo.Api List

inductive Op
  | listWalletsForUserPage (userId : Uuid) (limit : Nat) (before : Option Uuid)
  | balances (accountG : String)
  | verifyAndConsumeOtp (userId : Uuid) (codeHash : String)
  | deleteAccount (userId : Uuid) (checkedWallets : List Uuid)
  | createClientWallet (userId : Uuid) (n : NewClientWallet)
  | getWallet (id : Uuid)
  | useApiKey (keyHash : String)
  | createApiKey (k : ApiKey)
  | upsertApiKey (k : ApiKey)
  | createWebhookEndpoint (walletId : Uuid) (url secret : String)

abbrev Ans : Op → Type
  | .listWalletsForUserPage .. => Except StoreError (List WalletRow)
  | .balances _ => Except ApiError (List String)
  | .verifyAndConsumeOtp .. => Except StoreError Unit
  | .deleteAccount .. => Except StoreError Nat
  | .createClientWallet .. => Except StoreError WalletRow
  | .getWallet _ => Except StoreError WalletRow
  | .useApiKey _ => Except StoreError (Option ApiKey)
  | .createApiKey _ => Except StoreError ApiKey
  | .upsertApiKey _ => Except StoreError ApiKey
  | .createWebhookEndpoint .. => Except StoreError WebhookEndpoint

/-- How a call is answered; `corrupt` is a deletion that is refused because the audit chain does not
verify. -/
inductive Choice
  | store (ch : Octo.Choice)
  | balances (r : Except ApiError (List String))
  | code (r : Except StoreError Unit)
  | corrupt

def exec : (o : Op) → Choice → AccountDb → Option (Ans o × AccountDb)
  | .listWalletsForUserPage userId limit before, .store ch, s =>
    storeRead (fun _ s => .ok (s.listWalletsForUserPage userId limit before)) ch s
  | .balances _, .balances r, s => some (r, s)
  | .verifyAndConsumeOtp _ _, .code r, s => some (r, s)
  | .deleteAccount userId checked, .store ch, s =>
    store (fun _ s => s.deleteAccount userId checked) ch s
  | .deleteAccount _ _, .corrupt, s => some (.error .auditChainCorrupt, s)
  | .createClientWallet userId n, .store ch, s =>
    store (fun _ s => s.createClientWallet userId n) ch s
  | .getWallet id, .store ch, s => storeRead (fun _ s => s.getWallet id) ch s
  | .useApiKey hash, .store ch, s =>
    store (fun _ s => (.ok (s.useApiKey hash).1, (s.useApiKey hash).2)) ch s
  | .createApiKey k, .store ch, s => store (fun _ s => s.createApiKey k) ch s
  | .upsertApiKey k, .store ch, s => store (fun _ s => s.upsertApiKey k) ch s
  | .createWebhookEndpoint walletId url secret, .store ch, s =>
    store (fun _ s => s.createWebhookEndpoint walletId url secret) ch s
  | _, _, _ => none

/-! ### Routes -/

structure Outside where
  network : String
  hashOtp : String → String

abbrev ApiM := ExceptT ApiError (Prog Op Ans)

def isNonzero (balance : String) : Bool :=
  balance.toList.any (fun c => decide ('1' ≤ c) && decide (c ≤ '9'))

/-- The loop of `owned_wallets`, as far as `n` pages. -/
def ownedWallets (userId : Uuid) : Nat → Option Uuid → List WalletRow → ApiM (List WalletRow)
  | 0, _, _ => throw .internal
  | n + 1, before, wallets => do
    let page ← Prog.tryCall (.listWalletsForUserPage userId 100 before)
      (Except.mapError (fun _ => ApiError.internal))
    if page.length < 100 then pure (wallets ++ page)
    else ownedWallets userId n (page.getLast?.map (·.id)) (wallets ++ page)

def unavailable : ApiError :=
  .serviceUnavailable "could not confirm wallet balances; try again later"

/-- The lines of an account, an account that does not exist having none. -/
def readBalances : Except ApiError (List String) → Except ApiError (List String)
  | .ok lines => .ok lines
  | .error .notFound => .ok []
  | .error _ => .error unavailable

/-- Whether one of the accounts holds funds; the rest is not looked at then. -/
def holdsFunds : List String → ApiM Bool
  | [] => pure false
  | account :: accounts => do
    let lines ← Prog.tryCall (.balances account) readBalances
    if lines.any isNonzero then pure true else holdsFunds accounts

def WalletRow.accounts (r : WalletRow) : List String :=
  r.stellarAccountG :: r.gasTankAccountG.toList

def fundedWallets (out : Outside) : List WalletRow → ApiM (List Uuid)
  | [] => pure []
  | r :: rs =>
    if r.network ≠ out.network then throw unavailable
    else do
      let funded ← holdsFunds r.accounts
      let rest ← fundedWallets out rs
      pure (if funded then r.id :: rest else rest)

def ensureNoFunds (out : Outside) (wallets : List WalletRow) : ApiM Unit := do
  let funded ← fundedWallets out wallets
  if funded.isEmpty then pure ()
  else throw (.conflictWith ("account still holds funds; withdraw or merge these wallets first: " ++
    String.intercalate ", " (funded.map toString)))

def redeemOtp (out : Outside) (userId : Uuid) (code : Option String) : ApiM Unit :=
  match code.filter (· != "") with
  | none => throw (.badRequest "code is required")
  | some code => Prog.tryCall (.verifyAndConsumeOtp userId (out.hashOtp code))
      (Except.mapError (fun _ => ApiError.badRequest "invalid or expired code"))

def deletionError : StoreError → ApiError
  | .conflict => .conflictWith "your wallets changed during deletion; try again"
  | .auditChainCorrupt => .conflictWith "account deletion is unavailable; contact support"
  | e => .ofStore e

def deleteAccount (out : Outside) (userId : Uuid) (code : Option String) (pages : Nat) : ApiM Nat :=
  do
  let wallets ← ownedWallets userId pages none []
  ensureNoFunds out wallets
  redeemOtp out userId code
  Prog.tryCall (.deleteAccount userId (wallets.map (·.id))) (Except.mapError deletionError)

def createWallet (out : Outside) (userId : Uuid) (n : NewClientWallet) : ApiM WalletRow :=
  Prog.tryCall (.createClientWallet userId { n with network := out.network }) fromStore

/-- `owned_wallet`: a wallet of another user is hidden. -/
def ownedWallet (userId walletId : Uuid) : ApiM WalletRow := do
  let wallet ← Prog.tryCall (.getWallet walletId) fromStore
  if wallet.userId ≠ some userId then throw .notFound else pure wallet

def storedKey : Except StoreError ApiKey → Except ApiError ApiKey
  | .ok k => .ok k
  | .error .conflict => .error
      (.conflictWith "an API key already exists; pass confirm=true to rotate it")
  | .error _ => .error .internal

def generateKey (userId : Uuid) (rotate : Bool) (k : ApiKey) : ApiM ApiKey := do
  let _ ← ownedWallet userId k.walletId
  if rotate then Prog.tryCall (.upsertApiKey k) storedKey
  else Prog.tryCall (.createApiKey k) storedKey

/-- Who makes a request: a login of the user, or the holder of an API key. -/
inductive Caller
  | login (userId : Uuid)
  | key (keyHash : String)
  deriving DecidableEq

def authorizeWalletScope (caller : Caller) (walletId : Uuid) (requiredScope : String) : ApiM Unit :=
  do
  match caller with
  | .login userId => do
    let _ ← ownedWallet userId walletId
    pure ()
  | .key keyHash => do
    let key ← Prog.tryCall (.useApiKey keyHash) (Except.mapError (fun _ => ApiError.internal))
    match key with
    | none => throw .unauthorized
    | some key =>
      if key.walletId ≠ walletId then throw .notFound
      else if !key.scopes.contains requiredScope
        then throw (.forbidden "API key lacks the required scope")
      else pure ()

def createWebhook (caller : Caller) (walletId : Uuid) (url secret : String) :
    ApiM WebhookEndpoint := do
  authorizeWalletScope caller walletId "write"
  let _ ← Prog.tryCall (.getWallet walletId) fromStore
  Prog.tryCall (.createWebhookEndpoint walletId url secret) fromStore

/-! ### The system -/

inductive Job
  | deleteAccount (userId : Uuid) (code : Option String) (pages : Nat)
  | createWallet (userId : Uuid) (n : NewClientWallet)
  | generateKey (userId : Uuid) (rotate : Bool) (k : ApiKey)
  | createWebhook (caller : Caller) (walletId : Uuid) (url secret : String)
  deriving DecidableEq

def drop {α : Type} (p : ApiM α) : Prog Op Ans Unit := p.run.bind (fun _ => .ret ())

def code (out : Outside) : Job → Prog Op Ans Unit
  | .deleteAccount userId code pages => drop (deleteAccount out userId code pages)
  | .createWallet userId n => drop (createWallet out userId n)
  | .generateKey userId rotate k => drop (generateKey userId rotate k)
  | .createWebhook caller walletId url secret => drop (createWebhook caller walletId url secret)

def env (dt : Nat) (s : AccountDb) : Option AccountDb :=
  some { s with auth := { s.auth with now := s.auth.now + dt } }

def system (out : Outside) : Sys Job Op Ans Choice Nat AccountDb where
  code := code out
  canStart _ _ := true
  exec := exec
  env := env

abbrev Act := Conc.Act Op Ans AccountDb
abbrev World := Conc.World Job Op Ans AccountDb
abbrev Conf := Conc.Conf Job Op Ans AccountDb

/-! ### Effects -/

/-- The tables after a call that took effect; calls that only read are not listed. -/
def write : Op → AccountDb → AccountDb
  | .deleteAccount userId checked, s => (s.deleteAccount userId checked).2
  | .createClientWallet userId n, s => (s.createClientWallet userId n).2
  | .useApiKey hash, s => (s.useApiKey hash).2
  | .createApiKey k, s => (s.createApiKey k).2
  | .upsertApiKey k, s => (s.upsertApiKey k).2
  | .createWebhookEndpoint walletId url secret, s => (s.createWebhookEndpoint walletId url secret).2
  | _, s => s

variable {o : Op} {userId walletId : Uuid} {wallets : List WalletRow} {s s' : AccountDb}
  {ch : Choice} {a : Ans o}

/-- **A call changes nothing, or does what `write` says.** -/
theorem exec_write (h : exec o ch s = some (a, s')) : s' = s ∨ s' = write o s := by
  cases ch with
  | store =>
    cases o with
    | balances | verifyAndConsumeOtp => cases h
    | _ =>
      simp only [exec] at h
      exact store_write h (fun _ => rfl)
  | balances | code | corrupt => cases o <;> cases h; exact .inl rfl

def Grows (s s' : AccountDb) : Prop :=
  ∀ r ∈ s.wallets, ∃ r' ∈ s'.wallets, r'.id = r.id ∧ r'.userId = r.userId ∧ r'.accounts = r.accounts

theorem Grows.refl (s : AccountDb) : Grows s s := fun r hr => ⟨r, hr, rfl, rfl, rfl⟩

theorem Grows.trans {s1 s2 s3 : AccountDb} (h : Grows s1 s2) (h' : Grows s2 s3) : Grows s1 s3 := by
  intro r hr
  obtain ⟨r', hr', hid, huser, hacc⟩ := h r hr
  obtain ⟨r'', hr'', hid', huser', hacc'⟩ := h' r' hr'
  exact ⟨r'', hr'', hid'.trans hid, huser'.trans huser, hacc'.trans hacc⟩

theorem grows_afterDeletion (s : AccountDb) (u : Auth.User) : Grows s (s.afterDeletion u) := by
  intro r hr
  refine ⟨_, mem_map.mpr ⟨r, hr, rfl⟩, ?_⟩
  by_cases hu : (r.userId == some u.id) = true
  · rw [if_pos hu]
    exact ⟨rfl, rfl, rfl⟩
  · rw [if_neg hu]
    exact ⟨rfl, rfl, rfl⟩

theorem grows_write (o : Op) (s : AccountDb) : Grows s (write o s) := by
  cases o with
  | deleteAccount userId checked =>
    rcases s.deleteAccount_cases userId checked with ⟨e, he⟩ | ⟨u, -, -, -, he⟩
    · simp only [write, he]
      exact .refl s
    · simp only [write, he]
      exact grows_afterDeletion s u
  | createClientWallet =>
    simp only [write, AccountDb.createClientWallet]
    split
    · exact .refl s
    · split
      · exact fun r hr => ⟨r, mem_append_left _ hr, rfl, rfl, rfl⟩
      · exact .refl s
  | createApiKey =>
    simp only [write, AccountDb.createApiKey]
    split <;> exact .refl s
  | upsertApiKey =>
    simp only [write, AccountDb.upsertApiKey]
    split <;> exact .refl s
  | createWebhookEndpoint =>
    simp only [write, AccountDb.createWebhookEndpoint]
    split <;> exact .refl s
  | _ => exact .refl s

theorem exec_grows (h : exec o ch s = some (a, s')) : Grows s s' := by
  rcases exec_write h with rfl | rfl
  · exact .refl _
  · exact grows_write o s

/-! ### What a deletion rests on -/

def holdsNothing (r : Except ApiError (List String)) : Bool :=
  match readBalances r with
  | .ok lines => !lines.any isNonzero
  | .error _ => false

def CheckedEmpty (accountG : String) (tr : List Act) : Prop :=
  ∃ a s s', ⟨.balances accountG, a, s, s'⟩ ∈ tr ∧ holdsNothing a = true

def Listed (userId : Uuid) (r : WalletRow) (tr : List Act) : Prop :=
  ∃ limit before page s s', ⟨.listWalletsForUserPage userId limit before, .ok page, s, s'⟩ ∈ tr ∧
    r ∈ page

def Allowed (_ : Job) (tr : List Act) : Op → Prop
  | .deleteAccount userId checked => ∃ wallets : List WalletRow, checked = wallets.map (·.id) ∧
      ∀ r ∈ wallets, Listed userId r tr ∧ ∀ account ∈ r.accounts, CheckedEmpty account tr
  | _ => True

variable {out : Outside} {j : Job} {tr : List Act} {code : Option String} {caller : Caller}

abbrev Keeps {ε α : Type} (out : Outside) (j : Job) (p : ExceptT ε (Prog Op Ans) α)
    (P : α → List Act → Prop) (tr : List Act) : Prop :=
  Does (system out) Grows (Allowed j) p P tr

theorem CheckedEmpty.mono {account : String} {tr tr' : List Act} (h : CheckedEmpty account tr)
    (hsub : tr ⊆ tr') : CheckedEmpty account tr' := by
  obtain ⟨a, s, s', hm, he⟩ := h
  exact ⟨a, s, s', hsub hm, he⟩

theorem Listed.mono {r : WalletRow} {tr tr' : List Act} (h : Listed userId r tr) (hsub : tr ⊆ tr') :
    Listed userId r tr' := by
  obtain ⟨limit, before, page, s, s', hm, hr⟩ := h
  exact ⟨limit, before, page, s, s', hsub hm, hr⟩

theorem keeps_call {ε α : Type} {f : Ans o → Except ε α} (hL : Allowed j tr o) :
    Keeps out j (Prog.tryCall o f) (fun _ tr' => tr ⊆ tr') tr :=
  does_tryCall hL (fun _ _ _ _ _ _ _ _ => subset_cons_self _ _)

theorem keeps_ownedWallets {n : Nat} {before : Option Uuid}
    (hw : ∀ r ∈ wallets, Listed userId r tr) :
    Keeps out j (ownedWallets userId n before wallets) (fun ws tr' => ∀ r ∈ ws, Listed userId r tr')
      tr := by
  induction n generalizing before wallets tr with
  | zero => exact does_throw
  | succ n ih =>
    have hpage : Keeps out j (Prog.tryCall (.listWalletsForUserPage userId 100 before)
        (Except.mapError (fun _ => ApiError.internal)))
        (fun page tr' => ∀ r ∈ wallets ++ page, Listed userId r tr') tr := by
      refine does_tryCall trivial ?_
      intro s ch a s' page _ _ ha
      cases a with
      | error => cases ha
      | ok =>
        cases ha
        intro r hr
        rcases mem_append.mp hr with hr | hr
        · exact (hw r hr).mono (subset_cons_self _ _)
        · exact ⟨100, before, page, s, s', mem_cons_self, hr⟩
    refine Does.bind hpage ?_
    intro page tr' hp
    by_cases hlast : page.length < 100
    · simp only [if_pos hlast]
      exact does_pure hp
    · simp only [if_neg hlast]
      exact ih hp

theorem keeps_holdsFunds {accounts : List String} : Keeps out j (holdsFunds accounts)
      (fun funded tr' => tr ⊆ tr' ∧
        (funded = false → ∀ account ∈ accounts, CheckedEmpty account tr')) tr := by
  induction accounts generalizing tr with
  | nil => exact does_pure ⟨List.Subset.refl _, fun _ => forall_mem_nil _⟩
  | cons account accounts ih =>
    have hlook : Keeps out j (Prog.tryCall (.balances account) readBalances) (fun lines tr' =>
        tr ⊆ tr' ∧ (lines.any isNonzero = false → CheckedEmpty account tr')) tr := by
      refine does_tryCall trivial ?_
      intro s ch a s' lines _ _ ha
      refine ⟨subset_cons_self _ _, ?_⟩
      intro hzero
      refine ⟨a, s, s', mem_cons_self, ?_⟩
      simp [holdsNothing, ha, hzero]
    refine Does.bind hlook ?_
    intro lines tr1 h1
    obtain ⟨hsub1, hempty⟩ := h1
    by_cases hfunds : lines.any isNonzero = true
    · simp only [if_pos hfunds]
      exact does_pure ⟨hsub1, nofun⟩
    · simp only [if_neg hfunds]
      refine Calls.imp ih ?_
      intro r tr2 hr funded hfunded
      obtain ⟨hsub2, hrest⟩ := hr funded hfunded
      refine ⟨fun x hx => hsub2 (hsub1 hx), ?_⟩
      intro hnone
      exact forall_mem_cons.mpr ⟨(hempty (by simpa using hfunds)).mono hsub2, hrest hnone⟩

theorem keeps_fundedWallets : Keeps out j (fundedWallets out wallets) (fun funded tr' => tr ⊆ tr' ∧
      (funded = [] → ∀ r ∈ wallets, ∀ account ∈ r.accounts, CheckedEmpty account tr')) tr := by
  induction wallets generalizing tr with
  | nil => exact does_pure ⟨List.Subset.refl _, fun _ => forall_mem_nil _⟩
  | cons r rs ih =>
    unfold fundedWallets
    by_cases hnet : r.network ≠ out.network
    · rw [if_pos hnet]
      exact does_throw
    · rw [if_neg hnet]
      refine Does.bind keeps_holdsFunds ?_
      intro funded tr1 h1
      refine Does.bind ih ?_
      intro rest tr2 h2
      refine does_pure ⟨fun x hx => h2.1 (h1.1 hx), ?_⟩
      intro hnone r' hr' account ha
      cases funded with
      | true => cases hnone
      | false =>
        rcases mem_cons.mp hr' with rfl | hr'
        · exact (h1.2 rfl account ha).mono h2.1
        · exact h2.2 hnone r' hr' account ha

theorem keeps_ensureNoFunds : Keeps out j (ensureNoFunds out wallets) (fun _ tr' => tr ⊆ tr' ∧
      ∀ r ∈ wallets, ∀ account ∈ r.accounts, CheckedEmpty account tr') tr := by
  refine Does.bind keeps_fundedWallets ?_
  intro funded tr1 h1
  cases funded with
  | nil => exact does_pure ⟨h1.1, h1.2 rfl⟩
  | cons => exact does_throw

theorem keeps_redeemOtp : Keeps out j (redeemOtp out userId code) (fun _ tr' => tr ⊆ tr') tr := by
  unfold redeemOtp
  split
  · exact does_throw
  · exact keeps_call trivial

theorem keeps_deleteAccount {pages : Nat} :
    Keeps out j (deleteAccount out userId code pages) (fun _ _ => True) tr := by
  refine Does.bind (keeps_ownedWallets (forall_mem_nil _)) ?_
  intro wallets tr1 hlisted
  refine Does.bind keeps_ensureNoFunds ?_
  intro _ tr2 hempty
  refine Does.bind keeps_redeemOtp ?_
  intro _ tr3 hsub
  refine Calls.imp (keeps_call ⟨wallets, rfl, ?_⟩) (fun _ _ _ _ _ => trivial)
  intro r hr
  refine ⟨(hlisted r hr).mono (fun x hx => hsub (hempty.1 hx)), ?_⟩
  intro account ha
  exact (hempty.2 r hr account ha).mono hsub

theorem keeps_ownedWallet : Keeps out j (ownedWallet userId walletId) (fun _ _ => True) tr := by
  refine Does.bind (keeps_call trivial) ?_
  intro wallet tr' _
  by_cases hown : wallet.userId ≠ some userId
  · simp only [if_pos hown]
    exact does_throw
  · simp only [if_neg hown]
    exact does_pure trivial

theorem keeps_generateKey {rotate : Bool} {k : ApiKey} :
    Keeps out j (generateKey userId rotate k) (fun _ _ => True) tr := by
  refine Does.bind keeps_ownedWallet ?_
  intro _ tr' _
  cases rotate with
  | true | false => exact Calls.imp (keeps_call trivial) (fun _ _ _ _ _ => trivial)

theorem keeps_authorizeWalletScope {scope : String} :
    Keeps out j (authorizeWalletScope caller walletId scope) (fun _ _ => True) tr := by
  cases caller with
  | login => exact Does.bind keeps_ownedWallet (fun _ _ _ => does_pure trivial)
  | key =>
    refine Does.bind (keeps_call trivial) ?_
    intro key tr' _
    cases key with
    | none => exact does_throw
    | some =>
      simp only
      split
      · exact does_throw
      · split
        · exact does_throw
        · exact does_pure trivial

theorem keeps_createWebhook {url secret : String} :
    Keeps out j (createWebhook caller walletId url secret) (fun _ _ => True) tr := by
  refine Does.bind keeps_authorizeWalletScope ?_
  intro _ tr1 _
  refine Does.bind (keeps_call trivial) ?_
  intro _ tr2 _
  exact Calls.imp (keeps_call trivial) (fun _ _ _ _ _ => trivial)

theorem keeps_createWallet {n : NewClientWallet} :
    Keeps out j (createWallet out userId n) (fun _ _ => True) tr :=
  Calls.imp (keeps_call trivial) (fun _ _ _ _ _ => trivial)

theorem calls_drop {α : Type} {p : ApiM α} (h : Keeps out j p (fun _ _ => True) tr) :
    Calls (system out) Grows (Allowed j) (drop p) (fun _ _ => True) tr :=
  calls_bind (Calls.imp h (fun _ _ _ => trivial))

/-- An account is deleted only with a list of wallets that were all listed and found empty. -/
theorem discipline (out : Outside) : Discipline (system out) Grows Allowed where
  refl := .refl
  trans := .trans
  exec := exec_grows
  env := by
    intro dt s s' h
    cases h
    exact .refl s
  code j := by
    cases j with
    | deleteAccount => exact calls_drop keeps_deleteAccount
    | createWallet => exact calls_drop keeps_createWallet
    | generateKey => exact calls_drop keeps_generateKey
    | createWebhook => exact calls_drop keeps_createWebhook

end Octo.Account
