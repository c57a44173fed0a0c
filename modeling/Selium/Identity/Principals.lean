import Selium.Identity.Requests
import Selium.Lib.Trace

/-! Which requests may change the grants of a principal. The registry and the table are keyed by
the fingerprint alone, so the tenants of the records that were made are followed beside them. -/
namespace Selium.Identity
open Lib Abi Memory

structure Call where
  tier : Tier
  request : IdentityRequest
  answers : Answers

def PrincipalRecord.fingerprint : PrincipalRecord → Bytes
  | .set _ fingerprint _ => fingerprint
  | .remove _ fingerprint => fingerprint

def latestSet (records : List PrincipalRecord) (fingerprint : Bytes) : Option Text :=
  records.reverse.findSome? fun
    | .set tenant named _ => if named = fingerprint then some tenant else none
    | .remove _ _ => none

def published (mutations : List (Mutation Bytes Bytes)) (fingerprint : Bytes) : Option Bytes :=
  ((tableAfter mutations).lookup fingerprint).bind (·.value)

theorem published_other (mutations : List (Mutation Bytes Bytes)) (mutation : Mutation Bytes Bytes) {fingerprint : Bytes}
    (other : fingerprint ≠ mutation.key) : published (mutations ++ [mutation]) fingerprint = published mutations fingerprint := by
  rw [published,tableAfter,List.foldl_append]
  show ((Mutation.apply _ mutation).lookup fingerprint).bind _ = _
  rw [Mutation.apply,AList.lookup_insert_ne other]
  rfl

theorem applyPrincipal_other (registry : Map Bytes Bytes) (record : PrincipalRecord) {fingerprint : Bytes}
    (other : fingerprint ≠ record.fingerprint) : (applyPrincipal registry record).lookup fingerprint = registry.lookup fingerprint := by
  cases record with
  | set tenant named grants => exact AList.lookup_insert_ne other
  | remove tenant named => exact AList.lookup_erase_ne other

section
variable (sha256 : Bytes → Bytes)

def Call.record (call : Call) (state : IdentityState) : Option PrincipalRecord :=
  match call.request with
  | .issueUserCert tenant spkiDer =>
    match call.tier.admitsTenant tenant,call.answers.signed with
    | true,.ok _ => some (.set tenant (sha256 spkiDer) ((state.principals.lookup (sha256 spkiDer)).getD []))
    | _,_ => none
  | .setPrincipalGrants tenant fingerprint grants =>
    if call.tier.admitsTenant tenant then some (.set tenant fingerprint grants) else none
  | .removePrincipal tenant fingerprint => if call.tier.admitsTenant tenant then some (.remove tenant fingerprint) else none
  | _ => none

/-- The principal whose grants the call may change: an admitted request names it, and a certificate is issued to
one that has no grants yet. -/
def Call.changes (call : Call) (state : IdentityState) : Option Bytes :=
  match call.request with
  | .issueUserCert _ spkiDer => if state.principals.lookup (sha256 spkiDer) = none then (call.record sha256 state).map
      (·.fingerprint) else none
  | _ => (call.record sha256 state).map (·.fingerprint)

structure Ledger where
  state : IdentityState
  records : List PrincipalRecord

def Ledger.step (ledger : Ledger) (call : Call) : Ledger :=
  ⟨(handleRequest sha256 call.request call.tier call.answers ledger.state).2,
    ledger.records ++ (call.record sha256 ledger.state).toList⟩

def Ledger.Throughout (property : Ledger → Call → Prop) (ledger : Ledger) (calls : List Call) : Prop :=
  During (Ledger.step sha256) property ledger calls

def Ledger.Foreign (ledger : Ledger) (tenant : Text) (fingerprint : Bytes) : Prop :=
  ∃ owner, latestSet ledger.records fingerprint = some owner ∧ owner ≠ tenant

/-- A caller of a tenant leaves the grants of other tenants' principals as they are. -/
def Isolates (ledger : Ledger) (call : Call) : Prop :=
  ∀ tenant, call.tier = .tenant tenant → ∀ fingerprint, ledger.Foreign tenant fingerprint →
    (ledger.step sha256 call).state.principals.lookup fingerprint = ledger.state.principals.lookup fingerprint ∧
      published (ledger.step sha256 call).state.grants fingerprint = published ledger.state.grants fingerprint

def NamesOwn (ledger : Ledger) (call : Call) : Prop :=
  ∀ tenant, call.tier = .tenant tenant → ∀ fingerprint, call.changes sha256 ledger.state = some fingerprint →
    ¬ ledger.Foreign tenant fingerprint

theorem recordPrincipal_other (record : PrincipalRecord) (answers : Answers) (state : IdentityState) {fingerprint : Bytes}
    (other : fingerprint ≠ record.fingerprint) :
    (recordPrincipal record answers state).principals.lookup fingerprint = state.principals.lookup fingerprint ∧
      published (recordPrincipal record answers state).grants fingerprint = published state.grants fingerprint := by
  unfold recordPrincipal
  split
  all_goals exact ⟨applyPrincipal_other _ _ other,rfl⟩

theorem writeGrants_other (mutation : Mutation Bytes Bytes) (record : PrincipalRecord) (answers : Answers) (state : IdentityState)
    {fingerprint : Bytes} (written : fingerprint ≠ mutation.key) (recorded : fingerprint ≠ record.fingerprint) :
    (writeGrants mutation answers (recordPrincipal record answers state)).principals.lookup fingerprint =
        state.principals.lookup fingerprint ∧
      published (writeGrants mutation answers (recordPrincipal record answers state)).grants fingerprint =
        published state.grants fingerprint := by
  obtain ⟨principals,grants⟩ := recordPrincipal_other record answers state recorded
  unfold writeGrants
  split
  · exact ⟨principals,(published_other _ _ written).trans grants⟩
  · exact ⟨principals,grants⟩

theorem key_grantMutation (fingerprint grants : Bytes) : (grantMutation fingerprint grants).key = fingerprint := by
  unfold grantMutation
  split
  · rfl
  · rfl

theorem recordPrincipal_again (tenant : Text) (answers : Answers) (state : IdentityState) {fingerprint : Bytes}
    (known : state.principals.lookup fingerprint ≠ none) (other : Bytes) :
    let after := recordPrincipal (.set tenant fingerprint ((state.principals.lookup fingerprint).getD [])) answers state
    after.principals.lookup other = state.principals.lookup other ∧ published after.grants other = published state.grants other := by
  have again : (applyPrincipal state.principals (.set tenant fingerprint ((state.principals.lookup fingerprint).getD []))).lookup other =
      state.principals.lookup other := by
    rw [applyPrincipal,Map.lookup_insert_if]
    split_ifs with same
    · obtain ⟨grants,found⟩ := Option.ne_none_iff_exists'.mp known
      rw [same,found]
      rfl
    · rfl
  unfold recordPrincipal
  dsimp only
  split
  all_goals exact ⟨again,rfl⟩

theorem handleRequest_other (call : Call) (state : IdentityState) {fingerprint : Bytes}
    (other : call.changes sha256 state ≠ some fingerprint) :
    let after := (handleRequest sha256 call.request call.tier call.answers state).2
    after.principals.lookup fingerprint = state.principals.lookup fingerprint ∧
      published after.grants fingerprint = published state.grants fingerprint := by
  obtain ⟨tier,request,answers⟩ := call
  unfold Call.changes Call.record at other
  unfold handleRequest
  cases request with
  | mintTenantCa tenant | rotateTenantCa tenant | revokeTenant tenant =>
    dsimp only
    split
    · exact ⟨rfl,rfl⟩
    · simp only [mintTenantCa,revokeTenant]
      cases answers.signed with
      | error error => exact ⟨rfl,rfl⟩
      | ok caCertDer =>
        cases answers.encoded with
        | error error => exact ⟨rfl,rfl⟩
        | ok done =>
          cases answers.appended with
          | error error => exact ⟨rfl,rfl⟩
          | ok done =>
            cases answers.published with
            | error _ | ok _ => exact ⟨rfl,rfl⟩
  | issueUserCert tenant spkiDer =>
    dsimp only at other ⊢
    cases admitted : tier.admitsTenant tenant with
    | false => exact ⟨rfl,rfl⟩
    | true =>
      unfold issueUserCert
      cases signed : answers.signed with
      | error error => exact ⟨rfl,rfl⟩
      | ok certificateDer =>
        by_cases unknown : state.principals.lookup (sha256 spkiDer) = none
        · rw [if_pos unknown,admitted,signed] at other
          exact recordPrincipal_other _ _ _ fun same => other (congrArg some same.symm)
        · exact recordPrincipal_again tenant answers state unknown fingerprint
  | setPrincipalGrants tenant named grants =>
    dsimp only at other ⊢
    cases admitted : tier.admitsTenant tenant with
    | false => exact ⟨rfl,rfl⟩
    | true =>
      have apart : fingerprint ≠ named := fun same => other (by rw [if_pos admitted,same]; rfl)
      exact writeGrants_other _ _ _ _ (by rwa [key_grantMutation]) apart
  | removePrincipal tenant named =>
    dsimp only at other ⊢
    cases admitted : tier.admitsTenant tenant with
    | false => exact ⟨rfl,rfl⟩
    | true =>
      have apart : fingerprint ≠ named := fun same => other (by rw [if_pos admitted,same]; rfl)
      exact writeGrants_other _ _ _ _ apart apart

theorem isolates_of_namesOwn {ledger : Ledger} {call : Call} (own : NamesOwn sha256 ledger call) : Isolates sha256 ledger call := by
  intro tenant tier fingerprint foreign
  apply handleRequest_other
  exact fun named => own tenant tier fingerprint named foreign

/-- Over a whole run: as long as no admitted request of a tenant names a principal of another tenant, none of
them changes another tenant's grants. -/
theorem principals_isolated (calls : List Call) : ∀ ledger : Ledger,
    ledger.Throughout sha256 (NamesOwn sha256) calls → ledger.Throughout sha256 (Isolates sha256) calls := by
  induction calls with
  | nil => exact fun _ _ => trivial
  | cons call rest ih => exact fun ledger own => ⟨isolates_of_namesOwn sha256 own.1,ih (ledger.step sha256 call) own.2⟩

end

def accepted : Answers := ⟨.ok [],.ok (),.ok (),.ok ()⟩

def recordedByA : Ledger :=
  Ledger.step id ⟨{},[]⟩ ⟨.tenant "a".toList,.setPrincipalGrants "a".toList [7] [1],accepted⟩

def setByB (fingerprint : Bytes) : Call := ⟨.tenant "b".toList,.setPrincipalGrants "b".toList fingerprint [2],accepted⟩

theorem principals_isolated_b :
    recordedByA.Foreign "b".toList [7] ∧ recordedByA.Throughout id (Isolates id) [setByB [8],setByB [8]] := by
  refine ⟨⟨"a".toList,by decide,by decide⟩,principals_isolated id _ recordedByA ⟨?_,?_,trivial⟩⟩
  all_goals
    rintro tenant tier fingerprint named ⟨owner,latest,other⟩
    cases tier
    cases named
  · cases latest
  · have own : latestSet (recordedByA.step id (setByB [8])).records [8] = some "b".toList := by decide
    exact other (Option.some.inj (latest.symm.trans own))

/-- A caller of the tenant b replaces the grants that the tenant a recorded. -/
theorem foreign_grants_replaced :
    recordedByA.Foreign "b".toList [7] ∧ recordedByA.state.principals.lookup [7] = some [1] ∧
      published recordedByA.state.grants [7] = some [1] ∧
      (recordedByA.step id (setByB [7])).state.principals.lookup [7] = some [2] ∧
      published (recordedByA.step id (setByB [7])).state.grants [7] = some [2] := by
  refine ⟨⟨"a".toList,by decide,by decide⟩,?_⟩
  decide

end Selium.Identity
