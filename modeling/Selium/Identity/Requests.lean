import Selium.Abi.Selector
import Selium.Identity.LiveTables

/-! The request surface of the identity guest: its tiers, the two registries and the requests. -/
namespace Selium.Identity
open Lib Abi Memory

inductive Tier where
  | operator
  | tenant (name : Text)
  | denied
  deriving DecidableEq, Repr

namespace Tier

def fromTenant : Option Text → Tier
  | some name => .tenant name
  | none => .operator

def isOperator : Tier → Bool
  | .operator => true
  | _ => false

def admitsTenant (tier : Tier) (tenant : Text) : Bool :=
  match tier with
  | .operator => true
  | .tenant own => own == tenant
  | .denied => false

end Tier

inductive TenantRecord where
  | onboard (tenant : Text) (caCertDer : Bytes)
  | revoke (tenant : Text)
  deriving DecidableEq, Repr

inductive PrincipalRecord where
  | set (tenant : Text) (fingerprint grants : Bytes)
  | remove (tenant : Text) (fingerprint : Bytes)
  deriving DecidableEq, Repr

def applyTenant (registry : Map Text Bytes) : TenantRecord → Map Text Bytes
  | .onboard tenant caCertDer => registry.insert tenant caCertDer
  | .revoke tenant => registry.erase tenant

/-- The projection is by fingerprint; the tenant of a record is not kept in it. -/
def applyPrincipal (registry : Map Bytes Bytes) : PrincipalRecord → Map Bytes Bytes
  | .set _ fingerprint grants => registry.insert fingerprint grants
  | .remove _ fingerprint => registry.erase fingerprint

inductive IdentityRequest where
  | mintTenantCa (tenant : Text)
  | rotateTenantCa (tenant : Text)
  | revokeTenant (tenant : Text)
  | issueUserCert (tenant : Text) (spkiDer : Bytes)
  | setPrincipalGrants (tenant : Text) (fingerprint grants : Bytes)
  | removePrincipal (tenant : Text) (fingerprint : Bytes)
  deriving DecidableEq, Repr

inductive IdentityResponse where
  | tenantRecorded (tenant : Text)
  | rotated (tenant : Text)
  | revoked (tenant : Text)
  | userCertIssued (certificateDer : Bytes)
  | principalRecorded (fingerprint : Bytes)
  | principalRemoved (fingerprint : Bytes)
  | error (step context : Text)
  deriving DecidableEq, Repr

/-- The logs hold the records, the tables the mutations that were written to their rings. -/
structure IdentityState where
  tenants : Map Text Bytes := ∅
  principals : Map Bytes Bytes := ∅
  tenantLog : List TenantRecord := []
  principalLog : List PrincipalRecord := []
  anchors : List (Mutation Text Bytes) := []
  grants : List (Mutation Bytes Bytes) := []

/-- What the host answers while a request is handled: the signing oracle (for a revocation, the
deletion of the key), the encoding of the record, the append to the log, the write to the table. -/
structure Answers where
  signed : Except Text Bytes
  encoded : Except Text Unit
  appended : Except Text Unit
  published : Except Text Unit

def anchorKey (tenant : Text) : Text := "client-ca-".toList ++ tenant

def tierRefused (verb : Text) : IdentityResponse :=
  .error "tier".toList ("caller is not authorised to ".toList ++ verb ++
    ": a tenant-tier caller is scoped to its own tenant".toList)

def mintTenantCa (tenant : Text) (answers : Answers) (state : IdentityState) : Except Text Unit × IdentityState :=
  match answers.signed with
  | .error error => (.error ("tenant ".toList ++ tenant ++ " CA mint failed: ".toList ++ error),state)
  | .ok caCertDer =>
    match answers.encoded with
    | .error error => (.error ("tenant record encode failed: ".toList ++ error),state)
    | .ok () =>
      match answers.appended with
      | .error error => (.error ("tenant record append failed: ".toList ++ error),state)
      | .ok () =>
        let recorded := {state with tenantLog := state.tenantLog ++ [.onboard tenant caCertDer],
                                    tenants := applyTenant state.tenants (.onboard tenant caCertDer)}
        match answers.published with
        | .error error => (.error ("anchor publish failed: ".toList ++ error),recorded)
        | .ok () => (.ok (),{recorded with anchors := recorded.anchors ++ [.set (anchorKey tenant) caCertDer]})

/-- The key goes first; without it the revocation does not take place. -/
def revokeTenant (tenant : Text) (answers : Answers) (state : IdentityState) : Except Text Unit × IdentityState :=
  match answers.signed with
  | .error error => (.error ("tenant ".toList ++ tenant ++ " CA key deletion failed: ".toList ++ error),state)
  | .ok _ =>
    match answers.encoded with
    | .error error => (.error ("tenant revoke encode failed: ".toList ++ error),state)
    | .ok () =>
      match answers.appended with
      | .error error => (.error ("tenant revoke append failed: ".toList ++ error),state)
      | .ok () =>
        let recorded := {state with tenantLog := state.tenantLog ++ [.revoke tenant],
                                    tenants := applyTenant state.tenants (.revoke tenant)}
        match answers.published with
        | .error error => (.error ("anchor removal failed: ".toList ++ error),recorded)
        | .ok () => (.ok (),{recorded with anchors := recorded.anchors ++ [.delete (anchorKey tenant)]})

/-- The projection takes the record even if the log does not. -/
def recordPrincipal (record : PrincipalRecord) (answers : Answers) (state : IdentityState) : IdentityState :=
  let logged := match answers.encoded,answers.appended with
    | .ok (),.ok () => {state with principalLog := state.principalLog ++ [record]}
    | _,_ => state
  {logged with principals := applyPrincipal logged.principals record}

def writeGrants (mutation : Mutation Bytes Bytes) (answers : Answers) (state : IdentityState) : IdentityState :=
  match answers.published with
  | .ok () => {state with grants := state.grants ++ [mutation]}
  | .error _ => state

/-- An empty grant set is published as a delete. -/
def grantMutation (fingerprint grants : Bytes) : Mutation Bytes Bytes :=
  if grants.isEmpty then .delete fingerprint else .set fingerprint grants

def setPrincipalGrants (tenant : Text) (fingerprint grants : Bytes) (answers : Answers) (state : IdentityState) : IdentityState :=
  writeGrants (grantMutation fingerprint grants) answers (recordPrincipal (.set tenant fingerprint grants) answers state)

def removePrincipal (tenant : Text) (fingerprint : Bytes) (answers : Answers) (state : IdentityState) : IdentityState :=
  writeGrants (.delete fingerprint) answers (recordPrincipal (.remove tenant fingerprint) answers state)

def wrap (step : Text) (result : Except Text Unit) (response : IdentityResponse) : IdentityResponse :=
  match result with
  | .ok () => response
  | .error context => .error step context

section
variable (sha256 : Bytes → Bytes)

/-- The grants that the principal holds already are kept. -/
def issueUserCert (tenant : Text) (spkiDer : Bytes) (answers : Answers) (state : IdentityState) :
    Except Text Bytes × IdentityState :=
  match answers.signed with
  | .error error => (.error error,state)
  | .ok certificateDer =>
    let fingerprint := sha256 spkiDer
    let grants := (state.principals.lookup fingerprint).getD []
    (.ok certificateDer,recordPrincipal (.set tenant fingerprint grants) answers state)

def handleRequest (request : IdentityRequest) (tier : Tier) (answers : Answers) (state : IdentityState) :
    IdentityResponse × IdentityState :=
  match request with
  | .mintTenantCa tenant =>
    if !tier.isOperator then (tierRefused "mint a tenant CA".toList,state)
    else
      let (result,later) := mintTenantCa tenant answers state
      (wrap "mint".toList result (.tenantRecorded tenant),later)
  | .rotateTenantCa tenant =>
    if !tier.isOperator then (tierRefused "rotate a tenant CA".toList,state)
    else
      let (result,later) := mintTenantCa tenant answers state
      (wrap "rotate".toList result (.rotated tenant),later)
  | .revokeTenant tenant =>
    if !tier.isOperator then (tierRefused "revoke a tenant".toList,state)
    else
      let (result,later) := revokeTenant tenant answers state
      (wrap "revoke".toList result (.revoked tenant),later)
  | .issueUserCert tenant spkiDer =>
    if !tier.admitsTenant tenant then (tierRefused "issue a user certificate".toList,state)
    else
      match issueUserCert sha256 tenant spkiDer answers state with
      | (.ok certificateDer,later) => (.userCertIssued certificateDer,later)
      | (.error context,later) => (.error "issue".toList context,later)
  | .setPrincipalGrants tenant fingerprint grants =>
    if !tier.admitsTenant tenant then (tierRefused "manage principals".toList,state)
    else (.principalRecorded fingerprint,setPrincipalGrants tenant fingerprint grants answers state)
  | .removePrincipal tenant fingerprint =>
    if !tier.admitsTenant tenant then (tierRefused "manage principals".toList,state)
    else (.principalRemoved fingerprint,removePrincipal tenant fingerprint answers state)

end
end Selium.Identity
