import Selium.Abi.Selector

/-! The runtime's grant checks for child processes: the subset check, its
delegation exception and the tenant a delegation scope admits. -/
namespace Selium.Runtime
open Abi

inductive DelegationScope where
  | root
  | tenants (names : List Text)
  deriving DecidableEq, Repr

def DelegationScope.admitsTenant : DelegationScope → Text → Bool
  | .root,_ => true
  | .tenants names,tenant => names.contains tenant

def ResourceSelector.delegates : ResourceSelector → Option Namespace
  | .tenant name => some (.tenant name)
  | .namespace scope => some scope
  | _ => none

def delegationScopes (grants : List CapabilityGrant) : List Namespace :=
  (grants.filter (·.capability == .delegateGrants)).flatMap fun grant =>
    grant.selectors.filterMap ResourceSelector.delegates

def tenantNames (scopes : List Namespace) : List Text :=
  scopes.filterMap fun
    | .tenant name => some name
    | .root => none

def delegationScope (grants : List CapabilityGrant) : Option DelegationScope :=
  let scopes := delegationScopes grants
  if scopes.contains .root then some .root
  else if (tenantNames scopes).isEmpty then none
  else some (.tenants (tenantNames scopes))

def namespaceCovers : Namespace → Namespace → Bool
  | .root,_ => true
  | .tenant name,child => child == .tenant name

def selectorCovers : ResourceSelector → ResourceSelector → Bool
  | .tenant parent,.tenant child => child == parent
  | .namespace parent,.namespace child => namespaceCovers parent child
  | .namespace parent,.tenant child => namespaceCovers parent (.tenant child)
  | .uriPrefix parent,.uriPrefix child => parent.isPrefixOf child
  | .locality parent,.locality child => parent.matches child
  | .resourceClass parent,.resourceClass child => child == parent
  | .explicitResource parent,.explicitResource child => child == parent
  | .children,.children => true
  | _,_ => false

def parentGrantCoversChild (parent child : CapabilityGrant) : Bool :=
  parent.capability == child.capability &&
    parent.selectors.all fun parentSelector => child.selectors.any fun selector => selectorCovers parentSelector selector

end Selium.Runtime
