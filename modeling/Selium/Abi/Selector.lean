import Selium.Abi.Endpoint

/-! Capability grants: selectors, the scope context they are evaluated against
and the well-formedness check made before a grant is accepted. -/
namespace Selium.Abi

inductive Capability where
  | processLifecycle | sharedMemory | signal | network | storage | sessionLifecycle
  | activityRead | meteringRead | guestLogRead | guestLogWrite | hostQueue
  | delegateGrants | systemRegistration | mintCertificate | quotaWrite
  deriving DecidableEq, Repr

abbrev ProcessId := Nat

inductive ResourceIdentity where
  | local (id : Nat)
  | shared (id : Nat)
  deriving DecidableEq, Repr

inductive LocalityScope where
  | any
  | cluster
  | host (name : Text)
  deriving DecidableEq, Repr

inductive ResourceClass where
  | sharedRegion | sharedMapping | signal | tcpListener | tcpStream | udpSocket | durableLog
  | blobStore | process | activityLog | meteringStream | guestLog | hostQueue | cpu
  deriving DecidableEq, Repr

structure ScopeContext where
  tenant : Option Text := none
  uri : Option Text := none
  locality : LocalityScope := .any
  resourceClass : Option ResourceClass := none
  resourceId : Option ResourceIdentity := none
  deriving DecidableEq, Repr

inductive Namespace where
  | root
  | tenant (name : Text)
  deriving DecidableEq, Repr

inductive ResourceSelector where
  | tenant (name : Text)
  | namespace (scope : Namespace)
  | uriPrefix (text : Text)
  | locality (scope : LocalityScope)
  | resourceClass (cls : ResourceClass)
  | explicitResource (id : ResourceIdentity)
  | children
  deriving DecidableEq, Repr

structure CapabilityGrant where
  capability : Capability
  selectors : List ResourceSelector
  deriving DecidableEq, Repr

def LocalityScope.matches : LocalityScope → LocalityScope → Bool
  | .any,_ => true
  | .cluster,.cluster => true
  | .cluster,.host _ => true
  | .cluster,.any => false
  | .host expected,.host actual => actual == expected
  | .host _,_ => false

def Namespace.matchesTenant : Namespace → Option Text → Bool
  | .root,actual => actual.isNone
  | .tenant expected,actual => actual == some expected

def ResourceSelector.isEvaluatable (selector : ResourceSelector) (grantSelectors : List ResourceSelector) : Bool :=
  match selector with
  | .uriPrefix _ => grantSelectors.any fun other =>
      other == .resourceClass .tcpListener || other == .resourceClass .tcpStream ||
        other == .resourceClass .udpSocket
  | _ => true

section
variable (toLowercase : Text → Text)

/-- The `UriPrefix` rule: by components when both sides are network endpoints,
by plain text otherwise. -/
def uriPrefixMatches (text uri : Text) : Bool :=
  match NetworkEndpoint.parse toLowercase text, NetworkEndpoint.parse toLowercase uri with
  | some grant,some context => grant.prefixMatches context
  | _,_ => text.isPrefixOf uri

def ResourceSelector.matches (selector : ResourceSelector) (context : ScopeContext) : Bool :=
  match selector with
  | .tenant expected => context.tenant == some expected
  | .namespace scope => scope.matchesTenant context.tenant
  | .uriPrefix text =>
    match context.uri with
    | some uri => uriPrefixMatches toLowercase text uri
    | none => false
  | .locality expected => expected.matches context.locality
  | .resourceClass expected => context.resourceClass == some expected
  | .explicitResource expected => context.resourceId == some expected
  | .children => false

def CapabilityGrant.allows (grant : CapabilityGrant) (context : ScopeContext) : Bool :=
  grant.selectors.all fun selector => selector.matches toLowercase context

end

inductive GrantError where
  | invalidGrant (capability : Capability)
  | unevaluatableSelector (capability : Capability) (selector : ResourceSelector)
  deriving DecidableEq, Repr

def validateGrant (grant : CapabilityGrant) : Except GrantError Unit :=
  if grant.capability == .delegateGrants && !grant.selectors.any (fun selector =>
      match selector with
      | .tenant _ | .namespace _ => true
      | _ => false) then .error (.invalidGrant grant.capability)
  else grant.selectors.forM fun selector =>
    if selector.isEvaluatable grant.selectors then .ok ()
    else .error (.unevaluatableSelector grant.capability selector)

def validateGrants (grants : List CapabilityGrant) : Except GrantError Unit := grants.forM validateGrant

theorem LocalityScope.matches_trans (outer inner actual : LocalityScope)
    (covers : outer.matches inner = true) (admits : inner.matches actual = true) : outer.matches actual = true := by
  cases outer <;> cases inner <;> cases actual <;> simp_all [LocalityScope.matches]

/-- A grant that matches a concrete endpoint does so by whole components, exactly if it is an endpoint
itself or not an initial piece of the text: any other grant is compared as plain text. -/
theorem networkGrant_components_iff (toLowercase : Text → Text) (text uri : Text) (context : NetworkEndpoint)
    (concrete : NetworkEndpoint.parse toLowercase uri = some context) :
    (uriPrefixMatches toLowercase text uri = true → ∃ grant, NetworkEndpoint.parse toLowercase text = some grant ∧
      grant.scheme = context.scheme ∧
      (grant.host = context.host ∨ ∃ suffix, grant.host = '*' :: '.' :: suffix ∧ ('.' :: suffix) <:+ context.host) ∧
      (grant.port = "*".toList ∨ context.port ∈ portTokens grant.port)) ↔
    (NetworkEndpoint.parse toLowercase text).isSome = true ∨ ¬text <+: uri := by
  cases parsed : NetworkEndpoint.parse toLowercase text with
  | some grant =>
    refine iff_of_true ?_ (.inl rfl)
    intro admits
    simp only [uriPrefixMatches,parsed,concrete,NetworkEndpoint.prefixMatches,Bool.and_eq_true,beq_iff_eq] at admits
    obtain ⟨⟨scheme,host⟩,port⟩ := admits
    exact ⟨grant,rfl,scheme,(hostMatches_iff _ _).mp host,(portMatches_iff _ _).mp port⟩
  | none =>
    have textual : uriPrefixMatches toLowercase text uri = true ↔ text <+: uri := by
      simp only [uriPrefixMatches,parsed,List.isPrefixOf_iff_prefix]
    rw [textual]
    constructor
    · intro whole
      refine .inr fun starts => ?_
      obtain ⟨grant,known,_⟩ := whole starts
      cases known
    · rintro (known | apart) starts
      · cases known
      · exact absurd starts apart

theorem networkGrant_components_wildcard :
    ∃ grant, NetworkEndpoint.parse id "tcp://*.example.com:80,443".toList = some grant ∧ grant.scheme = "tcp".toList ∧
      (grant.host = "api.example.com".toList ∨
        ∃ suffix, grant.host = '*' :: '.' :: suffix ∧ ('.' :: suffix) <:+ "api.example.com".toList) ∧
      (grant.port = "*".toList ∨ "443".toList ∈ portTokens grant.port) :=
  (networkGrant_components_iff id _ "tcp://api.example.com:443".toList ⟨"tcp".toList,"api.example.com".toList,"443".toList⟩
    (by decide)).mpr (.inl (by decide)) (by decide)

/-- A grant without a port is accepted and then covers every host that extends its text. -/
theorem networkGrant_extended :
    let grant : CapabilityGrant := ⟨.network,[.uriPrefix "tcp://example".toList,.resourceClass .tcpStream]⟩
    validateGrants [grant] = .ok () ∧
      grant.allows id {uri := some "tcp://example.com:80".toList, resourceClass := some .tcpStream} = true ∧
      NetworkEndpoint.parse id "tcp://example".toList = none := by
  decide

end Selium.Abi
