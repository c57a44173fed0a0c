import Selium.Runtime.Spawn

/-! Which other tenants a delegation grant reaches. A start request reads the selectors of all
`DelegateGrants` grants as one set; an allocation for another tenant reads the selectors of each
grant as a conjunction. -/
namespace Selium.Runtime
open Lib Abi Command
open ResourceSelector (delegates)

def ResourceSelector.Covers (selector : ResourceSelector) (tenant : Text) : Prop :=
  selector = .tenant tenant ∨ selector = .namespace (.tenant tenant) ∨ selector = .namespace .root

def ResourceSelector.Holds (selector : ResourceSelector) (tenant : Text) : Prop :=
  selector = .tenant tenant ∨ selector = .namespace (.tenant tenant) ∨ selector = .locality .any

def conjunctionAdmits (s : State) (holder : ProcessId) (tenant : Text) (grant : CapabilityGrant) : Bool :=
  grant.selectors.all fun selector =>
    match selector with
    | .namespace .root => true
    | .children => s.selectorMatchesChildren holder none
    | _ => selector.matches id {tenant := some tenant}

def SomeDelegation (grants : List CapabilityGrant) (property : CapabilityGrant → Prop) : Prop :=
  ∃ grant ∈ grants, grant.capability = .delegateGrants ∧ property grant

theorem SomeDelegation.imp {grants : List CapabilityGrant} {property other : CapabilityGrant → Prop}
    (some : SomeDelegation grants property)
    (implies : ∀ grant ∈ grants, grant.capability = .delegateGrants → property grant → other grant) :
    SomeDelegation grants other := by
  obtain ⟨grant,member,delegates,holds⟩ := some
  exact ⟨grant,member,delegates,implies grant member delegates holds⟩

/-! The set of all selectors. -/

variable (grants : List CapabilityGrant)

theorem mem_delegationScopes (scope : Namespace) :
    scope ∈ delegationScopes grants ↔
      SomeDelegation grants fun grant => ∃ selector ∈ grant.selectors, delegates selector = some scope := by
  simp only [delegationScopes,List.mem_flatMap,List.mem_filter,List.mem_filterMap,beq_iff_eq,SomeDelegation,and_assoc]

variable (tenant : Text)

theorem delegates_covers (selector : ResourceSelector) (tenant : Text) :
    (delegates selector = some .root ∨ delegates selector = some (.tenant tenant)) ↔
      ResourceSelector.Covers selector tenant := by
  unfold ResourceSelector.Covers
  cases selector with
  | «namespace» scope =>
    simp only [delegates,Option.some.injEq,reduceCtorEq,false_or,ResourceSelector.namespace.injEq]
    exact Or.comm
  | _ => simp [delegates]

theorem delegationScope_admits :
    (delegationScope grants).any (·.admitsTenant tenant) = true ↔
      .root ∈ delegationScopes grants ∨ .tenant tenant ∈ delegationScopes grants := by
  have listed : tenant ∈ tenantNames (delegationScopes grants) ↔ .tenant tenant ∈ delegationScopes grants := by
    unfold tenantNames
    rw [List.mem_filterMap]
    constructor
    · rintro ⟨scope,member,names⟩
      cases scope with
      | root => cases names
      | tenant name =>
        cases names
        exact member
    · exact fun member => ⟨.tenant tenant,member,rfl⟩
  unfold delegationScope
  dsimp only
  split
  · rename_i root
    exact ⟨fun _ => .inl (by simpa using root),fun _ => rfl⟩
  · rename_i unrooted
    replace unrooted : .root ∉ delegationScopes grants := by simpa using unrooted
    rw [← listed]
    split
    · rename_i empty
      rw [List.isEmpty_iff] at empty
      simp [empty,unrooted]
    · simp [DelegationScope.admitsTenant,unrooted]

theorem delegationScope_admits_iff :
    (delegationScope grants).any (·.admitsTenant tenant) = true ↔
      SomeDelegation grants fun grant => ∃ selector ∈ grant.selectors, ResourceSelector.Covers selector tenant := by
  rw [delegationScope_admits,mem_delegationScopes,mem_delegationScopes]
  constructor
  · rintro (⟨grant,member,delegates,selector,listed,scope⟩ | ⟨grant,member,delegates,selector,listed,scope⟩)
    · exact ⟨grant,member,delegates,selector,listed,(delegates_covers selector tenant).mp (.inl scope)⟩
    · exact ⟨grant,member,delegates,selector,listed,(delegates_covers selector tenant).mp (.inr scope)⟩
  · rintro ⟨grant,member,delegates,selector,listed,covers⟩
    refine ((delegates_covers selector tenant).mpr covers).imp ?_ ?_
    · exact fun scope => ⟨grant,member,delegates,selector,listed,scope⟩
    · exact fun scope => ⟨grant,member,delegates,selector,listed,scope⟩

/-! The conjunction of one grant. -/

theorem matches_tenant (selector : ResourceSelector) (tenant : Text) :
    selector.matches id {tenant := some tenant} = true ↔ ResourceSelector.Holds selector tenant := by
  unfold ResourceSelector.Holds
  cases selector with
  | tenant name =>
    simp only [ResourceSelector.matches,beq_iff_eq,Option.some.injEq,ResourceSelector.tenant.injEq,reduceCtorEq,or_false]
    exact eq_comm
  | «namespace» scope =>
    cases scope with
    | root => simp [ResourceSelector.matches,Namespace.matchesTenant]
    | tenant name =>
      simp only [ResourceSelector.matches,Namespace.matchesTenant,beq_iff_eq,Option.some.injEq,ResourceSelector.namespace.injEq,
        Namespace.tenant.injEq,reduceCtorEq,or_false,false_or]
      exact eq_comm
  | locality scope => cases scope <;> simp [ResourceSelector.matches,LocalityScope.matches]
  | _ => simp [ResourceSelector.matches]

theorem grantAllows_tenant (s : State) (holder : ProcessId) (tenant : Text) (grant : CapabilityGrant) :
    s.grantAllows id holder {tenant := some tenant} grant = true ↔ ∀ selector ∈ grant.selectors,
        ResourceSelector.Holds selector tenant := by
  unfold State.grantAllows
  rw [List.all_eq_true]
  refine forall₂_congr fun selector _ => ?_
  rw [← matches_tenant]
  cases selector with
  | _ => rfl

theorem conjunctionAdmits_iff (s : State) (holder : ProcessId) (tenant : Text) (grant : CapabilityGrant) :
    conjunctionAdmits s holder tenant grant = true ↔
      ∀ selector ∈ grant.selectors, ResourceSelector.Holds selector tenant ∨ selector = .namespace .root := by
  unfold conjunctionAdmits
  rw [List.all_eq_true]
  refine forall₂_congr fun selector _ => ?_
  rw [← matches_tenant]
  cases selector with
  | «namespace» scope =>
    cases scope with
    | root | tenant _ => simp
  | children => simp [State.selectorMatchesChildren,ResourceSelector.matches]
  | _ => simp

/-! What the two requests decide. -/

theorem validateGrants_each {grants : List CapabilityGrant} (accepted : validateGrants grants = .ok ()) :
    ∀ grant ∈ grants, validateGrant grant = .ok () := by
  induction grants with
  | nil => exact nofun
  | cons grant rest ih =>
    change (validateGrant grant >>= fun _ => validateGrants rest) = .ok () at accepted
    cases first : validateGrant grant with
    | error error =>
      rw [first] at accepted
      cases accepted
    | ok _ =>
      rw [first] at accepted
      intro other member
      obtain rfl | later := List.mem_cons.mp member
      · exact first
      · exact ih accepted other later

theorem validateGrant_scope {grant : CapabilityGrant} (accepted : validateGrant grant = .ok ())
    (delegates : grant.capability = .delegateGrants) :
    ∃ selector ∈ grant.selectors, (∃ name, selector = .tenant name) ∨ ∃ scope, selector = .namespace scope := by
  unfold validateGrant at accepted
  split at accepted
  · cases accepted
  · rename_i some
    simp only [delegates,beq_self_eq_true,Bool.true_and,Bool.not_eq_true',Bool.not_eq_false] at some
    obtain ⟨selector,member,named⟩ := List.any_eq_true.mp some
    refine ⟨selector,member,?_⟩
    cases selector with
    | tenant name => exact .inl ⟨name,rfl⟩
    | «namespace» scope => exact .inr ⟨scope,rfl⟩
    | _ => cases named

section
variable {s : State} {processId : ProcessId} {authority : ProcessAuthority} {own requested : Text}
  (held : s.authorities.lookup processId = some authority) (tenanted : authority.tenant = some own) (other : own ≠ requested)
include held tenanted other

theorem resolveSpawnTenant_admits_iff :
    (resolveSpawnTenant processId (some requested) s).1 = .ok (some requested) ↔
      (delegationScope authority.grants).any (·.admitsTenant requested) = true := by
  have tenant : s.processTenant processId = some own := by rw [State.processTenant,held,Option.bind_some,tenanted]
  unfold resolveSpawnTenant
  rw [get_bind]
  dsimp only
  rw [tenant,if_neg (fun same => other (Option.some.inj same)),held]
  change ((ensure ((delegationScope authority.grants).any (·.admitsTenant requested)) (denied (.spawnTenant requested)) >>=
    fun _ => pure (some requested)) s).1 = _ ↔ _
  cases (delegationScope authority.grants).any (·.admitsTenant requested) with
  | true => exact ⟨fun _ => rfl,fun _ => rfl⟩
  | false => exact ⟨nofun,nofun⟩

theorem authorizeServingTenant_admits_iff :
    (authorizeServingTenant processId (some requested) s).1 = .ok requested ↔
      SomeDelegation authority.grants fun grant => s.grantAllows id processId {tenant := some requested} grant = true := by
  have tenant : s.processTenant processId = some own := by rw [State.processTenant,held,Option.bind_some,tenanted]
  have decides : s.authorises id processId .delegateGrants {tenant := some requested} = true ↔
      SomeDelegation authority.grants fun grant => s.grantAllows id processId {tenant := some requested} grant = true := by
    rw [State.authorises,held]
    simp only [List.any_eq_true,Bool.and_eq_true,beq_iff_eq,SomeDelegation]
  have foreign : (some own == some requested) = false := by
    rw [beq_eq_false_iff_ne]
    exact fun same => other (Option.some.inj same)
  rw [← decides]
  unfold authorizeServingTenant
  rw [get_bind]
  dsimp only
  rw [tenant,foreign]
  cases s.authorises id processId .delegateGrants {tenant := some requested} with
  | true => exact ⟨fun _ => rfl,fun _ => rfl⟩
  | false => exact ⟨(fun bad => by cases bad),(fun bad => by cases bad)⟩

end

/-- The deciders agree on another tenant exactly if a grant that covers it comes with a grant whose
every selector holds of it. -/
theorem delegation_agrees_iff {s : State} {processId : ProcessId} {authority : ProcessAuthority} {own requested : Text}
    (held : s.authorities.lookup processId = some authority) (tenanted : authority.tenant = some own)
    (accepted : validateGrants authority.grants = .ok ()) (other : own ≠ requested) :
    (((resolveSpawnTenant processId (some requested) s).1 = .ok (some requested) ↔
          (authorizeServingTenant processId (some requested) s).1 = .ok requested) ∧
        ((delegationScope authority.grants).any (·.admitsTenant requested) = true ↔
          SomeDelegation authority.grants fun grant => conjunctionAdmits s processId requested grant = true)) ↔
      ((SomeDelegation authority.grants fun grant => ∃ selector ∈ grant.selectors, ResourceSelector.Covers selector requested) →
        SomeDelegation authority.grants fun grant => ∀ selector ∈ grant.selectors, ResourceSelector.Holds selector requested) := by
  rw [resolveSpawnTenant_admits_iff held tenanted other,authorizeServingTenant_admits_iff held tenanted other,delegationScope_admits_iff]
  simp only [grantAllows_tenant,conjunctionAdmits_iff]
  -- what holds of the tenant in every selector is in the conjunction, and that is in the set
  have weaken : (SomeDelegation authority.grants fun grant => ∀ selector ∈ grant.selectors,
      ResourceSelector.Holds selector requested) →
      SomeDelegation authority.grants fun grant => ∀ selector ∈ grant.selectors,
        ResourceSelector.Holds selector requested ∨ selector = .namespace .root :=
    fun some => some.imp fun grant _ _ holds selector member => .inl (holds selector member)
  have collect : (SomeDelegation authority.grants fun grant => ∀ selector ∈ grant.selectors,
        ResourceSelector.Holds selector requested ∨ selector = .namespace .root) →
      SomeDelegation authority.grants fun grant => ∃ selector ∈ grant.selectors, ResourceSelector.Covers selector requested := by
    refine fun some => some.imp fun grant member delegates holds => ?_
    obtain ⟨selector,listed,named⟩ := validateGrant_scope (validateGrants_each accepted grant member) delegates
    refine ⟨selector,listed,?_⟩
    obtain (same | same | same) | same := holds selector listed
    · exact .inl same
    · exact .inr (.inl same)
    · subst same
      obtain ⟨_,bad⟩ | ⟨_,bad⟩ := named
      · cases bad
      · cases bad
    · exact .inr (.inr same)
  constructor
  · exact fun agrees covered => agrees.1.mp covered
  · intro holds
    exact ⟨⟨holds,fun strict => collect (weaken strict)⟩,fun covered => weaken (holds covered),collect⟩

def acmeHolding (selectors : List ResourceSelector) : State :=
  {authorities := (∅ : Map ProcessId ProcessAuthority).insert 7 ⟨[⟨.delegateGrants,selectors⟩],some "acme".toList,none,[],[]⟩}

theorem delegation_agrees_beta :
    let s := acmeHolding [.tenant "beta".toList]
    ((resolveSpawnTenant 7 (some "beta".toList) s).1 = .ok (some "beta".toList) ↔
        (authorizeServingTenant 7 (some "beta".toList) s).1 = .ok "beta".toList) ∧
      ((delegationScope [⟨.delegateGrants,[.tenant "beta".toList]⟩]).any (·.admitsTenant "beta".toList) = true ↔
        SomeDelegation [⟨.delegateGrants,[.tenant "beta".toList]⟩] fun grant => conjunctionAdmits s 7 "beta".toList grant = true) := by
  apply (@delegation_agrees_iff (acmeHolding [.tenant "beta".toList]) 7
    ⟨[⟨.delegateGrants,[.tenant "beta".toList]⟩],some "acme".toList,none,[],[]⟩ "acme".toList "beta".toList rfl rfl rfl
        (by decide)).mpr
  intro _
  refine ⟨_,List.mem_singleton_self _,rfl,?_⟩
  intro selector member
  exact .inl (List.mem_singleton.mp member)

/-- Root admits a child of beta but no allocation for it, and two tenants in one grant admit a child of each. -/
theorem delegation_disagrees :
    (validateGrants [⟨.delegateGrants,[.namespace .root]⟩] = .ok () ∧
        (resolveSpawnTenant 7 (some "beta".toList) (acmeHolding [.namespace .root])).1 = .ok (some "beta".toList) ∧
        (authorizeServingTenant 7 (some "beta".toList) (acmeHolding [.namespace .root])).1 = .error
            (denied (.servingTenant "beta".toList))) ∧
      validateGrants [⟨.delegateGrants,[.tenant "beta".toList,.tenant "gamma".toList]⟩] = .ok () ∧
      (delegationScope [⟨.delegateGrants,[.tenant "beta".toList,.tenant "gamma".toList]⟩]).any
          (·.admitsTenant "beta".toList) = true ∧
      conjunctionAdmits (acmeHolding [.tenant "beta".toList,.tenant "gamma".toList]) 7 "beta".toList
        ⟨.delegateGrants,[.tenant "beta".toList,.tenant "gamma".toList]⟩ = false := by
  decide +kernel

end Selium.Runtime
