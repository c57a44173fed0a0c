import Selium.Guest.Replay
import Selium.Identity.Principals
import Selium.Lib.Trace

/-! What a restart of the identity guest gives back, and what is left of a revocation that failed. -/
namespace Selium.Identity
open Lib Abi Memory Kernel

/-! A table that shows a registry: the keys come from those of the registry, and some values are shown as a delete. -/

section
variable {κ υ K V : Type} [DecidableEq κ] [DecidableEq K]

def valueIn (mutations : List (Mutation K V)) (key : K) : Option V := ((tableAfter mutations).lookup key).bind (·.value)

theorem valueIn_snoc (mutations : List (Mutation K V)) (mutation : Mutation K V) (key : K) :
    valueIn (mutations ++ [mutation]) key = if key = mutation.key then mutation.value else valueIn mutations key := by
  rw [valueIn,tableAfter,List.foldl_concat,Mutation.apply,Map.lookup_insert_if]
  split
  · rfl
  · rfl

theorem valueIn_absent {mutations : List (Mutation K V)} {key : K} : key ∉ mutations.map (·.key) → valueIn mutations key = none := by
  induction mutations using List.reverseRecOn with
  | nil => exact fun _ => rfl
  | append_singleton mutations mutation ih =>
    intro absent
    rw [List.map_append,List.mem_append,not_or,List.map_singleton,List.mem_singleton] at absent
    rw [valueIn_snoc,if_neg absent.2]
    exact ih absent.1

theorem valueIn_mem {mutations : List (Mutation K V)} {mutation : Mutation K V} :
    (mutations.map (·.key)).Nodup → mutation ∈ mutations →
    valueIn mutations mutation.key = mutation.value := by
  induction mutations using List.reverseRecOn with
  | nil => exact nofun
  | append_singleton mutations last ih =>
    intro distinct member
    rw [List.map_append,List.nodup_append] at distinct
    rw [valueIn_snoc]
    rcases List.mem_append.mp member with before | same
    · rw [if_neg (distinct.2.2 _ (List.mem_map_of_mem before) _ List.mem_cons_self)]
      exact ih distinct.1 before
    · rw [if_pos (by rw [List.mem_singleton.mp same]),List.mem_singleton.mp same]

omit [DecidableEq K]

def mutationOf (key : K) : Option V → Mutation K V
  | some value => .set key value
  | none => .delete key

@[simp] theorem key_mutationOf (key : K) (value : Option V) : (mutationOf key value).key = key := by cases value <;> rfl

@[simp] theorem value_mutationOf (key : K) (value : Option V) : (mutationOf key value).value = value := by cases value <;> rfl

variable [DecidableEq K]

structure Shows (keyOf : κ → K) (shown : υ → Option V) (registry : Map κ υ) (mutations : List (Mutation K V)) : Prop where
  entries : ∀ key, valueIn mutations (keyOf key) = (registry.lookup key).bind shown
  others : ∀ key, (∀ entry, key ≠ keyOf entry) → valueIn mutations key = none

namespace Shows
variable {keyOf : κ → K} {shown : υ → Option V} {registry : Map κ υ} {mutations others : List (Mutation K V)}

theorem nil : Shows keyOf shown (∅ : Map κ υ) [] := ⟨fun _ => rfl,fun _ _ => rfl⟩

theorem valueIn_eq (shows : Shows keyOf shown registry mutations) (again : Shows keyOf shown registry others) (key : K) :
    valueIn mutations key = valueIn others key := by
  by_cases known : ∃ entry, key = keyOf entry
  · obtain ⟨entry,rfl⟩ := known
    rw [shows.entries,again.entries]
  · have none := not_exists.mp known
    rw [shows.others key none,again.others key none]

theorem snoc (shows : Shows keyOf shown registry mutations) (injective : Function.Injective keyOf) {later : Map κ υ}
    {key : κ} {value : Option V}
    (own : (later.lookup key).bind shown = value) (rest : ∀ other, other ≠ key → later.lookup other = registry.lookup other) :
    Shows keyOf shown later (mutations ++ [mutationOf (keyOf key) value]) := by
  constructor
  · intro other
    rw [valueIn_snoc,key_mutationOf,value_mutationOf]
    split
    · rename_i same
      rw [injective same,own]
    · rename_i different
      rw [shows.entries,rest other fun same => different (congrArg keyOf same)]
  · intro other none
    rw [valueIn_snoc,key_mutationOf,if_neg (none key)]
    exact shows.others other none

theorem republish (injective : Function.Injective keyOf) (registry : Map κ υ) :
    Shows keyOf shown registry (registry.entries.map fun entry => mutationOf (keyOf entry.1) (shown entry.2)) := by
  have keys : (registry.entries.map fun entry => mutationOf (keyOf entry.1) (shown entry.2)).map (·.key) = registry.keys.map keyOf := by
    simp [AList.keys,List.keys,Function.comp_def]
  have distinct := keys ▸ registry.nodupKeys.map injective
  constructor
  · intro key
    cases found : registry.lookup key with
    | some value =>
      have member := List.mem_map_of_mem (f := fun entry : Sigma fun _ : κ => υ => mutationOf (keyOf entry.1) (shown entry.2))
        ((Map.lookup_iff_mem registry key value).mp found)
      simpa using valueIn_mem distinct member
    | none =>
      refine valueIn_absent ?_
      rw [keys,List.mem_map]
      rintro ⟨other,inside,same⟩
      exact AList.lookup_eq_none.mp found (AList.mem_keys.mpr (injective same ▸ inside))
  · intro other none
    refine valueIn_absent ?_
    rw [keys,List.mem_map]
    rintro ⟨entry,_,same⟩
    exact none entry same.symm

end Shows
end

/-! The guest. -/

def anchorShown : Bytes → Option Bytes := some

def grantShown (grants : Bytes) : Option Bytes := if grants.isEmpty then none else some grants

theorem grantMutation_eq (fingerprint grants : Bytes) : grantMutation fingerprint grants = mutationOf fingerprint (grantShown grants) := by
  unfold grantMutation grantShown
  split
  · rfl
  · rfl

theorem anchorKey_injective : Function.Injective anchorKey := fun _ _ same => List.append_cancel_left same

/-- The encodings that a restart goes through: of what a replay answers and of the records of both logs. -/
structure LogEncodings where
  replies : Guest.ReplayEncoding
  tenants : Guest.Encoding TenantRecord
  principals : Guest.Encoding PrincipalRecord

/-- What the two durable logs hold for `state`. -/
structure LogEncodings.Stores (encodings : LogEncodings) (state : IdentityState) (tenantLog principalLog : List StorageRecord) : Prop where
  tenants : tenantLog.map (·.payload) = state.tenantLog.map encodings.tenants.encode
  principals : principalLog.map (·.payload) = state.principalLog.map encodings.principals.encode

def IdentityState.republished (state : IdentityState) (tenants : Map Text Bytes) (principals : Map Bytes Bytes) : IdentityState :=
  {state with
    tenants, principals
    anchors := tenants.entries.map fun entry => .set (anchorKey entry.1) entry.2
    grants := principals.entries.map fun entry => grantMutation entry.1 entry.2}

/-- A boot up to the tables that it publishes: `none` if a replay does not return within `turns` polls or fails. -/
def IdentityState.restarted (encodings : LogEncodings) (allocates : Nat → Bool) (turns : Nat)
    (tenantLog principalLog : List StorageRecord)
    (state : IdentityState) : Option IdentityState := do
  let tenantRecords ← Guest.replay encodings.replies allocates turns tenantLog
  let principalRecords ← Guest.replay encodings.replies allocates turns principalLog
  return state.republished
    (Guest.rebuildPayloads encodings.tenants.decode applyTenant ∅ (tenantRecords.map (·.payload)))
    (Guest.rebuildPayloads encodings.principals.decode applyPrincipal ∅ (principalRecords.map (·.payload)))

def Answers.Faultless (answers : Answers) : Prop := answers.encoded = .ok () ∧ answers.appended = .ok () ∧ answers.published = .ok ()

structure IdentityState.Synced (state : IdentityState) : Prop where
  tenants : state.tenants = state.tenantLog.foldl applyTenant ∅
  principals : state.principals = state.principalLog.foldl applyPrincipal ∅
  anchors : Shows anchorKey anchorShown state.tenants state.anchors
  grants : Shows id grantShown state.principals state.grants

namespace IdentityState.Synced
variable {state : IdentityState} {answers : Answers}

section
variable (synced : state.Synced)
include synced

theorem tenant (record : TenantRecord) {tenant : Text} {shown : Option Bytes}
    (own : (applyTenant state.tenants record).lookup tenant = shown)
    (rest : ∀ other, other ≠ tenant → (applyTenant state.tenants record).lookup other = state.tenants.lookup other) :
    Synced {state with
      tenantLog := state.tenantLog ++ [record], tenants := applyTenant state.tenants record
      anchors := state.anchors ++ [mutationOf (anchorKey tenant) shown]} where
  tenants := by rw [List.foldl_concat,← synced.tenants]
  principals := synced.principals
  anchors := synced.anchors.snoc anchorKey_injective (by rw [own]; cases shown <;> rfl) rest
  grants := synced.grants

theorem mint (faultless : answers.Faultless) (tenant : Text) : (mintTenantCa tenant answers state).2.Synced := by
  obtain ⟨encoded,appended,published⟩ := faultless
  unfold mintTenantCa
  rw [encoded,appended,published]
  cases answers.signed with
  | error error => exact synced
  | ok caCertDer =>
    exact synced.tenant (.onboard tenant caCertDer) (AList.lookup_insert _) fun other different => AList.lookup_insert_ne different

theorem revoke (faultless : answers.Faultless) (tenant : Text) : (revokeTenant tenant answers state).2.Synced := by
  obtain ⟨encoded,appended,published⟩ := faultless
  unfold revokeTenant
  rw [encoded,appended,published]
  cases answers.signed with
  | error error => exact synced
  | ok done => exact synced.tenant (.revoke tenant) (AList.lookup_erase _ _) fun other different => AList.lookup_erase_ne different

theorem principal (record : PrincipalRecord) {written : List (Mutation Bytes Bytes)}
    (shows : Shows id grantShown (applyPrincipal state.principals record) (state.grants ++ written)) :
    Synced {state with
      principalLog := state.principalLog ++ [record], principals := applyPrincipal state.principals record
      grants := state.grants ++ written} where
  tenants := synced.tenants
  principals := by rw [List.foldl_concat,← synced.principals]
  anchors := synced.anchors
  grants := shows

theorem write (record : PrincipalRecord) {shown : Option Bytes}
    (own : ((applyPrincipal state.principals record).lookup record.fingerprint).bind grantShown = shown) :
    Synced {state with
      principalLog := state.principalLog ++ [record], principals := applyPrincipal state.principals record
      grants := state.grants ++ [mutationOf record.fingerprint shown]} :=
  synced.principal record (synced.grants.snoc Function.injective_id own fun _ different => applyPrincipal_other _ _ different)

theorem issue (tenant : Text) (fingerprint : Bytes) :
    let record := PrincipalRecord.set tenant fingerprint ((state.principals.lookup fingerprint).getD [])
    Synced {state with principalLog := state.principalLog ++ [record], principals := applyPrincipal state.principals record} := by
  intro record
  have shows : Shows id grantShown (applyPrincipal state.principals record) (state.grants ++ []) := by
    rw [List.append_nil]
    refine ⟨fun other => ?_,synced.grants.others⟩
    rw [synced.grants.entries,applyPrincipal,Map.lookup_insert_if]
    split_ifs with same
    · rw [same]
      cases state.principals.lookup fingerprint with
      | none | some _ => rfl
    · rfl
  simpa using synced.principal record shows

end

variable (sha256 : Bytes → Bytes)

theorem step (synced : state.Synced) (faultless : answers.Faultless) (request : IdentityRequest) (tier : Tier) :
    (handleRequest sha256 request tier answers state).2.Synced := by
  obtain ⟨encoded,appended,published⟩ := faultless
  unfold handleRequest
  cases request with
  | mintTenantCa tenant | rotateTenantCa tenant =>
    dsimp only
    split
    · exact synced
    · exact synced.mint ⟨encoded,appended,published⟩ tenant
  | revokeTenant tenant =>
    dsimp only
    split
    · exact synced
    · exact synced.revoke ⟨encoded,appended,published⟩ tenant
  | issueUserCert tenant spkiDer =>
    dsimp only
    split
    · exact synced
    · unfold issueUserCert
      cases answers.signed with
      | error error => exact synced
      | ok certificateDer =>
        simp only [recordPrincipal,encoded,appended]
        exact synced.issue tenant (sha256 spkiDer)
  | setPrincipalGrants tenant fingerprint grants =>
    dsimp only
    split
    · exact synced
    · simp only [setPrincipalGrants,writeGrants,recordPrincipal,encoded,appended,published,grantMutation_eq]
      exact synced.write (.set tenant fingerprint grants) (by rw [PrincipalRecord.fingerprint,applyPrincipal,AList.lookup_insert]; rfl)
  | removePrincipal tenant fingerprint =>
    dsimp only
    split
    · exact synced
    · simp only [removePrincipal,writeGrants,recordPrincipal,encoded,appended,published]
      exact synced.write (.remove tenant fingerprint) (by rw [PrincipalRecord.fingerprint,applyPrincipal,AList.lookup_erase])

end IdentityState.Synced

section
variable (sha256 : Bytes → Bytes)

def IdentityState.run (calls : List Call) : IdentityState :=
  calls.foldl (fun state call => (handleRequest sha256 call.request call.tier call.answers state).2) {}

theorem synced_run (calls : List Call) (faultless : ∀ call ∈ calls, call.answers.Faultless) :
    (IdentityState.run sha256 calls).Synced := by
  refine List.foldlRecOn calls _ ⟨rfl,rfl,.nil,.nil⟩ fun state synced call member => ?_
  exact synced.step sha256 (faultless call member) call.request call.tier

structure Restores (state restarted : IdentityState) : Prop where
  tenants : restarted.tenants = state.tenants
  principals : restarted.principals = state.principals
  anchors : ∀ key, valueIn restarted.anchors key = valueIn state.anchors key
  grants : ∀ fingerprint, valueIn restarted.grants fingerprint = valueIn state.grants fingerprint

theorem IdentityState.Synced.restores {state : IdentityState} (synced : state.Synced) :
    Restores state (state.republished state.tenants state.principals) where
  tenants := rfl
  principals := rfl
  anchors := by
    have shows : Shows anchorKey anchorShown state.tenants (state.tenants.entries.map fun entry => .set (anchorKey entry.1) entry.2) :=
      .republish anchorKey_injective _
    exact shows.valueIn_eq synced.anchors
  grants := by
    simp only [IdentityState.republished,grantMutation_eq]
    exact (Shows.republish Function.injective_id _).valueIn_eq synced.grants

theorem IdentityState.restarted_some {state restarted : IdentityState} {encodings : LogEncodings} {allocates : Nat → Bool} {turns : Nat}
    {tenantLog principalLog : List StorageRecord}
    (booted : state.restarted encodings allocates turns tenantLog principalLog = some restarted) :
    (Guest.Delivers allocates (encodings.replies.encode tenantLog) ∧ Guest.Delivers allocates (encodings.replies.encode principalLog)) ∧
      restarted = state.republished
        (Guest.rebuildPayloads encodings.tenants.decode applyTenant ∅ (tenantLog.map (·.payload)))
        (Guest.rebuildPayloads encodings.principals.decode applyPrincipal ∅ (principalLog.map (·.payload))) := by
  obtain ⟨tenantRecords,first,rest⟩ := Option.bind_eq_some_iff.mp booted
  obtain ⟨principalRecords,second,last⟩ := Option.bind_eq_some_iff.mp rest
  obtain ⟨tenants,rfl⟩ := Guest.replay_returned first
  obtain ⟨principals,rfl⟩ := Guest.replay_returned second
  exact ⟨⟨tenants,principals⟩,(Option.some.inj last).symm⟩

/-- After any requests whose appends and writes succeed, a boot gives back both registries and what readers
find in both tables; and it comes that far exactly if both replays' outputs reach the guest. -/
theorem identity_restarts (calls : List Call) (faultless : ∀ call ∈ calls, call.answers.Faultless) (encodings : LogEncodings)
    (allocates : Nat → Bool) (tenantLog principalLog : List StorageRecord)
    (stores : encodings.Stores (IdentityState.run sha256 calls) tenantLog principalLog) :
    let state := IdentityState.run sha256 calls
    ((∃ turns restarted, state.restarted encodings allocates turns tenantLog principalLog = some restarted) ↔
      Guest.Delivers allocates (encodings.replies.encode tenantLog) ∧ Guest.Delivers allocates
          (encodings.replies.encode principalLog)) ∧
    ∀ turns restarted, state.restarted encodings allocates turns tenantLog principalLog = some restarted →
        Restores state restarted := by
  intro state
  have synced : state.Synced := synced_run sha256 calls faultless
  refine ⟨⟨fun ⟨_,_,booted⟩ => (IdentityState.restarted_some booted).1,fun ⟨tenants,principals⟩ => ⟨2,?_⟩⟩,fun turns
      restarted booted => ?_⟩
  · rw [IdentityState.restarted,Guest.replay_delivered tenants 0,Guest.replay_delivered principals 0]
    exact ⟨_,rfl⟩
  · rw [(IdentityState.restarted_some booted).2,stores.tenants,stores.principals,Guest.rebuildPayloads_eq,Guest.rebuildPayloads_eq]
    rw [← synced.tenants,← synced.principals]
    exact synced.restores

end

def setGrants (grants : Bytes) : Call := ⟨.operator,.setPrincipalGrants "a".toList [7] grants,accepted⟩

theorem faultless_setGrants (sets : List Bytes) : ∀ call ∈ sets.map setGrants, call.answers.Faultless := by
  intro call member
  obtain ⟨grants,_,rfl⟩ := List.mem_map.mp member
  exact ⟨rfl,rfl,rfl⟩

def tenantCodec : Codec TenantRecord :=
  .via (.sum (.pair .text (.list .byte)) .text)
    (fun | .onboard tenant caCertDer => .inl (tenant,caCertDer) | .revoke tenant => .inr tenant)
    (fun | .inl (tenant,caCertDer) => .onboard tenant caCertDer | .inr tenant => .revoke tenant)
    (fun record => by cases record <;> rfl)

def principalCodec : Codec PrincipalRecord :=
  .via (.sum (.pair .text (.pair (.list .byte) (.list .byte))) (.pair .text (.list .byte)))
    (fun | .set tenant fingerprint grants => .inl (tenant,fingerprint,grants) | .remove tenant fingerprint => .inr (tenant,fingerprint))
    (fun | .inl (tenant,fingerprint,grants) => .set tenant fingerprint grants | .inr (tenant,fingerprint) => .remove tenant fingerprint)
    (fun record => by cases record <;> rfl)

def plainEncodings : LogEncodings := ⟨Guest.paddedRecords,.ofCodec tenantCodec,.ofCodec principalCodec⟩

def storedGrants (grants : Bytes) : StorageRecord := ⟨0,0,[],principalCodec.write (.set "a".toList [7] grants)⟩

theorem identity_restarts_two : (IdentityState.run id [setGrants [1],setGrants [2]]).grants.length = 2 ∧
    let state := IdentityState.run id [setGrants [1],setGrants [2]]
    let restarted := state.restarted plainEncodings (fun _ => true)
    ((∃ turns after, restarted turns [] [storedGrants [1],storedGrants [2]] = some after) ↔
      Guest.Delivers (fun _ => true) (Guest.paddedRecords.encode []) ∧
        Guest.Delivers (fun _ => true) (Guest.paddedRecords.encode [storedGrants [1],storedGrants [2]])) ∧
    ∀ turns after, restarted turns [] [storedGrants [1],storedGrants [2]] = some after → Restores state after :=
  ⟨rfl,identity_restarts id _ (faultless_setGrants [[1],[2]]) plainEncodings _ _ _ ⟨rfl,rfl⟩⟩

/-- With 2^28 records in a log its replay never returns, whatever memory the guest has. -/
theorem identity_restart_never_returns : ∃ calls, (∀ call ∈ calls, call.answers.Faultless) ∧
    let state := IdentityState.run id calls
    ∀ tenantLog principalLog, plainEncodings.Stores state tenantLog principalLog →
      ∀ allocates turns, state.restarted plainEncodings allocates turns tenantLog principalLog = none := by
  refine ⟨(List.replicate (2^28) [1]).map setGrants,faultless_setGrants _,fun tenantLog principalLog stores allocates turns => ?_⟩
  have logged (sets : List Bytes) : (IdentityState.run id (sets.map setGrants)).principalLog.length = sets.length := by
    induction sets using List.reverseRecOn with
    | nil => rfl
    | append_singleton sets grants ih =>
      rw [List.length_append,← ih,List.map_append,IdentityState.run,List.foldl_append]
      exact List.length_append
  have many : 2^28 ≤ principalLog.length := by
    have same := congrArg List.length stores.principals
    rw [List.length_map,List.length_map,logged,List.length_replicate] at same
    exact same.ge
  rw [Option.eq_none_iff_forall_ne_some]
  intro restarted booted
  exact Guest.not_delivers_of_many many (IdentityState.restarted_some booted).1.2

/-! Revocations and the keyring. -/

structure Realm where
  keyring : Map Text Bytes
  identity : IdentityState

/-- The deletion of a key; the guest hears no more of an error than that the call failed. -/
def revokeCa (tenant : Text) (keyring : Map Text Bytes) : Except Text Bytes × Map Text Bytes :=
  if (keyring.lookup tenant).isNone then (.error "host error: hostcall create failed".toList,keyring)
  else (.ok [],keyring.erase tenant)

structure Faults where
  encoded : Except Text Unit := .ok ()
  appended : Except Text Unit := .ok ()
  published : Except Text Unit := .ok ()
  deriving DecidableEq

def Realm.revoke (tenant : Text) (faults : Faults) (realm : Realm) : IdentityResponse × Realm :=
  let (signed,keyring) := revokeCa tenant realm.keyring
  let (response,identity) :=
    handleRequest id (.revokeTenant tenant) .operator ⟨signed,faults.encoded,faults.appended,faults.published⟩ realm.identity
  (response,⟨keyring,identity⟩)

structure Realm.Gone (tenant : Text) (realm : Realm) : Prop where
  keyring : realm.keyring.lookup tenant = none
  registry : realm.identity.tenants.lookup tenant = none
  log : (realm.identity.tenantLog.foldl applyTenant ∅).lookup tenant = none
  anchors : valueIn realm.identity.anchors (anchorKey tenant) = none

/-- A revocation in which nothing fails completes exactly if the host still has the key. -/
theorem revoke_completes_iff (realm : Realm) (tenant : Text) :
    ((realm.revoke tenant {}).1 = .revoked tenant ∧ (realm.revoke tenant {}).2.Gone tenant) ↔
    (realm.keyring.lookup tenant).isSome = true := by
  unfold Realm.revoke revokeCa
  cases found : realm.keyring.lookup tenant with
  | none =>
    refine ⟨fun completes => ?_,nofun⟩
    cases completes.1
  | some key =>
    refine ⟨fun _ => rfl,fun _ => ⟨rfl,AList.lookup_erase _ _,AList.lookup_erase _ _,?_,?_⟩⟩
    · show ((realm.identity.tenantLog ++ [TenantRecord.revoke tenant]).foldl applyTenant ∅).lookup tenant = none
      rw [List.foldl_concat]
      exact AList.lookup_erase _ _
    · show valueIn (realm.identity.anchors ++ [.delete (anchorKey tenant)]) (anchorKey tenant) = none
      rw [valueIn_snoc]
      exact if_pos rfl

def acmeRealm : Realm where
  keyring := AList.singleton "acme".toList [1]
  identity := IdentityState.run id [⟨.operator,.mintTenantCa "acme".toList,⟨.ok [1],.ok (),.ok (),.ok ()⟩⟩]

/-- Wherever the first attempt fails behind the key, the next one stops at the key that is gone. -/
theorem revoke_stuck : acmeRealm.identity.tenants.lookup "acme".toList = some [1] ∧
    ∀ faults ∈ [({encoded := .error []} : Faults),{appended := .error []},{published := .error []}],
      ∃ failed again, (acmeRealm.revoke "acme".toList faults).1 = .error "revoke".toList failed ∧
        ((acmeRealm.revoke "acme".toList faults).2.revoke "acme".toList {}).1 = .error "revoke".toList again ∧
        valueIn ((acmeRealm.revoke "acme".toList faults).2.revoke "acme".toList {}).2.identity.anchors "client-ca-acme".toList
            = some [1] := by
  refine ⟨by decide,?_⟩
  intro faults member
  rcases List.mem_cons.mp member with rfl | member
  · exact ⟨_,_,rfl,rfl,by decide⟩
  rcases List.mem_cons.mp member with rfl | member
  · exact ⟨_,_,rfl,rfl,by decide⟩
  · rw [List.mem_singleton.mp member]
    exact ⟨_,_,rfl,rfl,by decide⟩

end Selium.Identity
