import Selium.Kernel.Tables
import Selium.Lib.Trace

/-! The books of one quota counter. -/
namespace Selium.Kernel
open Lib Abi
open QuotaTable (tryConsume state_insert)

def QuotaTable.used (table : QuotaTable) (tenant : Text) (cls : ResourceClass) : Nat := (table.state tenant cls).used

inductive QuotaCall where
  | tryConsume (amount : Nat)
  | forceConsume (amount : Nat)
  | release (amount : Nat)
  | set (limit : Nat)
  | clear
  deriving DecidableEq

/-- A table, with what was consumed and given back so far. -/
structure Account where
  table : QuotaTable := ∅
  consumed : Nat := 0
  released : Nat := 0

namespace Account
variable (tenant : Text) (cls : ResourceClass)

def call (account : Account) : QuotaCall → Account
  | .tryConsume amount =>
    match account.table.tryConsume tenant cls amount with
    | (.ok (),table) => {account with table := table, consumed := account.consumed + amount}
    | (.error _,table) => {account with table := table}
  | .forceConsume amount => {account with table := account.table.forceConsume tenant cls amount, consumed := account.consumed + amount}
  | .release amount => {account with table := account.table.release tenant cls amount, released := account.released + amount}
  | .set limit => {account with table := account.table.set tenant cls limit}
  | .clear => {account with table := account.table.clear tenant cls}

/-- Releases stay within what was consumed, and totals within 64 bits. -/
def Sound (account : Account) (made : QuotaCall) : Prop :=
  (account.call tenant cls made).released ≤ (account.call tenant cls made).consumed ∧ (account.call tenant cls made).consumed < 2^64

def Agrees (account : Account) : Prop := account.table.used tenant cls + account.released = account.consumed

def Settled (account : Account) (made : QuotaCall) : Prop := made = .clear → account.consumed = account.released

variable {tenant cls}

theorem agrees_call {account : Account} {made : QuotaCall} (named : tenant ≠ []) (agrees : account.Agrees tenant cls)
    (sound : account.Sound tenant cls made) : (account.call tenant cls made).Agrees tenant cls ↔ account.Settled made := by
  have counted : ¬tenant.isEmpty = true := by rwa [List.isEmpty_iff]
  unfold Agrees QuotaTable.used at agrees ⊢
  unfold Sound at sound
  cases made with
  | tryConsume amount =>
    refine iff_of_true ?_ (fun bad => by cases bad)
    by_cases refused : amount > (account.table.state tenant cls).limit - (account.table.state tenant cls).used
    · simp only [call,tryConsume,if_neg counted,if_pos refused,state_insert,if_true]
      exact agrees
    · simp only [call,tryConsume,if_neg counted,if_neg refused,state_insert,if_true] at sound ⊢
      omega
  | forceConsume amount =>
    refine iff_of_true ?_ (fun bad => by cases bad)
    simp only [call,QuotaTable.forceConsume,if_neg counted,state_insert,if_true] at sound ⊢
    omega
  | release amount =>
    refine iff_of_true ?_ (fun bad => by cases bad)
    have used : ((account.table.release tenant cls amount).state tenant cls).used = (account.table.state tenant cls).used - amount := by
      rw [QuotaTable.release,if_neg counted]
      split
      · rename_i missing
        rw [QuotaTable.state,missing,Option.getD_none,Nat.zero_sub]
      · rename_i counter found
        rw [state_insert,if_pos rfl,QuotaTable.state,found,Option.getD_some]
    simp only [call,used] at sound ⊢
    omega
  | set limit =>
    refine iff_of_true ?_ (fun bad => by cases bad)
    simp only [call,QuotaTable.set,state_insert,if_true]
    exact agrees
  | clear =>
    simp only [call,QuotaTable.clear,QuotaTable.state,AList.lookup_erase,Option.getD_none,Settled,true_implies] at sound ⊢
    omega

theorem agrees_calls (named : tenant ≠ []) (calls : List QuotaCall) : ∀ {account : Account}, account.Agrees tenant cls →
    During (call tenant cls) (Sound tenant cls) account calls →
      (During (call tenant cls) (fun account made => (account.call tenant cls made).Agrees tenant cls) account calls ↔
        During (call tenant cls) Settled account calls) := by
  induction calls with
  | nil => exact fun _ _ => Iff.rfl
  | cons made rest ih =>
    intro account agrees sound
    have one := agrees_call named agrees sound.1
    constructor
    · rintro ⟨next,later⟩
      exact ⟨one.mp next,(ih next sound.2).mp later⟩
    · rintro ⟨settled,later⟩
      exact ⟨one.mpr settled,(ih (one.mpr settled) sound.2).mpr later⟩

end Account

/-- The usage is what was consumed and not given back after every call, exactly if counters are removed only
while nothing is outstanding; a ceiling set after the calls is enforced against the usage. -/
theorem quota_accounts_iff (tenant : Text) (cls : ResourceClass) (named : tenant ≠ []) (calls : List QuotaCall)
    (sound : During (Account.call tenant cls) (Account.Sound tenant cls) {} calls) :
    (During (Account.call tenant cls) (fun account made => (account.call tenant cls made).Agrees tenant cls) {} calls ↔
        During (Account.call tenant cls) Account.Settled {} calls) ∧
      let last := (calls.foldl (Account.call tenant cls) {}).table
      ∀ limit amount, ((last.set tenant cls limit).tryConsume tenant cls amount).1 = .ok () ↔
          amount ≤ limit - last.used tenant cls := by
  refine ⟨Account.agrees_calls named calls rfl sound,fun limit amount => ?_⟩
  have counted : ¬tenant.isEmpty = true := by rwa [List.isEmpty_iff]
  rw [tryConsume,if_neg counted,QuotaTable.set,state_insert,if_pos rfl]
  dsimp only [QuotaTable.used]
  split_ifs with refused
  · exact iff_of_false (fun bad => by cases bad) (Nat.not_le.mpr refused)
  · exact iff_of_true rfl (Nat.le_of_not_lt refused)

def acmeCalls : List QuotaCall := [.tryConsume 5,.release 5,.clear,.set 3,.forceConsume 4,.tryConsume 1]

theorem quota_accounts_acme :
    During (Account.call "acme".toList .cpu) (fun account made => (account.call "acme".toList .cpu made).Agrees "acme".toList .cpu) {}
      acmeCalls := by
  refine ((quota_accounts_iff "acme".toList .cpu (by decide) acmeCalls ?_).1).mpr ?_
  · simp only [acmeCalls,During,Account.Sound]
    decide
  · simp only [acmeCalls,During,Account.Settled]
    decide

/-- A removed counter forgets what is in use, and a ceiling set later is not enforced against it. -/
theorem quota_cleared :
    let account := [QuotaCall.tryConsume 5,.clear].foldl (Account.call "acme".toList .cpu) {}
    account.consumed - account.released = 5 ∧ account.table.used "acme".toList .cpu = 0 ∧
      ((account.table.set "acme".toList .cpu 5).tryConsume "acme".toList .cpu 5).1 = .ok () := by
  decide

end Selium.Kernel
