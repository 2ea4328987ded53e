import Mathlib.Algebra.BigOperators.Group.List.Basic
import Mathlib.Algebra.Order.BigOperators.Group.List
import SeoPlatform.Foundation.Mapping

namespace SeoPlatform.Foundation.Accounts

open SeoPlatform.Foundation.Mapping

variable {κ K : Type} [DecidableEq κ] [AddCommMonoid K]

/-- What a key has, which is nothing for one without an account. -/
def balance (accounts : Dictionary κ K) (key : κ) : K := (accounts.get? key).getD 0

def total (accounts : Dictionary κ K) : K := accounts.values.sum

/-- Only an account that exists can be credited. -/
def credit (accounts : Dictionary κ K) (key : κ) (amount : K) : Option (Dictionary κ K) :=
  (accounts.get? key).map fun held => accounts.set key (held + amount)

/-- The same amount to each of several keys, and again to one that comes again. -/
def creditAll (amount : K) (accounts : Dictionary κ K) (keys : List κ) : Option (Dictionary κ K) :=
  keys.foldlM (fun accounts key => credit accounts key amount) accounts

theorem values_eq_balances (accounts : Dictionary κ K) :
    accounts.values = accounts.keys.map (balance accounts) := by
  unfold Dictionary.values Dictionary.keys
  rw [List.map_map]
  refine List.map_congr_left fun entry hentry => ?_
  unfold balance
  rw [Function.comp_apply,
    Dictionary.get?_eq_some_iff.mpr (show (entry.1, entry.2) ∈ _ from hentry)]
  rfl

/-- Everything there is, by account. -/
theorem total_eq_balances (accounts : Dictionary κ K) :
    total accounts = (accounts.keys.map (balance accounts)).sum := by
  unfold total
  rw [values_eq_balances]

omit [DecidableEq κ] in
theorem total_fromKeys {keys : List κ} (h : keys.Nodup) (amount : K) :
    total (Dictionary.fromKeys keys h amount) = keys.length • amount := by
  unfold total Dictionary.values Dictionary.fromKeys
  simp [Function.comp_def]

theorem balance_fromKeys {keys : List κ} (h : keys.Nodup) {amount : K} {key : κ}
    (hkey : key ∈ keys) : balance (Dictionary.fromKeys keys h amount) key = amount := by
  unfold balance
  rw [Dictionary.get?_fromKeys h hkey]
  rfl

theorem sum_map_ite_of_nodup {keys : List κ} (h : keys.Nodup) {key : κ} (hkey : key ∈ keys)
    (amount : K) : (keys.map fun other => if other = key then amount else 0).sum = amount := by
  induction keys with
  | nil => cases hkey
  | cons first rest ih =>
      obtain ⟨hnew, hrest⟩ := List.nodup_cons.mp h
      rw [List.map_cons, List.sum_cons]
      rcases List.mem_cons.mp hkey with rfl | hlater
      · have hzero : (rest.map fun other => if other = key then amount else 0).sum = 0 := by
          apply List.sum_eq_zero
          intro x hx
          obtain ⟨other, hother, rfl⟩ := List.mem_map.mp hx
          exact if_neg fun (heq : other = key) => hnew (heq ▸ hother)
        rw [if_pos rfl, hzero, add_zero]
      · rw [if_neg (fun heq : first = key => hnew (heq ▸ hlater)), zero_add, ih hrest hlater]

/-- What a credit does: to the account, to the others, and to all there is. -/
theorem credit_spec {accounts : Dictionary κ K} {key : κ} (h : key ∈ accounts.keys) (amount : K) :
    ∃ after, credit accounts key amount = some after ∧ after.keys = accounts.keys ∧
      (∀ other, balance after other = balance accounts other + if other = key then amount else 0) ∧
      total after = total accounts + amount := by
  obtain ⟨held, hheld⟩ := Dictionary.mem_keys_iff.mp h
  have hkeys : (accounts.set key (held + amount)).keys = accounts.keys := by
    rw [Dictionary.keys_set, if_pos h]
  have hbalance : ∀ other, balance (accounts.set key (held + amount)) other =
      balance accounts other + if other = key then amount else 0 := by
    intro other
    unfold balance
    rw [Dictionary.get?_set]
    by_cases hother : other = key
    · subst hother
      rw [if_pos rfl, if_pos rfl, hheld]
      rfl
    · rw [if_neg hother, if_neg hother, add_zero]
  refine ⟨accounts.set key (held + amount), ?_, hkeys, hbalance, ?_⟩
  · unfold credit
    rw [hheld]
    rfl
  · rw [total_eq_balances, total_eq_balances, hkeys]
    rw [List.map_congr_left fun other _ => hbalance other, List.sum_map_add,
      sum_map_ite_of_nodup accounts.nodup_keys h]

theorem creditAll_spec {accounts : Dictionary κ K} {keys : List κ}
    (h : ∀ key ∈ keys, key ∈ accounts.keys) (amount : K) :
    ∃ after, creditAll amount accounts keys = some after ∧ after.keys = accounts.keys ∧
      (∀ other, balance after other = balance accounts other + keys.count other • amount) ∧
      total after = total accounts + keys.length • amount := by
  induction keys generalizing accounts with
  | nil =>
      refine ⟨accounts, rfl, rfl, ?_, ?_⟩
      · intro other
        rw [List.count_nil, zero_nsmul, add_zero]
      · rw [List.length_nil, zero_nsmul, add_zero]
  | cons key rest ih =>
      obtain ⟨next, hnext, hkeys, hbalance, htotal⟩ :=
        credit_spec (h key List.mem_cons_self) amount
      obtain ⟨after, hafter, hkeys', hbalance', htotal'⟩ :=
        @ih next fun other hother => hkeys ▸ h other (List.mem_cons_of_mem _ hother)
      refine ⟨after, ?_, hkeys'.trans hkeys, ?_, ?_⟩
      · unfold creditAll
        rw [List.foldlM_cons, hnext]
        exact hafter
      · intro other
        rw [hbalance', hbalance, List.count_cons, add_assoc]
        congr 1
        by_cases hother : other = key
        · subst hother
          simp [succ_nsmul, add_comm]
        · simp [hother, Ne.symm hother]
      · rw [htotal', htotal, List.length_cons, succ_nsmul, add_assoc, add_comm amount]

end SeoPlatform.Foundation.Accounts
