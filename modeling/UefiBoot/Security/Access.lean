import UefiBoot.Lib.Select
import UefiBoot.Security.Random

/-!
# `Security.Access` — users, policies and isolation domains of `security.cpp`

Users and policies are appended to their tables and never removed or rewritten; both lookups return the first
match, so a later entry with the same key is never seen. `Extends` is this order on states: what was there is
still there, at the same place. A step extends the state (`extends_step`), and a lookup that found an entry
finds the same entry in every extension (`Extends.findUser`, `Extends.findPolicy`).

Strings are read when they are compared; a null pointer is `none` and equals nothing.
-/

namespace UefiBoot
namespace Security

abbrev kMaxUsers : Nat := 8
abbrev kMaxPolicies : Nat := 8
abbrev kMaxDomains : Nat := 8
abbrev kMaxVmRegions : Nat := 8

/-- `Permission::Admin`. -/
def kAdmin : UInt16 := 0x10

inductive SecurityRole where
  | guest
  | user
  | admin
  deriving DecidableEq

structure SecurityUser where
  uid         : UInt32 := 0
  name        : Option String := none
  role        : SecurityRole := .guest
  permissions : UInt16 := 0
  active      : Bool := false

structure AccessPolicy where
  resource         : Option String := none
  ownerUid         : UInt32 := 0
  ownerPermissions : UInt16 := 0
  otherPermissions : UInt16 := 0
  active           : Bool := false

structure ProcessIsolationDomain where
  processId      : UInt64 := 0
  uid            : UInt32 := 0
  addressSpaceId : UInt64 := 0
  ipcRestricted  : Bool := false
  active         : Bool := false

structure VmRegionPolicy where
  base       : UInt64 := 0
  size       : UInt64 := 0
  protection : UInt8 := 0
  active     : Bool := false

/-- The globals of `security.cpp`, as `ResetSecurityStatus` leaves them. -/
structure State where
  users       : Fin kMaxUsers → SecurityUser := fun _ => {}
  policies    : Fin kMaxPolicies → AccessPolicy := fun _ => {}
  domains     : Fin kMaxDomains → ProcessIsolationDomain := fun _ => {}
  vmRegions   : Fin kMaxVmRegions → VmRegionPolicy := fun _ => {}
  userCount   : UInt32 := 0
  policyCount : UInt32 := 0
  secrets     : Secrets := {}

/-- `StringEquals`. -/
def stringEquals (a b : Option String) : Bool :=
  match a, b with
  | some a, some b => a == b
  | _, _           => false

namespace State

def createUser (s : State) (uid : UInt32) (name : Option String) (role : SecurityRole) (permissions : UInt16) :
    Bool × State :=
  if h : s.userCount.toNat < kMaxUsers then
    if uid = 0 ∨ name = none then (false, s)
    else
      (true,
        { s with
          users := Function.update s.users ⟨s.userCount.toNat, h⟩
            { uid := uid, name := name, role := role, permissions := permissions, active := true }
          userCount := s.userCount + 1 })
  else (false, s)

def findUser (s : State) (uid : UInt32) : Option (Fin kMaxUsers) :=
  Lib.firstSlot fun i => decide (i.val < s.userCount.toNat) && ((s.users i).active && (s.users i).uid == uid)

def hasUserPermission (user : SecurityUser) (permission : UInt16) : Bool :=
  user.permissions &&& permission == permission

def addAccessPolicy (s : State) (resource : Option String) (ownerUid : UInt32)
    (ownerPermissions otherPermissions : UInt16) : Bool × State :=
  if h : s.policyCount.toNat < kMaxPolicies then
    if resource = none ∨ s.findUser ownerUid = none then (false, s)
    else
      (true,
        { s with
          policies := Function.update s.policies ⟨s.policyCount.toNat, h⟩
            { resource := resource, ownerUid := ownerUid, ownerPermissions := ownerPermissions,
              otherPermissions := otherPermissions, active := true }
          policyCount := s.policyCount + 1 })
  else (false, s)

def findPolicy (s : State) (resource : Option String) : Option (Fin kMaxPolicies) :=
  Lib.firstSlot fun i =>
    decide (i.val < s.policyCount.toNat) && ((s.policies i).active && stringEquals (s.policies i).resource resource)

def checkAccess (s : State) (uid : UInt32) (resource : Option String) (permission : UInt16) : Bool :=
  match s.findUser uid, s.findPolicy resource with
  | some i, some k =>
    if hasUserPermission (s.users i) kAdmin then true
    else
      let policy := s.policies k
      let allowed := if policy.ownerUid = uid then policy.ownerPermissions else policy.otherPermissions
      allowed &&& permission == permission
  | _, _ => false

def addProcessIsolationDomain (s : State) (processId : UInt64) (uid : UInt32) (addressSpaceId : UInt64)
    (ipcRestricted : Bool) : Bool × State :=
  if processId = 0 ∨ addressSpaceId = 0 ∨ s.findUser uid = none then (false, s)
  else
    match Lib.firstSlot fun i => !(s.domains i).active with
    | none   => (false, s)
    | some i =>
      (true,
        { s with
          domains := Function.update s.domains i
            { processId := processId, uid := uid, addressSpaceId := addressSpaceId,
              ipcRestricted := ipcRestricted, active := true } })

def addVmRegion (s : State) (base size : UInt64) (protection : UInt8) : Bool × State :=
  if base = 0 ∨ size = 0 then (false, s)
  else
    match Lib.firstSlot fun i => !(s.vmRegions i).active with
    | none   => (false, s)
    | some i =>
      (true,
        { s with
          vmRegions := Function.update s.vmRegions i
            { base := base, size := size, protection := protection, active := true } })

end State

/-! ## Runs -/

/-- A call of one of the functions that write the globals. -/
inductive Op where
  | createUser (uid : UInt32) (name : Option String) (role : SecurityRole) (permissions : UInt16)
  | addAccessPolicy (resource : Option String) (ownerUid : UInt32) (ownerPermissions otherPermissions : UInt16)
  | addProcessIsolationDomain (processId : UInt64) (uid : UInt32) (addressSpaceId : UInt64) (ipcRestricted : Bool)
  | addVmRegion (base size : UInt64) (protection : UInt8)
  | seedSecureRandom (seed : UInt64)
  | draw (d : Draw)

def step (s : State) : Op → State
  | .createUser uid name role permissions => (s.createUser uid name role permissions).2
  | .addAccessPolicy resource ownerUid ownerPermissions otherPermissions =>
    (s.addAccessPolicy resource ownerUid ownerPermissions otherPermissions).2
  | .addProcessIsolationDomain processId uid addressSpaceId ipcRestricted =>
    (s.addProcessIsolationDomain processId uid addressSpaceId ipcRestricted).2
  | .addVmRegion base size protection => (s.addVmRegion base size protection).2
  | .seedSecureRandom seed => { s with secrets := (s.secrets.seedSecureRandom seed).2 }
  | .draw d => { s with secrets := s.secrets.draw d }

/-- The state after a run from `ResetSecurityStatus`. -/
abbrev reached (ops : List Op) : State := Lib.run step {} ops

/-! ## Extensions -/

/-- The users and policies of `s` are those of `t`, in the same slots. -/
structure Extends (t s : State) : Prop where
  userCount   : s.userCount.toNat ≤ t.userCount.toNat
  users       : ∀ i, i.val < s.userCount.toNat → t.users i = s.users i
  policyCount : s.policyCount.toNat ≤ t.policyCount.toNat
  policies    : ∀ i, i.val < s.policyCount.toNat → t.policies i = s.policies i

variable {s t u : State} {uid : UInt32} {resource : Option String}

theorem Extends.refl (s : State) : Extends s s :=
  ⟨Nat.le_refl _, fun _ _ => rfl, Nat.le_refl _, fun _ _ => rfl⟩

theorem Extends.trans (h : Extends u t) (h' : Extends t s) : Extends u s := by
  refine ⟨h'.userCount.trans h.userCount, fun i hi => ?_, h'.policyCount.trans h.policyCount, fun i hi => ?_⟩
  · rw [h.users i (Nat.lt_of_lt_of_le hi h'.userCount), h'.users i hi]
  · rw [h.policies i (Nat.lt_of_lt_of_le hi h'.policyCount), h'.policies i hi]

theorem toNat_count_succ {count : UInt32} (h : count.toNat < 8) : (count + 1).toNat = count.toNat + 1 := by
  have hone : (1 : UInt32).toNat = 1 := rfl
  rw [UInt32.toNat_add]
  omega

theorem extends_createUser (s : State) (uid : UInt32) (name : Option String) (role : SecurityRole)
    (permissions : UInt16) : Extends (s.createUser uid name role permissions).2 s := by
  unfold State.createUser
  split
  · rename_i hroom
    split
    · exact Extends.refl s
    · refine ⟨?_, fun i hi => ?_, Nat.le_refl _, fun _ _ => rfl⟩
      · rw [toNat_count_succ hroom]
        exact Nat.le_succ _
      · -- the new user goes behind all others
        refine Function.update_of_ne (fun h => ?_) _ _
        rw [h] at hi
        exact Nat.lt_irrefl _ hi
  · exact Extends.refl s

theorem extends_addAccessPolicy (s : State) (resource : Option String) (ownerUid : UInt32)
    (ownerPermissions otherPermissions : UInt16) :
    Extends (s.addAccessPolicy resource ownerUid ownerPermissions otherPermissions).2 s := by
  unfold State.addAccessPolicy
  split
  · rename_i hroom
    split
    · exact Extends.refl s
    · refine ⟨Nat.le_refl _, fun _ _ => rfl, ?_, fun i hi => ?_⟩
      · rw [toNat_count_succ hroom]
        exact Nat.le_succ _
      · refine Function.update_of_ne (fun h => ?_) _ _
        rw [h] at hi
        exact Nat.lt_irrefl _ hi
  · exact Extends.refl s

/-- **Tables only grow.** -/
theorem extends_step (s : State) (op : Op) : Extends (step s op) s := by
  cases op with
  | createUser uid name role permissions => exact extends_createUser s uid name role permissions
  | addAccessPolicy resource ownerUid ownerPermissions otherPermissions =>
      exact extends_addAccessPolicy s resource ownerUid ownerPermissions otherPermissions
  | addProcessIsolationDomain processId uid addressSpaceId ipcRestricted =>
      unfold step State.addProcessIsolationDomain
      dsimp only
      split
      · exact Extends.refl s
      · split <;> exact ⟨Nat.le_refl _, fun _ _ => rfl, Nat.le_refl _, fun _ _ => rfl⟩
  | addVmRegion base size protection =>
      unfold step State.addVmRegion
      dsimp only
      split
      · exact Extends.refl s
      · split <;> exact ⟨Nat.le_refl _, fun _ _ => rfl, Nat.le_refl _, fun _ _ => rfl⟩
  | seedSecureRandom seed => exact ⟨Nat.le_refl _, fun _ _ => rfl, Nat.le_refl _, fun _ _ => rfl⟩
  | draw d => exact ⟨Nat.le_refl _, fun _ _ => rfl, Nat.le_refl _, fun _ _ => rfl⟩

theorem extends_run (s : State) (ops : List Op) : Extends (Lib.run step s ops) s := by
  have hstep : ∀ t op, Extends t s → Extends (step t op) s := fun t op ht => (extends_step t op).trans ht
  exact Lib.run_invariant hstep (Extends.refl s) ops

/-! ## Lookups in an extension -/

theorem Extends.findUser (h : Extends t s) {i : Fin kMaxUsers} (hi : s.findUser uid = some i) :
    t.findUser uid = some i ∧ t.users i = s.users i := by
  obtain ⟨hfound, -⟩ := Lib.firstSlot_eq_some_iff.mp hi
  have hlt : i.val < s.userCount.toNat := by
    rw [Bool.and_eq_true, decide_eq_true_iff] at hfound
    exact hfound.1
  refine ⟨?_, h.users i hlt⟩
  -- up to `i`, the test reads the same users
  refine Lib.firstSlot_congr hi fun j hj => ?_
  have hj' : j.val < s.userCount.toNat := Nat.lt_of_le_of_lt hj hlt
  rw [h.users j hj', decide_eq_true hj', decide_eq_true (Nat.lt_of_lt_of_le hj' h.userCount)]

theorem Extends.findPolicy (h : Extends t s) {k : Fin kMaxPolicies} (hk : s.findPolicy resource = some k) :
    t.findPolicy resource = some k ∧ t.policies k = s.policies k := by
  obtain ⟨hfound, -⟩ := Lib.firstSlot_eq_some_iff.mp hk
  have hlt : k.val < s.policyCount.toNat := by
    rw [Bool.and_eq_true, decide_eq_true_iff] at hfound
    exact hfound.1
  refine ⟨?_, h.policies k hlt⟩
  refine Lib.firstSlot_congr hk fun j hj => ?_
  have hj' : j.val < s.policyCount.toNat := Nat.lt_of_le_of_lt hj hlt
  rw [h.policies j hj', decide_eq_true hj', decide_eq_true (Nat.lt_of_lt_of_le hj' h.policyCount)]

/-- **Access decisions are stable.** Once a user and a policy exist, no sequence of calls changes what
    `CheckAccess` says about them, whatever permissions are asked for. -/
theorem checkAccess_stable (before after : List Op) (uid : UInt32) (resource : Option String)
    (huser : (reached before).findUser uid ≠ none) (hpolicy : (reached before).findPolicy resource ≠ none)
    (permission : UInt16) :
    (Lib.run step (reached before) after).checkAccess uid resource permission =
      (reached before).checkAccess uid resource permission := by
  have hext := extends_run (reached before) after
  generalize reached before = s at huser hpolicy hext
  obtain ⟨i, hi⟩ := Option.ne_none_iff_exists'.mp huser
  obtain ⟨k, hk⟩ := Option.ne_none_iff_exists'.mp hpolicy
  obtain ⟨hi', husers⟩ := hext.findUser hi
  obtain ⟨hk', hpolicies⟩ := hext.findPolicy hk
  unfold State.checkAccess
  rw [hi, hk, hi', hk']
  dsimp only
  rw [husers, hpolicies]

/-- A user and a policy, then another user and another policy under the same keys. -/
theorem checkAccess_stable_duplicate :
    (Lib.run step (reached [.createUser 1000 (some "user") .user 0x01,
        .addAccessPolicy (some "/home") 1000 0x03 0x01])
      [.createUser 1000 (some "mallory") .admin 0x1F, .addAccessPolicy (some "/home") 1000 0x1F 0x1F]).checkAccess
        1000 (some "/home") 0x04 =
    (reached [.createUser 1000 (some "user") .user 0x01, .addAccessPolicy (some "/home") 1000 0x03 0x01]).checkAccess
        1000 (some "/home") 0x04 :=
  checkAccess_stable _ _ 1000 (some "/home") (by decide +kernel) (by decide +kernel) 0x04

end Security
end UefiBoot
