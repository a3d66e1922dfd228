import UefiBoot.Lib.Dictionary
import UefiBoot.Lib.Simulation
import UefiBoot.Text.Strings
import UefiBoot.User.Process

/-!
# `User.Environment` — environment variables and the loader cache as maps

Two tables of `userspace.cpp` are filled in the same way: a first scan looks for an entry with the key and writes
over it, a second one takes a free entry. `Lib.Dictionary` says what that is for, and `Represents` relates the
table and its counter in `g_Status` to a dictionary.

The texts of the model are C strings: `text` is a string as a `String`, and `stringEquals_text` and
`stringLength_text` say what the byte loops make of it. `SetEnvironmentVariable` measures the name with
`StringLength`, which never returns for a name of 2 ^ 32 bytes or more; `tables_refine` is about the calls that do.
-/

namespace UefiBoot
namespace Userspace

open Lib (CString Dictionary SlotTable Traced)
open Lib.SlotTable (Kept)

/-! ## Strings -/

/-- The bytes of a C string as characters. -/
def text (s : CString) : String := String.ofList (s.content.map Char.ofUInt8)

theorem charOfByte_injective : Function.Injective Char.ofUInt8 := by
  intro x y h
  have hval : x.toUInt32 = y.toUInt32 := congrArg Char.val h
  have hnat := congrArg UInt32.toNat hval
  rw [UInt8.toNat_toUInt32, UInt8.toNat_toUInt32] at hnat
  exact UInt8.toNat_inj.mp hnat

theorem text_inj {a b : CString} : text a = text b ↔ a.content = b.content := by
  unfold text
  rw [String.ofList_inj]
  exact (List.map_injective_iff.mpr charOfByte_injective).eq_iff

theorem length_text (s : CString) : (text s).length = s.length := by
  unfold text
  rw [String.length_ofList, List.length_map, CString.length_content]

/-- **`StringEquals`** on two strings is equality of the texts. -/
theorem stringEquals_text (a b : CString) {turns : Nat} (h : CString.fork a b < turns) :
    (Strings.stringEquals (some a) (some b) turns).value = some (stringEquals (some (text a)) (some (text b))) := by
  rw [Strings.value_stringEquals h]
  congr 1
  show decide (a.content = b.content) = (text a == text b)
  rw [Bool.eq_iff_iff, decide_eq_true_iff, beq_iff_eq, text_inj]

/-- `StringLength`; `none` when it does not return. -/
def stringLength (s : Option String) : Option UInt32 :=
  match s with
  | none   => some 0
  | some s => if s.length < 2 ^ 32 then some (UInt32.ofNat s.length) else none

/-- **`StringLength`** on a string. -/
theorem stringLength_text (s : CString) :
    (∀ turns, s.length < turns → (Strings.stringLength (some s) turns).value = stringLength (some (text s))) ∧
      (stringLength (some (text s)) = none → ∀ turns, (Strings.stringLength (some s) turns).value = none) := by
  unfold stringLength
  dsimp only
  rw [length_text]
  by_cases hlen : s.length < 2 ^ 32
  · rw [if_pos hlen]
    exact ⟨fun turns hturns => Strings.value_stringLength hlen hturns, fun h => by cases h⟩
  · rw [if_neg hlen]
    have hnever := Strings.stringLength_never (s := s) (by omega)
    exact ⟨fun turns _ => hnever turns, fun _ => hnever⟩

theorem stringEquals_iff {a : Option String} {b : String} : stringEquals a (some b) = true ↔ a = some b := by
  unfold stringEquals
  cases a with
  | none => simp
  | some a => simp

/-! ## The environment -/

abbrev kMaxEnvironmentVariables : Nat := 12

structure EnvironmentVariable where
  name   : Option String := none
  value  : Option String := none
  active : Bool := false
  deriving DecidableEq

/-- `g_Environment`, and its counter in `g_Status`. -/
structure Environment where
  environment              : Fin kMaxEnvironmentVariables → EnvironmentVariable := fun _ => {}
  environmentVariableCount : UInt32 := 0

namespace Environment

/-- The variable of a name. -/
def find (e : Environment) (name : Option String) : Option (Fin kMaxEnvironmentVariables) :=
  Lib.firstSlot fun i => (e.environment i).active && stringEquals (e.environment i).name name

/-- `SetEnvironmentVariable`; `none` when it does not return. -/
def setEnvironmentVariable (e : Environment) (name value : Option String) : Option (Bool × Environment) :=
  if name = none ∨ value = none then
    some (false, e)
  else
    match stringLength name with
    | none        => none
    | some length =>
      if length = 0 then
        some (false, e)
      else
        match e.find name with
        | some i => some (true, { e with
            environment := Function.update e.environment i { e.environment i with value := value } })
        | none =>
          match Lib.firstSlot fun i => !(e.environment i).active with
          | some i => some (true, {
              environment := Function.update e.environment i { name := name, value := value, active := true }
              environmentVariableCount := e.environmentVariableCount + 1 })
          | none => some (false, e)

/-- `GetEnvironmentVariable`; the null pointer is `none`. -/
def getEnvironmentVariable (e : Environment) (name : Option String) : Option String :=
  match e.find name with
  | some i => (e.environment i).value
  | none   => none

end Environment

inductive EnvironmentCall where
  | set (name value : Option String)
  | get (name : Option String)

inductive Answer (ν : Type) where
  | done (ok : Bool)
  | found (value : Option ν)

/-- The calls of the source; the answer is `none` when the call does not return. -/
def Environment.call (e : Environment) : EnvironmentCall → Option (Answer String) × Environment
  | .set name value =>
    match e.setEnvironmentVariable name value with
    | some (ok, e') => (some (.done ok), e')
    | none          => (none, e)
  | .get name => (some (.found (e.getEnvironmentVariable name)), e)

/-- What the calls are for: a map from names that are not empty, with room for twelve. -/
def environmentSpec (d : Dictionary kMaxEnvironmentVariables String String) :
    EnvironmentCall → Option (Answer String) × Dictionary kMaxEnvironmentVariables String String
  | .set (some name) (some value) =>
    if name = "" then (some (.done false), d)
    else (some (.done (d.set name value).1), (d.set name value).2)
  | .set _ _  => (some (.done false), d)
  | .get name => (some (.found (name.bind d.get)), d)

/-- A name that `StringLength` can measure. -/
def EnvironmentCall.Short : EnvironmentCall → Prop
  | .set (some name) _ => name.length < 2 ^ 32
  | _                  => True

/-- The table as slots that hold a name and a value. -/
def Environment.slots (e : Environment) : SlotTable kMaxEnvironmentVariables String String := fun i =>
  match e.environment i with
  | ⟨some name, some value, true⟩ => some (name, value)
  | _                             => none

/-- A variable in use has a name and a value. -/
def Environment.Filled (e : Environment) : Prop :=
  ∀ i, (e.environment i).active = true → ∃ name value, e.environment i = ⟨some name, some value, true⟩

/-- The environment stands for a map. -/
structure Environment.Represents (e : Environment) (d : Dictionary kMaxEnvironmentVariables String String) : Prop where
  filled : e.Filled
  kept   : Kept e.slots e.environmentVariableCount d

namespace Environment

variable {e : Environment} {d : Dictionary kMaxEnvironmentVariables String String} {name value : String}
  {i : Fin kMaxEnvironmentVariables}

theorem slots_some (h : e.environment i = ⟨some name, some value, true⟩) : e.slots i = some (name, value) := by
  unfold slots
  rw [h]

theorem slots_free (h : (e.environment i).active = false) : e.slots i = none := by
  unfold slots
  split
  · next heq =>
      rw [heq] at h
      cases h
  · rfl

theorem find_some (hfilled : e.Filled) (h : e.find (some name) = some i) :
    ∃ value, e.environment i = ⟨some name, some value, true⟩ := by
  have htrue := Lib.firstSlot_true h
  rw [Bool.and_eq_true, stringEquals_iff] at htrue
  obtain ⟨key, value, hi⟩ := hfilled i htrue.1
  have hkey := htrue.2
  rw [hi] at hkey
  cases hkey
  exact ⟨value, hi⟩

theorem find_none (hfilled : e.Filled) (h : e.find (some name) = none) (i : Fin kMaxEnvironmentVariables)
    (value : String) : e.slots i ≠ some (name, value) := by
  intro hslot
  have hfalse := Lib.firstSlot_eq_none_iff.mp h i
  cases hactive : (e.environment i).active with
  | false =>
      rw [slots_free hactive] at hslot
      cases hslot
  | true =>
      obtain ⟨key, x, hi⟩ := hfilled i hactive
      rw [slots_some hi] at hslot
      cases hslot
      rw [hi, stringEquals_iff.mpr rfl] at hfalse
      cases hfalse

/-- A variable written into an entry. -/
theorem slots_update (e : Environment) (i : Fin kMaxEnvironmentVariables) (name value : String) (count : UInt32) :
    slots ⟨Function.update e.environment i ⟨some name, some value, true⟩, count⟩ =
      Function.update e.slots i (some (name, value)) := by
  funext j
  by_cases hji : j = i
  · subst hji
    rw [Function.update_self]
    exact slots_some (Function.update_self ..)
  · rw [Function.update_of_ne hji]
    unfold slots
    dsimp only
    rw [Function.update_of_ne hji]

theorem filled_update (h : e.Filled) (i : Fin kMaxEnvironmentVariables) (name value : String) (count : UInt32) :
    Filled ⟨Function.update e.environment i ⟨some name, some value, true⟩, count⟩ := by
  intro j hj
  dsimp only at hj ⊢
  by_cases hji : j = i
  · exact ⟨name, value, by rw [hji, Function.update_self]⟩
  · rw [Function.update_of_ne hji] at hj ⊢
    exact h j hj

/-- **`SetEnvironmentVariable`** does to the table what `set` does to the map. -/
theorem Represents.set (h : e.Represents d) (hname : name ≠ "") (hlen : name.length < 2 ^ 32) :
    ∃ e', e.setEnvironmentVariable (some name) (some value) = some ((d.set name value).1, e') ∧
      e'.Represents (d.set name value).2 := by
  have hlength : UInt32.ofNat name.length ≠ 0 := by
    intro hzero
    have hnat := congrArg UInt32.toNat hzero
    rw [UInt32.toNat_ofNat', Nat.mod_eq_of_lt hlen] at hnat
    exact hname (String.length_eq_zero_iff.mp hnat)
  unfold setEnvironmentVariable stringLength
  rw [if_neg (by simp)]
  dsimp only
  rw [if_pos hlen]
  dsimp only
  rw [if_neg hlength]
  cases hfind : e.find (some name) with
  | some i =>
      obtain ⟨old, hi⟩ := find_some h.filled hfind
      obtain ⟨hdone, hkept⟩ := h.kept.overwrite (slots_some hi) value
      dsimp only
      rw [hi, hdone]
      refine ⟨_, rfl, filled_update h.filled i name value _, ?_⟩
      rw [slots_update]
      exact hkept
  | none =>
      have hnew := find_none h.filled hfind
      dsimp only
      cases hfree : Lib.firstSlot fun i => !(e.environment i).active with
      | some i =>
          have hinactive : (e.environment i).active = false := by simpa using Lib.firstSlot_true hfree
          obtain ⟨hdone, hkept⟩ := h.kept.add (by decide) hnew (slots_free hinactive) value
          rw [hdone]
          refine ⟨_, rfl, filled_update h.filled i name value _, ?_⟩
          rw [slots_update]
          exact hkept
      | none =>
          have hfull : ∀ i, e.slots i ≠ none := by
            intro i
            have hactive : (e.environment i).active = true := by
              simpa using Lib.firstSlot_eq_none_iff.mp hfree i
            obtain ⟨key, x, hi⟩ := h.filled i hactive
            rw [slots_some hi]
            simp
          rw [h.kept.refuse hnew hfull value]
          exact ⟨e, rfl, h⟩

/-- **`GetEnvironmentVariable`** looks the name up. -/
theorem Represents.get (h : e.Represents d) (name : Option String) :
    e.getEnvironmentVariable name = name.bind d.get := by
  unfold getEnvironmentVariable
  cases name with
  | none =>
      -- the null pointer equals no name
      have hnone : e.find none = none := by
        apply Lib.firstSlot_eq_none_iff.mpr
        intro i
        unfold stringEquals
        cases (e.environment i).name <;> exact Bool.and_false _
      rw [hnone]
      rfl
  | some name =>
      rw [Option.bind_some]
      cases hfind : e.find (some name) with
      | some i =>
          obtain ⟨value, hi⟩ := find_some h.filled hfind
          rw [h.kept.get_some (slots_some hi)]
          dsimp only
          rw [hi]
      | none => exact (h.kept.get_none (find_none h.filled hfind)).symm

theorem call_set {key x : Option String} {ok : Bool} {e' : Environment}
    (h : e.setEnvironmentVariable key x = some (ok, e')) : e.call (.set key x) = (some (.done ok), e') := by
  unfold call
  dsimp only
  rw [h]

theorem environmentSpec_set (hname : name ≠ "") :
    environmentSpec d (.set (some name) (some value)) =
      (some (.done (d.set name value).1), (d.set name value).2) := if_neg hname

/-- **The environment is a map**, call by call. -/
theorem simulates : Lib.Simulates EnvironmentCall.Short Represents call environmentSpec := by
  intro e d c h hshort
  cases c with
  | get name =>
      refine ⟨?_, h⟩
      show some (Answer.found (e.getEnvironmentVariable name)) = some (Answer.found (name.bind d.get))
      rw [h.get name]
  | set name value =>
      cases name with
      | none =>
          rw [call_set (if_pos (Or.inl rfl))]
          exact ⟨rfl, h⟩
      | some name =>
          cases value with
          | none =>
              rw [call_set (if_pos (Or.inr rfl))]
              exact ⟨rfl, h⟩
          | some value =>
              by_cases hname : name = ""
              · subst hname
                rw [call_set (rfl : e.setEnvironmentVariable (some "") (some value) = some (false, e))]
                exact ⟨rfl, h⟩
              · obtain ⟨e', heq, h'⟩ := @Represents.set e d name value h hname hshort
                rw [call_set heq, environmentSpec_set hname]
                exact ⟨rfl, h'⟩

theorem represents_free : Represents {} Dictionary.empty where
  filled := fun i hi => by cases hi
  kept   := Kept.free

end Environment

/-! ## The loader cache -/

/-- The base address, the entry address and the size of an image. -/
abbrev Image : Type := UInt64 × UInt64 × UInt64

inductive CacheCall where
  | register (path : Option String) (baseAddress entryAddress imageSize : UInt64)
  | find (path : Option String)

def LoaderCacheEntry.image (c : LoaderCacheEntry) : Image := (c.baseAddress, c.entryAddress, c.imageSize)

/-- The calls of the source. -/
def State.cacheCall (s : State) : CacheCall → Answer Image × State
  | .register path base entry size =>
    let (ok, s') := s.registerLoaderCacheEntry path base entry size
    (.done ok, s')
  | .find path => (.found ((s.findLoaderCacheEntry path).map fun i => (s.loaderCache i).image), s)

/-- What the calls are for: a map from paths, with room for 64. -/
def cacheSpec (d : Dictionary kMaxLoaderCacheEntries String Image) :
    CacheCall → Answer Image × Dictionary kMaxLoaderCacheEntries String Image
  | .register (some path) base entry size =>
    if base = 0 ∨ entry = 0 ∨ size = 0 then (.done false, d)
    else (.done (d.set path (base, entry, size)).1, (d.set path (base, entry, size)).2)
  | .register none _ _ _ => (.done false, d)
  | .find path           => (.found (path.bind d.get), d)

/-- The cache as slots that hold a path and an image. -/
def State.cacheSlots (s : State) : SlotTable kMaxLoaderCacheEntries String Image := fun i =>
  match s.loaderCache i with
  | ⟨some path, base, entry, size, true⟩ => some (path, base, entry, size)
  | _                                    => none

/-- A valid entry has a path. -/
def State.CacheFilled (s : State) : Prop :=
  ∀ i, (s.loaderCache i).valid = true → ∃ path base entry size, s.loaderCache i = ⟨some path, base, entry, size, true⟩

/-- The cache stands for a map. -/
structure State.CacheRepresents (s : State) (d : Dictionary kMaxLoaderCacheEntries String Image) : Prop where
  filled : s.CacheFilled
  kept   : Kept s.cacheSlots s.status.cachedLoaderEntryCount d

namespace State

variable {s s' : State} {d : Dictionary kMaxLoaderCacheEntries String Image} {path : String}
  {base entry size : UInt64} {i : Fin kMaxLoaderCacheEntries}

theorem cacheSlots_some (h : s.loaderCache i = ⟨some path, base, entry, size, true⟩) :
    s.cacheSlots i = some (path, base, entry, size) := by
  unfold cacheSlots
  rw [h]

theorem cacheSlots_free (h : (s.loaderCache i).valid = false) : s.cacheSlots i = none := by
  unfold cacheSlots
  split
  · next heq =>
      rw [heq] at h
      cases h
  · rfl

theorem findLoaderCacheEntry_some (hfilled : s.CacheFilled) (h : s.findLoaderCacheEntry (some path) = some i) :
    ∃ base entry size, s.loaderCache i = ⟨some path, base, entry, size, true⟩ := by
  have htrue := Lib.firstSlot_true h
  rw [Bool.and_eq_true, stringEquals_iff] at htrue
  obtain ⟨key, base, entry, size, hi⟩ := hfilled i htrue.1
  have hkey := htrue.2
  rw [hi] at hkey
  cases hkey
  exact ⟨base, entry, size, hi⟩

theorem findLoaderCacheEntry_none (hfilled : s.CacheFilled) (h : s.findLoaderCacheEntry (some path) = none)
    (i : Fin kMaxLoaderCacheEntries) (image : Image) : s.cacheSlots i ≠ some (path, image) := by
  intro hslot
  have hfalse := Lib.firstSlot_eq_none_iff.mp h i
  cases hvalid : (s.loaderCache i).valid with
  | false =>
      rw [cacheSlots_free hvalid] at hslot
      cases hslot
  | true =>
      obtain ⟨key, base, entry, size, hi⟩ := hfilled i hvalid
      rw [cacheSlots_some hi] at hslot
      cases hslot
      rw [hi, stringEquals_iff.mpr rfl] at hfalse
      cases hfalse

/-- An image written into an entry. -/
theorem cacheSlots_update
    (h : s'.loaderCache = Function.update s.loaderCache i ⟨some path, base, entry, size, true⟩) :
    s'.cacheSlots = Function.update s.cacheSlots i (some (path, base, entry, size)) := by
  funext j
  by_cases hji : j = i
  · subst hji
    rw [Function.update_self]
    apply cacheSlots_some
    rw [h, Function.update_self]
  · rw [Function.update_of_ne hji]
    unfold cacheSlots
    rw [h, Function.update_of_ne hji]

theorem cacheFilled_update (hfilled : s.CacheFilled)
    (h : s'.loaderCache = Function.update s.loaderCache i ⟨some path, base, entry, size, true⟩) :
    s'.CacheFilled := by
  intro j hj
  rw [h] at hj ⊢
  by_cases hji : j = i
  · exact ⟨path, base, entry, size, by rw [hji, Function.update_self]⟩
  · rw [Function.update_of_ne hji] at hj ⊢
    exact hfilled j hj

/-- **`RegisterLoaderCacheEntry`** does to the cache what `set` does to the map. -/
theorem CacheRepresents.register (h : s.CacheRepresents d) (hargs : ¬ (base = 0 ∨ entry = 0 ∨ size = 0)) :
    (s.registerLoaderCacheEntry (some path) base entry size).1 = (d.set path (base, entry, size)).1 ∧
      (s.registerLoaderCacheEntry (some path) base entry size).2.CacheRepresents
        (d.set path (base, entry, size)).2 := by
  unfold registerLoaderCacheEntry
  rw [if_neg (by simpa using hargs)]
  cases hfind : s.findLoaderCacheEntry (some path) with
  | some i =>
      obtain ⟨base', entry', size', hi⟩ := findLoaderCacheEntry_some h.filled hfind
      obtain ⟨hdone, hkept⟩ := h.kept.overwrite (cacheSlots_some hi) (base, entry, size)
      dsimp only
      rw [hi, hdone]
      refine ⟨rfl, cacheFilled_update h.filled rfl, ?_⟩
      rw [cacheSlots_update (s := s) (i := i) rfl]
      exact hkept
  | none =>
      have hnew := findLoaderCacheEntry_none h.filled hfind
      dsimp only
      cases hfree : s.freeLoaderCacheEntry with
      | some i =>
          have hinvalid : (s.loaderCache i).valid = false := by simpa using Lib.firstSlot_true hfree
          obtain ⟨hdone, hkept⟩ := h.kept.add (by decide) hnew (cacheSlots_free hinvalid) (base, entry, size)
          rw [hdone]
          refine ⟨rfl, cacheFilled_update h.filled rfl, ?_⟩
          rw [cacheSlots_update (s := s) (i := i) rfl]
          exact hkept
      | none =>
          have hfull : ∀ i, s.cacheSlots i ≠ none := by
            intro i
            have hvalid : (s.loaderCache i).valid = true := by simpa using Lib.firstSlot_eq_none_iff.mp hfree i
            obtain ⟨key, b, e, z, hi⟩ := h.filled i hvalid
            rw [cacheSlots_some hi]
            simp
          rw [h.kept.refuse hnew hfull (base, entry, size)]
          exact ⟨rfl, h⟩

/-- **`FindLoaderCacheEntry`** looks the path up. -/
theorem CacheRepresents.find (h : s.CacheRepresents d) (path : Option String) :
    ((s.findLoaderCacheEntry path).map fun i => (s.loaderCache i).image) = path.bind d.get := by
  cases path with
  | none =>
      have hnone : s.findLoaderCacheEntry none = none := by
        apply Lib.firstSlot_eq_none_iff.mpr
        intro i
        unfold stringEquals
        cases (s.loaderCache i).path <;> exact Bool.and_false _
      rw [hnone]
      rfl
  | some path =>
      rw [Option.bind_some]
      cases hfind : s.findLoaderCacheEntry (some path) with
      | some i =>
          obtain ⟨base, entry, size, hi⟩ := findLoaderCacheEntry_some h.filled hfind
          rw [h.kept.get_some (cacheSlots_some hi), Option.map_some, hi]
          rfl
      | none => exact (h.kept.get_none (findLoaderCacheEntry_none h.filled hfind)).symm

/-- **The loader cache is a map**, call by call. -/
theorem cache_simulates : Lib.Simulates (fun _ => True) CacheRepresents cacheCall cacheSpec := by
  intro s d c h _
  cases c with
  | find path =>
      refine ⟨?_, h⟩
      show Answer.found ((s.findLoaderCacheEntry path).map fun i => (s.loaderCache i).image) =
        Answer.found (path.bind d.get)
      rw [h.find path]
  | register path base entry size =>
      cases path with
      | none => exact ⟨rfl, h⟩
      | some path =>
          unfold cacheCall cacheSpec
          dsimp only
          by_cases hargs : base = 0 ∨ entry = 0 ∨ size = 0
          · have hrefused : s.registerLoaderCacheEntry (some path) base entry size = (false, s) := if_pos (Or.inr hargs)
            rw [hrefused, if_pos hargs]
            exact ⟨rfl, h⟩
          · have hregister : _ ∧ (s.registerLoaderCacheEntry (some path) base entry size).2.CacheRepresents
                (d.set path (base, entry, size)).2 := h.register hargs
            obtain ⟨hok, h'⟩ := hregister
            rw [if_neg hargs, ← hok]
            exact ⟨rfl, h'⟩

theorem cacheRepresents_free : CacheRepresents {} Dictionary.empty where
  filled := fun i hi => by cases hi
  kept   := Kept.free

end State

/-! ## Both tables -/

/-- **The tables are maps.** From the empty tables, every list of calls on the cache, and every list of calls on the
    environment with names that can be measured, gets the answers of the maps, and leaves the table that stands for
    the map. -/
theorem tables_refine (calls : List EnvironmentCall) (hshort : ∀ c ∈ calls, c.Short) (calls' : List CacheCall) :
    (Lib.answers Environment.call {} calls = Lib.answers environmentSpec Dictionary.empty calls ∧
      (Lib.after Environment.call {} calls).Represents (Lib.after environmentSpec Dictionary.empty calls)) ∧
    Lib.answers State.cacheCall {} calls' = Lib.answers cacheSpec Dictionary.empty calls' ∧
      (Lib.after State.cacheCall {} calls').CacheRepresents (Lib.after cacheSpec Dictionary.empty calls') :=
  ⟨⟨Environment.simulates.answers Environment.represents_free hshort,
      Environment.simulates.after Environment.represents_free hshort⟩,
    State.cache_simulates.answers State.cacheRepresents_free fun _ _ => trivial,
    State.cache_simulates.after State.cacheRepresents_free fun _ _ => trivial⟩

theorem tables_refine_home :
    (Lib.answers Environment.call {} [.set (some "HOME") (some "/")] =
        Lib.answers environmentSpec Dictionary.empty [.set (some "HOME") (some "/")] ∧
      (Lib.after Environment.call {} [.set (some "HOME") (some "/")]).Represents
        (Lib.after environmentSpec Dictionary.empty [.set (some "HOME") (some "/")])) ∧
    Lib.answers State.cacheCall {} [] = Lib.answers cacheSpec Dictionary.empty [] ∧
      (Lib.after State.cacheCall {} []).CacheRepresents (Lib.after cacheSpec Dictionary.empty []) := by
  apply tables_refine
  intro c hc
  rw [List.mem_singleton.mp hc]
  show "HOME".length < 2 ^ 32
  decide

/-- There are texts of every length. -/
theorem exists_text_length (n : Nat) : ∃ name : String, name.length = n :=
  ⟨String.ofList (List.replicate n 'a'), by rw [String.length_ofList, List.length_replicate]⟩

/-- A name of 2 ^ 32 characters: `SetEnvironmentVariable` does not return. -/
theorem environment_not_total :
    ¬ ∀ calls : List EnvironmentCall,
      Lib.answers Environment.call {} calls = Lib.answers environmentSpec Dictionary.empty calls := by
  intro h
  obtain ⟨name, hlen⟩ := exists_text_length (2 ^ 32)
  have hne : name ≠ "" := by
    rintro rfl
    exact absurd hlen (by decide)
  have hnever : ({} : Environment).setEnvironmentVariable (some name) (some "") = none := by
    unfold Environment.setEnvironmentVariable stringLength
    rw [if_neg (by simp)]
    dsimp only
    rw [if_neg (by omega)]
  have hcall : ({} : Environment).call (.set (some name) (some "")) = (none, {}) := by
    unfold Environment.call
    dsimp only
    rw [hnever]
  have hsame := h [.set (some name) (some "")]
  unfold Lib.answers at hsame
  rw [hcall, Environment.environmentSpec_set hne] at hsame
  cases hsame

end Userspace
end UefiBoot
