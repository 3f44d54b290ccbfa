import Mathlib.Logic.Function.Basic

/-!
# A typed key-value store

The store keeps one optional value under each key, and the key fixes the type of its value.  The
commands are the single-key commands of a key-value server, each of them atomic.
-/

namespace KeyValue

variable {κ : Type} {ν : κ → Type}

/-- Contents of the store. -/
abbrev Store (ν : κ → Type) := (key : κ) → Option (ν key)

/-- Atomic commands on one key. -/
inductive Command (ν : κ → Type) where
  /-- Read the value. -/
  | get (key : κ)
  /-- Write the value. -/
  | set (key : κ) (value : ν key)
  /-- Write the value only if there is none. -/
  | setnx (key : κ) (value : ν key)
  /-- Remove the value. -/
  | delete (key : κ)
  /-- Replace the value by a function of it, as counters and list pushes do. -/
  | modify (key : κ) (change : Option (ν key) → ν key)

namespace Command

def key : Command ν → κ
  | .get key => key
  | .set key _ => key
  | .setnx key _ => key
  | .delete key => key
  | .modify key _ => key

/-- Answer of a command; `setnx` says whether it wrote, `modify` returns the new value. -/
abbrev Answer : Command ν → Type
  | .get key => Option (ν key)
  | .set _ _ => Unit
  | .setnx _ _ => Bool
  | .delete _ => Unit
  | .modify key _ => ν key

variable [DecidableEq κ]

def answer : (command : Command ν) → Store ν → command.Answer
  | .get key, store => store key
  | .set _ _, _ => ()
  | .setnx key _, store => (store key).isNone
  | .delete _, _ => ()
  | .modify key change, store => change (store key)

def apply : Command ν → Store ν → Store ν
  | .get _, store => store
  | .set key value, store => Function.update store key (some value)
  | .setnx key value, store =>
      match store key with
      | none => Function.update store key (some value)
      | some _ => store
  | .delete key, store => Function.update store key none
  | .modify key change, store => Function.update store key (some (change (store key)))

@[simp] theorem apply_get (key : κ) (store : Store ν) : (get key).apply store = store := rfl

@[simp] theorem apply_set (key : κ) (value : ν key) (store : Store ν) :
    (set key value).apply store = Function.update store key (some value) := rfl

@[simp] theorem apply_delete (key : κ) (store : Store ν) :
    (delete key).apply store = Function.update store key none := rfl

@[simp] theorem apply_modify (key : κ) (change : Option (ν key) → ν key) (store : Store ν) :
    (modify key change).apply store = Function.update store key (some (change (store key))) := rfl

/-- A command leaves every key but its own alone. -/
theorem apply_other (command : Command ν) (store : Store ν) {other : κ}
    (different : other ≠ command.key) : command.apply store other = store other := by
  cases command with
  | get key => rfl
  | set key value => exact Function.update_of_ne different _ _
  | setnx key value =>
      simp only [apply]
      cases store key with
      | none => exact Function.update_of_ne different _ _
      | some held => rfl
  | delete key => exact Function.update_of_ne different _ _
  | modify key change => exact Function.update_of_ne different _ _

theorem apply_setnx_of_none {key : κ} {store : Store ν} (value : ν key) (free : store key = none) :
    (setnx key value).apply store = Function.update store key (some value) := by
  simp [apply, free]

theorem apply_setnx_of_some {key : κ} {store : Store ν} (value : ν key) {held : ν key}
    (taken : store key = some held) : (setnx key value).apply store = store := by
  simp [apply, taken]

end Command

end KeyValue
