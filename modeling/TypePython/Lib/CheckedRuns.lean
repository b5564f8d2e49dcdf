import Mathlib.Algebra.Group.Nat.Defs
import Mathlib.Data.List.Basic

/-!
# Runs that can fault

Arithmetic on numbers of a fixed width and indexing into buffers, where a sum that does not fit or a
place outside a buffer ends the run. `Safe run post` says that a run never ends so and that its
result, if it gives one, meets `post`; errors that the program reports itself are allowed.

* `Safe.bind` chains two steps, `Safe.mono` weakens what is known of a result;
* `safe_readLe` reads a little-endian number from a buffer.
-/

namespace TypePython.Lib

/-- How a run ends without a result: by a fault, or with an error of its own. -/
inductive Fault (ε : Type) where
  | overflow
  | outOfBounds
  | error (reason : ε)
deriving DecidableEq

abbrev Checked (ε α : Type) := Except (Fault ε) α

variable {ε α β : Type}

/-! ## Safe runs -/

def Safe (run : Checked ε α) (post : α → Prop) : Prop :=
  match run with
  | .ok value => post value
  | .error (.error _) => True
  | .error _ => False

theorem safe_pure {value : α} {post : α → Prop} (h : post value) :
    Safe (pure value : Checked ε α) post := h

theorem Safe.mono {run : Checked ε α} {post post' : α → Prop} (h : Safe run post)
    (himp : ∀ value, post value → post' value) : Safe run post' := by
  match run, h with
  | .ok value, h => exact himp value h
  | .error (.error _), _ => trivial

theorem Safe.bind {run : Checked ε α} {next : α → Checked ε β} {post : α → Prop}
    {post' : β → Prop} (h : Safe run post) (hnext : ∀ value, post value → Safe (next value) post') :
    Safe (run >>= next) post' := by
  match run, h with
  | .ok value, h => exact hnext value h
  | .error (.error _), _ => trivial

/-- A safe run faults neither way. -/
theorem safe_iff {run : Checked ε α} {post : α → Prop} : Safe run post
    ↔ run ≠ .error .overflow ∧ run ≠ .error .outOfBounds
      ∧ ∀ value, run = .ok value → post value := by
  match run with
  | .ok value => exact ⟨fun h => ⟨nofun, nofun, by rintro _ ⟨⟩; exact h⟩, fun h => h.2.2 value rfl⟩
  | .error (.error reason) => exact ⟨fun _ => ⟨nofun, nofun, nofun⟩, fun _ => trivial⟩
  | .error .overflow => exact ⟨fun h => h.elim, fun h => absurd rfl h.1⟩
  | .error .outOfBounds => exact ⟨fun h => h.elim, fun h => absurd rfl h.2.1⟩

/-! ## Arithmetic -/

/-- A sum of numbers below `2 ^ width`. -/
def addFit (width a b : Nat) : Checked ε Nat :=
  if a + b < 2 ^ width then .ok (a + b) else .error .overflow

def subFit (a b : Nat) : Checked ε Nat := if b ≤ a then .ok (a - b) else .error .overflow

/-- `checked_add` -/
def addChecked (width a b : Nat) : Option Nat := if a + b < 2 ^ width then some (a + b) else none

/-- `checked_sub` -/
def subChecked (a b : Nat) : Option Nat := if b ≤ a then some (a - b) else none

theorem safe_addFit {width a b : Nat} (h : a + b < 2 ^ width) :
    Safe (addFit width a b : Checked ε Nat) (· = a + b) := by
  rw [addFit, if_pos h]
  rfl

theorem safe_subFit {a b : Nat} (h : b ≤ a) : Safe (subFit a b : Checked ε Nat) (· = a - b) := by
  rw [subFit, if_pos h]
  rfl

theorem addChecked_eq_some {width a b c : Nat} (h : addChecked width a b = some c) : c = a + b := by
  unfold addChecked at h
  split at h
  · exact (Option.some.inj h).symm
  · cases h

theorem subChecked_eq_some {a b c : Nat} (h : subChecked a b = some c) : b + c = a := by
  unfold subChecked at h
  split at h
  · have hc := Option.some.inj h
    omega
  · cases h

/-! ## Buffers -/

/-- `&bytes[start..]` -/
def sliceFrom (items : List α) (start : Nat) : Checked ε (List α) :=
  if start ≤ items.length then .ok (items.drop start) else .error .outOfBounds

/-- `&bytes[start..stop]` -/
def sliceRange (items : List α) (start stop : Nat) : Checked ε (List α) :=
  if start ≤ stop ∧ stop ≤ items.length then .ok ((items.drop start).take (stop - start))
  else .error .outOfBounds

def itemAt (items : List α) (index : Nat) : Checked ε α :=
  match items[index]? with
  | some item => .ok item
  | none => .error .outOfBounds

theorem safe_sliceFrom {items : List α} {start : Nat} (h : start ≤ items.length) :
    Safe (sliceFrom items start : Checked ε (List α)) (· = items.drop start) := by
  rw [sliceFrom, if_pos h]
  rfl

theorem safe_sliceRange {items : List α} {start stop : Nat} (hstart : start ≤ stop)
    (hstop : stop ≤ items.length) :
    Safe (sliceRange items start stop : Checked ε (List α))
      (· = (items.drop start).take (stop - start)) := by
  rw [sliceRange, if_pos ⟨hstart, hstop⟩]
  rfl

/-! ## Little-endian numbers -/

/-- The number that bytes stand for, the lowest first. -/
def leNat : List UInt8 → Nat
  | [] => 0
  | byte :: rest => byte.toNat + 256 * leNat rest

theorem leNat_lt (bytes : List UInt8) : leNat bytes < 256 ^ bytes.length := by
  induction bytes with
  | nil => exact Nat.one_pos
  | cons byte rest ih =>
    have hbyte := byte.toNat_lt
    rw [leNat, List.length_cons, Nat.pow_succ]
    omega

/-- Read a number of this many bytes, from a place on. -/
def readLe : Nat → Nat → List UInt8 → Checked ε Nat
  | 0, _, _ => pure 0
  | width + 1, index, bytes => do
    let low ← itemAt bytes index
    let high ← readLe width (index + 1) bytes
    pure (low.toNat + 256 * high)

theorem safe_readLe (width : Nat) {bytes : List UInt8} : ∀ {index : Nat},
    index + width ≤ bytes.length → Safe (readLe width index bytes : Checked ε Nat)
      (· = leNat ((bytes.drop index).take width)) := by
  induction width with
  | zero => exact fun _ => rfl
  | succ width ih =>
    intro index h
    have hlt : index < bytes.length := by omega
    have hget : (itemAt bytes index : Checked ε UInt8) = .ok bytes[index] := by
      rw [itemAt, List.getElem?_eq_getElem hlt]
    have hrest := @ih (index + 1) (by omega)
    rw [readLe, hget]
    refine hrest.bind fun high hhigh => ?_
    rw [List.drop_eq_getElem_cons hlt, List.take_succ_cons, leNat, ← hhigh]
    exact safe_pure rfl

/-- The number in a field of a text. -/
def field (bytes : List UInt8) (offset width : Nat) : Nat :=
  leNat ((bytes.drop offset).take width)

theorem field_lt (bytes : List UInt8) (offset width : Nat) :
    field bytes offset width < 256 ^ width := by
  have hlt := leNat_lt ((bytes.drop offset).take width)
  have hle : ((bytes.drop offset).take width).length ≤ width := List.length_take_le _ _
  exact Nat.lt_of_lt_of_le hlt (Nat.pow_le_pow_right (by omega) hle)

/-- A field of a part of a text is a field of the text. -/
theorem field_take_drop (bytes : List UInt8) {start length offset width : Nat}
    (h : offset + width ≤ length) :
    field ((bytes.drop start).take length) offset width = field bytes (start + offset) width := by
  unfold field
  rw [List.drop_take, List.take_take, List.drop_drop, Nat.min_eq_left (by omega)]

end TypePython.Lib
