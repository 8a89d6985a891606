import Mathlib.Data.List.Basic
import Mathlib.Data.List.Infix

/-!
# Go strings as byte lists

A Go `string` is an immutable sequence of bytes that need not be valid UTF-8, so the model
represents it as `Bytes := List UInt8` and never as a Lean `String`. This module holds:

* `ascii`, which turns the ASCII literals of the source into their bytes;
* the facts that move a comparison of a byte with a character literal down to `Nat`, where
  `omega` decides it;
* the slicing functions the source reaches through package `strings` (`Cut`, `LastIndex`,
  `Index`), each returning the two slices the code goes on to use, with one spec lemma each.
-/

namespace StepOAuth
namespace Go

/-- A Go `string`. -/
abbrev Bytes := List UInt8

/-- The bytes of an ASCII literal of the source. -/
def ascii (s : String) : Bytes := s.data.map Char.toUInt8

instance : Coe String Bytes := ⟨ascii⟩

/-- Results of fallible code are compared, so that a run on a fixed input can be checked by
`decide`. -/
instance decEqExcept {ε α : Type} [DecidableEq ε] [DecidableEq α] : DecidableEq (Except ε α)
  | .ok a, .ok b => decidable_of_iff (a = b) ⟨congrArg _, fun h => by cases h; rfl⟩
  | .error a, .error b => decidable_of_iff (a = b) ⟨congrArg _, fun h => by cases h; rfl⟩
  | .ok _, .error _ => isFalse nofun
  | .error _, .ok _ => isFalse nofun

section Results

variable {ε α β : Type} {x : Except ε α} {y : β}

/-- A mapped result is ok only when the result it maps is. -/
theorem map_eq_ok {f : α → β} (h : f <$> x = .ok y) : ∃ a, x = .ok a ∧ f a = y := by
  cases x <;> simp_all [Functor.map, Except.map]

/-- A bound result is ok only when both computations are. -/
theorem bind_eq_ok {f : α → Except ε β} (h : x >>= f = .ok y) : ∃ a, x = .ok a ∧ f a = .ok y := by
  cases x <;> simp_all [bind, Except.bind]

@[simp] theorem mapError_eq_ok {ε' : Type} {f : ε → ε'} {a : α} :
    x.mapError f = .ok a ↔ x = .ok a := by
  cases x <;> simp [Except.mapError]

end Results

/-- `c` is one of `cs`: the label `case 'a', 'b', ...:` of a Go `switch` on a byte. -/
def isOneOf (c : UInt8) : List Char → Bool
  | [] => false
  | d :: ds => c == d.toUInt8 || isOneOf c ds

/-! ## Bytes as numbers -/

namespace Byte

theorem toNat_ofNat (n : Nat) : (UInt8.ofNat n).toNat = n % 256 := by
  simp [UInt8.ofNat, UInt8.toNat, BitVec.toNat_ofNat]

@[simp] theorem toNat_toUInt8 (c : Char) : c.toUInt8.toNat = c.toNat % 256 := by
  simp [Char.toUInt8, UInt32.toUInt8, Nat.toUInt8, toNat_ofNat, Char.toNat]

theorem le_iff {a b : UInt8} : a ≤ b ↔ a.toNat ≤ b.toNat := Iff.rfl

theorem lt_iff {a b : UInt8} : a < b ↔ a.toNat < b.toNat := Iff.rfl

theorem eq_iff {a b : UInt8} : a = b ↔ a.toNat = b.toNat := ⟨congrArg _, UInt8.toNat.inj⟩

theorem toNat_lt (c : UInt8) : c.toNat < 256 := UInt8.toNat_lt_size c

theorem toNat_sub (a b : UInt8) : (a - b).toNat = (256 - b.toNat + a.toNat) % 256 := by
  show (a.toBitVec - b.toBitVec).toNat = _
  simp [BitVec.toNat_sub, UInt8.toNat]

theorem toNat_add (a b : UInt8) : (a + b).toNat = (a.toNat + b.toNat) % 256 := by
  show (a.toBitVec + b.toBitVec).toNat = _
  simp [BitVec.toNat_add, UInt8.toNat]

theorem ofNat_toNat (c : UInt8) : UInt8.ofNat c.toNat = c :=
  UInt8.toNat.inj (by rw [toNat_ofNat]; exact Nat.mod_eq_of_lt (toNat_lt c))

@[simp] theorem isOneOf_nil (c : UInt8) : isOneOf c [] = false := rfl

@[simp] theorem isOneOf_cons (c : UInt8) (d : Char) (ds : List Char) :
    isOneOf c (d :: ds) = (c == d.toUInt8 || isOneOf c ds) := rfl

end Byte

/-! ## Slicing -/

namespace Strings

/-- `strings.Cut(s, sep)` for a one-byte `sep`: the slices before and after its first
occurrence, and whether it occurs (`(s, "", false)` when it does not). -/
def cut (sep : UInt8) : Bytes → Bytes × Bytes × Bool
  | [] => ([], [], false)
  | b :: s =>
      if b = sep then ([], s, true)
      else
        let r := cut sep s
        (b :: r.1, r.2.1, r.2.2)

/-- `strings.LastIndex(s, sep)` for a one-byte `sep`, as the slices `s[:i]` and `s[i+1:]`
around its last occurrence. -/
def splitLast (sep : UInt8) : Bytes → Option (Bytes × Bytes)
  | [] => none
  | b :: s =>
      match splitLast sep s with
      | some (x, y) => some (b :: x, y)
      | none => if b = sep then some ([], s) else none

/-- `strings.Index(s, pat)`, as the slices `s[:i]` and `s[i:]` around the first occurrence
of `pat`. -/
def splitAt? (pat : Bytes) : Bytes → Option (Bytes × Bytes)
  | [] => if pat = [] then some ([], []) else none
  | b :: s =>
      if pat.isPrefixOf (b :: s) then some ([], b :: s)
      else (splitAt? pat s).map fun r => (b :: r.1, r.2)

variable {sep : UInt8} {s a b : Bytes}

theorem exists_split_first (h : sep ∈ s) : ∃ x y, s = x ++ sep :: y ∧ sep ∉ x := by
  induction s with
  | nil => simp at h
  | cons c s ih =>
      by_cases hc : c = sep
      · exact ⟨[], s, by simp [hc], List.not_mem_nil _⟩
      · obtain ⟨x, y, rfl, hx⟩ := ih (by simpa [Ne.symm hc] using h)
        exact ⟨c :: x, y, rfl, by simp [Ne.symm hc, hx]⟩

theorem exists_split_last (h : sep ∈ s) : ∃ x y, s = x ++ sep :: y ∧ sep ∉ y := by
  obtain ⟨y, x, hs, hy⟩ := exists_split_first (List.mem_reverse.2 h)
  refine ⟨x.reverse, y.reverse, ?_, by simpa using hy⟩
  rw [← List.reverse_reverse s, hs]
  simp

theorem cut_of_not_mem (h : sep ∉ s) : cut sep s = (s, [], false) := by
  induction s with
  | nil => rfl
  | cons c s ih =>
      simp only [List.mem_cons, not_or] at h
      simp [cut, Ne.symm h.1, ih h.2]

theorem cut_append (h : sep ∉ a) (b : Bytes) : cut sep (a ++ sep :: b) = (a, b, true) := by
  induction a with
  | nil => simp [cut]
  | cons c a ih =>
      simp only [List.mem_cons, not_or] at h
      simp [cut, Ne.symm h.1, ih h.2]

/-- What `cut` returns: either the split at the first `sep`, or the whole input. -/
theorem cut_spec (s : Bytes) :
    (∃ x y, s = x ++ sep :: y ∧ sep ∉ x ∧ cut sep s = (x, y, true)) ∨
      (sep ∉ s ∧ cut sep s = (s, [], false)) := by
  by_cases h : sep ∈ s
  · obtain ⟨x, y, rfl, hx⟩ := exists_split_first h
    exact .inl ⟨x, y, rfl, hx, cut_append hx y⟩
  · exact .inr ⟨h, cut_of_not_mem h⟩

theorem splitLast_of_not_mem (h : sep ∉ s) : splitLast sep s = none := by
  induction s with
  | nil => rfl
  | cons c s ih =>
      simp only [List.mem_cons, not_or] at h
      simp [splitLast, ih h.2, Ne.symm h.1]

theorem splitLast_append (h : sep ∉ b) (a : Bytes) :
    splitLast sep (a ++ sep :: b) = some (a, b) := by
  induction a with
  | nil => simp [splitLast, splitLast_of_not_mem h]
  | cons c a ih => simp [splitLast, ih]

/-- What `splitLast` returns: the split at the last `sep`. -/
theorem splitLast_spec {x y : Bytes} (h : splitLast sep s = some (x, y)) :
    s = x ++ sep :: y ∧ sep ∉ y := by
  by_cases hs : sep ∈ s
  · obtain ⟨x', y', rfl, hy'⟩ := exists_split_last hs
    rw [splitLast_append hy'] at h
    cases h
    exact ⟨rfl, hy'⟩
  · simp [splitLast_of_not_mem hs] at h

end Strings

end Go
end StepOAuth
