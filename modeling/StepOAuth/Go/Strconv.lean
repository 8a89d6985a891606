import StepOAuth.Go.Bytes
import Mathlib.Algebra.Group.Nat.Basic

/-!
# `strconv.Atoi`

The implicit-flow handler reads `expires_in` with `expiresIn, _ := strconv.Atoi(...)` and
drops the error. What reaches the token is therefore the *value* `Atoi` returns on every input,
errors included. Go's `Atoi` has two paths:

* a fast path for strings of 1 to 18 bytes, which accepts an optional sign and decimal digits
  and returns `0` on anything else;
* `ParseInt(s, 10, 0)` otherwise, whose digit loop in `ParseUint` stops at the first overflow of
  64 bits and returns the largest value, and which then saturates to the `int64` range.

`atoiValue` says the result without the loops. `atoi_cons_short` proves that the fast path
returns what `ParseInt` returns, error kind included. From it, `atoi_fst` proves that `Atoi`
computes `atoiValue`, and `atoi_eq_parseInt` that `Atoi` is `ParseInt` on every input.
`int` is 64 bits wide (`strconv.IntSize = 64`).
-/

namespace StepOAuth
namespace Go
namespace Strconv

/-- `strconv.ErrSyntax` and `strconv.ErrRange`. -/
inductive NumError
  | errSyntax
  | errRange
  deriving DecidableEq, Repr

/-- `1<<64 - 1`, the largest value of `ParseUint(s, 10, 64)`. -/
def maxUint64 : Nat := 2 ^ 64 - 1

/-- `maxUint64/10 + 1`: from here on, `n*10` overflows. -/
def cutoff10 : Nat := maxUint64 / 10 + 1

/-- `1 << 63`, the cutoff of `ParseInt` for 64 bits. -/
def cutoff63 : Nat := 2 ^ 63

/-- A decimal digit byte. -/
def isDigit (c : UInt8) : Bool := '0'.toUInt8 ≤ c && c ≤ '9'.toUInt8

/-- `ParseUint`'s value of one byte in base 10. The source also maps letters to values of at
least 10, which base 10 refuses with the same `ErrSyntax` as any other non-digit byte. -/
def decDigit (c : UInt8) : Option Nat :=
  if isDigit c then some (c.toNat - '0'.toNat) else none

/-- The digit loop of `ParseUint(s, 10, 64)`, from the accumulated value `n`. -/
def parseUintLoop (n : Nat) : Bytes → Nat × Option NumError
  | [] => (n, none)
  | c :: s =>
      match decDigit c with
      | none => (0, some .errSyntax)
      | some d =>
          if cutoff10 ≤ n then (maxUint64, some .errRange)
          else if maxUint64 < n * 10 + d then (maxUint64, some .errRange)
          else parseUintLoop (n * 10 + d) s

/-- `strconv.ParseUint(s, 10, 64)`. -/
def parseUint (s : Bytes) : Nat × Option NumError :=
  if s = [] then (0, some .errSyntax) else parseUintLoop 0 s

/-- The sign `ParseInt` picks off: negative, and the rest of the string. -/
def signSplit : Bytes → Bool × Bytes
  | [] => (false, [])
  | c :: s =>
      if c = '+'.toUInt8 then (false, s)
      else if c = '-'.toUInt8 then (true, s)
      else (false, c :: s)

/-- `strconv.ParseInt(s, 10, 0)` with `IntSize = 64`. -/
def parseInt (s : Bytes) : Int × Option NumError :=
  if s = [] then (0, some .errSyntax)
  else
    let (neg, body) := signSplit s
    let (un, err) := parseUint body
    if err = some .errSyntax then (0, err)
    else if !neg ∧ cutoff63 ≤ un then (cutoff63 - 1, some .errRange)
    else if neg ∧ cutoff63 < un then (-cutoff63, some .errRange)
    else (if neg then -un else un, none)

/-- The digit loop of `Atoi`'s fast path: `ch -= '0'; if ch > 9 { error }; n = n*10 + ch`,
with the byte subtraction wrapping. -/
def fastLoop (n : Nat) : Bytes → Option Nat
  | [] => some n
  | c :: s =>
      let d := c - '0'.toUInt8
      if 9 < d.toNat then none else fastLoop (n * 10 + d.toNat) s

/-- `strconv.Atoi` on a 64-bit platform: its value and its error. -/
def atoi (s : Bytes) : Int × Option NumError :=
  match s with
  | [] => parseInt []
  | c :: rest =>
      if s.length < 19 then
        let body := if c = '-'.toUInt8 ∨ c = '+'.toUInt8 then rest else c :: rest
        if body = [] then (0, some .errSyntax)
        else
          match fastLoop 0 body with
          | none => (0, some .errSyntax)
          | some n => (if c = '-'.toUInt8 then -(n : Int) else n, none)
      else parseInt s

/-! ## The value without the loops -/

/-- The value of a digit string read left to right from `n`. -/
def decValue (n : Nat) (ds : Bytes) : Nat :=
  ds.foldl (fun a c => a * 10 + (c.toNat - '0'.toNat)) n

/-- Saturation to Go's `int` range `[-2^63, 2^63 - 1]`. -/
def clampInt (x : Int) : Int := max (-cutoff63) (min (cutoff63 - 1) x)

/-- The value `Atoi` returns, errors ignored: after an optional sign, the digit string's value
saturated to `int` when the rest is all digits, or when its leading digits alone exceed
`2^64 - 1`; zero otherwise. -/
def atoiValue (s : Bytes) : Int :=
  let (neg, body) := signSplit s
  let run := body.takeWhile isDigit
  if (run ≠ [] ∧ run = body) ∨ maxUint64 < decValue 0 run then
    clampInt (if neg then -(decValue 0 run : Int) else decValue 0 run)
  else 0

section Lemmas

theorem isDigit_iff (c : UInt8) : isDigit c = true ↔ 48 ≤ c.toNat ∧ c.toNat ≤ 57 := by
  simp [isDigit, Byte.le_iff]

@[simp] theorem decValue_nil (n : Nat) : decValue n [] = n := rfl

@[simp] theorem decValue_cons (n : Nat) (c : UInt8) (ds : Bytes) :
    decValue n (c :: ds) = decValue (n * 10 + (c.toNat - 48)) ds := rfl

theorem le_decValue (n : Nat) (ds : Bytes) : n ≤ decValue n ds := by
  induction ds generalizing n with
  | nil => rfl
  | cons c ds ih => rw [decValue_cons]; exact le_trans (by omega) (ih _)

/-- A run of `k` digits read from `n` stays below `(n + 1) * 10^k`. -/
theorem decValue_lt (n : Nat) (ds : Bytes) (h : ∀ c ∈ ds, isDigit c = true) :
    decValue n ds < (n + 1) * 10 ^ ds.length := by
  induction ds generalizing n with
  | nil => simp
  | cons c ds ih =>
      have hc := (isDigit_iff c).1 (h c (List.mem_cons_self _ _))
      have := ih (n * 10 + (c.toNat - 48)) (fun x hx => h x (List.mem_cons_of_mem _ hx))
      simp only [decValue_cons, List.length_cons, Nat.pow_succ]
      calc _ < (n * 10 + (c.toNat - 48) + 1) * 10 ^ ds.length := this
        _ ≤ (n + 1) * 10 * 10 ^ ds.length := Nat.mul_le_mul_right _ (by omega)
        _ = (n + 1) * (10 ^ ds.length * 10) := by rw [Nat.mul_assoc, Nat.mul_comm 10]

theorem decDigit_eq (c : UInt8) :
    decDigit c = if isDigit c then some (c.toNat - 48) else none := rfl

/-- `ParseUint`'s loop: it overflows exactly when the leading digit run does, else it
succeeds on an all-digit string and fails on anything else. -/
theorem parseUintLoop_eq (n : Nat) (hn : n ≤ maxUint64) (s : Bytes) :
    parseUintLoop n s =
      if maxUint64 < decValue n (s.takeWhile isDigit) then (maxUint64, some .errRange)
      else if s.takeWhile isDigit = s then (decValue n s, none)
      else (0, some .errSyntax) := by
  induction s generalizing n with
  | nil => simp [parseUintLoop, Nat.not_lt.2 hn]
  | cons c s ih =>
      by_cases hc : isDigit c = true
      · have hstep : n * 10 + (c.toNat - 48) ≤ decValue (n * 10 + (c.toNat - 48))
            (s.takeWhile isDigit) := le_decValue _ _
        simp only [parseUintLoop, decDigit_eq, hc, if_true, List.takeWhile_cons_of_pos hc,
          decValue_cons, List.cons.injEq, true_and]
        by_cases hcut : cutoff10 ≤ n
        · have : maxUint64 < n * 10 + (c.toNat - 48) := by
            simp only [cutoff10, maxUint64] at hcut ⊢; omega
          simp [hcut, Nat.lt_of_lt_of_le this hstep]
        · by_cases hov : maxUint64 < n * 10 + (c.toNat - 48)
          · simp [hcut, hov, Nat.lt_of_lt_of_le hov hstep]
          · simp only [hcut, hov, if_false]
            exact ih _ (Nat.not_lt.1 hov)
      · have hnd : ¬ maxUint64 < n := Nat.not_lt.2 hn
        simp [parseUintLoop, decDigit_eq, hc, List.takeWhile_cons_of_neg, hnd]

theorem parseUint_eq {s : Bytes} (hs : s ≠ []) :
    parseUint s =
      if maxUint64 < decValue 0 (s.takeWhile isDigit) then (maxUint64, some .errRange)
      else if s.takeWhile isDigit = s then (decValue 0 s, none)
      else (0, some .errSyntax) := by
  rw [parseUint, if_neg hs, parseUintLoop_eq 0 (by simp [maxUint64])]

/-- The fast path's loop accepts exactly the all-digit strings, with their value. -/
theorem fastLoop_eq (n : Nat) (s : Bytes) :
    fastLoop n s = if s.takeWhile isDigit = s then some (decValue n s) else none := by
  induction s generalizing n with
  | nil => rfl
  | cons c s ih =>
      have hsub := Byte.toNat_sub c '0'.toUInt8
      have hlt := Byte.toNat_lt c
      simp only [Byte.toNat_toUInt8, show '0'.toNat % 256 = 48 from rfl] at hsub
      by_cases hc : isDigit c = true
      · have hd := (isDigit_iff c).1 hc
        have he : (c - '0'.toUInt8).toNat = c.toNat - 48 := by omega
        have h9 : ¬ 9 < c.toNat - 48 := by omega
        simp only [fastLoop, he, h9, if_false, ih, List.takeWhile_cons_of_pos hc,
          List.cons.injEq, true_and, decValue_cons]
      · have hd : ¬ (48 ≤ c.toNat ∧ c.toNat ≤ 57) := fun h => hc ((isDigit_iff c).2 h)
        have h9 : 9 < (c - '0'.toUInt8).toNat := by omega
        simp [fastLoop, h9, List.takeWhile_cons_of_neg hc]

theorem minus_ne_plus : '-'.toUInt8 ≠ '+'.toUInt8 := by decide

theorem signSplit_cons_body (c : UInt8) (rest : Bytes) :
    (signSplit (c :: rest)).2 =
      if c = '-'.toUInt8 ∨ c = '+'.toUInt8 then rest else c :: rest := by
  by_cases hp : c = '+'.toUInt8
  · simp [signSplit, hp]
  · by_cases hm : c = '-'.toUInt8 <;> simp [signSplit, hp, hm, minus_ne_plus]

theorem signSplit_cons_neg (c : UInt8) (rest : Bytes) :
    (signSplit (c :: rest)).1 = decide (c = '-'.toUInt8) := by
  by_cases hp : c = '+'.toUInt8
  · simp [signSplit, hp, Ne.symm minus_ne_plus]
  · by_cases hm : c = '-'.toUInt8 <;> simp [signSplit, hp, hm, minus_ne_plus]

theorem takeWhile_length_le (s : Bytes) : (s.takeWhile isDigit).length ≤ s.length :=
  (List.takeWhile_prefix _).length_le

theorem takeWhile_all_digit (s : Bytes) : ∀ c ∈ s.takeWhile isDigit, isDigit c = true :=
  fun _ h => List.mem_takeWhile_imp h

/-- `ParseInt`'s range check after the digits is a saturation to `int`. -/
theorem parseInt_saturate (neg : Bool) (un : Nat) :
    (if !neg ∧ cutoff63 ≤ un then ((cutoff63 : Int) - 1, some NumError.errRange)
      else if neg ∧ cutoff63 < un then (-(cutoff63 : Int), some NumError.errRange)
      else (if neg then -(un : Int) else un, none)).1 =
      clampInt (if neg then -(un : Int) else un) := by
  simp only [clampInt, cutoff63]
  cases neg <;> simp only [Bool.not_false, Bool.not_true, true_and, false_and, if_false,
    if_true, Bool.false_eq_true] <;> split <;> omega

/-- `ParseInt`'s value is `atoiValue`. -/
theorem parseInt_fst (s : Bytes) : (parseInt s).1 = atoiValue s := by
  rcases s with _ | ⟨c, rest⟩
  · rfl
  rcases hsb : signSplit (c :: rest) with ⟨neg, body⟩
  simp only [parseInt, atoiValue, hsb, List.cons_ne_nil, if_false]
  by_cases hb : body = []
  · subst hb
    simp [parseUint]
  rw [parseUint_eq hb]
  by_cases hov : maxUint64 < decValue 0 (body.takeWhile isDigit)
  · simp only [hov, if_true, or_true]
    cases neg <;> simp [clampInt, cutoff63, maxUint64] at hov ⊢ <;> omega
  · simp only [hov, if_false, or_false]
    by_cases hall : body.takeWhile isDigit = body
    · have hne : body.takeWhile isDigit ≠ [] := by rwa [hall]
      simp only [hall, if_true, ne_eq, hb, not_false_eq_true, true_and, reduceCtorEq,
        Option.some.injEq, if_false]
      exact parseInt_saturate neg _
    · simp [hall]

theorem length_signSplit_lt {s body : Bytes} {neg : Bool} {n : Nat} (h : signSplit s = (neg, body))
    (hs : s.length < n) : body.length < n := by
  rcases s with _ | ⟨c, s⟩
  · cases h; exact hs
  · simp only [signSplit] at h
    split_ifs at h <;> cases h <;> simp at hs ⊢ <;> omega

/-- A digit run of fewer than 19 bytes is below `10^18`: the fast path cannot overflow. -/
theorem decValue_takeWhile_lt {body : Bytes} (h : body.length < 19) :
    decValue 0 (body.takeWhile isDigit) < 10 ^ 18 :=
  calc _ < (0 + 1) * 10 ^ (body.takeWhile isDigit).length :=
        decValue_lt 0 _ (takeWhile_all_digit body)
    _ ≤ 10 ^ 18 := by
        rw [Nat.zero_add, Nat.one_mul]
        exact Nat.pow_le_pow_right (by omega) (by have := takeWhile_length_le body; omega)

/-- `Atoi`'s fast path, taken for 1 to 18 bytes, returns what `ParseInt(s, 10, 0)` returns:
the digit string's value fits below `2^63`, so neither the range check nor the sign matters. -/
theorem atoi_cons_short {c : UInt8} {rest : Bytes} (hlen : (c :: rest).length < 19) :
    atoi (c :: rest) = parseInt (c :: rest) := by
  have hbody := signSplit_cons_body c rest
  have hneg := signSplit_cons_neg c rest
  rcases hsb : signSplit (c :: rest) with ⟨neg, body⟩
  simp only [hsb] at hbody hneg
  have hsmall := decValue_takeWhile_lt (length_signSplit_lt hsb hlen)
  simp only [atoi, hlen, if_true, parseInt, List.cons_ne_nil, if_false, hsb, ← hbody]
  by_cases hb : body = []
  · simp [hb, parseUint]
  have hnov : ¬ maxUint64 < decValue 0 (body.takeWhile isDigit) := by
    simp only [maxUint64]; omega
  rw [if_neg hb, fastLoop_eq, parseUint_eq hb, if_neg hnov]
  by_cases hall : body.takeWhile isDigit = body
  · rw [hall] at hsmall
    have hcut : ¬ cutoff63 ≤ decValue 0 body := by simp only [cutoff63]; omega
    have hcut' : ¬ cutoff63 < decValue 0 body := by simp only [cutoff63]; omega
    subst hneg
    by_cases hm : c = '-'.toUInt8 <;> simp [hall, hm, hcut, hcut']
  · simp [hall]

/-- **What `Atoi` returns as its value**, on every string. -/
theorem atoi_fst (s : Bytes) : (atoi s).1 = atoiValue s := by
  rcases s with _ | ⟨c, rest⟩
  · rfl
  by_cases hlen : (c :: rest).length < 19
  · rw [atoi_cons_short hlen, parseInt_fst]
  · simp only [atoi, hlen, if_false, parseInt_fst]

/-- **`Atoi`'s fast path is `ParseInt`.** On every string, `Atoi` returns the value and the
error kind `ParseInt(s, 10, 0)` returns: its fast path for 1 to 18 bytes changes nothing. -/
theorem atoi_eq_parseInt (s : Bytes) : atoi s = parseInt s := by
  rcases s with _ | ⟨c, rest⟩
  · rfl
  by_cases hlen : (c :: rest).length < 19
  · exact atoi_cons_short hlen
  · simp only [atoi, hlen, if_false]

end Lemmas

end Strconv
end Go
end StepOAuth
