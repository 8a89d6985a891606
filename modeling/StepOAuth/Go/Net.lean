import StepOAuth.Go.Bytes

/-!
# `net.SplitHostPort` and `net.JoinHostPort`

`Validate` checks `--listen` with `net.SplitHostPort`, and `NewServer` splits it again, listens
on `net.JoinHostPort(host, port)`, and splits the listener's address to read the bound port.
The model of `SplitHostPort` follows the source's index arithmetic with the slices it names:
the port after the last `:`, and for a bracketed host the slice up to the first `]`.

`splitHostPort_joinHostPort` is the round trip the standard library promises: a host without
brackets and a port without `:` come back from `JoinHostPort` unchanged, IPv6 literals included.
-/

namespace StepOAuth
namespace Go
namespace Net

/-- `net.AddrError`: the reason and the address. -/
structure AddrError where
  err : Bytes
  addr : Bytes
  deriving DecidableEq, Repr

/-- `net.SplitHostPort(hostport)`. -/
def splitHostPort (hostport : Bytes) : Except AddrError (Bytes × Bytes) :=
  let addrErr (why : String) : Except AddrError (Bytes × Bytes) := .error ⟨ascii why, hostport⟩
  match Strings.splitLast ':'.toUInt8 hostport with
  | none => addrErr "missing port in address"
  | some (beforeLast, port) =>
      match hostport with
      | c :: rest =>
          if c = '['.toUInt8 then
            let r := Strings.cut ']'.toUInt8 rest
            if !r.2.2 then addrErr "missing ']' in address"
            else if r.2.1 = [] then addrErr "missing port in address"
            else if r.2.1 ≠ ':'.toUInt8 :: port then
              if r.2.1.head? = some ':'.toUInt8 then addrErr "too many colons in address"
              else addrErr "missing port in address"
            else if '['.toUInt8 ∈ rest then addrErr "unexpected '[' in address"
            else if ']'.toUInt8 ∈ r.2.1 then addrErr "unexpected ']' in address"
            else .ok (r.1, port)
          else if ':'.toUInt8 ∈ beforeLast then addrErr "too many colons in address"
          else if '['.toUInt8 ∈ hostport then addrErr "unexpected '[' in address"
          else if ']'.toUInt8 ∈ hostport then addrErr "unexpected ']' in address"
          else .ok (beforeLast, port)
      | [] => addrErr "missing port in address"

/-- **What `SplitHostPort` accepts splits into a host without brackets and a port without
`:` or brackets.** -/
theorem splitHostPort_ok {hostport host port : Bytes}
    (h : splitHostPort hostport = .ok (host, port)) :
    '['.toUInt8 ∉ host ∧ ']'.toUInt8 ∉ host ∧ ':'.toUInt8 ∉ port ∧ '['.toUInt8 ∉ port ∧
      ']'.toUInt8 ∉ port := by
  unfold splitHostPort at h
  split at h
  · cases h
  · rename_i beforeLast port' hs
    obtain ⟨hhp, hp⟩ := Strings.splitLast_spec hs
    split at h
    · rename_i c rest
      dsimp only at h
      split_ifs at h with hc h1 h2 h3 h4 h5 h6 h7 h8 h9 <;> cases h
      · obtain ⟨x, y, hr, hx, hcut⟩ | ⟨-, hcut⟩ := @Strings.cut_spec ']'.toUInt8 rest
        · rw [hcut] at h3 h6 ⊢
          simp only [ne_eq, not_not] at h3
          subst h3
          exact ⟨fun hm => h5 (hr ▸ List.mem_append_left _ hm), hx, hp,
            fun hm => h5 (hr ▸ List.mem_append_right _ (List.mem_cons_of_mem _
              (List.mem_cons_of_mem _ hm))),
            fun hm => h6 (List.mem_cons_of_mem _ hm)⟩
        · simp [hcut] at h1
      · have hport : ∀ b, b ∈ port → b ∈ c :: rest := fun b hm =>
          hhp ▸ List.mem_append_right _ (List.mem_cons_of_mem _ hm)
        exact ⟨fun hm => h8 (hhp ▸ List.mem_append_left _ hm),
          fun hm => h9 (hhp ▸ List.mem_append_left _ hm), hp, fun hm => h8 (hport _ hm),
          fun hm => h9 (hport _ hm)⟩
    · cases h

/-- `net.JoinHostPort(host, port)`: a host with a colon is taken for an IPv6 literal and
bracketed. -/
def joinHostPort (host port : Bytes) : Bytes :=
  if ':'.toUInt8 ∈ host then '['.toUInt8 :: host ++ ascii "]:" ++ port
  else host ++ ':'.toUInt8 :: port

/-- `strconv.Itoa(n)` for a port number. -/
def itoa (n : Nat) : Bytes := (Nat.toDigits 10 n).map Char.toUInt8

theorem digitChar_isDigit : ∀ d < 10, (Nat.digitChar d).isDigit = true := by decide

theorem toDigitsCore_isDigit : ∀ (fuel n : Nat) (ds : List Char), (∀ c ∈ ds, c.isDigit) →
    ∀ c ∈ Nat.toDigitsCore 10 fuel n ds, c.isDigit
  | 0, _, _, h => h
  | f + 1, n, ds, h => by
      have h' : ∀ c ∈ Nat.digitChar (n % 10) :: ds, c.isDigit := by
        rintro c (_ | ⟨_, hc⟩)
        exacts [digitChar_isDigit _ (Nat.mod_lt _ (by decide)), h c hc]
      have hstep : Nat.toDigitsCore 10 (f + 1) n ds =
          if n / 10 = 0 then Nat.digitChar (n % 10) :: ds
          else Nat.toDigitsCore 10 f (n / 10) (Nat.digitChar (n % 10) :: ds) := rfl
      rw [hstep]
      split
      · exact h'
      · exact toDigitsCore_isDigit f _ _ h'

/-- `Itoa` writes decimal digits only. -/
theorem itoa_digit {n : Nat} {b : UInt8} (hb : b ∈ itoa n) : 48 ≤ b.toNat ∧ b.toNat ≤ 57 := by
  obtain ⟨c, hc, rfl⟩ := List.mem_map.mp hb
  have h := toDigitsCore_isDigit _ n [] (by simp) c hc
  simp only [Char.isDigit, Bool.and_eq_true, decide_eq_true_eq] at h
  have h1 : 48 ≤ c.toNat := h.1
  have h2 : c.toNat ≤ 57 := h.2
  rw [Byte.toNat_toUInt8]
  omega

theorem itoa_plain (n : Nat) :
    ':'.toUInt8 ∉ itoa n ∧ '['.toUInt8 ∉ itoa n ∧ ']'.toUInt8 ∉ itoa n := by
  refine ⟨fun h => ?_, fun h => ?_, fun h => ?_⟩ <;> exact absurd (itoa_digit h) (by decide)

section RoundTrip

variable {host port : Bytes}

theorem splitHostPort_plain (hc : ':'.toUInt8 ∉ host) (hp : ':'.toUInt8 ∉ port)
    (hob : '['.toUInt8 ∉ host ++ ':'.toUInt8 :: port)
    (hcb : ']'.toUInt8 ∉ host ++ ':'.toUInt8 :: port) :
    splitHostPort (host ++ ':'.toUInt8 :: port) = .ok (host, port) := by
  have hhd : ∀ c rest, host ++ ':'.toUInt8 :: port = c :: rest → c ≠ '['.toUInt8 := by
    rintro c rest h rfl
    exact hob (by rw [h]; exact List.mem_cons_self _ _)
  unfold splitHostPort
  rw [Strings.splitLast_append hp]
  rcases h : host ++ ':'.toUInt8 :: port with _ | ⟨c, rest⟩
  · simp at h
  · rw [h] at hob hcb
    simp [hhd c rest h, hc, hob, hcb]

theorem splitHostPort_bracketed (hc : ']'.toUInt8 ∉ host) (hp : ':'.toUInt8 ∉ port)
    (hob : '['.toUInt8 ∉ host ++ ascii "]:" ++ port) (hcb : ']'.toUInt8 ∉ port) :
    splitHostPort ('['.toUInt8 :: host ++ ascii "]:" ++ port) = .ok (host, port) := by
  have hform : '['.toUInt8 :: host ++ ascii "]:" ++ port =
      ('['.toUInt8 :: host ++ [']'.toUInt8]) ++ ':'.toUInt8 :: port := by
    simp [ascii]
  have hrest : host ++ ascii "]:" ++ port = host ++ ']'.toUInt8 :: ':'.toUInt8 :: port := by
    simp [ascii]
  have hcolon : ']'.toUInt8 ∉ ':'.toUInt8 :: port := by simp [hcb]; decide
  have hob' : '['.toUInt8 ∉ host ++ ']'.toUInt8 :: ':'.toUInt8 :: port := hrest ▸ hob
  unfold splitHostPort
  rw [hform, Strings.splitLast_append hp]
  simp only [List.cons_append, List.append_assoc, List.singleton_append, List.nil_append,
    if_true, Strings.cut_append hc]
  simp [hob', hcolon]

/-- **`SplitHostPort` inverts `JoinHostPort`** for every host without brackets and every port
without `:` or brackets. -/
theorem splitHostPort_joinHostPort (hob : '['.toUInt8 ∉ host) (hcb : ']'.toUInt8 ∉ host)
    (hp : ':'.toUInt8 ∉ port) (hpo : '['.toUInt8 ∉ port) (hpc : ']'.toUInt8 ∉ port) :
    splitHostPort (joinHostPort host port) = .ok (host, port) := by
  unfold joinHostPort
  split_ifs with hc
  · exact splitHostPort_bracketed hcb hp (by simp [hob, hpo, ascii]; decide) hpc
  · exact splitHostPort_plain hc hp (by simp [hob, hpo]; decide) (by simp [hcb, hpc]; decide)

end RoundTrip

end Net
end Go
end StepOAuth
