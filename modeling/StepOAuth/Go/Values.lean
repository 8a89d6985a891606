import StepOAuth.Go.Escape
import Mathlib.Data.List.Sort
import Mathlib.Data.List.Dedup

/-!
# `url.Values`: `Get`, `Add`, `Set`, `Encode` and `ParseQuery`

A `url.Values` is a `map[string][]string`. The model keeps it as the list of its pairs in the
order they were added, so that `v[key]` is `lookup v key`: the values paired with `key`, in
order. Everything the Go code can observe of a map (`Get`, `Add`, `Set`, `Encode`) depends only
on `lookup`, so two lists with the same `lookup` are the same map.

The main result is `lookup_parseQuery_encode`: decoding what `Encode` wrote gives back every
key with all its values, and `parseQuery_encode` shows the decoding meets no error. That is how
a query `Auth` writes, or a form body `Exchange` posts, reads on the other side.
-/

namespace StepOAuth
namespace Go
namespace Url

/-- `url.Values`, as its (key, value) pairs in the order they were added. -/
abbrev Values := List (Bytes × Bytes)

namespace Values

/-- `v[key]`: the values of `key`, in order. -/
def lookup (v : Values) (key : Bytes) : List Bytes :=
  (v.filter fun p => p.1 = key).map (·.2)

/-- `v.Get(key)`: the first value of `key`, or `""`. -/
def get (v : Values) (key : Bytes) : Bytes := (v.lookup key).headD []

/-- `v.Add(key, value)`: append `value` to the values of `key`. -/
def add (v : Values) (key value : Bytes) : Values := v ++ [(key, value)]

/-- `v.Set(key, value)`: make `value` the only value of `key`. -/
def set (v : Values) (key value : Bytes) : Values :=
  (v.filter fun p => p.1 ≠ key) ++ [(key, value)]

/-- The keys of the map. -/
def keys (v : Values) : List Bytes := (v.map (·.1)).dedup

end Values

/-- Go's `<=` on strings: bytewise lexicographic order. -/
def lexLe : Bytes → Bytes → Bool
  | [], _ => true
  | _ :: _, [] => false
  | a :: s, b :: t => a < b || (a = b && lexLe s t)

namespace Values

/-- `v.Encode()`: the keys in sorted order, each value of each key as
`QueryEscape(key) + "=" + QueryEscape(value)`, joined by `&`. -/
def encode (v : Values) : Bytes :=
  ['&'.toUInt8].intercalate
    ((v.keys.insertionSort fun a b => lexLe a b = true).flatMap fun k =>
      (v.lookup k).map fun x => queryEscape k ++ '='.toUInt8 :: queryEscape x)

end Values

/-- The errors `parseQuery` records. -/
inductive QueryError
  | semicolon
  | escape (e : EscapeError)
  deriving DecidableEq, Repr

/-- What `parseQuery` does with one `&`-separated piece: refuse one holding `;`, skip an empty
one, and otherwise unescape the key and value on either side of the first `=`. -/
def parseSegment (seg : Bytes) : Option (Except QueryError (Bytes × Bytes)) :=
  if ';'.toUInt8 ∈ seg then some (.error .semicolon)
  else if seg = [] then none
  else
    let r := Strings.cut '='.toUInt8 seg
    some do
      let key ← (queryUnescape r.1).mapError .escape
      let value ← (queryUnescape r.2.1).mapError .escape
      pure (key, value)

/-- One turn of `parseQuery`'s loop: a `;` overwrites the error, a bad escape sets it only when
none is set yet, a good pair is appended. -/
def parseStep (acc : Values × Option QueryError) (seg : Bytes) : Values × Option QueryError :=
  match parseSegment seg with
  | none => acc
  | some (.error .semicolon) => (acc.1, some .semicolon)
  | some (.error e) => (acc.1, acc.2 <|> some e)
  | some (.ok kv) => (acc.1 ++ [kv], acc.2)

/-- `url.ParseQuery(query)`: the pairs read and the error recorded. The loop of the source cuts
`query` at each `&`; an empty last piece is skipped either way. -/
def parseQuery (query : Bytes) : Values × Option QueryError :=
  (query.splitOn '&'.toUInt8).foldl parseStep ([], none)

namespace Values

variable {v : Values} {k j x : Bytes}

@[simp] theorem lookup_nil (k : Bytes) : lookup [] k = [] := rfl

@[simp] theorem lookup_append (v w : Values) (k : Bytes) :
    lookup (v ++ w) k = lookup v k ++ lookup w k := by
  simp [lookup, List.filter_append]

@[simp] theorem lookup_pair (a b k : Bytes) :
    lookup [(a, b)] k = if a = k then [b] else [] := by
  by_cases h : a = k <;> simp [lookup, h]

theorem lookup_add (v : Values) (key value k : Bytes) :
    lookup (v.add key value) k = lookup v k ++ if key = k then [value] else [] := by
  simp [add]

theorem get_eq (v : Values) (k : Bytes) : v.get k = (v.lookup k).headD [] := rfl

theorem lookup_eq_nil_of_not_mem_keys (h : k ∉ v.keys) : v.lookup k = [] := by
  simp only [keys, List.mem_dedup, List.mem_map, not_exists, not_and] at h
  simp only [lookup, List.map_eq_nil_iff, List.filter_eq_nil_iff, decide_eq_true_eq]
  exact fun p hp hk => h p hp hk

/-- The pairs `Encode` writes, before escaping: for each key in turn, its values. -/
def blocks (ks : List Bytes) (v : Values) : Values :=
  ks.flatMap fun k => (v.lookup k).map fun y => (k, y)

theorem lookup_blocks {ks : List Bytes} (hks : ks.Nodup) (v : Values) (j : Bytes) :
    lookup (blocks ks v) j = if j ∈ ks then v.lookup j else [] := by
  induction ks with
  | nil => simp [blocks]
  | cons k ks ih =>
      obtain ⟨hk, hks⟩ := List.nodup_cons.1 hks
      have hblock : lookup ((v.lookup k).map fun y => (k, y)) j =
          if k = j then v.lookup k else [] := by
        by_cases h : k = j
        · subst h; simp [lookup, List.filter_map, Function.comp_def]
        · simp [lookup, List.filter_map, Function.comp_def, h]
      simp only [blocks, List.flatMap_cons, lookup_append] at ih ⊢
      rw [hblock, ih hks]
      by_cases h : k = j
      · subst h; simp [hk]
      · simp [h, Ne.symm h]

end Values

/-! ## Decoding what `Encode` wrote -/

theorem amp_not_mem_queryEscape (s : Bytes) : '&'.toUInt8 ∉ queryEscape s :=
  not_mem_escape (by decide) (by decide) (by decide) (.inl (by decide)) s

theorem eq_not_mem_queryEscape (s : Bytes) : '='.toUInt8 ∉ queryEscape s :=
  not_mem_escape (by decide) (by decide) (by decide) (.inl (by decide)) s

theorem semicolon_not_mem_queryEscape (s : Bytes) : ';'.toUInt8 ∉ queryEscape s :=
  not_mem_escape (by decide) (by decide) (by decide) (.inl (by decide)) s

theorem queryUnescape_queryEscape (s : Bytes) : queryUnescape (queryEscape s) = .ok s :=
  unescape_escape fun _ _ => trivial

/-- One piece `Encode` wrote reads back as its pair. -/
theorem parseSegment_encoded (k x : Bytes) :
    parseSegment (queryEscape k ++ '='.toUInt8 :: queryEscape x) = some (.ok (k, x)) := by
  have hsemi : ';'.toUInt8 ∉ queryEscape k ++ '='.toUInt8 :: queryEscape x := by
    simp only [List.mem_append, List.mem_cons, not_or]
    exact ⟨semicolon_not_mem_queryEscape k, by decide, semicolon_not_mem_queryEscape x⟩
  simp only [parseSegment, hsemi, if_false, List.cons_ne_nil, List.append_eq_nil, and_false,
    Strings.cut_append (eq_not_mem_queryEscape k), queryUnescape_queryEscape]
  rfl

theorem foldl_parseStep_encoded (ps : Values) (acc : Values × Option QueryError) :
    (ps.map fun p => queryEscape p.1 ++ '='.toUInt8 :: queryEscape p.2).foldl parseStep acc =
      (acc.1 ++ ps, acc.2) := by
  induction ps generalizing acc with
  | nil => simp
  | cons p ps ih =>
      simp only [List.map_cons, List.foldl_cons, parseStep, parseSegment_encoded, ih,
        List.append_assoc, List.singleton_append]

theorem encode_eq (v : Values) :
    v.encode = ['&'.toUInt8].intercalate
      ((Values.blocks (v.keys.insertionSort fun a b => lexLe a b = true) v).map fun p =>
        queryEscape p.1 ++ '='.toUInt8 :: queryEscape p.2) := by
  simp [Values.encode, Values.blocks, List.map_flatMap, Function.comp_def]

/-- Decoding `Encode`'s output gives back the pairs of `v`, key block by key block. -/
theorem parseQuery_encode (v : Values) :
    parseQuery v.encode = (Values.blocks (v.keys.insertionSort fun a b => lexLe a b = true) v,
      none) := by
  rw [encode_eq]
  set ps := Values.blocks (v.keys.insertionSort fun a b => lexLe a b = true) v
  by_cases hps : ps = []
  · rw [hps]
    rfl
  · rw [parseQuery, List.splitOn_intercalate]
    · simpa using foldl_parseStep_encoded ps ([], none)
    · simp only [List.mem_map, forall_exists_index, and_imp]
      rintro _ p - rfl
      simp only [List.mem_append, List.mem_cons, not_or]
      exact ⟨amp_not_mem_queryEscape _, by decide, amp_not_mem_queryEscape _⟩
    · simpa using hps

/-- **`ParseQuery` inverts `Encode`**: every key keeps all its values, in order. -/
theorem lookup_parseQuery_encode (v : Values) (k : Bytes) :
    (parseQuery v.encode).1.lookup k = v.lookup k := by
  have hnodup : (v.keys.insertionSort fun a b => lexLe a b = true).Nodup :=
    (List.perm_insertionSort _ _).nodup_iff.2 (List.nodup_dedup _)
  rw [parseQuery_encode, Values.lookup_blocks hnodup]
  by_cases hk : k ∈ v.keys
  · rw [if_pos ((List.perm_insertionSort _ _).mem_iff.2 hk)]
  · rw [if_neg (fun h => hk ((List.perm_insertionSort _ _).mem_iff.1 h)),
      Values.lookup_eq_nil_of_not_mem_keys hk]

end Url
end Go
end StepOAuth
