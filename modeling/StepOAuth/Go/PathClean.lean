import StepOAuth.Go.Path

/-!
# `path.Clean` byte by byte

The source of `path.Clean` is one pass over the bytes of the path. It reads at `r`, writes
through a `lazybuf` at `w`, and keeps `dotdot`, the index a `..` cannot back up past: the
leading `/` of a rooted path, or the end of the leading `../..` of a relative one. The
`lazybuf` writes nothing while the output is a prefix of the input, and copies that prefix
into a buffer of the input's length at the first byte that differs. An index out of range is
a panic of the runtime, which the model keeps as `none`.

`Command.Disco` and the round trips use `Path.clean`, which reads the same pass element by
element. This module models the byte loop, `lazybuf` included, and proves that the two agree:

* `LazyBuf.Holds.append`: an append inside the input appends to what the buffer holds, whether
  the byte is the input's own, or the buffer is made, or written;
* `LazyBuf.backLoop_eq`: the inner loop of a `..` stops at the `/` before the last element, or
  at `dotdot`;
* one lemma per case of the loop's `switch` (`cleanLoop_slash`, `cleanLoop_dot`,
  `cleanLoop_dotdot`, `cleanLoop_elem`), and one per way the state moves with the stack of
  `Path.cleanStep` (`Rel.elem`, `Rel.dotdot_back`, `Rel.dotdot_relative`, `Rel.dotdot_root`);
* `Rel.step` and `Rel.run`: each turn of the loop, and so the whole loop, keeps the relation
  `Rel` between its state and that stack;
* `cleanBytes_eq_clean`: on every input the byte loop indexes nothing out of range, and
  returns what `Path.clean` returns.
-/

namespace StepOAuth
namespace Go
namespace Path

/-- `lazybuf`: the input `s`, the buffer once one is made, and the write index `w`. -/
structure LazyBuf where
  s : Bytes
  buf : Option Bytes
  w : Nat
  deriving DecidableEq, Repr

namespace LazyBuf

/-- `b.index(i)`, or the runtime's panic out of range. -/
def index (b : LazyBuf) (i : Nat) : Option UInt8 :=
  match b.buf with
  | some buf => buf[i]?
  | none => b.s[i]?

/-- `b.append(c)`: nothing is written while `c` is the input's next byte; otherwise the buffer
is made, a copy of `s[:w]` of the input's length, and `c` is written at `w`. -/
def append (b : LazyBuf) (c : UInt8) : Option LazyBuf :=
  match b.buf with
  | none =>
      if b.s[b.w]? = some c then some { b with w := b.w + 1 }
      else if b.w < b.s.length then
        some { b with
          buf := some ((b.s.take b.w ++ List.replicate (b.s.length - b.w) 0).set b.w c)
          w := b.w + 1 }
      else none
  | some buf =>
      if b.w < buf.length then some { b with buf := some (buf.set b.w c), w := b.w + 1 }
      else none

/-- `b.string()`: `s[:w]`, or `buf[:w]` once the buffer is made. -/
def string (b : LazyBuf) : Option Bytes :=
  match b.buf with
  | none => if b.w ≤ b.s.length then some (b.s.take b.w) else none
  | some buf => if b.w ≤ buf.length then some (buf.take b.w) else none

/-- The inner loop of a `..`: `for out.w > dotdot && out.index(out.w) != '/' { out.w-- }`,
from `w`. -/
def backLoop (b : LazyBuf) (dotdot : Nat) : Nat → Option Nat
  | 0 => some 0
  | w + 1 =>
      if dotdot < w + 1 then
        match b.index (w + 1) with
        | some c => if c ≠ '/'.toUInt8 then backLoop b dotdot w else some (w + 1)
        | none => none
      else some (w + 1)

end LazyBuf

/-- The copy of a real element: `for ; r < n && path[r] != '/'; r++ { out.append(path[r]) }`.
The loop of `Clean` goes on where this one stops, at the next `/`. -/
def copyElem : LazyBuf → Bytes → Option LazyBuf
  | out, [] => some out
  | out, c :: t =>
      if c = '/'.toUInt8 then some out
      else (out.append c).bind fun out => copyElem out t

/-- The loop of `Clean` over what is left to read, with the `lazybuf` and `dotdot`. -/
def cleanLoop (rooted : Bool) (rest : Bytes) (out : LazyBuf) (dotdot : Nat) : Option LazyBuf :=
  match rest with
  | [] => some out
  | c :: t =>
      if hs : c = '/'.toUInt8 then
        -- empty path element
        cleanLoop rooted t out dotdot
      else if c = '.'.toUInt8 ∧ (t = [] ∨ t.head? = some '/'.toUInt8) then
        -- `.` element
        cleanLoop rooted t out dotdot
      else if c = '.'.toUInt8 ∧ t.head? = some '.'.toUInt8 ∧
          (t.tail = [] ∨ t.tail.head? = some '/'.toUInt8) then
        -- `..` element: remove to last `/`
        if dotdot < out.w then
          (out.backLoop dotdot (out.w - 1)).bind fun w =>
            cleanLoop rooted t.tail { out with w } dotdot
        else if !rooted then
          ((if 0 < out.w then out.append '/'.toUInt8 else some out).bind fun out =>
            (out.append '.'.toUInt8).bind fun out => out.append '.'.toUInt8).bind fun out =>
              cleanLoop rooted t.tail out out.w
        else cleanLoop rooted t.tail out dotdot
      else
        -- real path element: add a slash if needed, then copy the element
        have : ((c :: t).dropWhile (· ≠ '/'.toUInt8)).length < t.length + 1 := by
          rw [List.dropWhile_cons_of_pos (by simpa using hs)]
          exact Nat.lt_succ_of_le (List.dropWhile_suffix _).length_le
        (if rooted ∧ out.w ≠ 1 ∨ !rooted ∧ out.w ≠ 0 then out.append '/'.toUInt8
          else some out).bind fun out =>
          (copyElem out (c :: t)).bind fun out =>
            cleanLoop rooted ((c :: t).dropWhile (· ≠ '/'.toUInt8)) out dotdot
termination_by rest.length
decreasing_by
  all_goals simp_wf
  all_goals first | omega | simpa using this

/-- `path.Clean(p)` as the source computes it: `none` is an index out of range. -/
def cleanBytes (path : Bytes) : Option Bytes :=
  if path = [] then some (ascii ".")
  else
    let rooted : Bool := path.head? = some '/'.toUInt8
    let out : LazyBuf := { s := path, buf := none, w := 0 }
    let loop :=
      if rooted then (out.append '/'.toUInt8).bind fun out => cleanLoop true path.tail out 1
      else cleanLoop false path out 0
    loop.bind fun out => if out.w = 0 then some (ascii ".") else out.string

/-! ## The `lazybuf`

`Holds b path v`: the `lazybuf` of `Clean` over `path` holds `v` before its write index. Its
bytes (`store`) are the input until a buffer is made, and the buffer is as long as the input.
-/

namespace LazyBuf

/-- The bytes `index` reads: the buffer once made, the input before. -/
def store (b : LazyBuf) : Bytes := b.buf.getD b.s

theorem index_eq_store (b : LazyBuf) (i : Nat) : b.index i = b.store[i]? := by
  cases h : b.buf <;> simp [index, store, h]

theorem string_eq_store (b : LazyBuf) :
    b.string = if b.w ≤ b.store.length then some (b.store.take b.w) else none := by
  cases h : b.buf <;> simp [string, store, h]

/-- The `lazybuf` of `Clean` over `path`, holding `v`. -/
structure Holds (b : LazyBuf) (path v : Bytes) : Prop where
  input : b.s = path
  length : b.store.length = path.length
  view : b.store.take b.w = v
  w_eq : b.w = v.length

section Holds

variable {b : LazyBuf} {path v : Bytes}

theorem Holds.w_le (h : b.Holds path v) : b.w ≤ path.length := by
  have := congrArg List.length h.view
  rw [List.length_take, h.length, ← h.w_eq] at this
  omega

theorem Holds.index (h : b.Holds path v) {i : Nat} (hi : i < v.length) : b.index i = v[i]? := by
  rw [index_eq_store, ← h.view, List.getElem?_take_of_lt (h.w_eq ▸ hi)]

theorem Holds.string (h : b.Holds path v) : b.string = some v := by
  rw [string_eq_store, if_pos (h.length ▸ h.w_le), h.view]

/-- Moving the write index back keeps what lies before it. -/
theorem Holds.setW (h : b.Holds path v) {k : Nat} (hk : k ≤ v.length) :
    Holds { b with w := k } path (v.take k) :=
  ⟨h.input, h.length, by
    show b.store.take k = v.take k
    rw [← h.view, List.take_take, min_eq_left (h.w_eq ▸ hk)], by simp; omega⟩

theorem take_succ_set {l : Bytes} {w : Nat} (c : UInt8) (h : w < l.length) :
    (l.set w c).take (w + 1) = l.take w ++ [c] := by
  rw [List.set_eq_take_cons_drop c h, List.take_append_eq_append_take]
  simp [min_eq_left h.le]

/-- **An append inside the input appends to what the buffer holds**, whether the byte is the
input's own and nothing is written, or the buffer is made or written. -/
theorem Holds.append (h : b.Holds path v) (hw : v.length < path.length) (c : UInt8) :
    ∃ b', b.append c = some b' ∧ b'.Holds path (v ++ [c]) := by
  have hw' : b.w < b.store.length := h.length ▸ h.w_eq ▸ hw
  cases hb : b.buf with
  | none =>
      have hs : b.store = b.s := by simp [store, hb]
      rw [hs] at hw'
      by_cases hc : b.s[b.w]? = some c
      · refine ⟨{ b with w := b.w + 1 }, by simp [LazyBuf.append, hb, hc], h.input, h.length, ?_,
          by simp [h.w_eq]⟩
        show b.store.take (b.w + 1) = v ++ [c]
        rw [List.take_succ, ← h.view, hs, hc]
        rfl
      · refine ⟨{ b with
            buf := some ((b.s.take b.w ++ List.replicate (b.s.length - b.w) 0).set b.w c)
            w := b.w + 1 }, by simp only [LazyBuf.append, hb, if_neg hc, if_pos hw'], h.input, ?_, ?_,
          by simp [h.w_eq]⟩
        · simp [store, ← h.input]
          omega
        · show ((b.s.take b.w ++ List.replicate (b.s.length - b.w) 0).set b.w c).take (b.w + 1) = _
          rw [take_succ_set c (by simp; omega), List.take_left' (by simp; omega), ← hs, h.view]
  | some buf =>
      have hs : b.store = buf := by simp [store, hb]
      rw [hs] at hw'
      refine ⟨{ b with buf := some (buf.set b.w c), w := b.w + 1 },
        by simp [LazyBuf.append, hb, hw'], h.input, ?_, ?_, by simp [h.w_eq]⟩
      · simp [store, ← h.length, hb]
      · show (buf.set b.w c).take (b.w + 1) = v ++ [c]
        rw [take_succ_set c hw', ← hs, h.view]

end Holds

/-- **The inner loop of a `..` stops at the first index from `j` down that is `0`, at most
`dotdot`, or a `/`.** -/
theorem backLoop_eq (b : LazyBuf) (dotdot k : Nat) :
    ∀ j, k ≤ j → (∀ i, k < i → i ≤ j → dotdot < i ∧ ∃ c, b.index i = some c ∧ c ≠ '/'.toUInt8) →
      (k = 0 ∨ k ≤ dotdot ∨ b.index k = some '/'.toUInt8) → b.backLoop dotdot j = some k
  | 0, hk, _, _ => by rw [Nat.le_zero.1 hk]; rfl
  | j + 1, hk, hbetween, hstop => by
      rcases Nat.lt_or_eq_of_le hk with hk | rfl
      · obtain ⟨hd, c, hc, hne⟩ := hbetween (j + 1) hk le_rfl
        simp only [backLoop, if_pos hd, hc, if_pos hne]
        exact backLoop_eq b dotdot k j (Nat.le_of_lt_succ hk)
          (fun i hki hij => hbetween i hki (Nat.le_succ_of_le hij)) hstop
      · simp only [backLoop]
        rcases hstop with h0 | hd | hi
        · cases h0
        · rw [if_neg (by omega)]
        · split_ifs <;> simp [hi]

end LazyBuf

/-- **The copy of an element appends it**, and stops at the `/` after it or at the input's
end. -/
theorem LazyBuf.Holds.copy {path t : Bytes} (ht : t = [] ∨ t.head? = some '/'.toUInt8) :
    ∀ {e v : Bytes} {b : LazyBuf}, b.Holds path v → v.length + e.length ≤ path.length →
      '/'.toUInt8 ∉ e → ∃ b', copyElem b (e ++ t) = some b' ∧ b'.Holds path (v ++ e)
  | [], _, b, h, _, _ => by
      refine ⟨b, ?_, by simpa using h⟩
      rcases t with _ | ⟨c, t⟩
      · rfl
      · simp only [List.head?_cons, Option.some.injEq, List.cons_ne_nil, false_or] at ht
        simp [copyElem, ht]
  | c :: e, v, b, h, hl, he => by
      have hc : c ≠ '/'.toUInt8 := fun hc => he (hc ▸ List.mem_cons_self _ _)
      simp only [List.length_cons] at hl
      obtain ⟨b1, hb1, h1⟩ := h.append (by omega) c
      obtain ⟨b', hb', h'⟩ := LazyBuf.Holds.copy ht (e := e) h1 (by simp; omega)
        fun hm => he (List.mem_cons_of_mem _ hm)
      exact ⟨b', by simp [copyElem, hc, hb1, hb'], by simpa using h'⟩

/-! ## What the loop has written

The loop of `Clean` writes the text of the stack that `Path.cleanStep` keeps (`render`), and its
`dotdot` is the end of the leading run of `..` at the stack's bottom.
-/

/-- The `/` written before an element: none before the first. -/
def sepFor (kept : List Bytes) : Bytes := if kept = [] then [] else ['/'.toUInt8]

/-- The text of a stack of kept elements (last first): the leading `/` of a rooted path, then
the elements joined by `/`. -/
def render (rooted : Bool) (kept : List Bytes) : Bytes :=
  (if rooted then ['/'.toUInt8] else []) ++ ['/'.toUInt8].intercalate kept.reverse

theorem intercalate_append_singleton {sep e : Bytes} : ∀ {l : List Bytes}, l ≠ [] →
    sep.intercalate (l ++ [e]) = sep.intercalate l ++ sep ++ e
  | [], h => absurd rfl h
  | [x], _ => by simp [List.intercalate, List.intersperse_cons₂]
  | x :: y :: l, _ => by
      rw [List.cons_append, intercalate_cons_of_ne_nil (by simp),
        intercalate_cons_of_ne_nil (List.cons_ne_nil y l),
        intercalate_append_singleton (List.cons_ne_nil y l)]
      simp

theorem render_cons (rooted : Bool) (e : Bytes) (kept : List Bytes) :
    render rooted (e :: kept) = render rooted kept ++ sepFor kept ++ e := by
  rcases eq_or_ne kept [] with rfl | hk
  · simp [render, sepFor, List.intercalate]
  · simp [render, sepFor, hk, intercalate_append_singleton (List.reverse_ne_nil_iff.2 hk)]

theorem length_render_nil (rooted : Bool) :
    (render rooted []).length = if rooted then 1 else 0 := by
  cases rooted <;> rfl

/-- The text of a non-empty stack of real elements is longer than its root. -/
theorem length_render_lt {rooted : Bool} {e : Bytes} {kept : List Bytes} (he : e ≠ []) :
    (if rooted then 1 else 0) < (render rooted (e :: kept)).length := by
  have : (if rooted then 1 else 0) ≤ (render rooted kept).length := by
    cases rooted <;> simp [render]
  rw [render_cons, List.length_append, List.length_append]
  have := List.length_pos.2 he
  omega

/-- What `dotdot` bounds lies before what has been written. -/
theorem isPrefix_render_dropWhile (rooted : Bool) (p : Bytes → Bool) : ∀ kept : List Bytes,
    render rooted (kept.dropWhile p) <+: render rooted kept
  | [] => List.prefix_refl _
  | e :: kept => by
      rw [List.dropWhile_cons]
      split
      · exact (isPrefix_render_dropWhile rooted p kept).trans
          ⟨_, by rw [render_cons, List.append_assoc]⟩
      · exact List.prefix_refl _

/-! ## One element of the input

What is left to read is empty, or starts with a `/`, or with an element followed by the
end or by a `/` (`exists_elem`). The loop's `switch` reads the element from its first bytes;
the pass of `Path.clean` reads the same element from `splitOn` (`foldl_splitOn_elem`).
-/

theorem exists_elem : ∀ rest : Bytes, ∃ e t, rest = e ++ t ∧ '/'.toUInt8 ∉ e ∧
    (t = [] ∨ t.head? = some '/'.toUInt8)
  | [] => ⟨[], [], rfl, List.not_mem_nil _, .inl rfl⟩
  | c :: rest => by
      by_cases hc : c = '/'.toUInt8
      · exact ⟨[], c :: rest, rfl, List.not_mem_nil _, .inr (by simp [hc])⟩
      · obtain ⟨e, t, rfl, he, ht⟩ := exists_elem rest
        exact ⟨c :: e, t, rfl, by simp [Ne.symm hc, he], ht⟩

theorem head?_elem_append {e t : Bytes} (he : '/'.toUInt8 ∉ e)
    (ht : t = [] ∨ t.head? = some '/'.toUInt8) :
    (e ++ t = [] ∨ (e ++ t).head? = some '/'.toUInt8) ↔ e = [] := by
  rcases e with _ | ⟨c, e⟩
  · simpa using ht
  · simp only [List.cons_append, List.cons_ne_nil, List.head?_cons, Option.some.injEq, false_or,
      iff_false]
    exact fun hc => he (hc ▸ List.mem_cons_self _ _)

theorem dropWhile_elem_append {e t : Bytes} (he : '/'.toUInt8 ∉ e)
    (ht : t = [] ∨ t.head? = some '/'.toUInt8) :
    (e ++ t).dropWhile (· ≠ '/'.toUInt8) = t := by
  rw [List.dropWhile_append_of_pos fun a ha => by simpa using ne_of_mem_of_not_mem ha he]
  rcases t with _ | ⟨c, t⟩
  · rfl
  · simp only [List.head?_cons, Option.some.injEq, List.cons_ne_nil, false_or] at ht
    simp [ht]

theorem foldl_splitOn_elem (rooted : Bool) (kept : List Bytes) {e t : Bytes}
    (he : '/'.toUInt8 ∉ e) (ht : t = [] ∨ t.head? = some '/'.toUInt8) :
    ((e ++ t).splitOn '/'.toUInt8).foldl (cleanStep rooted) kept =
      (t.splitOn '/'.toUInt8).foldl (cleanStep rooted) (cleanStep rooted kept e) := by
  have hfree : ∀ x ∈ e, ¬(x == '/'.toUInt8) = true := fun x hx h =>
    he (beq_iff_eq.1 h ▸ hx)
  rcases t with _ | ⟨c, t⟩
  · simp [List.splitOn, List.splitOnP_eq_single _ _ hfree]
  · simp only [List.head?_cons, Option.some.injEq, List.cons_ne_nil, false_or] at ht
    subst ht
    simp [List.splitOn, List.splitOnP_first _ _ hfree]

/-! ## The cases of the loop's `switch` -/

section Switch

variable {rooted : Bool} {out : LazyBuf} {dotdot : Nat}

theorem cleanLoop_nil : cleanLoop rooted [] out dotdot = some out := by
  rw [cleanLoop]

theorem cleanLoop_slash (t : Bytes) :
    cleanLoop rooted ('/'.toUInt8 :: t) out dotdot = cleanLoop rooted t out dotdot := by
  rw [cleanLoop, dif_pos rfl]

theorem cleanLoop_dot {t : Bytes} (ht : t = [] ∨ t.head? = some '/'.toUInt8) :
    cleanLoop rooted ('.'.toUInt8 :: t) out dotdot = cleanLoop rooted t out dotdot := by
  rw [cleanLoop, dif_neg (show '.'.toUInt8 ≠ '/'.toUInt8 by decide), if_pos ⟨rfl, ht⟩]

theorem cleanLoop_dotdot {t : Bytes} (ht : t = [] ∨ t.head? = some '/'.toUInt8) :
    cleanLoop rooted ('.'.toUInt8 :: '.'.toUInt8 :: t) out dotdot =
      if dotdot < out.w then
        (out.backLoop dotdot (out.w - 1)).bind fun w =>
          cleanLoop rooted t { out with w } dotdot
      else if !rooted then
        ((if 0 < out.w then out.append '/'.toUInt8 else some out).bind fun out =>
          (out.append '.'.toUInt8).bind fun out => out.append '.'.toUInt8).bind fun out =>
            cleanLoop rooted t out out.w
      else cleanLoop rooted t out dotdot := by
  have hne : '.'.toUInt8 ≠ '/'.toUInt8 := by decide
  rw [cleanLoop, dif_neg hne, if_neg (by simp [hne]), if_pos ⟨rfl, rfl, ht⟩]
  rfl

theorem cleanLoop_elem {e t : Bytes} (hne : e ≠ []) (he : '/'.toUInt8 ∉ e)
    (hdot : e ≠ ascii ".") (hdd : e ≠ ascii "..") (ht : t = [] ∨ t.head? = some '/'.toUInt8) :
    cleanLoop rooted (e ++ t) out dotdot =
      (if rooted ∧ out.w ≠ 1 ∨ !rooted ∧ out.w ≠ 0 then out.append '/'.toUInt8
        else some out).bind fun out =>
        (copyElem out (e ++ t)).bind fun out => cleanLoop rooted t out dotdot := by
  obtain ⟨c, e, rfl⟩ := List.exists_cons_of_ne_nil hne
  have hc : c ≠ '/'.toUInt8 := fun hc => he (hc ▸ List.mem_cons_self _ _)
  have he' : '/'.toUInt8 ∉ e := fun hm => he (List.mem_cons_of_mem _ hm)
  have hdot' : ¬(c = '.'.toUInt8 ∧ (e ++ t = [] ∨ (e ++ t).head? = some '/'.toUInt8)) := by
    rw [head?_elem_append he' ht]
    rintro ⟨rfl, rfl⟩
    exact hdot rfl
  have hdd' : ¬(c = '.'.toUInt8 ∧ (e ++ t).head? = some '.'.toUInt8 ∧
      ((e ++ t).tail = [] ∨ (e ++ t).tail.head? = some '/'.toUInt8)) := by
    rintro ⟨rfl, hh, htl⟩
    rcases e with _ | ⟨d, e⟩
    · rcases ht with rfl | ht
      · cases hh
      · rw [List.nil_append, ht] at hh
        cases hh
    · simp only [List.cons_append, List.head?_cons, Option.some.injEq, List.tail_cons] at hh htl
      rw [head?_elem_append (fun hm => he' (List.mem_cons_of_mem _ hm)) ht] at htl
      subst hh htl
      exact hdd rfl
  rw [List.cons_append, cleanLoop, dif_neg hc, if_neg hdot', if_neg hdd', ← List.cons_append,
    dropWhile_elem_append he ht]

end Switch

/-! ## The loop against the pass of `Path.clean`

`Rel` ties a state of the loop (what is left to read, the `lazybuf`, `dotdot`) to the stack
that `Path.cleanStep` keeps. The buffer holds the stack's text; `dotdot` ends the text of the
leading run of `..`; and the text is no longer than what has been read, shorter by one before
the next element when the stack is not empty, which leaves room for the `/` before it.
-/

/-- The loop of `Clean` over `path`, against the stack `kept`. -/
structure Rel (rooted : Bool) (path rest : Bytes) (out : LazyBuf) (dotdot : Nat)
    (kept : List Bytes) : Prop where
  holds : out.Holds path (render rooted kept)
  dotdot_eq : dotdot = (render rooted (kept.dropWhile (· ≠ ascii ".."))).length
  bound : out.w + rest.length ≤ path.length
  gap : kept ≠ [] → rest ≠ [] → rest.head? ≠ some '/'.toUInt8 →
    out.w + rest.length < path.length
  kept : Kept rooted kept

section Rel

variable {rooted : Bool} {path rest : Bytes} {out : LazyBuf} {dotdot : Nat} {kept : List Bytes}

/-- Reading bytes that write nothing keeps the relation. -/
theorem Rel.drop {p : Bytes} (h : Rel rooted path (p ++ rest) out dotdot kept)
    (hp : p ≠ []) : Rel rooted path rest out dotdot kept := by
  have hb := h.bound
  have := List.length_pos.2 hp
  simp only [List.length_append] at hb
  exact ⟨h.holds, h.dotdot_eq, by omega, fun _ _ _ => by omega, h.kept⟩

/-- After a whole element the rest is empty or starts at a `/`, so the gap is vacuous. -/
theorem gap_of_sep {t : Bytes} {P : Prop} (ht : t = [] ∨ t.head? = some '/'.toUInt8) :
    t ≠ [] → t.head? ≠ some '/'.toUInt8 → P :=
  fun hr hh => ht.elim (absurd · hr) (absurd · hh)

/-- `dotdot` is behind the write index exactly when the last kept element is not `..`. -/
theorem Rel.dotdot_lt_iff (h : Rel rooted path rest out dotdot kept) :
    dotdot < out.w ↔ ∃ top below, kept = top :: below ∧ top ≠ ascii ".." := by
  rw [h.dotdot_eq, h.holds.w_eq]
  rcases kept with _ | ⟨top, below⟩
  · simp
  by_cases htop : top = ascii ".."
  · simp [htop]
  · have hlt : (render rooted below).length < (render rooted (top :: below)).length := by
      rw [render_cons, List.length_append, List.length_append]
      have := List.length_pos.2 h.kept.1
      omega
    simp only [List.dropWhile_cons, htop, ne_eq, not_false_eq_true, decide_True, if_true]
    exact iff_of_true ((isPrefix_render_dropWhile rooted _ below).length_le.trans_lt hlt)
      ⟨top, below, rfl, htop⟩

/-- The `/` before a further element is written exactly when the stack is not empty. -/
theorem Rel.w_eq_root_iff (h : Rel rooted path rest out dotdot kept) :
    out.w = (if rooted then 1 else 0) ↔ kept = [] := by
  rw [h.holds.w_eq]
  rcases kept with _ | ⟨top, below⟩
  · simp [length_render_nil]
  · simp only [List.cons_ne_nil, iff_false]
    exact (length_render_lt h.kept.1).ne'

/-- The `/` before a further element: written when the stack is not empty, and in range. -/
theorem Rel.appendSep {cond : Prop} [Decidable cond] (h : Rel rooted path rest out dotdot kept)
    (hcond : cond ↔ kept ≠ []) (hr : rest ≠ []) (hh : rest.head? ≠ some '/'.toUInt8) :
    ∃ o, (if cond then out.append '/'.toUInt8 else some out) = some o ∧
      o.Holds path (render rooted kept ++ sepFor kept) ∧
      o.w + rest.length ≤ path.length := by
  by_cases hk : kept = []
  · rw [if_neg (by simpa [hcond] using hk)]
    exact ⟨out, rfl, by simpa [sepFor, hk] using h.holds, h.bound⟩
  · have hgap := h.gap hk hr hh
    obtain ⟨o, ho, hho⟩ := h.holds.append (h.holds.w_eq ▸ by omega) '/'.toUInt8
    rw [if_pos (hcond.2 hk)]
    refine ⟨o, ho, by simpa [sepFor, hk] using hho, ?_⟩
    rw [hho.w_eq, List.length_append, ← h.holds.w_eq]
    simp only [List.length_singleton]
    omega

theorem ascii_dotdot : ascii ".." = ['.'.toUInt8, '.'.toUInt8] := rfl

/-- The bytes after the text of a stack belong to its last element. -/
theorem mem_of_getElem?_render_cons {top : Bytes} {below : List Bytes} {i : Nat} {c : UInt8}
    (hi : (render rooted below).length < i) (hc : (render rooted (top :: below))[i]? = some c) :
    c ∈ top := by
  rw [render_cons, List.append_assoc, List.getElem?_append_right hi.le] at hc
  obtain ⟨j, hj⟩ : ∃ j, i - (render rooted below).length = j + 1 := ⟨_, (Nat.succ_pred_eq_of_pos
    (Nat.sub_pos_of_lt hi)).symm⟩
  rw [hj] at hc
  unfold sepFor at hc
  split_ifs at hc
  · exact List.getElem?_mem hc
  · exact List.getElem?_mem (by simpa using hc)

/-- **A real element is added**: the `/` before it if the stack is not empty, then its
bytes. -/
theorem Rel.elem {e t : Bytes} (h : Rel rooted path (e ++ t) out dotdot kept) (hne : e ≠ [])
    (he : '/'.toUInt8 ∉ e) (hdot : e ≠ ascii ".") (hdd : e ≠ ascii "..")
    (ht : t = [] ∨ t.head? = some '/'.toUInt8) :
    ∃ out', cleanLoop rooted (e ++ t) out dotdot = cleanLoop rooted t out' dotdot ∧
      Rel rooted path t out' dotdot (e :: kept) := by
  have hr : e ++ t ≠ [] := by simp [hne]
  have hh : (e ++ t).head? ≠ some '/'.toUInt8 := fun hh =>
    hne ((head?_elem_append he ht).1 (.inr hh))
  have hcond : (rooted ∧ out.w ≠ 1 ∨ !rooted ∧ out.w ≠ 0) ↔ kept ≠ [] := by
    have hw := not_congr h.w_eq_root_iff
    cases rooted <;> simpa using hw
  obtain ⟨o, ho, hho, hob⟩ := h.appendSep hcond hr hh
  simp only [List.length_append] at hob
  obtain ⟨o', ho', hho'⟩ := hho.copy ht (e := e) (by rw [← hho.w_eq]; omega) he
  refine ⟨o', by rw [cleanLoop_elem hne he hdot hdd ht, ho]; simp [ho'], ?_, ?_, ?_,
    fun _ => gap_of_sep ht, ⟨hne, he, hdot, (absurd · hdd), h.kept⟩⟩
  · rwa [render_cons]
  · rw [h.dotdot_eq, List.dropWhile_cons_of_pos (by simpa using hdd)]
  · rw [hho'.w_eq, List.length_append, ← hho.w_eq]
    omega

/-- **A `..` after a real element** backs the write index up to the `/` before that element,
or to `dotdot`. -/
theorem Rel.dotdot_back {t : Bytes} (h : Rel rooted path ('.'.toUInt8 :: '.'.toUInt8 :: t) out
    dotdot kept) (ht : t = [] ∨ t.head? = some '/'.toUInt8) (hlt : dotdot < out.w) :
    ∃ out' dotdot', cleanLoop rooted ('.'.toUInt8 :: '.'.toUInt8 :: t) out dotdot =
      cleanLoop rooted t out' dotdot' ∧
      Rel rooted path t out' dotdot' (cleanStep rooted kept (ascii "..")) := by
  obtain ⟨top, below, rfl, htop⟩ := h.dotdot_lt_iff.1 hlt
  have hv : render rooted (top :: below) = render rooted below ++ (sepFor below ++ top) := by
    rw [render_cons, List.append_assoc]
  have hdrop : (top :: below).dropWhile (· ≠ ascii "..") = below.dropWhile (· ≠ ascii "..") :=
    List.dropWhile_cons_of_pos (by simpa using htop)
  have hdd : dotdot ≤ (render rooted below).length := by
    rw [h.dotdot_eq, hdrop]
    exact (isPrefix_render_dropWhile _ _ _).length_le
  have hw : out.w = (render rooted below).length + (sepFor below ++ top).length := by
    rw [h.holds.w_eq, hv, List.length_append]
  have htop_pos := List.length_pos.2 h.kept.1
  have hback : out.backLoop dotdot (out.w - 1) = some (render rooted below).length := by
    refine LazyBuf.backLoop_eq _ _ _ _ (by simp at hw; omega) (fun i hLi hiw => ⟨by omega, ?_⟩) ?_
    · have hi : i < (render rooted (top :: below)).length := by rw [← h.holds.w_eq]; omega
      rw [h.holds.index hi, List.getElem?_eq_getElem hi]
      exact ⟨_, rfl, ne_of_mem_of_not_mem
        (mem_of_getElem?_render_cons hLi (List.getElem?_eq_getElem hi)) h.kept.2.1⟩
    · rcases eq_or_ne below [] with rfl | hb
      · exact .inr (.inl (by rw [h.dotdot_eq, hdrop, List.dropWhile_nil]))
      · refine .inr (.inr ?_)
        have hi : (render rooted below).length < (render rooted (top :: below)).length := by
          rw [← h.holds.w_eq]; simp at hw; omega
        rw [h.holds.index hi, hv, List.getElem?_append_right le_rfl]
        simp [sepFor, hb]
  have hstep : cleanStep rooted (top :: below) (ascii "..") = below := by
    rw [cleanStep_dotdot]
    exact if_neg htop
  have hb := h.bound
  simp only [List.length_cons] at hb
  refine ⟨{ out with w := (render rooted below).length }, dotdot,
    by rw [cleanLoop_dotdot ht, if_pos hlt, hback]; rfl, ?_⟩
  rw [hstep]
  refine ⟨?_, by rw [h.dotdot_eq, hdrop], by simp; omega,
    fun _ => gap_of_sep ht, h.kept.2.2.2.2⟩
  have := h.holds.setW (k := (render rooted below).length) (by rw [hv]; simp)
  rwa [hv, List.take_left' rfl] at this

/-- **A `..` at the front of a relative path** is written, after a `/` if the stack is not
empty, and `dotdot` moves past it. -/
theorem Rel.dotdot_relative {t : Bytes} (h : Rel false path ('.'.toUInt8 :: '.'.toUInt8 :: t)
    out dotdot kept) (ht : t = [] ∨ t.head? = some '/'.toUInt8) (hlt : ¬dotdot < out.w) :
    ∃ out' dotdot', cleanLoop false ('.'.toUInt8 :: '.'.toUInt8 :: t) out dotdot =
      cleanLoop false t out' dotdot' ∧
      Rel false path t out' dotdot' (cleanStep false kept (ascii "..")) := by
  have hall : ∀ x ∈ kept, x = ascii ".." := by
    rcases kept with _ | ⟨top, below⟩
    · simp
    · have htop : top = ascii ".." := by_contra fun htop => hlt (h.dotdot_lt_iff.2 ⟨_, _, rfl, htop⟩)
      exact List.forall_mem_cons.2 ⟨htop, (h.kept.2.2.2.1 htop).2⟩
  have hstep : cleanStep false kept (ascii "..") = ascii ".." :: kept := by
    rw [cleanStep_dotdot]
    rcases kept with _ | ⟨top, below⟩
    · rfl
    · exact if_pos (hall top (List.mem_cons_self _ _))
  have hcond : 0 < out.w ↔ kept ≠ [] := by
    rw [Nat.pos_iff_ne_zero, ← not_iff_not, not_not, not_not]
    simpa using h.w_eq_root_iff
  obtain ⟨o1, ho1, hh1, hb1⟩ := h.appendSep hcond (List.cons_ne_nil _ _)
    (by rw [List.head?_cons, Ne, Option.some.injEq]; decide)
  simp only [List.length_cons] at hb1
  obtain ⟨o2, ho2, hh2⟩ := hh1.append (by rw [← hh1.w_eq]; omega) '.'.toUInt8
  obtain ⟨o3, ho3, hh3⟩ := hh2.append
    (by rw [List.length_append, List.length_singleton, ← hh1.w_eq]; omega) '.'.toUInt8
  have hv : render false (ascii ".." :: kept) =
      render false kept ++ sepFor kept ++ ['.'.toUInt8] ++ ['.'.toUInt8] := by
    rw [render_cons, ascii_dotdot]
    simp
  have hw3 : o3.w = o1.w + 2 := by
    rw [hh3.w_eq, hh1.w_eq]
    simp only [List.length_append, List.length_singleton]
  refine ⟨o3, o3.w, by
    rw [cleanLoop_dotdot ht, if_neg hlt, if_pos (show (!false) = true from rfl), ho1]
    simp [ho2, ho3], ?_⟩
  rw [hstep]
  refine ⟨hv ▸ hh3, ?_, by omega, fun _ => gap_of_sep ht,
    ⟨by decide, by decide, by decide, fun _ => ⟨rfl, hall⟩, h.kept⟩⟩
  rw [List.dropWhile_cons_of_neg (by simp), hv, hh3.w_eq]

/-- **A `..` at the root** of a rooted path writes nothing. -/
theorem Rel.dotdot_root {t : Bytes} (h : Rel true path ('.'.toUInt8 :: '.'.toUInt8 :: t)
    out dotdot kept) (ht : t = [] ∨ t.head? = some '/'.toUInt8) (hlt : ¬dotdot < out.w) :
    ∃ out' dotdot', cleanLoop true ('.'.toUInt8 :: '.'.toUInt8 :: t) out dotdot =
      cleanLoop true t out' dotdot' ∧
      Rel true path t out' dotdot' (cleanStep true kept (ascii "..")) := by
  have hk : kept = [] := by
    rcases kept with _ | ⟨top, below⟩
    · rfl
    · have htop : top = ascii ".." := by_contra fun htop => hlt (h.dotdot_lt_iff.2 ⟨_, _, rfl, htop⟩)
      cases h.kept.rooted_false top (List.mem_cons_self _ _) htop
  subst hk
  refine ⟨out, dotdot, by rw [cleanLoop_dotdot ht, if_neg hlt, if_neg (by decide)], ?_⟩
  rw [cleanStep_dotdot]
  exact h.drop (p := ['.'.toUInt8, '.'.toUInt8]) (List.cons_ne_nil _ _)

theorem Rel.dotdot_elem {t : Bytes} (h : Rel rooted path ('.'.toUInt8 :: '.'.toUInt8 :: t) out
    dotdot kept) (ht : t = [] ∨ t.head? = some '/'.toUInt8) :
    ∃ out' dotdot', cleanLoop rooted ('.'.toUInt8 :: '.'.toUInt8 :: t) out dotdot =
      cleanLoop rooted t out' dotdot' ∧
      Rel rooted path t out' dotdot' (cleanStep rooted kept (ascii "..")) := by
  by_cases hlt : dotdot < out.w
  · exact h.dotdot_back ht hlt
  · cases rooted
    exacts [h.dotdot_relative ht hlt, h.dotdot_root ht hlt]

/-- **One turn of the loop**: it reads one element, or one `/`, and moves the state along with
the pass of `Path.clean` over the same element. -/
theorem Rel.step (h : Rel rooted path rest out dotdot kept) (hr : rest ≠ []) :
    ∃ rest' out' dotdot' kept', rest'.length < rest.length ∧
      cleanLoop rooted rest out dotdot = cleanLoop rooted rest' out' dotdot' ∧
      Rel rooted path rest' out' dotdot' kept' ∧
      (rest.splitOn '/'.toUInt8).foldl (cleanStep rooted) kept =
        (rest'.splitOn '/'.toUInt8).foldl (cleanStep rooted) kept' := by
  obtain ⟨e, t, rfl, he, ht⟩ := exists_elem rest
  rcases eq_or_ne e [] with rfl | hne
  · -- an empty element: the input goes on with a `/`
    obtain ⟨t, rfl⟩ : ∃ t', t = '/'.toUInt8 :: t' := by
      rcases ht with rfl | ht
      · exact absurd rfl hr
      · obtain ⟨c, t', rfl⟩ := List.exists_cons_of_ne_nil (show t ≠ [] by rintro rfl; cases ht)
        exact ⟨t', by simpa using ht⟩
    exact ⟨t, out, dotdot, kept, by simp, cleanLoop_slash t,
      h.drop (p := ['/'.toUInt8]) (List.cons_ne_nil _ _),
      by rw [List.nil_append, splitOn_slash_cons, List.foldl_cons, cleanStep_nil]⟩
  have hfold := foldl_splitOn_elem rooted kept he ht
  have hlen : t.length < (e ++ t).length := by
    simpa using List.length_pos.2 hne
  by_cases hdot : e = ascii "."
  · -- a `.` element
    subst hdot
    exact ⟨t, out, dotdot, kept, hlen, cleanLoop_dot ht, h.drop (List.cons_ne_nil _ _),
      hfold.trans (by rw [cleanStep_skip (.inr rfl)])⟩
  by_cases hdd : e = ascii ".."
  · -- a `..` element
    subst hdd
    obtain ⟨out', dotdot', hloop, hrel⟩ := Rel.dotdot_elem h ht
    exact ⟨t, out', dotdot', _, hlen, hloop, hrel, hfold⟩
  · -- a real element
    obtain ⟨out', hloop, hrel⟩ := h.elem hne he hdot hdd ht
    exact ⟨t, out', dotdot, e :: kept, hlen, hloop, hrel,
      hfold.trans (by rw [cleanStep_push (by simp [hne, hdot]) hdd])⟩

/-- **The whole loop**: from a state in the relation it ends, with no index out of range, on
the text of the stack that the pass of `Path.clean` reaches over what is left to read. -/
theorem Rel.run : ∀ {rest : Bytes} {out : LazyBuf} {dotdot : Nat} {kept : List Bytes},
    Rel rooted path rest out dotdot kept → ∃ out', cleanLoop rooted rest out dotdot = some out' ∧
      out'.Holds path (render rooted ((rest.splitOn '/'.toUInt8).foldl (cleanStep rooted) kept))
  | rest, out, dotdot, kept, h => by
      rcases eq_or_ne rest [] with rfl | hr
      · exact ⟨out, cleanLoop_nil, by simpa [List.splitOn] using h.holds⟩
      · obtain ⟨rest', out', dotdot', kept', hlt, hloop, hrel, hfold⟩ := h.step hr
        rw [hloop, hfold]
        exact hrel.run
termination_by rest => rest.length

end Rel

/-- The end of `Clean`: `.` for an empty output, the buffer's string otherwise. -/
theorem LazyBuf.Holds.finish {out : LazyBuf} {path v : Bytes} (h : out.Holds path v) :
    (if out.w = 0 then some (ascii ".") else out.string) = some (if v = [] then ascii "." else v) := by
  rw [h.string, h.w_eq]
  by_cases hv : v = [] <;> simp [hv]

/-- **`Clean` byte by byte is `Path.clean`**: on every input the byte loop of the source, with
its `lazybuf`, indexes nothing out of range and returns what the element-level pass returns. -/
theorem cleanBytes_eq_clean (p : Bytes) : cleanBytes p = some (clean p) := by
  rcases eq_or_ne p [] with rfl | hp
  · rfl
  by_cases hr : p.head? = some '/'.toUInt8
  · -- a rooted path: the first `/` is read before the loop
    obtain ⟨t, rfl⟩ : ∃ t, p = '/'.toUInt8 :: t := by
      obtain ⟨c, t, rfl⟩ := List.exists_cons_of_ne_nil hp
      exact ⟨t, by simpa using hr⟩
    have h0 : Rel true ('/'.toUInt8 :: t) t { s := '/'.toUInt8 :: t, buf := none, w := 1 } 1 [] :=
      ⟨⟨rfl, rfl, rfl, rfl⟩, rfl, (Nat.add_comm _ _).le, fun h => absurd rfl h, trivial⟩
    obtain ⟨out, hloop, hout⟩ := h0.run
    simp only [cleanBytes, hr, hp, if_false, decide_True, if_true, LazyBuf.append,
      List.getElem?_cons_zero, Option.some_bind, List.tail_cons, hloop, hout.finish,
      clean_rooted hr, splitOn_slash_cons, List.foldl_cons, cleanStep_nil]
    simp [render]
  · -- a relative path
    have h0 : Rel false p p { s := p, buf := none, w := 0 } 0 [] :=
      ⟨⟨rfl, rfl, rfl, rfl⟩, rfl, by simp, fun h => absurd rfl h, trivial⟩
    obtain ⟨out, hloop, hout⟩ := h0.run
    simp only [cleanBytes, hp, hr, if_false, decide_False, Bool.false_eq_true, Option.some_bind,
      hloop, hout.finish, clean_relative hp hr]
    rfl

end Path
end Go
end StepOAuth
