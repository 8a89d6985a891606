import StepOAuth.Go.Bytes

/-!
# `path.Clean` and `path.Join`

`disco` builds the discovery URL with `path.Join(u.Path, "/.well-known/openid-configuration")`,
and `Join` ends in `Clean`. The source's `Clean` is one pass over the bytes with a write cursor
and a `..` barrier; the model reads the same algorithm element by element: empty and `.`
elements are dropped, `..` removes the last real element, or is kept at the front of a relative
path, or is dropped at the root of a rooted one.
-/

namespace StepOAuth
namespace Go
namespace Path

/-- One element of `Clean`'s pass, on the elements kept so far (last element first). -/
def cleanStep (rooted : Bool) (kept : List Bytes) (elem : Bytes) : List Bytes :=
  if elem = [] ∨ elem = ascii "." then kept
  else if elem = ascii ".." then
    match kept with
    | top :: rest => if top = ascii ".." then elem :: kept else rest
    | [] => if rooted then [] else [elem]
  else elem :: kept

/-- `path.Clean(p)`. -/
def clean (p : Bytes) : Bytes :=
  if p = [] then ascii "."
  else
    let rooted := p.head? = some '/'.toUInt8
    let kept := (p.splitOn '/'.toUInt8).foldl (cleanStep rooted) []
    let body := ['/'.toUInt8].intercalate kept.reverse
    if rooted then '/'.toUInt8 :: body
    else if body = [] then ascii "." else body

/-- How `Join` grows its buffer: a `/` between non-empty parts, empty leading parts skipped. -/
def joinStep (buf e : Bytes) : Bytes :=
  if buf = [] then e else buf ++ '/'.toUInt8 :: e

/-- `path.Join(elem...)`: empty when the elements' lengths add up to nothing. -/
def join (elems : List Bytes) : Bytes :=
  if elems.foldl (fun size e => size + e.length) 0 = 0 then [] else clean (elems.foldl joinStep [])

/-! ## What `Clean` keeps

`Clean`'s pass keeps a stack of elements (last first). Every element on it is a real one: not
empty, not `.`, with no `/`; a `..` stays only in a relative path, and only below every other
element (`Kept`). Each step keeps this (`Kept.cleanStep`), and on a stack of that shape the
pass changes nothing (`foldl_cleanStep_of_kept`), so that `Clean` is idempotent (`clean_clean`).
-/

/-- The stack `Clean` keeps, last element first. -/
def Kept (rooted : Bool) : List Bytes → Prop
  | [] => True
  | e :: rest => e ≠ [] ∧ '/'.toUInt8 ∉ e ∧ e ≠ ascii "." ∧
      (e = ascii ".." → rooted = false ∧ ∀ x ∈ rest, x = ascii "..") ∧ Kept rooted rest

section Kept

variable {rooted : Bool}

theorem cleanStep_skip {kept : List Bytes} {elem : Bytes} (h : elem = [] ∨ elem = ascii ".") :
    cleanStep rooted kept elem = kept :=
  if_pos h

@[simp] theorem cleanStep_nil (kept : List Bytes) : cleanStep rooted kept [] = kept :=
  cleanStep_skip (.inl rfl)

theorem cleanStep_dotdot (kept : List Bytes) :
    cleanStep rooted kept (ascii "..") =
      match kept with
      | top :: rest => if top = ascii ".." then ascii ".." :: kept else rest
      | [] => if rooted then [] else [ascii ".."] := by
  unfold Path.cleanStep
  rw [if_neg (by decide), if_pos rfl]

theorem cleanStep_push {kept : List Bytes} {elem : Bytes} (h : ¬(elem = [] ∨ elem = ascii "."))
    (hd : elem ≠ ascii "..") : cleanStep rooted kept elem = elem :: kept := by
  unfold Path.cleanStep
  rw [if_neg h, if_neg hd]

theorem Kept.of_append : ∀ {a b : List Bytes}, Kept rooted (a ++ b) → Kept rooted b
  | [], _, h => h
  | _ :: _, _, h => Kept.of_append h.2.2.2.2

theorem Kept.mem : ∀ {kept : List Bytes}, Kept rooted kept →
    ∀ e ∈ kept, e ≠ [] ∧ '/'.toUInt8 ∉ e ∧ e ≠ ascii "."
  | [], _, _, he => absurd he (List.not_mem_nil _)
  | _ :: _, h, _, he => by
      rcases List.mem_cons.1 he with rfl | he
      exacts [⟨h.1, h.2.1, h.2.2.1⟩, Kept.mem h.2.2.2.2 _ he]

theorem Kept.rooted_false : ∀ {kept : List Bytes}, Kept rooted kept →
    ∀ e ∈ kept, e = ascii ".." → rooted = false
  | [], _, _, he => absurd he (List.not_mem_nil _)
  | _ :: _, h, _, he => by
      rcases List.mem_cons.1 he with rfl | he
      exacts [fun hd => (h.2.2.2.1 hd).1, Kept.rooted_false h.2.2.2.2 _ he]

/-- **One element keeps the stack's shape.** -/
theorem Kept.step {kept : List Bytes} {elem : Bytes} (he : '/'.toUInt8 ∉ elem)
    (h : Kept rooted kept) : Kept rooted (Path.cleanStep rooted kept elem) := by
  by_cases hd : elem = [] ∨ elem = ascii "."
  · rwa [cleanStep_skip hd]
  by_cases hdd : elem = ascii ".."
  · subst hdd
    rw [cleanStep_dotdot]
    cases kept with
    | nil =>
        cases rooted <;> simp only [Kept, if_true]
        decide
    | cons top rest =>
        dsimp only
        by_cases ht : top = ascii ".."
        · rw [if_pos ht]
          refine ⟨by decide, by decide, by decide, fun _ => ⟨(h.2.2.2.1 ht).1, ?_⟩, h⟩
          intro x hx
          rcases List.mem_cons.1 hx with rfl | hx
          exacts [ht, (h.2.2.2.1 ht).2 x hx]
        · rw [if_neg ht]
          exact h.2.2.2.2
  · rw [cleanStep_push hd hdd]
    push_neg at hd
    exact ⟨hd.1, he, hd.2, fun h' => absurd h' hdd, h⟩

theorem Kept.foldl : ∀ {elems kept : List Bytes}, (∀ e ∈ elems, '/'.toUInt8 ∉ e) →
    Kept rooted kept → Kept rooted (elems.foldl (Path.cleanStep rooted) kept)
  | [], _, _, h => h
  | e :: _, _, he, h => by
      rw [List.foldl_cons]
      exact Kept.foldl (fun x hm => he x (List.mem_cons_of_mem _ hm))
        (h.step (he e (List.mem_cons_self _ _)))

/-- An element already in place is pushed back as it is. -/
theorem cleanStep_of_kept {st : List Bytes} {e : Bytes} (h : Kept rooted (e :: st)) :
    cleanStep rooted st e = e :: st := by
  obtain ⟨hne, -, hdot, hdd, -⟩ := h
  by_cases he : e = ascii ".."
  · obtain ⟨hr, hall⟩ := hdd he
    subst he hr
    rw [cleanStep_dotdot]
    cases st with
    | nil => rfl
    | cons top rest =>
        dsimp only
        rw [if_pos (hall top (List.mem_cons_self _ _))]
  · exact cleanStep_push (by simp [hne, hdot]) he

/-- **On a stack of the kept shape the pass changes nothing.** -/
theorem foldl_cleanStep_of_kept : ∀ (l st : List Bytes), Kept rooted (l.reverse ++ st) →
    l.foldl (cleanStep rooted) st = l.reverse ++ st
  | [], _, _ => rfl
  | e :: l, st, h => by
      have h' : Kept rooted (l.reverse ++ e :: st) := by simpa using h
      rw [List.foldl_cons, cleanStep_of_kept h'.of_append, foldl_cleanStep_of_kept l _ h']
      simp

end Kept

/-- The pieces `splitOn` cuts hold no separator. -/
theorem not_mem_of_mem_splitOn {sep : UInt8} : ∀ {p e : Bytes}, e ∈ p.splitOn sep → sep ∉ e
  | [], e, he => by simp at he; simp [he]
  | c :: p, e, he => by
      simp only [List.splitOn, List.splitOnP_cons] at he
      split_ifs at he with hc
      · rcases List.mem_cons.1 he with rfl | he
        exacts [List.not_mem_nil _, not_mem_of_mem_splitOn he]
      · obtain ⟨h, t, ht⟩ := List.exists_cons_of_ne_nil (List.splitOnP_ne_nil (· == sep) p)
        rw [ht] at he
        have hh : sep ∉ h := not_mem_of_mem_splitOn (p := p) (e := h) (by simp [List.splitOn, ht])
        rcases List.mem_cons.1 he with rfl | he
        · rintro (_ | ⟨_, hm⟩)
          · simp at hc
          · exact hh hm
        · exact not_mem_of_mem_splitOn (p := p) (by simp [List.splitOn, ht, he])

/-! ## Joining a tail to a rooted path -/

theorem splitOn_append_sep {a b : Bytes} (hb : '/'.toUInt8 ∉ b) :
    (a ++ '/'.toUInt8 :: b).splitOn '/'.toUInt8 = a.splitOn '/'.toUInt8 ++ [b] := by
  have hsingle : b.splitOnP (· == '/'.toUInt8) = [b] :=
    List.splitOnP_eq_single _ _ fun x hx h => hb (beq_iff_eq.1 h ▸ hx)
  induction a with
  | nil =>
      simp only [List.splitOn, List.nil_append, List.splitOnP_cons, beq_self_eq_true, if_true,
        hsingle]
      rfl
  | cons c a ih =>
      simp only [List.splitOn, List.cons_append, List.splitOnP_cons] at ih ⊢
      split_ifs
      · rw [ih]
        rfl
      · rw [ih]
        obtain ⟨l, ls, hl⟩ := List.exists_cons_of_ne_nil (List.splitOnP_ne_nil
          (· == '/'.toUInt8) a)
        rw [hl]
        rfl

/-- `Clean` of a rooted path: `/` and the elements it keeps. -/
theorem clean_rooted {x : Bytes} (hx : x.head? = some '/'.toUInt8) :
    clean x = '/'.toUInt8 :: ['/'.toUInt8].intercalate
      ((x.splitOn '/'.toUInt8).foldl (cleanStep true) []).reverse := by
  have hne : x ≠ [] := by
    rintro rfl
    cases hx
  simp [clean, hne, hx]

theorem intercalate_cons_of_ne_nil {sep l : Bytes} {ls : List Bytes} (h : ls ≠ []) :
    sep.intercalate (l :: ls) = l ++ sep ++ sep.intercalate ls := by
  obtain ⟨m, ms, rfl⟩ := List.exists_cons_of_ne_nil h
  simp [List.intercalate, List.intersperse_cons₂]

/-- The last two elements of a rooted path, and the `/` before each, end its text. -/
theorem suffix_intercalate (ks : List Bytes) (x y : Bytes) :
    '/'.toUInt8 :: (x ++ '/'.toUInt8 :: y) <:+
      '/'.toUInt8 :: ['/'.toUInt8].intercalate (ks ++ [x, y]) := by
  induction ks with
  | nil => simp [List.intercalate, List.intersperse_cons₂]
  | cons k ks ih =>
      rw [List.cons_append, intercalate_cons_of_ne_nil (by simp)]
      exact ih.trans ⟨'/'.toUInt8 :: k, by simp⟩

/-! ## The shape of what `Clean` returns -/

/-- `Clean` of a relative path: its kept elements, or `.` when none is kept. -/
theorem clean_relative {x : Bytes} (hne : x ≠ []) (hx : x.head? ≠ some '/'.toUInt8) :
    clean x =
      let body := ['/'.toUInt8].intercalate
        ((x.splitOn '/'.toUInt8).foldl (cleanStep false) []).reverse
      if body = [] then ascii "." else body := by
  simp [clean, hne, hx]

theorem splitOn_slash_cons (l : Bytes) :
    ('/'.toUInt8 :: l).splitOn '/'.toUInt8 = [] :: l.splitOn '/'.toUInt8 := by
  simp [List.splitOn]

theorem head?_intercalate {x : Bytes} (xs : List Bytes) (hx : x ≠ []) :
    (['/'.toUInt8].intercalate (x :: xs)).head? = x.head? := by
  cases xs with
  | nil => simp [List.intercalate]
  | cons y ys =>
      rw [intercalate_cons_of_ne_nil (List.cons_ne_nil y ys), List.append_assoc]
      exact List.head?_append_of_ne_nil _ hx

/-- The text of a kept stack splits back into its elements, and the pass over them gives the
stack back. -/
theorem foldl_splitOn_render {rooted : Bool} {kept : List Bytes} (h : Kept rooted kept) :
    ((['/'.toUInt8].intercalate kept.reverse).splitOn '/'.toUInt8).foldl (cleanStep rooted) [] =
      kept := by
  rcases eq_or_ne kept [] with rfl | hk
  · simp [List.intercalate]
  rw [List.splitOn_intercalate kept.reverse '/'.toUInt8
      (fun l hl => (h.mem l (List.mem_reverse.1 hl)).2.1) (by simpa using hk),
    foldl_cleanStep_of_kept kept.reverse [] (by simpa using h)]
  simp

/-- **`Clean` is idempotent**: what it returns, it returns unchanged. -/
theorem clean_clean (p : Bytes) : clean (clean p) = clean p := by
  rcases eq_or_ne p [] with rfl | hp
  · decide
  have hkept : ∀ rooted : Bool,
      Kept rooted ((p.splitOn '/'.toUInt8).foldl (cleanStep rooted) []) := fun _ =>
    Kept.foldl (fun _ he => not_mem_of_mem_splitOn he) trivial
  by_cases hr : p.head? = some '/'.toUInt8
  · -- a rooted path stays rooted, with the same elements
    rw [clean_rooted hr, clean_rooted List.head?_cons, splitOn_slash_cons, List.foldl_cons, cleanStep_nil,
      foldl_splitOn_render (hkept true)]
  · rw [clean_relative hp hr]
    dsimp only
    split_ifs with hb
    · decide
    · -- a relative path whose first element is a real one
      have hk : (p.splitOn '/'.toUInt8).foldl (cleanStep false) [] ≠ [] := fun h =>
        hb (by simp [h, List.intercalate])
      obtain ⟨x, xs, hxs⟩ := List.exists_cons_of_ne_nil (List.reverse_ne_nil_iff.2 hk)
      have hx := (hkept false).mem x (List.mem_reverse.1 (hxs ▸ List.mem_cons_self x xs))
      have hhead : (['/'.toUInt8].intercalate
          ((p.splitOn '/'.toUInt8).foldl (cleanStep false) []).reverse).head? ≠
            some '/'.toUInt8 := by
        rw [hxs, head?_intercalate xs hx.1]
        intro h
        exact hx.2.1 (List.mem_of_mem_head? h)
      rw [clean_relative hb hhead, foldl_splitOn_render (hkept false)]
      simp [hb]

/-- **What `Clean` makes of a rooted path**: `/`, then elements joined by `/`, none of them
empty, `.` or `..`, and none holding a `/`. -/
theorem clean_rooted_shape {x : Bytes} (hx : x.head? = some '/'.toUInt8) :
    ∃ ks : List Bytes, clean x = '/'.toUInt8 :: ['/'.toUInt8].intercalate ks ∧
      ∀ e ∈ ks, e ≠ [] ∧ '/'.toUInt8 ∉ e ∧ e ≠ ascii "." ∧ e ≠ ascii ".." := by
  have hk : Kept true ((x.splitOn '/'.toUInt8).foldl (cleanStep true) []) :=
    Kept.foldl (fun _ he => not_mem_of_mem_splitOn he) trivial
  refine ⟨_, clean_rooted hx, fun e he => ?_⟩
  have he' := List.mem_reverse.1 he
  obtain ⟨h1, h2, h3⟩ := hk.mem e he'
  exact ⟨h1, h2, h3, fun hdd => by simpa using (hk.rooted_false e he' hdd)⟩

end Path
end Go
end StepOAuth
