import Mathlib.Data.List.Basic
import Mathlib.Data.List.Infix

/-!
Scanning a text for a pattern between word boundaries, and cutting what was found
out of the text at its first occurrence. In a text whose fields are separated by
characters that the pattern cannot match, both can be done field by field.
-/

namespace Scan

variable {α : Type}

/-- A marker, and one or more characters of a class behind it if there is one. -/
structure Pattern (α : Type) where
  marker : List α
  value : Option (α → Bool) := none

section Match

variable (wordy : α → Bool)

def atBoundary (before after : Option α) : Bool := before.any wordy != after.any wordy

/-- The longest run of characters of the class that ends at a boundary. -/
def greedy (cls : α → Bool) : List α → Option (List α)
  | [] => none
  | a :: s =>
    if cls a then
      match greedy cls s with
      | some m => some (a :: m)
      | none => if atBoundary wordy (some a) s.head? then some [a] else none
    else none

def Pattern.ending (p : Pattern α) (s : List α) : Option (List α) :=
  match p.value with
  | none => if atBoundary wordy p.marker.getLast? s.head? then some [] else none
  | some cls => greedy wordy cls s

end Match

/-- A character at which every match ends. -/
structure Stops (wordy : α → Bool) (p : Pattern α) (g : α) : Prop where
  wordy : wordy g = false
  marker : g ∉ p.marker
  value : ∀ cls, p.value = some cls → cls g = false

/-- A first field, and further ones behind a separator each. -/
def join : List α → List (α × List α) → List α
  | w, [] => w
  | w, (g, v) :: rest => w ++ g :: join v rest

def cut (sep : α → Bool) : List α → List α × List (α × List α)
  | [] => ([], [])
  | a :: s => if sep a then ([], (a, (cut sep s).1) :: (cut sep s).2) else (a :: (cut sep s).1, (cut sep s).2)

def fields (sep : α → Bool) (s : List α) : List (List α) := (cut sep s).1 :: (cut sep s).2.map Prod.snd

variable {wordy : α → Bool} {p : Pattern α} {g : α} {t v w rest : List α}

theorem atBoundary_append (hrest : ∀ g ∈ rest.head?, wordy g = false) (before : Option α) :
    atBoundary wordy before (v ++ rest).head? = atBoundary wordy before v.head? := by
  cases v with
  | cons a v => rfl
  | nil =>
    cases rest with
    | nil => rfl
    | cons g rest => simp [atBoundary, hrest g rfl]

theorem prefix_append_iff (hrest : ∀ g ∈ rest.head?, g ∉ t) : t <+: v ++ rest ↔ t <+: v := by
  refine ⟨fun h => ?_, fun h => h.trans (List.prefix_append v rest)⟩
  induction v generalizing t with
  | nil =>
    cases t with
    | nil => exact List.nil_prefix
    | cons a t =>
      cases rest with
      | nil => exact h
      | cons g rest =>
        have ha := (List.cons_prefix_cons.mp h).1
        exact absurd (ha ▸ List.mem_cons_self) (hrest g rfl)
  | cons b v ih =>
    cases t with
    | nil => exact List.nil_prefix
    | cons a t =>
      obtain ⟨ha, ht⟩ := List.cons_prefix_cons.mp h
      exact List.cons_prefix_cons.mpr ⟨ha, ih (fun g hg hm => hrest g hg (List.mem_cons_of_mem a hm)) ht⟩

theorem greedy_append {cls : α → Bool} (hrest : ∀ g ∈ rest.head?, wordy g = false ∧ cls g = false) :
    greedy wordy cls (v ++ rest) = greedy wordy cls v := by
  induction v with
  | nil =>
    cases rest with
    | nil => rfl
    | cons g rest => simp [greedy, (hrest g rfl).2]
  | cons a v ih =>
    simp only [List.cons_append, greedy, ih, atBoundary_append (fun g hg => (hrest g hg).1)]

theorem greedy_starts {cls : α → Bool} {m : List α} (h : greedy wordy cls v = some m) : m <+: v := by
  induction v generalizing m with
  | nil => cases h
  | cons a v ih =>
    simp only [greedy] at h
    split at h
    · split at h
      next m' hm =>
        cases h
        exact List.cons_prefix_cons.mpr ⟨rfl, ih hm⟩
      next =>
        split at h
        · cases h
          exact List.cons_prefix_cons.mpr ⟨rfl, List.nil_prefix⟩
        · cases h
    · cases h

/-- A run of characters of the class is taken whole when its last one is a word
character. -/
theorem greedy_whole {cls : α → Bool} (hv : v ≠ []) (hcls : ∀ a ∈ v, cls a = true)
    (hlast : ∀ a ∈ v.getLast?, wordy a = true) : greedy wordy cls v = some v := by
  induction v with
  | nil => exact absurd rfl hv
  | cons a v ih =>
    rw [greedy, if_pos (hcls a List.mem_cons_self)]
    cases v with
    | nil =>
      have ha : wordy a = true := hlast a rfl
      simp [greedy, atBoundary, ha]
    | cons b v =>
      rw [ih (List.cons_ne_nil _ _) (fun c hc => hcls c (List.mem_cons_of_mem a hc))
        (fun c hc => hlast c (by rwa [List.getLast?_cons_cons]))]

theorem ending_append (hrest : ∀ g ∈ rest.head?, Stops wordy p g) : p.ending wordy (v ++ rest) = p.ending wordy v := by
  unfold Pattern.ending
  split
  · rw [atBoundary_append (fun g hg => (hrest g hg).wordy)]
  next cls hcls => exact greedy_append (fun g hg => ⟨(hrest g hg).wordy, (hrest g hg).value cls hcls⟩)

theorem join_cut (sep : α → Bool) (s : List α) : join (cut sep s).1 (cut sep s).2 = s := by
  induction s with
  | nil => rfl
  | cons a s ih =>
    simp only [cut]
    split
    · show a :: join (cut sep s).1 (cut sep s).2 = _
      rw [ih]
    · cases hrest : (cut sep s).2 with
      | nil =>
        rw [hrest] at ih
        exact congrArg (a :: ·) ih
      | cons f fs =>
        rw [hrest] at ih
        exact congrArg (a :: ·) ih

theorem cut_join {sep : α → Bool} (fs : List (α × List α)) (hfs : ∀ f ∈ fs, sep f.1 = true)
    (hw : ∀ v ∈ w :: fs.map Prod.snd, ∀ a ∈ v, sep a = false) : cut sep (join w fs) = (w, fs) := by
  induction fs generalizing w with
  | nil =>
    have hmem := hw w List.mem_cons_self
    clear hw
    simp only [join]
    induction w with
    | nil => rfl
    | cons a w ih =>
      rw [cut, if_neg (by simp [hmem a List.mem_cons_self]), ih (fun b hb => hmem b (List.mem_cons_of_mem a hb))]
  | cons f fs ih =>
    have hlater := ih (fun f hf => hfs f (List.mem_cons_of_mem _ hf)) (fun v hv => hw v (List.mem_cons_of_mem _ hv))
    have hmem := hw w List.mem_cons_self
    clear hw
    simp only [join]
    induction w with
    | nil => rw [List.nil_append, cut, if_pos (hfs f List.mem_cons_self), hlater]
    | cons a w ih =>
      rw [List.cons_append, cut, if_neg (by simp [hmem a List.mem_cons_self]),
        ih (fun b hb => hmem b (List.mem_cons_of_mem a hb))]

/-- An occurrence that ends behind the seam has its end in the second part. -/
theorem infix_append_cases (h : t <:+: v ++ w) :
    t <:+: v ∨ ∃ i < t.length, t.take i <:+ v ∧ ∀ a ∈ t.drop i, a ∈ w := by
  by_cases hv : t <:+: v
  · exact Or.inl hv
  · right
    obtain ⟨before, after, h⟩ := h
    rcases List.append_eq_append_iff.mp h with ⟨b, hb, -⟩ | ⟨b, hvt, hw⟩
    · exact absurd ⟨before, b, hb.symm⟩ hv
    · rcases List.append_eq_append_iff.mp hvt with ⟨c, hc, ht⟩ | ⟨c, -, ht⟩
      · have hne : b ≠ [] := by
          rintro rfl
          rw [List.append_nil] at ht
          exact hv ⟨before, [], by rw [List.append_nil, hc, ht]⟩
        refine ⟨c.length, ?_, ?_, ?_⟩
        · rw [ht, List.length_append]
          have := List.length_pos_iff.mpr hne
          omega
        · rw [ht, List.take_left]
          exact ⟨before, hc.symm⟩
        · rw [ht, List.drop_left, hw]
          exact fun a ha => List.mem_append_left _ ha
      · have hne : t ≠ [] := by
          rintro rfl
          exact hv List.nil_infix
        refine ⟨0, List.length_pos_iff.mpr hne, List.nil_suffix, fun a ha => ?_⟩
        rw [hw, ht]
        exact List.mem_append_left _ (List.mem_append_right _ ha)

theorem sep_of_mem_cut {sep : α → Bool} {s : List α} {f : α × List α} (h : f ∈ (cut sep s).2) : sep f.1 = true := by
  induction s with
  | nil => cases h
  | cons a s ih =>
    simp only [cut] at h
    split at h
    next ha =>
      rcases List.mem_cons.mp h with rfl | h
      · exact ha
      · exact ih h
    next => exact ih h

theorem not_sep_of_mem_fields {sep : α → Bool} {s v : List α} (h : v ∈ fields sep s) : ∀ a ∈ v, sep a = false := by
  induction s generalizing v with
  | nil =>
    obtain rfl : v = [] := by simpa [fields, cut] using h
    exact fun a ha => absurd ha List.not_mem_nil
  | cons a s ih =>
    simp only [fields, cut] at h
    split at h
    · rcases List.mem_cons.mp h with rfl | h
      · exact fun a ha => absurd ha List.not_mem_nil
      · exact ih h
    next ha =>
      rcases List.mem_cons.mp h with rfl | h
      · intro b hb
        rcases List.mem_cons.mp hb with rfl | hb
        · simpa using ha
        · exact ih List.mem_cons_self b hb
      · exact ih (List.mem_cons_of_mem _ h)

variable [DecidableEq α]

section Search

variable (wordy)

def Pattern.matchAt (p : Pattern α) (before : Option α) (s : List α) : Option (List α) :=
  if atBoundary wordy before s.head? && p.marker.isPrefixOf s then
    (p.ending wordy (s.drop p.marker.length)).map (p.marker ++ ·)
  else none

/-- The first argument counts the characters that the last match still covers. -/
def Pattern.scanFrom (p : Pattern α) : ℕ → Option α → List α → List (List α)
  | _, _, [] => []
  | skip + 1, _, a :: s => p.scanFrom skip (some a) s
  | 0, before, a :: s =>
    match p.matchAt wordy before (a :: s) with
    | some m => m :: p.scanFrom (m.length - 1) (some a) s
    | none => p.scanFrom 0 (some a) s

def Pattern.scan (p : Pattern α) (s : List α) : List (List α) := p.scanFrom wordy 0 none s

end Search

/-- The text without the first occurrence of `t`. -/
def slice (t : List α) : List α → List α
  | [] => []
  | a :: s => if t.isPrefixOf (a :: s) then (a :: s).drop t.length else a :: slice t s

/-- Scans once, then cuts out the matches one after the other and hands each to
`set`. -/
def Pattern.cutOut {σ : Type} (wordy : α → Bool) (p : Pattern α) (set : σ → List α → σ) (text : List α) (s : σ) :
    List α × σ :=
  (p.scan wordy text).foldl (fun r t => (slice t r.1, set r.2 t)) (text, s)

theorem matchAt_append (hrest : ∀ g ∈ rest.head?, Stops wordy p g) (before : Option α) : p.matchAt wordy before (v ++ rest) = p.matchAt wordy before v := by
  have hprefix : p.marker.isPrefixOf (v ++ rest) = p.marker.isPrefixOf v := by
    rw [Bool.eq_iff_iff, List.isPrefixOf_iff_prefix, List.isPrefixOf_iff_prefix]
    exact prefix_append_iff (fun g hg => (hrest g hg).marker)
  simp only [Pattern.matchAt, atBoundary_append (fun g hg => (hrest g hg).wordy), hprefix]
  split
  next h =>
    simp only [Bool.and_eq_true, List.isPrefixOf_iff_prefix] at h
    rw [List.drop_append_of_le_length h.2.length_le, ending_append hrest]
  next => rfl

theorem matchAt_starts {before : Option α} {m : List α} (h : p.matchAt wordy before v = some m) :
    p.marker <+: m ∧ m <+: v := by
  simp only [Pattern.matchAt] at h
  split at h
  next hp =>
    simp only [Bool.and_eq_true, List.isPrefixOf_iff_prefix] at hp
    obtain ⟨x, hx, rfl⟩ := Option.map_eq_some_iff.mp h
    obtain ⟨s, rfl⟩ := hp.2
    refine ⟨List.prefix_append _ _, (List.prefix_append_right_inj _).mpr ?_⟩
    rw [List.drop_left] at hx
    simp only [Pattern.ending] at hx
    split at hx
    · split at hx
      · cases hx
        exact List.nil_prefix
      · cases hx
    · exact greedy_starts hx
  next => cases h

theorem matchAt_whole {x : List α} (hm : p.marker ≠ []) (hhead : ∀ a ∈ p.marker.head?, wordy a = true)
    (hx : p.ending wordy x = some x) : p.matchAt wordy none (p.marker ++ x) = some (p.marker ++ x) := by
  obtain ⟨a, m, hp⟩ := List.exists_cons_of_ne_nil hm
  have hboundary : atBoundary wordy none (p.marker ++ x).head? = true := by
    have ha : wordy a = true := hhead a (by rw [hp]; rfl)
    simp [hp, atBoundary, ha]
  have hprefix : p.marker.isPrefixOf (p.marker ++ x) = true :=
    List.isPrefixOf_iff_prefix.mpr (List.prefix_append _ _)
  rw [Pattern.matchAt, hboundary, hprefix, Bool.and_self, if_pos rfl, List.drop_left, hx, Option.map_some]

theorem matchAt_congr {before before' : Option α} (h : before.any wordy = before'.any wordy) (s : List α) :
    p.matchAt wordy before s = p.matchAt wordy before' s := by
  have hb : atBoundary wordy before s.head? = atBoundary wordy before' s.head? := by
    rw [atBoundary, atBoundary, h]
  simp only [Pattern.matchAt, hb]

theorem scanFrom_congr {before before' : Option α} (h : before.any wordy = before'.any wordy) (s : List α) :
    p.scanFrom wordy 0 before s = p.scanFrom wordy 0 before' s := by
  cases s with
  | nil => rfl
  | cons a s => simp only [Pattern.scanFrom, matchAt_congr h]

theorem scanFrom_all (before : Option α) (s : List α) : p.scanFrom wordy s.length before s = [] := by
  induction s generalizing before with
  | nil => rfl
  | cons a s ih => exact ih (some a)

theorem scanFrom_append (hrest : ∀ g ∈ rest.head?, Stops wordy p g) (skip : ℕ) (before : Option α)
    (hskip : skip ≤ v.length) :
    p.scanFrom wordy skip before (v ++ rest) =
      p.scanFrom wordy skip before v ++ p.scanFrom wordy 0 (v.getLast?.or before) rest := by
  induction v generalizing skip before with
  | nil =>
    obtain rfl : skip = 0 := by simpa using hskip
    simp [Pattern.scanFrom]
  | cons a v ih =>
    have hlast : ((a :: v).getLast?.or before) = v.getLast?.or (some a) := by
      rw [List.getLast?_cons, Option.some_or]
      cases v.getLast? <;> rfl
    rw [hlast]
    cases skip with
    | succ skip => exact ih skip (some a) (by simpa using hskip)
    | zero =>
      simp only [List.cons_append, Pattern.scanFrom]
      rw [← List.cons_append, matchAt_append hrest]
      cases hm : p.matchAt wordy before (a :: v) with
      | none => exact ih 0 (some a) (Nat.zero_le _)
      | some m =>
        have hle := (matchAt_starts hm).2.length_le
        rw [List.length_cons] at hle
        simp only [List.cons_append]
        rw [ih (m.length - 1) (some a) (by omega)]

theorem infix_of_mem_scanFrom {m : List α} {skip : ℕ} {before : Option α} (h : m ∈ p.scanFrom wordy skip before v) :
    p.marker <:+: v := by
  induction v generalizing skip before with
  | nil => cases h
  | cons a v ih =>
    have hlater : ∀ {k b}, m ∈ p.scanFrom wordy k b v → p.marker <:+: a :: v :=
      fun h => (ih h).trans (List.suffix_cons a v).isInfix
    cases skip with
    | succ skip => exact hlater h
    | zero =>
      simp only [Pattern.scanFrom] at h
      split at h
      next m' hm =>
        obtain ⟨hmarker, hprefix⟩ := matchAt_starts hm
        exact (hmarker.trans hprefix).isInfix
      next => exact hlater h

theorem scan_eq_nil (h : ¬ p.marker <:+: v) : p.scan wordy v = [] :=
  List.eq_nil_iff_forall_not_mem.mpr (fun _ hm => h (infix_of_mem_scanFrom hm))

theorem scan_whole (hv : v ≠ []) (h : p.matchAt wordy none v = some v) : p.scan wordy v = [v] := by
  cases v with
  | nil => exact absurd rfl hv
  | cons a v =>
    simp only [Pattern.scan, Pattern.scanFrom, h, List.length_cons, Nat.add_sub_cancel, scanFrom_all]

/-- No match reaches over a separator, nor does it matter for the next field what
stood before it. -/
theorem scan_join (hm : p.marker ≠ []) (fs : List (α × List α)) (hfs : ∀ f ∈ fs, Stops wordy p f.1) :
    p.scan wordy (join w fs) = (w :: fs.map Prod.snd).flatMap (p.scan wordy) := by
  induction fs generalizing w with
  | nil => simp [join]
  | cons f fs ih =>
    have hstop : Stops wordy p f.1 := hfs f List.mem_cons_self
    have hnone : ∀ before s, p.matchAt wordy before (f.1 :: s) = none := by
      intro before s
      have hmarker : ¬ p.marker.isPrefixOf (f.1 :: s) := by
        rw [List.isPrefixOf_iff_prefix]
        cases hp : p.marker with
        | nil => exact absurd hp hm
        | cons a m =>
          intro h
          exact hstop.marker (hp ▸ (List.cons_prefix_cons.mp h).1 ▸ List.mem_cons_self)
      simp [Pattern.matchAt, hmarker]
    rw [List.map_cons, List.flatMap_cons, ← ih (fun f hf => hfs f (List.mem_cons_of_mem _ hf))]
    obtain ⟨g, v⟩ := f
    show p.scanFrom wordy 0 none (w ++ g :: join v fs) = _
    rw [scanFrom_append (fun g' hg => by cases hg; exact hstop) 0 none (Nat.zero_le _)]
    simp only [Pattern.scanFrom, hnone]
    exact congrArg _ (scanFrom_congr (by simpa using hstop.wordy) _)

theorem slice_at_start (hv : v ≠ []) (s : List α) : slice v (v ++ s) = s := by
  cases v with
  | nil => exact absurd rfl hv
  | cons a v =>
    have h : (a :: v).isPrefixOf (a :: (v ++ s)) = true := by
      rw [List.isPrefixOf_iff_prefix]
      exact List.prefix_append (a :: v) s
    rw [List.cons_append, slice, if_pos h, ← List.cons_append, List.drop_left]

theorem slice_append (ht : t ≠ []) (hg : g ∉ t) (hv : ¬ t <:+: v) (s : List α) :
    slice t (v ++ g :: s) = v ++ g :: slice t s := by
  have hprefix : ∀ u, ¬ t <:+: u → t.isPrefixOf (u ++ g :: s) = false := by
    intro u hu
    rw [Bool.eq_false_iff, ne_eq, List.isPrefixOf_iff_prefix, prefix_append_iff (by simpa using hg)]
    exact fun h => hu h.isInfix
  induction v with
  | nil =>
    rw [List.nil_append, List.nil_append, slice, if_neg]
    have hnil := hprefix [] (fun h => ht (List.infix_nil.mp h))
    rw [List.nil_append] at hnil
    simp [hnil]
  | cons a v ih =>
    have ha := hprefix (a :: v) hv
    rw [List.cons_append] at ha ⊢
    rw [slice, if_neg (by simp [ha]), ih (fun h => hv (h.trans (List.suffix_cons a v).isInfix)), List.cons_append]

theorem slices_append (ts : List (List α)) (hts : ∀ t ∈ ts, t ≠ [] ∧ g ∉ t ∧ ¬ t <:+: v) (s : List α) :
    ts.foldl (fun q t => slice t q) (v ++ g :: s) = v ++ g :: ts.foldl (fun q t => slice t q) s := by
  induction ts generalizing s with
  | nil => rfl
  | cons t ts ih =>
    obtain ⟨ht, hg, hv⟩ := hts t List.mem_cons_self
    rw [List.foldl_cons, slice_append ht hg hv, ih (fun t ht => hts t (List.mem_cons_of_mem _ ht)), List.foldl_cons]

/-- What a field is to the pattern: a match from end to end, or without a trace of
the marker. -/
structure ClearCut (wordy : α → Bool) (p : Pattern α) (hit : List α → Bool) (v : List α) : Prop where
  whole : hit v = true → p.scan wordy v = [v]
  marked : hit v = true → p.marker <+: v
  unmarked : hit v = false → ¬ p.marker <:+: v

def clean (hit : List α → Bool) (v : List α) : List α := if hit v then [] else v

variable {hit : List α → Bool}

theorem scan_clearCut (hm : p.marker ≠ []) (fs : List (α × List α)) (hfs : ∀ f ∈ fs, Stops wordy p f.1)
    (hclear : ∀ v ∈ w :: fs.map Prod.snd, ClearCut wordy p hit v) :
    p.scan wordy (join w fs) = (w :: fs.map Prod.snd).filter hit := by
  rw [scan_join hm fs hfs]
  generalize w :: fs.map Prod.snd = vs at hclear
  induction vs with
  | nil => rfl
  | cons v vs ih =>
    have hv := hclear v List.mem_cons_self
    rw [List.flatMap_cons, ih (fun v hv => hclear v (List.mem_cons_of_mem _ hv))]
    cases hhit : hit v with
    | true => rw [hv.whole hhit, List.filter_cons_of_pos hhit, List.singleton_append]
    | false => rw [scan_eq_nil (hv.unmarked hhit), List.filter_cons_of_neg (by simp [hhit]), List.nil_append]

theorem slices_clearCut (hm : p.marker ≠ []) (fs : List (α × List α)) (hfs : ∀ f ∈ fs, Stops wordy p f.1)
    (hsep : ∀ f ∈ fs, ∀ v ∈ w :: fs.map Prod.snd, f.1 ∉ v)
    (hclear : ∀ v ∈ w :: fs.map Prod.snd, ClearCut wordy p hit v) :
    ((w :: fs.map Prod.snd).filter hit).foldl (fun q t => slice t q) (join w fs) =
      join (clean hit w) (fs.map (fun f => (f.1, clean hit f.2))) := by
  induction fs generalizing w with
  | nil =>
    cases hhit : hit w with
    | false => simp [hhit, join, clean]
    | true =>
      have hw : w ≠ [] := by
        rintro rfl
        exact hm (List.prefix_nil.mp ((hclear [] List.mem_cons_self).marked hhit))
      have hslice := slice_at_start hw []
      rw [List.append_nil] at hslice
      simp [hhit, join, clean, hslice]
  | cons f fs ih =>
    obtain ⟨g, v⟩ := f
    have hw := hclear w List.mem_cons_self
    have hlater := ih (w := v) (fun f hf => hfs f (List.mem_cons_of_mem _ hf))
      (fun f hf u hu => hsep f (List.mem_cons_of_mem _ hf) u (List.mem_cons_of_mem _ hu))
      (fun u hu => hclear u (List.mem_cons_of_mem _ hu))
    -- the field is done with when the later matches are cut out
    have hcut : ∀ t ∈ (v :: fs.map Prod.snd).filter hit, t ≠ [] ∧ g ∉ t ∧ ¬ t <:+: clean hit w := by
      intro t ht
      obtain ⟨htmem, hthit⟩ := List.mem_filter.mp ht
      have htmark := (hclear t (List.mem_cons_of_mem _ htmem)).marked hthit
      refine ⟨?_, hsep (g, v) List.mem_cons_self t (List.mem_cons_of_mem _ htmem), ?_⟩
      · rintro rfl
        exact hm (List.prefix_nil.mp htmark)
      · intro hinfix
        have hmark := htmark.isInfix.trans hinfix
        simp only [clean] at hmark
        split at hmark
        · exact hm (List.infix_nil.mp hmark)
        next hhit => exact hw.unmarked (by simpa using hhit) hmark
    have hfirst : ((w :: (g, v).2 :: fs.map Prod.snd).filter hit).foldl (fun q t => slice t q) (w ++ g :: join v fs) =
        ((v :: fs.map Prod.snd).filter hit).foldl (fun q t => slice t q) (clean hit w ++ g :: join v fs) := by
      cases hhit : hit w with
      | false => rw [List.filter_cons_of_neg (by simp [hhit]), clean, hhit, if_neg Bool.false_ne_true]
      | true =>
        have hne : w ≠ [] := by
          rintro rfl
          exact hm (List.prefix_nil.mp (hw.marked hhit))
        rw [List.filter_cons_of_pos hhit, List.foldl_cons, slice_at_start hne, clean, hhit, if_pos rfl, List.nil_append]
    rw [List.map_cons, join, hfirst, slices_append _ hcut, hlater]
    rfl

/-- The matches are the hits in their order, and they leave empty fields. -/
theorem cutOut_clearCut {σ : Type} (set : σ → List α → σ) (s : σ) (hm : p.marker ≠ []) (fs : List (α × List α))
    (hfs : ∀ f ∈ fs, Stops wordy p f.1) (hsep : ∀ f ∈ fs, ∀ v ∈ w :: fs.map Prod.snd, f.1 ∉ v)
    (hclear : ∀ v ∈ w :: fs.map Prod.snd, ClearCut wordy p hit v) :
    p.cutOut wordy set (join w fs) s =
      (join (clean hit w) (fs.map (fun f => (f.1, clean hit f.2))),
        ((w :: fs.map Prod.snd).filter hit).foldl set s) := by
  have hpair : ∀ (ts : List (List α)) (text : List α) (s : σ),
      ts.foldl (fun r t => (slice t r.1, set r.2 t)) (text, s) =
        (ts.foldl (fun q t => slice t q) text, ts.foldl set s) := by
    intro ts
    induction ts with
    | nil => exact fun _ _ => rfl
    | cons t ts ih => exact fun text s => ih (slice t text) (set s t)
  rw [Pattern.cutOut, hpair, scan_clearCut hm fs hfs hclear, slices_clearCut hm fs hfs hsep hclear]

omit [DecidableEq α] in
theorem mem_intercalate {sep : List α} {ws : List (List α)} {w : List α} {c : α} (hw : w ∈ ws)
    (hc : c ∈ w) : c ∈ sep.intercalate ws := by
  induction ws with
  | nil => cases hw
  | cons v ws ih =>
    cases ws with
    | nil =>
      obtain rfl := List.mem_singleton.mp hw
      rwa [List.intercalate_singleton]
    | cons u ws =>
      rw [List.intercalate_cons_cons]
      rcases List.mem_cons.mp hw with rfl | hw
      · exact List.mem_append_left _ (List.mem_append_left _ hc)
      · exact List.mem_append_right _ (ih hw)

omit [DecidableEq α] in
theorem of_mem_intercalate {sep : List α} {ws : List (List α)} {c : α} (h : c ∈ sep.intercalate ws) :
    c ∈ sep ∨ ∃ w ∈ ws, c ∈ w := by
  induction ws with
  | nil => cases h
  | cons v ws ih =>
    cases ws with
    | nil => exact Or.inr ⟨v, List.mem_cons_self, by rwa [List.intercalate_singleton] at h⟩
    | cons u ws =>
      rw [List.intercalate_cons_cons, List.append_assoc, List.mem_append, List.mem_append] at h
      rcases h with h | h | h
      · exact Or.inr ⟨v, List.mem_cons_self, h⟩
      · exact Or.inl h
      · exact (ih h).imp_right (fun ⟨w, hw, hc⟩ => ⟨w, List.mem_cons_of_mem _ hw, hc⟩)

end Scan
