import Mathlib.Data.List.Sort
import Mathlib.Data.List.Nodup
import Mathlib.Data.List.Pairwise
import Mathlib.Data.List.Perm.Basic

/-!
Reading a set of rows page by page, when each page is cut out of an answer of its
own: the rows in descending order of a key, in any order among those of equal key.
-/

namespace Paging

variable {α κ : Type} [LinearOrder κ] (key : α → κ)

/-- A possible answer to the query without the limit. -/
structure Answers (rows order : List α) : Prop where
  perm : order.Perm rows
  sorted : order.Pairwise (fun a b => key b ≤ key a)

def page (size k : ℕ) (order : List α) : List α := (order.drop (size * k)).take size

/-- What has been read after the first `n` pages, where each page has its answer. -/
def read (size : ℕ) (orders : ℕ → List α) (n : ℕ) : List α :=
  (List.range n).flatMap (fun k => page size k (orders k))

/-- The first empty page is the one after the first `n`. -/
structure EndsAt (size : ℕ) (orders : ℕ → List α) (n : ℕ) : Prop where
  empty : page size n (orders n) = []
  nonempty : ∀ k < n, page size k (orders k) ≠ []

def above (rows : List α) (r : α) : ℕ := rows.countP (fun a => decide (key r < key a))

def level (rows : List α) (r : α) : ℕ := rows.countP (fun a => decide (key a = key r))

/-- All rows with the key of this one stand on one page. -/
def OnOnePage (size : ℕ) (rows : List α) (r : α) : Prop :=
  above key rows r / size = (above key rows r + level key rows r - 1) / size

variable {key}

theorem sorted_split {order : List α} (h : order.Pairwise (fun a b => key b ≤ key a)) (k : κ) :
    order = order.filter (fun a => decide (k < key a)) ++
      (order.filter (fun a => decide (key a = k)) ++ order.filter (fun a => decide (key a < k))) := by
  induction order with
  | nil => rfl
  | cons a order ih =>
    obtain ⟨ha, hrest⟩ := List.pairwise_cons.mp h
    have htail := ih hrest
    rcases lt_trichotomy k (key a) with hk | hk | hk
    · rw [List.filter_cons_of_pos (by simpa using hk), List.filter_cons_of_neg (by simpa using hk.ne'),
        List.filter_cons_of_neg (by simpa using hk.le), List.cons_append, ← htail]
    · -- everything behind is at most as high, so the first part is empty
      have hnone : order.filter (fun b => decide (k < key b)) = [] := by
        rw [List.filter_eq_nil_iff]
        intro b hb
        simpa [hk] using ha b hb
      rw [hnone, List.nil_append] at htail
      rw [List.filter_cons_of_neg (by simp [hk]), hnone, List.filter_cons_of_pos (by simp [hk]),
        List.filter_cons_of_neg (by simp [hk]), List.nil_append, List.cons_append, ← htail]
    · have hnone : order.filter (fun b => decide (k < key b)) = [] := by
        rw [List.filter_eq_nil_iff]
        intro b hb
        simpa using (ha b hb).trans hk.le
      have hlevel : order.filter (fun b => decide (key b = k)) = [] := by
        rw [List.filter_eq_nil_iff]
        intro b hb
        simpa using ((ha b hb).trans_lt hk).ne
      rw [hnone, hlevel, List.nil_append, List.nil_append] at htail
      rw [List.filter_cons_of_neg (by simpa using hk.le), hnone, List.filter_cons_of_neg (by simpa using hk.ne), hlevel,
        List.filter_cons_of_pos (by simpa using hk), ← htail]
      rfl

theorem Answers.above_eq {rows order : List α} (h : Answers key rows order) (r : α) :
    (order.filter (fun a => decide (key r < key a))).length = above key rows r := by
  rw [above, ← h.perm.countP_eq, List.countP_eq_length_filter]

theorem Answers.level_eq {rows order : List α} (h : Answers key rows order) (r : α) :
    (order.filter (fun a => decide (key a = key r))).length = level key rows r := by
  rw [level, ← h.perm.countP_eq, List.countP_eq_length_filter]

theorem page_eq_nil_iff {size : ℕ} {order : List α} (hsize : 0 < size) (k : ℕ) : page size k order = [] ↔ order.length ≤ size * k := by
  rw [page, List.take_eq_nil_iff, List.drop_eq_nil_iff]
  omega

theorem read_succ (size : ℕ) (orders : ℕ → List α) (n : ℕ) :
    read size orders (n + 1) = read size orders n ++ page size n (orders n) := by
  rw [read, List.range_succ, List.flatMap_append, List.flatMap_singleton, read]

theorem read_update (size : ℕ) (orders : ℕ → List α) (n : ℕ) (order : List α) :
    read size (Function.update orders n order) (n + 1) = read size orders n ++ page size n order := by
  rw [read_succ, Function.update_self]
  congr 1
  apply List.flatMap_congr
  intro k hk
  rw [Function.update_of_ne (List.mem_range.mp hk).ne]

theorem read_isPrefix (size : ℕ) (orders : ℕ → List α) {n m : ℕ} (h : n ≤ m) :
    read size orders n <+: read size orders m := by
  induction h with
  | refl => exact List.prefix_refl _
  | step _ ih =>
    rw [read_succ]
    exact ih.trans (List.prefix_append _ _)

theorem pages_disjoint {size n : ℕ} {orders : ℕ → List α} (h : (read size orders n).Nodup) {j k : ℕ} (hj : j < n)
    (hk : k < n) (hne : j ≠ k) {x : α} (hxj : x ∈ page size j (orders j)) : x ∉ page size k (orders k) := by
  have hsymm : Std.Symm (Function.onFun List.Disjoint fun k => page size k (orders k)) := ⟨fun _ _ hd _ hk hj => hd hj hk⟩
  have hdisjoint := (List.nodup_flatMap.mp h).2.forall (List.mem_range.mpr hj) (List.mem_range.mpr hk) hne
  exact fun hxk => hdisjoint hxj hxk

section Index

variable [DecidableEq α] {rows order : List α}

theorem mem_page_iff {size k : ℕ} (hn : order.Nodup) {x : α} (hx : x ∈ order) :
    x ∈ page size k order ↔ size * k ≤ order.idxOf x ∧ order.idxOf x < size * k + size := by
  have hsplit : order.take (size * k + size) = order.take (size * k) ++ page size k order := List.take_add
  have hdisjoint : (order.take (size * k) ++ page size k order).Nodup := by
    rw [← hsplit]
    exact hn.sublist (List.take_sublist _ _)
  have hmem : x ∈ page size k order ↔ x ∈ order.take (size * k + size) ∧ x ∉ order.take (size * k) := by
    rw [hsplit, List.mem_append]
    constructor
    · intro hp
      exact ⟨Or.inr hp, fun ht => (List.nodup_append.mp hdisjoint).2.2 x ht x hp rfl⟩
    · rintro ⟨ht | hp, hn⟩
      · exact absurd ht hn
      · exact hp
  rw [hmem, List.mem_take_iff_idxOf_lt hx, List.mem_take_iff_idxOf_lt hx]
  omega

/-- A row stands behind those above it and among those at its level. -/
theorem Answers.idxOf_bounds (h : Answers key rows order) {r : α} (hr : r ∈ rows) :
    above key rows r ≤ order.idxOf r ∧ order.idxOf r < above key rows r + level key rows r := by
  have hsplit := sorted_split h.sorted (key r)
  have hnot : r ∉ order.filter (fun a => decide (key r < key a)) := by simp
  have hlevel : r ∈ order.filter (fun a => decide (key a = key r)) :=
    List.mem_filter.mpr ⟨h.perm.mem_iff.mpr hr, by simp⟩
  have hidx : order.idxOf r = above key rows r + (order.filter (fun a => decide (key a = key r))).idxOf r := by
    rw [← h.above_eq r]
    conv_lhs => rw [hsplit]
    rw [List.idxOf_append_of_notMem hnot, List.idxOf_append_of_mem hlevel]
  have hlt := List.idxOf_lt_length_of_mem hlevel
  rw [h.level_eq] at hlt
  omega

section Complete

variable {size : ℕ} {orders : ℕ → List α} (hsize : 0 < size) (hrows : rows.Nodup)
  (horders : ∀ k, Answers key rows (orders k))

omit [DecidableEq α] in
include hsize horders in
theorem endsAt_iff (n : ℕ) : EndsAt size orders n ↔ rows.length ≤ size * n ∧ ∀ k < n, size * k < rows.length := by
  have hlength (k : ℕ) : page size k (orders k) = [] ↔ rows.length ≤ size * k := by
    rw [page_eq_nil_iff hsize, (horders k).perm.length_eq]
  constructor
  · rintro ⟨hempty, hnonempty⟩
    refine ⟨(hlength n).mp hempty, fun k hk => ?_⟩
    have hk' := hnonempty k hk
    rw [ne_eq, hlength] at hk'
    omega
  · rintro ⟨hempty, hnonempty⟩
    refine ⟨(hlength n).mpr hempty, fun k hk => ?_⟩
    have hk' := hnonempty k hk
    rw [ne_eq, hlength]
    omega

omit [DecidableEq α] in
include hsize horders in
theorem exists_endsAt : ∃ n, EndsAt size orders n := by
  have hexists : ∃ n, rows.length ≤ size * n := ⟨rows.length, Nat.le_mul_of_pos_left _ hsize⟩
  refine ⟨Nat.find hexists, (endsAt_iff hsize horders _).mpr ⟨Nat.find_spec hexists, fun k hk => ?_⟩⟩
  have hk' := Nat.find_min hexists hk
  omega

include hsize hrows horders in
theorem mem_page_of_onOnePage {r : α} (hr : r ∈ rows) (h : OnOnePage key size rows r) (k : ℕ) :
    r ∈ page size k (orders k) ↔ above key rows r / size = k := by
  have hbounds := (horders k).idxOf_bounds hr
  have hdiv : (orders k).idxOf r / size = above key rows r / size := by
    apply le_antisymm
    · rw [h]
      exact Nat.div_le_div_right (by omega)
    · exact Nat.div_le_div_right hbounds.1
  rw [mem_page_iff ((horders k).perm.nodup_iff.mpr hrows) ((horders k).perm.mem_iff.mpr hr), ← hdiv,
    Nat.div_eq_iff hsize, Nat.mul_comm]
  omega

include hsize hrows horders in
theorem read_perm {n : ℕ} (hn : EndsAt size orders n) (h : ∀ r ∈ rows, OnOnePage key size rows r) :
    (read size orders n).Perm rows := by
  have hmem (k : ℕ) {r : α} (hp : r ∈ page size k (orders k)) : r ∈ rows :=
    (horders k).perm.mem_iff.mp (List.mem_of_mem_drop (List.mem_of_mem_take hp))
  have hpage (k : ℕ) {r : α} (hp : r ∈ page size k (orders k)) : above key rows r / size = k :=
    (mem_page_of_onOnePage hsize hrows horders (hmem k hp) (h r (hmem k hp)) k).mp hp
  have hnodup : (read size orders n).Nodup := by
    refine List.nodup_flatMap.mpr ⟨fun k _ => ?_, ?_⟩
    · exact ((horders k).perm.nodup_iff.mpr hrows).sublist ((List.take_sublist _ _).trans (List.drop_sublist _ _))
    · refine List.nodup_range.imp (fun {j k} hne r hj hk => hne ?_)
      exact (hpage j hj).symm.trans (hpage k hk)
  refine (List.perm_ext_iff_of_nodup hnodup hrows).mpr (fun r => ?_)
  rw [read, List.mem_flatMap]
  constructor
  · rintro ⟨k, -, hp⟩
    exact hmem k hp
  · intro hr
    obtain ⟨hend, -⟩ := (endsAt_iff hsize horders n).mp hn
    refine ⟨above key rows r / size, List.mem_range.mpr ?_,
      (mem_page_of_onOnePage hsize hrows horders hr (h r hr) _).mpr rfl⟩
    have hlt := ((horders 0).idxOf_bounds hr).1.trans_lt
      ((List.idxOf_lt_length_of_mem ((horders 0).perm.mem_iff.mpr hr)).trans_eq (horders 0).perm.length_eq)
    exact Nat.div_lt_of_lt_mul (hlt.trans_le hend)

omit [DecidableEq α] in
include horders in
theorem length_read (n : ℕ) : (read size orders n).length = min (size * n) rows.length := by
  induction n with
  | zero => simp [read]
  | succ n ih =>
    rw [read_succ, List.length_append, ih, page, List.length_take, List.length_drop, (horders n).perm.length_eq,
      Nat.mul_succ]
    omega

include hsize hrows horders in
/-- Rows of a later page are not above those of an earlier one. -/
theorem read_sorted (h : ∀ r ∈ rows, OnOnePage key size rows r) (n : ℕ) :
    (read size orders n).Pairwise (fun a b => key b ≤ key a) := by
  have hmem (k : ℕ) {r : α} (hp : r ∈ page size k (orders k)) : r ∈ rows :=
    (horders k).perm.mem_iff.mp (List.mem_of_mem_drop (List.mem_of_mem_take hp))
  refine List.pairwise_flatMap.mpr ⟨fun k _ => ?_, ?_⟩
  · exact (horders k).sorted.sublist ((List.take_sublist _ _).trans (List.drop_sublist _ _))
  · apply List.pairwise_lt_range.imp
    intro j k hjk a ha b hb
    by_contra hlt
    rw [not_le] at hlt
    have hj := (mem_page_of_onOnePage hsize hrows horders (hmem j ha) (h a (hmem j ha)) j).mp ha
    have hk := (mem_page_of_onOnePage hsize hrows horders (hmem k hb) (h b (hmem k hb)) k).mp hb
    have hle : above key rows b ≤ above key rows a := by
      apply List.countP_mono_left
      intro c _ hc
      simp only [decide_eq_true_eq] at hc ⊢
      exact hlt.trans hc
    have := Nat.div_le_div_right (c := size) hle
    omega

include hsize hrows horders in
/-- What has been read is the beginning of one answer. -/
theorem read_eq_take (h : ∀ r ∈ rows, OnOnePage key size rows r) (n : ℕ) :
    ∃ order, Answers key rows order ∧ read size orders n = order.take (size * n) := by
  obtain ⟨m, hm⟩ := exists_endsAt hsize horders
  have hlast : rows.length ≤ size * m := ((endsAt_iff hsize horders m).mp hm).1
  have hwhole : (read size orders (m + n)).Perm rows := by
    have hlength : (read size orders m).length = _ := length_read horders m
    have hlength' : (read size orders (m + n)).length = _ := length_read horders (m + n)
    rw [Nat.mul_add] at hlength'
    have heq := (read_isPrefix size orders (Nat.le_add_right m n)).eq_of_length (by omega)
    rw [← heq]
    exact read_perm hsize hrows horders hm h
  refine ⟨read size orders (m + n), ⟨hwhole, read_sorted hsize hrows horders h _⟩, ?_⟩
  have hn := List.prefix_iff_eq_take.mp (read_isPrefix size orders (Nat.le_add_left n m))
  rw [hn, length_read horders, List.take_eq_take_iff, hwhole.length_eq]
  omega

end Complete

/-- Among the rows of its level a row may stand anywhere. -/
theorem exists_answer (hrows : rows.Nodup) {r : α} (hr : r ∈ rows) {i : ℕ} (hlow : above key rows r ≤ i)
    (hhigh : i < above key rows r + level key rows r) : ∃ order, Answers key rows order ∧ order.idxOf r = i := by
  have : Std.Total (fun a b : α => key b ≤ key a) := ⟨fun a b => le_total (key b) (key a)⟩
  have : IsTrans α (fun a b => key b ≤ key a) := ⟨fun a b c hab hbc => hbc.trans hab⟩
  let sorted := rows.insertionSort (fun a b => key b ≤ key a)
  have hsorted : Answers key rows sorted := ⟨List.perm_insertionSort _ _, List.pairwise_insertionSort _ _⟩
  let high := sorted.filter (fun a => decide (key r < key a))
  let same := sorted.filter (fun a => decide (key a = key r))
  let low := sorted.filter (fun a => decide (key a < key r))
  let rest := same.erase r
  let j := i - above key rows r
  let placed := rest.take j ++ r :: rest.drop j
  have hsplit : sorted = high ++ (same ++ low) := sorted_split hsorted.sorted (key r)
  have hsame : r ∈ same := List.mem_filter.mpr ⟨hsorted.perm.mem_iff.mpr hr, by simp⟩
  have hplaced : placed.Perm same := by
    refine (List.perm_middle.trans ?_).trans (List.perm_cons_erase hsame).symm
    rw [List.take_append_drop]
  have hkey {a : α} (ha : a ∈ placed) : key a = key r := by
    simpa using (List.mem_filter.mp (hplaced.mem_iff.mp ha)).2
  have hhighkey {a : α} (ha : a ∈ high) : key r < key a := by simpa using (List.mem_filter.mp ha).2
  have hlowkey {a : α} (ha : a ∈ low) : key a < key r := by simpa using (List.mem_filter.mp ha).2
  refine ⟨high ++ (placed ++ low), ⟨?_, ?_⟩, ?_⟩
  · refine List.Perm.trans ?_ hsorted.perm
    rw [hsplit]
    exact (hplaced.append_right low).append_left high
  · refine List.pairwise_append.mpr ⟨hsorted.sorted.filter _, List.pairwise_append.mpr ⟨?_, hsorted.sorted.filter _, ?_⟩, ?_⟩
    · refine List.pairwise_of_forall_mem_list (fun a ha b hb => ?_)
      rw [hkey ha, hkey hb]
    · intro a ha b hb
      rw [hkey ha]
      exact (hlowkey hb).le
    · intro a ha b hb
      rcases List.mem_append.mp hb with hb | hb
      · rw [hkey hb]
        exact (hhighkey ha).le
      · exact ((hlowkey hb).trans (hhighkey ha)).le
  · have hnodup : same.Nodup := (hsorted.perm.nodup_iff.mpr hrows).filter _
    have hnothigh : r ∉ high := fun hm => lt_irrefl _ (hhighkey hm)
    have hnotrest : r ∉ rest.take j := fun hm => hnodup.not_mem_erase (List.mem_of_mem_take hm)
    have hlength : j ≤ rest.length := by
      rw [List.length_erase_of_mem hsame, hsorted.level_eq]
      omega
    rw [List.idxOf_append_of_notMem hnothigh, List.idxOf_append_of_mem (hplaced.mem_iff.mpr hsame),
      List.idxOf_append_of_notMem hnotrest, List.idxOf_cons_self, List.length_take_of_le hlength, hsorted.above_eq]
    omega

/-- The first rows are all as wanted, whatever the answer, exactly if enough rows
are above every other one. -/
theorem forall_mem_take_iff (hrows : rows.Nodup) (n : ℕ) (p : α → Prop) :
    (∀ order, Answers key rows order → ∀ r ∈ order.take n, p r) ↔ ∀ r ∈ rows, ¬ p r → n ≤ above key rows r := by
  constructor
  · intro h r hr hp
    by_contra hlt
    have hlevel : 0 < level key rows r := List.countP_pos_iff.mpr ⟨r, hr, by simp⟩
    obtain ⟨order, horder, hidx⟩ := exists_answer hrows hr (Nat.le_refl (above key rows r)) (by omega)
    refine hp (h order horder r ((List.mem_take_iff_idxOf_lt (horder.perm.mem_iff.mpr hr)).mpr ?_))
    omega
  · intro h order horder r hr
    by_contra hp
    have hmem := List.mem_of_mem_take hr
    have hidx := (List.mem_take_iff_idxOf_lt hmem).mp hr
    have habove := (horder.idxOf_bounds (horder.perm.mem_iff.mp hmem)).1
    have hfirst := h r (horder.perm.mem_iff.mp hmem) hp
    omega

/-- Reading page by page shows every row exactly once, whatever the answers,
exactly if no page ends between two rows of one level. -/
theorem read_perm_iff {size : ℕ} (hsize : 0 < size) (hrows : rows.Nodup) :
    (∀ orders : ℕ → List α, (∀ k, Answers key rows (orders k)) →
        ∃ n, EndsAt size orders n ∧ (read size orders n).Perm rows) ↔
      ∀ r ∈ rows, OnOnePage key size rows r := by
  constructor
  · intro hread r hr
    by_contra hsplit
    have hlevel : 0 < level key rows r := List.countP_pos_iff.mpr ⟨r, hr, by simp⟩
    obtain ⟨first, hfirst, hfirstidx⟩ := exists_answer hrows hr (Nat.le_refl (above key rows r)) (by omega)
    obtain ⟨last, hlast, hlastidx⟩ := exists_answer hrows hr
      (show above key rows r ≤ above key rows r + level key rows r - 1 by omega) (by omega)
    -- the row ends one page, and it begins a later one of another answer
    let a := above key rows r / size
    let b := (above key rows r + level key rows r - 1) / size
    have hne : a ≠ b := hsplit
    let orders := fun k => if k = a then first else last
    have horders (k : ℕ) : Answers key rows (orders k) := by
      simp only [orders]
      split_ifs
      · exact hfirst
      · exact hlast
    obtain ⟨n, hn, hperm⟩ := hread orders horders
    obtain ⟨hend, -⟩ := (endsAt_iff hsize horders n).mp hn
    have hmem {k i : ℕ} (hi : (orders k).idxOf r = i) (hk : i / size = k) : r ∈ page size k (orders k) ∧ k < n := by
      have hm := (horders k).perm.mem_iff.mpr hr
      have hlt := List.idxOf_lt_length_of_mem hm
      rw [(horders k).perm.length_eq] at hlt
      constructor
      · rw [mem_page_iff ((horders k).perm.nodup_iff.mpr hrows) hm, hi]
        have hdiv := (Nat.div_eq_iff hsize).mp hk
        rw [Nat.mul_comm] at hdiv
        omega
      · rw [← hk]
        exact Nat.div_lt_of_lt_mul (by omega)
    have hfirstpage : r ∈ page size a (orders a) ∧ a < n := by
      refine hmem ?_ rfl
      rw [show orders a = first from if_pos rfl, hfirstidx]
    have hlastpage : r ∈ page size b (orders b) ∧ b < n := by
      refine hmem ?_ rfl
      rw [show orders b = last from if_neg hne.symm, hlastidx]
    exact pages_disjoint (hperm.nodup_iff.mpr hrows) hfirstpage.2 hlastpage.2 hne hfirstpage.1 hlastpage.1
  · intro h orders horders
    obtain ⟨n, hn⟩ := exists_endsAt hsize horders
    exact ⟨n, hn, read_perm hsize hrows horders hn h⟩

end Index

section Ties

variable {rows order : List α} {r : α → α → Prop} [DecidableRel r]

/-- An order of the rows in which the key decides, whatever it does among rows of
equal key. -/
theorem answers_insertionSort (hle : ∀ a b, r a b → key b ≤ key a) (hge : ∀ a b, ¬ r a b → key a ≤ key b)
    (rows : List α) : Answers key rows (rows.insertionSort r) := by
  have hinsert : ∀ (a : α) (l : List α), l.Pairwise (fun a b => key b ≤ key a) →
      (l.orderedInsert r a).Pairwise (fun a b => key b ≤ key a) := by
    intro a l hl
    induction l with
    | nil => exact List.pairwise_singleton _ _
    | cons b l ih =>
      obtain ⟨hb, hl'⟩ := List.pairwise_cons.mp hl
      rw [List.orderedInsert_cons]
      split
      next hab =>
        refine List.pairwise_cons.mpr ⟨fun c hc => ?_, hl⟩
        rcases List.mem_cons.mp hc with rfl | hc
        · exact hle a c hab
        · exact (hb c hc).trans (hle a b hab)
      next hab =>
        refine List.pairwise_cons.mpr ⟨fun c hc => ?_, ih hl'⟩
        rcases (List.mem_orderedInsert _).mp hc with rfl | hc
        · exact hge c b hab
        · exact hb c hc
  refine ⟨List.perm_insertionSort _ _, ?_⟩
  induction rows with
  | nil => exact List.Pairwise.nil
  | cons a rows ih => exact hinsert a _ ih

/-- Every answer comes from breaking the ties by the place in it. -/
theorem insertionSort_eq {ι : Type} [DecidableEq ι] {id : α → ι} (hrows : (rows.map id).Nodup)
    (h : Answers key rows order)
    (hr : ∀ a b, r a b ↔
      key b < key a ∨ key b = key a ∧ (order.map id).idxOf (id a) ≤ (order.map id).idxOf (id b)) :
    rows.insertionSort r = order := by
  have hids : (order.map id).Nodup := (h.perm.map id).nodup_iff.mpr hrows
  let place : α → ℕ := fun a => (order.map id).idxOf (id a)
  have htotal : Std.Total r := by
    refine ⟨fun a b => ?_⟩
    rw [hr, hr]
    rcases lt_trichotomy (key a) (key b) with hlt | heq | hlt
    · exact Or.inr (Or.inl hlt)
    · exact (le_total (place a) (place b)).imp (fun hp => Or.inr ⟨heq.symm, hp⟩) (fun hp => Or.inr ⟨heq, hp⟩)
    · exact Or.inl (Or.inl hlt)
  have htrans : IsTrans α r := by
    refine ⟨fun a b c hab hbc => ?_⟩
    rw [hr] at hab hbc ⊢
    rcases hab with hab | ⟨hab, hp⟩
    · exact Or.inl (hbc.elim (fun h => h.trans hab) (fun h => h.1 ▸ hab))
    · rcases hbc with hbc | ⟨hbc, hp'⟩
      · exact Or.inl (hab ▸ hbc)
      · exact Or.inr ⟨hbc.trans hab, hp.trans hp'⟩
  have horder : order.Pairwise r := by
    rw [List.pairwise_iff_getElem]
    intro i j hi hj hij
    have hkey := List.pairwise_iff_getElem.mp h.sorted i j hi hj hij
    have hplace : ∀ k (hk : k < order.length), (order.map id).idxOf (id order[k]) = k := by
      intro k hk
      have hmap := hids.idxOf_getElem k (by simpa using hk)
      rwa [List.getElem_map] at hmap
    rw [hr, hplace i hi, hplace j hj]
    exact (lt_or_eq_of_le hkey).imp_right (fun heq => ⟨heq, hij.le⟩)
  refine List.Perm.eq_of_pairwise ?_ (List.pairwise_insertionSort _ _) horder
    ((List.perm_insertionSort _ _).trans h.perm.symm)
  intro a b ha hb hab hba
  have ha' : a ∈ order := h.perm.mem_iff.mpr ((List.mem_insertionSort _).mp ha)
  rw [hr] at hab hba
  have hp : place a = place b := by
    rcases hab with hab | ⟨hab, hp⟩
    · exact absurd hba (not_or.mpr ⟨hab.not_gt, fun h => hab.ne' h.1⟩)
    · rcases hba with hba | ⟨-, hp'⟩
      · exact absurd hab.symm hba.ne
      · exact le_antisymm hp hp'
  exact List.inj_on_of_nodup_map hids ha' hb ((List.idxOf_inj (List.mem_map_of_mem ha')).mp hp)

end Ties

end Paging
