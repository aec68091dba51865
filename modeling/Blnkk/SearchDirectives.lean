import Blnkk.Text
import Blnkk.Lib.Scan
import Mathlib

/-!
The query of the user search, out of which six loops cut the directives that they
find, against the list of its words.
-/

namespace Blnkk

/-- What the character tables say beyond ASCII: for `\b`, which unlike `\w` knows
the letters of other alphabets, and for `[[:space:]]`. -/
structure CharTables where
  letter : Char → Bool
  space : Char → Bool

namespace Text

/-- The class `\w`. -/
def isWordChar (c : Char) : Bool := c.isAlphanum || c == '_'

variable (T : CharTables)

def isLetter (c : Char) : Bool := isWordChar c || (decide (128 ≤ c.toNat) && T.letter c)

def isBlank (c : Char) : Bool := isSpace c || (decide (128 ≤ c.toNat) && T.space c)

/-- `String#squish`, as the words with one space between each two. -/
def squish (s : List Char) : List Char :=
  [' '].intercalate ((Scan.fields (isBlank T) s).filter (fun w => decide (w ≠ [])))

/-- `gsub(/\W/, ' ')`. -/
def gsubNonWord (s : List Char) : List Char := s.map (fun c => if isWordChar c then c else ' ')

theorem isSpace_of_wordChar {c : Char} (h : isWordChar c = true) : isSpace c = false := by
  have hspaces : [' ', '\t', '\n', '\r', '\x0b', '\x0c'].all (fun c => !isWordChar c) = true := by decide
  rw [Bool.eq_false_iff]
  intro hc
  have hnot := List.all_eq_true.mp hspaces c (of_decide_eq_true hc)
  rw [h] at hnot
  cases hnot

theorem toNat_of_wordChar {c : Char} (h : isWordChar c = true) : c.toNat < 128 := by
  simp only [isWordChar, Char.isAlphanum, Char.isAlpha, Char.isUpper, Char.isLower, Char.isDigit, Bool.or_eq_true,
    Bool.and_eq_true, decide_eq_true_eq, beq_iff_eq, UInt32.le_iff_toNat_le] at h
  have hval : c.toNat = c.val.toNat := rfl
  rcases h with ((⟨-, h⟩ | ⟨-, h⟩) | ⟨-, h⟩) | rfl
  · exact hval ▸ lt_of_le_of_lt h (by decide)
  · exact hval ▸ lt_of_le_of_lt h (by decide)
  · exact hval ▸ lt_of_le_of_lt h (by decide)
  · decide

theorem isBlank_of_wordChar {c : Char} (h : isWordChar c = true) : isBlank T c = false := by
  have hascii : ¬ 128 ≤ c.toNat := Nat.not_le.mpr (toNat_of_wordChar h)
  simp [isBlank, isSpace_of_wordChar h, hascii]

end Text

open Text

inductive Directive where
  | category
  | doersTeam
  | whoToFollow
  | notFollowedBy
  | followedBy
  | following
  deriving DecidableEq

namespace Directive

def marker : Directive → List Char
  | category => "category:".toList
  | doersTeam => "doers-team".toList
  | whoToFollow => "who-to-follow".toList
  | notFollowedBy => "not-followed-by:".toList
  | followedBy => "followed-by:".toList
  | following => "following:".toList

/-- The regular expressions of the six loops. -/
def pattern : Directive → Scan.Pattern Char
  | category => ⟨marker category, some (fun c => !isSpace c)⟩
  | doersTeam => ⟨marker doersTeam, none⟩
  | whoToFollow => ⟨marker whoToFollow, none⟩
  | notFollowedBy => ⟨marker notFollowedBy, some isWordChar⟩
  | followedBy => ⟨marker followedBy, some isWordChar⟩
  | following => ⟨marker following, some isWordChar⟩

/-- In the order of the loops. -/
def all : List Directive := [category, doersTeam, whoToFollow, notFollowedBy, followedBy, following]

end Directive

namespace UsersController

structure Filters where
  groupQuery : Option String := none
  blnkkTeamQuery : Bool := false
  notFollowedByQuery : Option ℕ := none
  followedByQuery : Option ℕ := none
  followingQuery : Option ℕ := none
  deriving DecidableEq

/-- The filters, and what is handed to `User.search` if anything is. -/
@[ext] structure Search where
  filters : Filters
  text : Option String
  deriving DecidableEq

section Index

variable (T : CharTables) (find : String → Option ℕ) (viewer : Option ℕ)

/-- `r = t.split(':')`, and `r[1]` if there is one. -/
def argument (t : List Char) : Option String := (split ':' (String.ofList t))[1]?

/-- The bodies of the loops; `find` is `User.find_by` for an id, and the viewer is
there if someone is signed in. -/
def setFilter (d : Directive) (f : Filters) (t : List Char) : Filters :=
  match d with
  | .category => (argument t).elim f (fun x => { f with groupQuery := some x })
  | .doersTeam => { f with blnkkTeamQuery := true }
  | .whoToFollow => viewer.elim f (fun me => { f with notFollowedByQuery := some me })
  | .notFollowedBy => (argument t).elim f (fun x => { f with notFollowedByQuery := find x })
  | .followedBy => (argument t).elim f (fun x => { f with followedByQuery := find x })
  | .following => (argument t).elim f (fun x => { f with followingQuery := find x })

def parse (q : String) : List Char × Filters :=
  Directive.all.foldl (fun r d => d.pattern.cutOut (isLetter T) (setFilter find viewer d) r.1 r.2) (q.toList, {})

def index (q : String) : Search :=
  let query := squish T (parse T find viewer q).1
  { filters := (parse T find viewer q).2
    text := if query.any (fun c => !isBlank T c) then some (String.ofList (gsubNonWord query)) else none }

end Index

/-- The runs of `\S`. -/
def words (q : String) : List (List Char) := (Scan.fields isSpace q.toList).filter (fun w => decide (w ≠ []))

end UsersController

namespace Directive

open UsersController

/-- What may stand behind the marker in a word that is a directive as a whole. -/
def takes (d : Directive) (x : List Char) : Bool :=
  match d.pattern.value with
  | none => x.isEmpty
  | some _ => !x.isEmpty && x.all isWordChar

def read (w : List Char) : Option (Directive × List Char) :=
  all.findSome? (fun d =>
    if d.marker.isPrefixOf w && d.takes (w.drop d.marker.length) then some (d, w.drop d.marker.length) else none)

def apply (find : String → Option ℕ) (viewer : Option ℕ) (f : Filters) (d : Directive × List Char) : Filters :=
  match d.1 with
  | .category => { f with groupQuery := some (String.ofList d.2) }
  | .doersTeam => { f with blnkkTeamQuery := true }
  | .whoToFollow => { f with notFollowedByQuery := viewer.or f.notFollowedByQuery }
  | .notFollowedBy => { f with notFollowedByQuery := find (String.ofList d.2) }
  | .followedBy => { f with followedByQuery := find (String.ofList d.2) }
  | .following => { f with followingQuery := find (String.ofList d.2) }

end Directive

namespace UsersController

def directives (q : String) : List (Directive × List Char) := (words q).filterMap Directive.read

def otherWords (q : String) : List (List Char) := (words q).filter (fun w => (Directive.read w).isNone)

/-- The directives in the order of the words, and all other words. -/
def separated (find : String → Option ℕ) (viewer : Option ℕ) (q : String) : Search where
  filters := (directives q).foldl (Directive.apply find viewer) {}
  text := if otherWords q = [] then none else some (String.ofList ([' '].intercalate (otherWords q)))

end UsersController

namespace Directive

open UsersController

variable {d d' : Directive} {w x : List Char}

theorem pattern_marker (d : Directive) : d.pattern.marker = d.marker := by cases d <;> rfl

theorem marker_ne_nil (d : Directive) : d.marker ≠ [] := by cases d <;> decide

theorem mem_all (d : Directive) : d ∈ all := by cases d <;> decide

theorem eq_of_starts (h : d.marker <+: d'.marker) : d = d' := by
  revert h
  cases d <;> cases d' <;> decide

theorem read_eq_some : read w = some (d, x) ↔ w = d.marker ++ x ∧ d.takes x = true := by
  have hread : ∀ {d x}, read w = some (d, x) → w = d.marker ++ x ∧ d.takes x = true := by
    intro d x h
    obtain ⟨d', -, h⟩ := List.exists_of_findSome?_eq_some h
    split at h
    next hd =>
      simp only [Bool.and_eq_true, List.isPrefixOf_iff_prefix] at hd
      cases h
      exact ⟨(List.prefix_iff_eq_append.mp hd.1).symm, hd.2⟩
    next => cases h
  refine ⟨hread, ?_⟩
  rintro ⟨rfl, hx⟩
  cases hr : read (d.marker ++ x) with
  | none =>
    have hnone := List.findSome?_eq_none_iff.mp hr d (mem_all d)
    rw [List.drop_left, List.isPrefixOf_iff_prefix.mpr (List.prefix_append _ _), hx] at hnone
    cases hnone
  | some r =>
    obtain ⟨d', x'⟩ := r
    obtain ⟨hw, -⟩ := hread hr
    -- two markers at the start of one word
    have hd : d = d' := by
      rcases List.prefix_or_prefix_of_prefix (List.prefix_append d.marker x) (hw ▸ List.prefix_append d'.marker x')
        with h | h
      · exact eq_of_starts h
      · exact (eq_of_starts h).symm
    subst hd
    rw [List.append_cancel_left hw]

theorem takes_wordChars (h : d.takes x = true) : ∀ c ∈ x, isWordChar c = true := by
  simp only [takes] at h
  split at h
  · rw [List.isEmpty_iff.mp h]
    exact fun c hc => absurd hc List.not_mem_nil
  · simp only [Bool.and_eq_true, List.all_eq_true] at h
    exact h.2

/-- The marker of the first does not occur in a directive of the second kind. -/
def Apart (d d' : Directive) : Prop := d ≠ d' ∧ ¬ (d = followedBy ∧ d' = notFollowedBy)

instance : DecidableRel Apart := fun _ _ => inferInstanceAs (Decidable (_ ∧ ¬ _))

theorem all_apart : all.Pairwise Apart := by decide

theorem Apart.not_within (h : Apart d d') (hx : d'.takes x = true) : ¬ d.marker <:+: d'.marker ++ x := by
  have hmarker : ¬ d.marker <:+: d'.marker := by
    revert h
    cases d <;> cases d' <;> decide
  have hseam : ∀ i < d.marker.length, (d.marker.drop i).all isWordChar = true → ¬ d.marker.take i <:+ d'.marker := by
    revert h
    cases d <;> cases d' <;> decide
  intro hinfix
  rcases Scan.infix_append_cases hinfix with hin | ⟨i, hi, htake, hdrop⟩
  · exact hmarker hin
  · exact hseam i hi (List.all_eq_true.mpr (fun c hc => takes_wordChars hx c (hdrop c hc))) htake

def Plain (w : List Char) : Prop := ∀ d : Directive, ¬ d.marker <:+: w

theorem Plain.read_eq_none (h : Plain w) : read w = none := by
  cases hr : read w with
  | none => rfl
  | some r =>
    obtain ⟨hw, -⟩ := read_eq_some.mp hr
    exact absurd (hw ▸ (List.prefix_append _ _).isInfix) (h r.1)

theorem plain_of_wordChars (h : ∀ c ∈ w, isWordChar c = true) : Plain w := by
  intro d hd
  have hmarker : d.marker.any (fun c => !isWordChar c) = true := by cases d <;> decide
  obtain ⟨c, hc, hword⟩ := List.any_eq_true.mp hmarker
  rw [h c (hd.subset hc)] at hword
  cases hword

theorem argument_marker (hx : d.takes x = true) (hd : d ≠ doersTeam) (hd' : d ≠ whoToFollow) :
    argument (d.marker ++ x) = some (String.ofList x) := by
  have hcolon : ':' ∉ x := by
    intro hc
    have hword := takes_wordChars hx ':' hc
    revert hword
    decide
  have hstem : ∃ stem, d.marker = stem ++ [':'] ∧ ':' ∉ stem := by
    cases d with
    | doersTeam => exact absurd rfl hd
    | whoToFollow => exact absurd rfl hd'
    | category => exact ⟨"category".toList, by decide⟩
    | notFollowedBy => exact ⟨"not-followed-by".toList, by decide⟩
    | followedBy => exact ⟨"followed-by".toList, by decide⟩
    | following => exact ⟨"following".toList, by decide⟩
  have hne : x ≠ [] := by
    rintro rfl
    revert hx hd hd'
    cases d <;> decide
  obtain ⟨stem, hmarker, hstem⟩ := hstem
  have hchars : splitChars ':' (String.ofList (d.marker ++ x)).toList = [stem] ++ [x] := by
    rw [String.toList_ofList, hmarker, List.append_assoc, List.singleton_append, splitChars_append,
      splitChars_of_not_mem hstem, splitChars_of_not_mem hcolon]
  rw [argument, split_of_concat hchars hne]
  rfl

theorem setFilter_marker (find : String → Option ℕ) (viewer : Option ℕ) (f : Filters) (hx : d.takes x = true) :
    setFilter find viewer d f (d.marker ++ x) = apply find viewer f (d, x) := by
  cases d with
  | doersTeam => rfl
  | whoToFollow => cases viewer <;> rfl
  | _ =>
    simp only [setFilter, apply]
    rw [argument_marker hx (by decide) (by decide)]
    rfl

/-- A directive is matched from end to end. -/
theorem scan_marker (T : CharTables) (hx : d.takes x = true) :
    d.pattern.scan (isLetter T) (d.marker ++ x) = [d.marker ++ x] := by
  have hending : d.pattern.ending (isLetter T) x = some x := by
    have hletter : ∀ c ∈ x, isLetter T c = true := by
      intro c hc
      rw [isLetter, takes_wordChars hx c hc, Bool.true_or]
    have hlast : ∀ c ∈ x.getLast?, isLetter T c = true := fun c hc => hletter c (List.mem_of_getLast? hc)
    have hspace : ∀ c ∈ x, (!isSpace c) = true := by
      intro c hc
      rw [isSpace_of_wordChar (takes_wordChars hx c hc), Bool.not_false]
    cases d with
    | doersTeam =>
      obtain rfl : x = [] := List.isEmpty_iff.mp hx
      rfl
    | whoToFollow =>
      obtain rfl : x = [] := List.isEmpty_iff.mp hx
      rfl
    | category => exact Scan.greedy_whole (by rintro rfl; cases hx) hspace hlast
    | _ => exact Scan.greedy_whole (by rintro rfl; cases hx) (takes_wordChars hx) hlast
  have hhead : ∀ c ∈ d.pattern.marker.head?, isLetter T c = true := by
    cases d <;> exact fun c hc => by cases hc; rfl
  have hmatch := Scan.matchAt_whole (by rw [pattern_marker]; exact marker_ne_nil d) hhead hending
  rw [pattern_marker] at hmatch
  exact Scan.scan_whole (by simp [marker_ne_nil]) hmatch

def isKind (d : Directive) (w : List Char) : Bool := (read w).any (fun r => decide (r.1 = d))

theorem isKind_iff : d.isKind w = true ↔ ∃ x, w = d.marker ++ x ∧ d.takes x = true := by
  simp only [isKind, Option.any_eq_true, decide_eq_true_eq, Prod.exists]
  constructor
  · rintro ⟨d', x, hr, rfl⟩
    exact ⟨x, read_eq_some.mp hr⟩
  · rintro ⟨x, hw⟩
    exact ⟨d, x, read_eq_some.mpr hw, rfl⟩

theorem clearCut (T : CharTables) {ds : List Directive} (hds : ∀ d' ∈ ds, Apart d d')
    (hw : Plain w ∨ ∃ d' ∈ d :: ds, d'.isKind w = true) : Scan.ClearCut (isLetter T) d.pattern d.isKind w where
  whole := by
    intro h
    obtain ⟨x, rfl, hx⟩ := isKind_iff.mp h
    exact scan_marker T hx
  marked := by
    intro h
    obtain ⟨x, rfl, -⟩ := isKind_iff.mp h
    rw [pattern_marker]
    exact List.prefix_append _ _
  unmarked := by
    intro h
    rw [pattern_marker]
    rcases hw with hw | ⟨d', hd', hw⟩
    · exact hw d
    · rcases List.mem_cons.mp hd' with rfl | hd'
      · rw [hw] at h
        cases h
      · obtain ⟨x, rfl, hx⟩ := isKind_iff.mp hw
        exact (hds d' hd').not_within hx

theorem stops (T : CharTables) (d : Directive) {c : Char} (hc : isSpace c = true) :
    Scan.Stops (isLetter T) d.pattern c := by
  have hspaces : [' ', '\t', '\n', '\r', '\x0b', '\x0c'].all
      (fun c => decide (isWordChar c = false ∧ ¬ 128 ≤ c.toNat ∧ c ∉ d.marker)) = true := by
    cases d <;> decide
  obtain ⟨hword, hascii, hmarker⟩ := of_decide_eq_true (List.all_eq_true.mp hspaces c (of_decide_eq_true hc))
  refine ⟨by simp [isLetter, hword, hascii], by rwa [pattern_marker], fun cls hcls => ?_⟩
  cases d with
  | doersTeam => cases hcls
  | whoToFollow => cases hcls
  | category =>
    cases hcls
    simp [hc]
  | _ =>
    cases hcls
    exact hword

/-- What is left of a field when all directives are cut out. -/
def leftover (w : List Char) : List Char := if (read w).isSome then [] else w

theorem leftover_of_plain (h : Plain w) : leftover w = w := by
  rw [leftover, h.read_eq_none]
  rfl

theorem read_nil : read [] = none := by decide

theorem leftover_clean (d : Directive) (w : List Char) : leftover (Scan.clean d.isKind w) = leftover w := by
  rw [Scan.clean]
  split
  next h =>
    obtain ⟨x, hx⟩ := isKind_iff.mp h
    rw [leftover, leftover, read_eq_some.mpr hx]
    rfl
  next => rfl

theorem read_clean (d : Directive) (w : List Char) :
    read (Scan.clean d.isKind w) = (read w).filter (fun r => decide (r.1 ≠ d)) := by
  rw [Scan.clean, isKind]
  cases hr : read w with
  | none => simp [hr]
  | some r =>
    by_cases hd : r.1 = d
    · simp [hd, read_nil, Option.filter]
    · simp [hd, hr, Option.filter]

theorem directives_clean {ds : List Directive} (hds : ∀ d' ∈ ds, Apart d d') (vs : List (List Char)) :
    ds.flatMap (fun d' => ((vs.map (Scan.clean d.isKind)).filterMap read).filter (fun r => decide (r.1 = d'))) =
      ds.flatMap (fun d' => (vs.filterMap read).filter (fun r => decide (r.1 = d'))) := by
  have hclean : (vs.map (Scan.clean d.isKind)).filterMap read = (vs.filterMap read).filter (fun r => decide (r.1 ≠ d)) := by
    rw [List.filterMap_map, List.filter_filterMap]
    exact congrArg (fun g => vs.filterMap g) (funext (read_clean d))
  refine List.flatMap_congr (fun d' hd' => ?_)
  rw [hclean, List.filter_filter]
  refine List.filter_congr (fun r _ => ?_)
  by_cases hr : r.1 = d'
  · simp [hr, (hds d' hd').1.symm]
  · simp [hr]

section Loops

variable (T : CharTables) (find : String → Option ℕ) (viewer : Option ℕ)

theorem setFilters_eq (d : Directive) (vs : List (List Char)) (f : Filters) :
    (vs.filter d.isKind).foldl (setFilter find viewer d) f =
      ((vs.filterMap read).filter (fun r => decide (r.1 = d))).foldl (apply find viewer) f := by
  induction vs generalizing f with
  | nil => rfl
  | cons v vs ih =>
    cases hr : read v with
    | none =>
      rw [List.filter_cons_of_neg (by simp [isKind, hr]), List.filterMap_cons_none hr]
      exact ih f
    | some r =>
      rw [List.filterMap_cons_some hr]
      by_cases hd : r.1 = d
      · obtain ⟨hv, hx⟩ := read_eq_some.mp hr
        subst hd
        rw [List.filter_cons_of_pos (by simp [isKind, hr]), List.filter_cons_of_pos (by simp), List.foldl_cons,
          List.foldl_cons, ih, hv, setFilter_marker find viewer f hx]
      · rw [List.filter_cons_of_neg (by simp [isKind, hr, hd]), List.filter_cons_of_neg (by simp [hd])]
        exact ih f

/-- The loops for the kinds `ds`, when the words are directives of these kinds or
have no marker in them. -/
theorem loops_eq (ds : List Directive) (hds : ds.Pairwise Apart) (w : List Char) (fs : List (Char × List Char))
    (f : Filters) (hsep : ∀ g ∈ fs, isSpace g.1 = true)
    (hfield : ∀ v ∈ w :: fs.map Prod.snd, ∀ c ∈ v, isSpace c = false)
    (hfit : ∀ v ∈ w :: fs.map Prod.snd, Plain v ∨ ∃ d ∈ ds, d.isKind v = true) :
    ds.foldl (fun r d => d.pattern.cutOut (isLetter T) (setFilter find viewer d) r.1 r.2) (Scan.join w fs, f) =
      (Scan.join (leftover w) (fs.map (fun g => (g.1, leftover g.2))),
        (ds.flatMap (fun d => ((w :: fs.map Prod.snd).filterMap read).filter (fun r => decide (r.1 = d)))).foldl
          (apply find viewer) f) := by
  induction ds generalizing w fs f with
  | nil =>
    have hplain : ∀ v ∈ w :: fs.map Prod.snd, leftover v = v := by
      intro v hv
      rcases hfit v hv with h | ⟨d, hd, -⟩
      · exact leftover_of_plain h
      · cases hd
    have hfs : fs.map (fun g => (g.1, leftover g.2)) = fs := by
      conv_rhs => rw [← List.map_id fs]
      refine List.map_congr_left (fun g hg => ?_)
      rw [hplain g.2 (List.mem_cons_of_mem _ (List.mem_map_of_mem hg))]
      rfl
    rw [hplain w List.mem_cons_self, hfs]
    rfl
  | cons d ds ih =>
    obtain ⟨hd, hds'⟩ := List.pairwise_cons.mp hds
    have hmarker : d.pattern.marker ≠ [] := by
      rw [pattern_marker]
      exact marker_ne_nil d
    have hpass := Scan.cutOut_clearCut (setFilter find viewer d) f hmarker fs (fun g hg => stops T d (hsep g hg))
      (fun g hg v hv hmem => by
        have hspace := hfield v hv g.1 hmem
        rw [hsep g hg] at hspace
        cases hspace)
      (fun v hv => clearCut T hd (hfit v hv))
    rw [List.foldl_cons, hpass]
    -- the next loop finds the fields that are left
    have hclean : Scan.clean d.isKind w :: (fs.map (fun g => (g.1, Scan.clean d.isKind g.2))).map Prod.snd =
        (w :: fs.map Prod.snd).map (Scan.clean d.isKind) := by
      simp [Function.comp_def]
    rw [ih hds' _ _ _ ?_ ?_ ?_, hclean, directives_clean hd, List.flatMap_cons, List.foldl_append, setFilters_eq,
      leftover_clean, List.map_map]
    · simp only [Function.comp_def, leftover_clean]
    · intro g hg
      obtain ⟨g', hg', rfl⟩ := List.mem_map.mp hg
      exact hsep g' hg'
    · rw [hclean]
      intro v hv c hc
      obtain ⟨v', hv', rfl⟩ := List.mem_map.mp hv
      rw [Scan.clean] at hc
      split at hc
      · cases hc
      · exact hfield v' hv' c hc
    · rw [hclean]
      intro v hv
      obtain ⟨v', hv', rfl⟩ := List.mem_map.mp hv
      rw [Scan.clean]
      split
      · exact Or.inl (fun d' h => marker_ne_nil d' (List.infix_nil.mp h))
      next hkind =>
        refine (hfit v' hv').imp_right ?_
        rintro ⟨d', hd', h⟩
        rcases List.mem_cons.mp hd' with rfl | hd'
        · exact absurd h hkind
        · exact ⟨d', hd', h⟩

end Loops

section Order

variable (find : String → Option ℕ) (viewer : Option ℕ)

/-- A filter that only some kinds set can be read off the directives of these
kinds. -/
theorem filter_of_kinds {β : Type} {get : Filters → β} {K : Directive → Bool} {n : Directive × List Char → β}
    (hset : ∀ f r, get (apply find viewer f r) = if K r.1 then n r else get f) (rs : List (Directive × List Char)) :
    get (rs.foldl (apply find viewer) {}) = get ((rs.filter (fun r => K r.1)).foldl (apply find viewer) {}) := by
  have hfold : ∀ {f f' : Filters}, get f = get f' →
      get (rs.foldl (apply find viewer) f) = get ((rs.filter (fun r => K r.1)).foldl (apply find viewer) f') := by
    induction rs with
    | nil => exact fun hf => hf
    | cons r rs ih =>
      intro f f' hf
      rw [List.filter_cons]
      cases hK : K r.1 with
      | true => exact ih (by rw [hset, hset, hK, if_pos rfl, if_pos rfl])
      | false => exact ih (by rw [hset, hK, if_neg Bool.false_ne_true, hf])
  exact hfold rfl

/-- The order in which the loops set the filters. -/
def byKind (rs : List (Directive × List Char)) : List (Directive × List Char) :=
  all.flatMap (fun d => rs.filter (fun r => decide (r.1 = d)))

theorem byKind_filter (K : Directive → Bool) (rs : List (Directive × List Char)) :
    (byKind rs).filter (fun r => K r.1) = (all.filter K).flatMap (fun d => rs.filter (fun r => decide (r.1 = d))) := by
  rw [byKind]
  generalize all = ds
  induction ds with
  | nil => rfl
  | cons d ds ih =>
    have hd : (rs.filter (fun r => decide (r.1 = d))).filter (fun r => K r.1) =
        if K d then rs.filter (fun r => decide (r.1 = d)) else [] := by
      split
      next hK =>
        refine List.filter_eq_self.mpr (fun r hr => ?_)
        rw [of_decide_eq_true (List.mem_filter.mp hr).2]
        exact hK
      next hK =>
        refine List.filter_eq_nil_iff.mpr (fun r hr => ?_)
        rw [of_decide_eq_true (List.mem_filter.mp hr).2]
        exact hK
    rw [List.flatMap_cons, List.filter_append, hd, ih]
    split
    next hK => rw [List.filter_cons_of_pos hK, List.flatMap_cons]
    next hK => rw [List.filter_cons_of_neg hK, List.nil_append]

/-- The loops and the words agree on a filter of one kind. -/
theorem filter_of_kind {β : Type} {get : Filters → β} {d : Directive} {n : Directive × List Char → β}
    (hset : ∀ f r, get (apply find viewer f r) = if decide (r.1 = d) then n r else get f)
    (rs : List (Directive × List Char)) :
    get ((byKind rs).foldl (apply find viewer) {}) = get (rs.foldl (apply find viewer) {}) := by
  have hkind := filter_of_kinds find viewer (K := fun d' => decide (d' = d)) hset
  have hall : all.filter (fun d' => decide (d' = d)) = [d] := by cases d <;> rfl
  rw [hkind, hkind rs, byKind_filter (fun d' => decide (d' = d)), hall, List.flatMap_singleton]

/-- The kinds that set the same filter. -/
def notFollowed (d : Directive) : Bool := decide (d = whoToFollow ∨ d = notFollowedBy)

def lastArgument (d : Directive) (rs : List (Directive × List Char)) : Option (List Char) :=
  (rs.filter (fun r => decide (r.1 = d))).getLast?.map Prod.snd

def lastNotFollowed (rs : List (Directive × List Char)) : Option Directive :=
  (rs.filter (fun r => notFollowed r.1)).getLast?.map Prod.fst

/-- The loop for `not-followed-by` comes after the one for `who-to-follow`,
wherever the words stand. -/
theorem notFollowedBy_iff (rs : List (Directive × List Char)) :
    ((byKind rs).foldl (apply find viewer) {}).notFollowedByQuery =
        (rs.foldl (apply find viewer) {}).notFollowedByQuery ↔
      ∀ me x, viewer = some me → lastArgument notFollowedBy rs = some x → lastNotFollowed rs = some whoToFollow →
        find (String.ofList x) = some me := by
  cases hv : viewer with
  | none =>
    -- `who-to-follow` sets nothing
    have hset : ∀ f r, (apply find none f r).notFollowedByQuery =
        if decide (r.1 = notFollowedBy) then find (String.ofList r.2) else f.notFollowedByQuery := by
      rintro f ⟨d, x⟩
      cases d <;> rfl
    exact iff_of_true (filter_of_kind find none hset rs) (by simp)
  | some me =>
    have hset : ∀ f r, (apply find (some me) f r).notFollowedByQuery =
        if notFollowed r.1 then (if r.1 = whoToFollow then some me else find (String.ofList r.2))
        else f.notFollowedByQuery := by
      rintro f ⟨d, x⟩
      cases d <;> rfl
    have hkinds := filter_of_kinds find (some me) hset
    have hkind : ∀ d, notFollowed d = true → rs.filter (fun r => decide (r.1 = d)) =
        (rs.filter (fun r => notFollowed r.1)).filter (fun r => decide (r.1 = d)) := by
      intro d hd
      rw [List.filter_filter]
      refine List.filter_congr (fun r _ => ?_)
      by_cases hr : r.1 = d
      · simp [hr, hd]
      · simp [hr]
    have hall : all.filter notFollowed = [whoToFollow, notFollowedBy] := by decide
    rw [hkinds (byKind rs), hkinds rs, byKind_filter, hall]
    simp only [List.flatMap_cons, List.flatMap_nil, List.append_nil, lastArgument, lastNotFollowed]
    rw [hkind whoToFollow rfl, hkind notFollowedBy rfl]
    have hmem : ∀ r ∈ rs.filter (fun r => notFollowed r.1), r.1 = whoToFollow ∨ r.1 = notFollowedBy :=
      fun r hr => of_decide_eq_true (List.mem_filter.mp hr).2
    generalize rs.filter (fun r => notFollowed r.1) = ms at hmem
    rcases List.eq_nil_or_concat ms with rfl | ⟨ms, ⟨d, x⟩, rfl⟩
    · simp
    · rcases hmem (d, x) (by simp) with rfl | rfl
      · -- the last word asks for the viewer, the last loop for the last argument
        rcases List.eq_nil_or_concat (ms.filter (fun r => decide (r.1 = notFollowedBy))) with hn | ⟨ns, ⟨d, y⟩, hn⟩
        · simp [List.filter_append, hn, apply]
        · obtain rfl : d = notFollowedBy := by
            have hr : (d, y) ∈ ms.filter (fun r => decide (r.1 = notFollowedBy)) := by simp [hn]
            exact of_decide_eq_true (List.mem_filter.mp hr).2
          simp [List.filter_append, hn, apply]
      · simp [List.filter_append, apply]

end Order

end Directive

namespace UsersController

open Directive

variable (T : CharTables) (find : String → Option ℕ) (viewer : Option ℕ) {q : String}

theorem fields_filterMap (vs : List (List Char)) :
    (vs.filter (fun w => decide (w ≠ []))).filterMap read = vs.filterMap read := by
  induction vs with
  | nil => rfl
  | cons v vs ih =>
    by_cases hv : v = []
    · rw [List.filter_cons_of_neg (by simp [hv]), ih, hv, List.filterMap_cons_none read_nil]
    · rw [List.filter_cons_of_pos (by simpa using hv)]
      simp only [List.filterMap_cons, ih]

theorem leftover_fields (vs : List (List Char)) :
    (vs.map leftover).filter (fun w => decide (w ≠ [])) =
      (vs.filter (fun w => decide (w ≠ []))).filter (fun w => (read w).isNone) := by
  induction vs with
  | nil => rfl
  | cons v vs ih =>
    by_cases hv : v = []
    · simpa [hv, leftover, read_nil] using ih
    · cases hr : read v with
      | none => simpa [hv, leftover, hr] using ih
      | some r => simpa [hv, leftover, hr] using ih

theorem parse_eq (hq : ∀ w ∈ otherWords q, Plain w) :
    parse T find viewer q =
      (Scan.join (leftover (Scan.cut isSpace q.toList).1)
        ((Scan.cut isSpace q.toList).2.map (fun g => (g.1, leftover g.2))),
        (byKind (directives q)).foldl (apply find viewer) {}) := by
  have hfit : ∀ v ∈ Scan.fields isSpace q.toList, Plain v ∨ ∃ d ∈ Directive.all, d.isKind v = true := by
    intro v hv
    by_cases hne : v = []
    · exact Or.inl (fun d h => marker_ne_nil d (List.infix_nil.mp (hne ▸ h)))
    · cases hr : read v with
      | none => exact Or.inl (hq v (by simp [otherWords, words, hv, hne, hr]))
      | some r => exact Or.inr ⟨r.1, mem_all r.1, isKind_iff.mpr ⟨r.2, read_eq_some.mp hr⟩⟩
  have hloops := loops_eq T find viewer Directive.all all_apart _ _ {} (fun g hg => Scan.sep_of_mem_cut hg)
    (fun v hv => Scan.not_sep_of_mem_fields hv) hfit
  rw [Scan.join_cut] at hloops
  rw [parse, hloops, byKind, directives, words, fields_filterMap]
  rfl

theorem query_eq (hq : ∀ w ∈ otherWords q, Plain w) (hblank : ∀ w ∈ otherWords q, ∀ c ∈ w, isBlank T c = false) :
    squish T (parse T find viewer q).1 = [' '].intercalate (otherWords q) := by
  have hfields : leftover (Scan.cut isSpace q.toList).1 ::
      ((Scan.cut isSpace q.toList).2.map (fun g => (g.1, leftover g.2))).map Prod.snd =
        (Scan.fields isSpace q.toList).map leftover := by
    simp [Scan.fields, Function.comp_def]
  rw [parse_eq T find viewer hq, squish, Scan.fields, Scan.cut_join, hfields, leftover_fields]
  · rfl
  · intro g hg
    obtain ⟨g', hg', rfl⟩ := List.mem_map.mp hg
    rw [isBlank, Scan.sep_of_mem_cut hg', Bool.true_or]
  · rw [hfields]
    intro v hv c hc
    obtain ⟨v', hv', rfl⟩ := List.mem_map.mp hv
    rw [leftover] at hc
    split at hc
    · cases hc
    next hr =>
      have hne : v' ≠ [] := List.ne_nil_of_mem hc
      exact hblank v' (by simp [otherWords, words, hv', hne, Option.not_isSome_iff_eq_none.mp hr]) c hc

theorem index_filters : (index T find viewer q).filters = (parse T find viewer q).2 := by
  simp only [index]

theorem filters_iff (hq : ∀ w ∈ otherWords q, Plain w) :
    (parse T find viewer q).2 = (separated find viewer q).filters ↔
      ((byKind (directives q)).foldl (apply find viewer) {}).notFollowedByQuery =
        ((directives q).foldl (apply find viewer) {}).notFollowedByQuery := by
  have hfilters : ∀ a b : Filters, a.groupQuery = b.groupQuery → a.blnkkTeamQuery = b.blnkkTeamQuery →
      a.followedByQuery = b.followedByQuery → a.followingQuery = b.followingQuery →
      (a = b ↔ a.notFollowedByQuery = b.notFollowedByQuery) := by
    rintro ⟨⟩ ⟨⟩ rfl rfl rfl rfl
    simp
  rw [parse_eq T find viewer hq]
  refine hfilters _ _ ?_ ?_ ?_ ?_
  · refine filter_of_kind find viewer (d := category) (n := fun r => some (String.ofList r.2)) ?_ _
    rintro f ⟨d, x⟩
    cases d <;> rfl
  · refine filter_of_kind find viewer (d := doersTeam) (n := fun _ => true) ?_ _
    rintro f ⟨d, x⟩
    cases d <;> rfl
  · refine filter_of_kind find viewer (d := followedBy) (n := fun r => find (String.ofList r.2)) ?_ _
    rintro f ⟨d, x⟩
    cases d <;> rfl
  · refine filter_of_kind find viewer (d := following) (n := fun r => find (String.ofList r.2)) ?_ _
    rintro f ⟨d, x⟩
    cases d <;> rfl

theorem otherWords_spec {w : List Char} (hw : w ∈ otherWords q) : w ≠ [] ∧ ∀ c ∈ w, isSpace c = false := by
  simp only [otherWords, words, List.mem_filter, decide_eq_true_eq] at hw
  exact ⟨hw.1.2, Scan.not_sep_of_mem_fields hw.1.1⟩

/-- Nothing but word characters and spaces is ever searched for. -/
theorem wordChars_of_text (h : (index T find viewer q).text = (separated find viewer q).text) {w : List Char}
    (hw : w ∈ otherWords q) : ∀ c ∈ w, isWordChar c = true := by
  intro c hc
  simp only [index, separated, if_neg (List.ne_nil_of_mem hw)] at h
  split at h
  · have hmem : c ∈ gsubNonWord (squish T (parse T find viewer q).1) := by
      rw [String.ofList_injective (Option.some_inj.mp h)]
      exact Scan.mem_intercalate hw hc
    obtain ⟨a, -, rfl⟩ := List.mem_map.mp hmem
    split
    next ha => exact ha
    next ha =>
      have hspace := (otherWords_spec hw).2 _ hc
      rw [if_neg ha] at hspace
      cases hspace
  · cases h

theorem text_eq (hq : ∀ w ∈ otherWords q, ∀ c ∈ w, isWordChar c = true) :
    (index T find viewer q).text = (separated find viewer q).text := by
  have hquery := query_eq T find viewer (fun w hw => plain_of_wordChars (hq w hw))
    (fun w hw c hc => isBlank_of_wordChar T (hq w hw c hc))
  simp only [index, separated, hquery]
  by_cases hnone : otherWords q = []
  · rw [hnone, if_pos rfl]
    rfl
  · have hany : ([' '].intercalate (otherWords q)).any (fun c => !isBlank T c) = true := by
      obtain ⟨w, hw⟩ := List.exists_mem_of_ne_nil _ hnone
      obtain ⟨c, hc⟩ := List.exists_mem_of_ne_nil _ (otherWords_spec hw).1
      rw [List.any_eq_true]
      exact ⟨c, Scan.mem_intercalate hw hc, by rw [isBlank_of_wordChar T (hq w hw c hc), Bool.not_false]⟩
    have hgsub : gsubNonWord ([' '].intercalate (otherWords q)) = [' '].intercalate (otherWords q) := by
      conv_rhs => rw [← List.map_id ([' '].intercalate (otherWords q))]
      refine List.map_congr_left (fun c hc => ?_)
      rcases Scan.of_mem_intercalate hc with hc | ⟨w, hw, hc⟩
      · obtain rfl := List.mem_singleton.mp hc
        rfl
      · rw [hq w hw c hc]
        rfl
    rw [if_pos hany, if_neg hnone, hgsub]

theorem directives_separated_iff (q : String) :
    index T find viewer q = separated find viewer q ↔
      (∀ w ∈ otherWords q, ∀ c ∈ w, isWordChar c = true) ∧
      ∀ me x, viewer = some me → lastArgument notFollowedBy (directives q) = some x →
        lastNotFollowed (directives q) = some whoToFollow → find (String.ofList x) = some me := by
  rw [Search.ext_iff, index_filters]
  constructor
  · rintro ⟨hfilters, htext⟩
    have hwords : ∀ w ∈ otherWords q, ∀ c ∈ w, isWordChar c = true :=
      fun w hw => wordChars_of_text T find viewer htext hw
    rw [filters_iff T find viewer (fun w hw => plain_of_wordChars (hwords w hw)), notFollowedBy_iff] at hfilters
    exact ⟨hwords, hfilters⟩
  · rintro ⟨hwords, hlast⟩
    rw [filters_iff T find viewer (fun w hw => plain_of_wordChars (hwords w hw)), notFollowedBy_iff]
    exact ⟨hlast, text_eq T find viewer hwords⟩

def asciiTables : CharTables := ⟨fun _ => false, fun _ => false⟩

/-- A marker within a word sets the filter and is cut out of the word, and
`who-to-follow` loses against an earlier `not-followed-by`. -/
theorem part_of_word_taken :
    index asciiTables (fun _ => none) (some 1) "my-doers-team" = ⟨{ blnkkTeamQuery := true }, some "my "⟩ ∧
    separated (fun _ => none) (some 1) "my-doers-team" = ⟨{}, some "my-doers-team"⟩ ∧
    (index asciiTables (fun _ => some 2) (some 1) "not-followed-by:2 who-to-follow").filters.notFollowedByQuery =
      some 2 ∧
    (separated (fun _ => some 2) (some 1) "not-followed-by:2 who-to-follow").filters.notFollowedByQuery = some 1 := by
  decide +kernel

end UsersController

end Blnkk
