import Blnkk.SearchIndex

/-!
When the search index catches up with the users. A job is put in the queue inside
the transaction of the save, so a worker can read the row before the commit, and
the keywords are written later, without a job.
-/

namespace Blnkk

open Relational

variable {ι : Type}

namespace SearchRun

variable (r : SearchRun ι) (user : ℕ)

/-- A job of the user will still read the row. -/
def Due : Prop := user ∈ r.shared.queue ∨ ∃ i, r.procs i = .find user

def Covers (document : Document) : Prop :=
  r.Due user ∨ (∃ i, r.procs i = .index user document) ∨ r.shared.index user = some document

def Covered : Prop := ∀ user p, r.shared.users.get? user = some p → r.Covers user p.asIndexedJson

/-- The turn of a process after which nothing would bring the row to the index:
a commit or the keywords after the last job of the user has read the row, or an
outdated document written last. -/
def Misses (humanize : String → String) (i : ι) : Prop :=
  match r.procs i with
  | .commit user a _ => ∃ p, r.shared.users.get? user = some p ∧ ¬ r.Covers user (p.assign a).asIndexedJson
  | .populateKeywords user location => user ∉ r.shared.locked ∧
    ∃ p, r.shared.users.get? user = some p ∧ ¬ r.Covers user (p.populateKeywords humanize location).asIndexedJson
  | .index user document => ∃ p, r.shared.users.get? user = some p ∧ p.asIndexedJson ≠ document ∧
    ¬ r.Due user ∧ ∀ j ≠ i, r.procs j ≠ .index user p.asIndexedJson
  | _ => False

end SearchRun

theorem SearchStarts.covered {r : SearchRun ι} (h : SearchStarts r) : r.Covered := by
  intro user p hp
  have hid : p.id = user := Table.get?_key hp
  rw [← hid]
  exact Or.inr (Or.inr (h.converged p (Table.get?_mem hp)))

theorem SearchRun.Covered.converged {r : SearchRun ι} (h : r.Covered) (hs : SearchSettled r) : r.shared.Converged := by
  intro p hp
  have hbusy : ∀ i q, q.settled = false → r.procs i ≠ q := by
    intro i q hq he
    have hsettled := hs.settled i
    rw [he, hq] at hsettled
    cases hsettled
  rcases h p.id p (Table.get?_of_mem hp) with (hqueue | ⟨i, hi⟩) | ⟨i, hi⟩ | hindex
  · rw [hs.queue] at hqueue
    cases hqueue
  · exact absurd hi (hbusy i _ rfl)
  · exact absurd hi (hbusy i _ rfl)
  · exact hindex

section Step

variable [DecidableEq ι] (humanize : String → String) (r : SearchRun ι) (i : ι)

/-- What covers a document before the turn of a process still does after it, when
this holds of what the process itself has in hand. -/
theorem covers_step {user : ℕ} {document : Document} (h : r.Covers user document)
    (hqueue : user ∈ r.shared.queue → (searchStep humanize r i).Due user)
    (hfind : r.procs i = .find user → (searchStep humanize r i).Covers user document)
    (hhand : r.procs i = .index user document → (searchStep humanize r i).Covers user document)
    (hindex : r.shared.index user = some document → (searchStep humanize r i).Covers user document) :
    (searchStep humanize r i).Covers user document := by
  rcases h with (hq | hf) | hh | hx
  · exact Or.inl (hqueue hq)
  · by_cases hi : r.procs i = .find user
    · exact hfind hi
    · exact Or.inl (Or.inr (Concurrent.exists_step hf hi))
  · by_cases hi : r.procs i = .index user document
    · exact hhand hi
    · exact Or.inr (Or.inl (Concurrent.exists_step hh hi))
  · exact hindex hx

variable {humanize r i}

/-- The turns that leave the index alone and drop no job. -/
theorem covers_step_of_idle (hbusy : (r.procs i).indexing = false)
    (hqueue : ∀ u ∈ r.shared.queue, u ∈ (searchStep humanize r i).shared.queue)
    (hindex : (searchStep humanize r i).shared.index = r.shared.index) {user : ℕ} {document : Document}
    (h : r.Covers user document) : (searchStep humanize r i).Covers user document := by
  have hhand : ∀ q, q.indexing = true → r.procs i ≠ q := by
    rintro q hq rfl
    rw [hbusy] at hq
    cases hq
  apply covers_step humanize r i h
  · exact fun hq => Or.inl (hqueue user hq)
  · exact fun hf => absurd hf (hhand _ rfl)
  · exact fun hh => absurd hh (hhand _ rfl)
  · intro hx
    rw [← hindex] at hx
    exact Or.inr (Or.inr hx)

theorem covered_step_of_idle (h : r.Covered) (hbusy : (r.procs i).indexing = false)
    (husers : (searchStep humanize r i).shared.users = r.shared.users)
    (hqueue : ∀ u ∈ r.shared.queue, u ∈ (searchStep humanize r i).shared.queue)
    (hindex : (searchStep humanize r i).shared.index = r.shared.index) : (searchStep humanize r i).Covered := by
  intro user p hp
  rw [husers] at hp
  exact covers_step_of_idle hbusy hqueue hindex (h user p hp)

theorem covered_step_of_same (h : r.Covered) (hbusy : (r.procs i).indexing = false)
    (hsame : (searchStep humanize r i).shared = r.shared) : (searchStep humanize r i).Covered := by
  apply covered_step_of_idle h hbusy
  · rw [hsame]
  · intro u hu
    rw [hsame]
    exact hu
  · rw [hsame]

/-- The turns that write a row. -/
theorem covered_step_of_write (h : r.Covered) (hbusy : (r.procs i).indexing = false) {user : ℕ} {f : Profile → Profile}
    (hf : ∀ p, (f p).id = p.id) (husers : (searchStep humanize r i).shared.users = r.shared.users.update user f hf)
    (hqueue : (searchStep humanize r i).shared.queue = r.shared.queue)
    (hindex : (searchStep humanize r i).shared.index = r.shared.index)
    (hwritten : ∀ p, r.shared.users.get? user = some p → r.Covers user (f p).asIndexedJson) :
    (searchStep humanize r i).Covered := by
  intro other p hp
  rw [husers, Table.get?_update] at hp
  apply covers_step_of_idle hbusy (fun u hu => by rw [hqueue]; exact hu) hindex
  by_cases ho : other = user
  · rw [if_pos ho, ho] at hp
    obtain ⟨old, hold, rfl⟩ := Option.map_eq_some_iff.mp hp
    rw [ho]
    exact hwritten old hold
  · rw [if_neg ho] at hp
    exact h other p hp

theorem worker_covered (h : r.Covered) (hp : r.procs i = .worker) : (searchStep humanize r i).Covered := by
  have hself := Concurrent.procs_self (SearchProc.next humanize) r i
  have hshared : (searchStep humanize r i).shared = (SearchProc.next humanize r.shared (r.procs i)).1 := rfl
  cases hq : r.shared.queue with
  | nil =>
    have hsame : (searchStep humanize r i).shared = r.shared := by
      rw [hshared, hp]
      simp only [SearchProc.next, hq]
    exact covered_step_of_same h (by rw [hp]; rfl) hsame
  | cons first rest =>
    have hrest : (searchStep humanize r i).shared = { r.shared with queue := rest } := by
      rw [hshared, hp]
      simp only [SearchProc.next, hq]
    have htaken : (searchStep humanize r i).procs i = .find first := by
      refine hself.trans ?_
      rw [hp]
      simp only [SearchProc.next, hq]
    intro user p hget
    rw [hrest] at hget
    apply covers_step humanize r i (h user p hget)
    · intro hm
      rw [hq] at hm
      rcases List.mem_cons.mp hm with rfl | hm
      · exact Or.inr ⟨i, htaken⟩
      · exact Or.inl (by rw [hrest]; exact hm)
    · intro hf
      rw [hp] at hf
      cases hf
    · intro hh
      rw [hp] at hh
      cases hh
    · intro hx
      exact Or.inr (Or.inr (by rw [hrest]; exact hx))

theorem find_covered (h : r.Covered) {user : ℕ} (hp : r.procs i = .find user) : (searchStep humanize r i).Covered := by
  have hself := Concurrent.procs_self (SearchProc.next humanize) r i
  have hsame : (searchStep humanize r i).shared = r.shared := by
    show (SearchProc.next humanize r.shared (r.procs i)).1 = r.shared
    rw [hp]
    simp only [SearchProc.next]
    cases r.shared.users.get? user <;> rfl
  intro other p hget
  rw [hsame] at hget
  apply covers_step humanize r i (h other p hget)
  · exact fun hm => Or.inl (by rw [hsame]; exact hm)
  · -- the worker reads the row as it is now
    intro hf
    rw [hp] at hf
    cases hf
    refine Or.inr (Or.inl ⟨i, hself.trans ?_⟩)
    rw [hp]
    simp only [SearchProc.next, hget]
  · intro hh
    rw [hp] at hh
    cases hh
  · exact fun hx => Or.inr (Or.inr (by rw [hsame]; exact hx))

theorem index_covered (h : r.Covered) {user : ℕ} {document : Document} (hp : r.procs i = .index user document)
    (hm : ¬ r.Misses humanize i) : (searchStep humanize r i).Covered := by
  have hshared : (searchStep humanize r i).shared =
      { r.shared with index := Function.update r.shared.index user (some document) } := by
    show (SearchProc.next humanize r.shared (r.procs i)).1 = _
    rw [hp]
    rfl
  intro other p hget
  rw [hshared] at hget
  have hwritten : other = user → (searchStep humanize r i).Covers other p.asIndexedJson := by
    rintro rfl
    by_cases hd : p.asIndexedJson = document
    · refine Or.inr (Or.inr ?_)
      rw [hshared, hd]
      exact Function.update_self ..
    · by_cases hdue : r.Due other
      · refine Or.inl (hdue.imp (fun hq => by rw [hshared]; exact hq) (fun hf => ?_))
        exact Concurrent.exists_step hf (by rw [hp]; exact nofun)
      · by_cases hother : ∃ j ≠ i, r.procs j = .index other p.asIndexedJson
        · obtain ⟨j, hj, hhand⟩ := hother
          exact Or.inr (Or.inl ⟨j, (Concurrent.procs_ne _ r hj).trans hhand⟩)
        · refine absurd ?_ hm
          simp only [SearchRun.Misses, hp]
          exact ⟨p, hget, hd, hdue, fun j hj hhand => hother ⟨j, hj, hhand⟩⟩
  apply covers_step humanize r i (h other p hget)
  · exact fun hq => Or.inl (by rw [hshared]; exact hq)
  · intro hf
    rw [hp] at hf
    cases hf
  · intro hh
    rw [hp] at hh
    cases hh
    exact hwritten rfl
  · intro hx
    by_cases ho : other = user
    · exact hwritten ho
    · refine Or.inr (Or.inr ?_)
      rw [hshared]
      exact (Function.update_of_ne ho ..).trans hx

theorem searchStep_covered (h : r.Covered) (hm : ¬ r.Misses humanize i) : (searchStep humanize r i).Covered := by
  have hshared : (searchStep humanize r i).shared = (SearchProc.next humanize r.shared (r.procs i)).1 := rfl
  cases hp : r.procs i with
  | update user a after =>
    have hbusy : (r.procs i).indexing = false := by rw [hp]; rfl
    rw [hp] at hshared
    simp only [SearchProc.next] at hshared
    by_cases hl : user ∈ r.shared.locked
    · rw [if_pos hl] at hshared
      exact covered_step_of_same h hbusy hshared
    · rw [if_neg hl] at hshared
      exact covered_step_of_idle h hbusy (by rw [hshared]) (fun u hu => by rw [hshared]; exact hu) (by rw [hshared])
  | afterSave user a after =>
    rw [hp] at hshared
    apply covered_step_of_idle h (by rw [hp]; rfl)
    · rw [hshared]
      rfl
    · intro u hu
      rw [hshared]
      exact List.mem_append_left _ hu
    · rw [hshared]
      rfl
  | commit user a after =>
    rw [hp] at hshared
    apply covered_step_of_write h (by rw [hp]; rfl) (f := Profile.assign a) (fun _ => rfl)
    · rw [hshared]
      rfl
    · rw [hshared]
      rfl
    · rw [hshared]
      rfl
    · intro p hget
      by_contra hno
      apply hm
      simp only [SearchRun.Misses, hp]
      exact ⟨p, hget, hno⟩
  | locate user found saved =>
    apply covered_step_of_same h (by rw [hp]; rfl)
    rw [hshared, hp]
    simp only [SearchProc.next]
    cases r.shared.users.get? user with
    | none => rfl
    | some p =>
      simp only
      split_ifs <;> rfl
  | populateKeywords user location =>
    have hbusy : (r.procs i).indexing = false := by rw [hp]; rfl
    rw [hp] at hshared
    simp only [SearchProc.next] at hshared
    by_cases hl : user ∈ r.shared.locked
    · rw [if_pos hl] at hshared
      exact covered_step_of_same h hbusy hshared
    · rw [if_neg hl] at hshared
      apply covered_step_of_write h hbusy (f := Profile.populateKeywords humanize location) (fun _ => rfl)
      · rw [hshared]
      · rw [hshared]
      · rw [hshared]
      · intro p hget
        by_contra hno
        apply hm
        simp only [SearchRun.Misses, hp]
        exact ⟨hl, p, hget, hno⟩
  | worker => exact worker_covered h hp
  | find user => exact find_covered h hp
  | index user document => exact index_covered h hp hm
  | done => exact covered_step_of_same h (by rw [hp]; rfl) (by rw [hshared, hp]; rfl)

end Step

theorem index_converges [DecidableEq ι] (humanize : String → String) (r : SearchRun ι) (h : SearchStarts r)
    (turns : List ι)
    (hm : Transition.Meets (searchStep humanize) (fun r i => ¬ r.Misses humanize i) r turns) (n : ℕ)
    (hs : SearchSettled (Transition.run (searchStep humanize) r (turns.take n))) :
    (Transition.run (searchStep humanize) r (turns.take n)).shared.Converged := by
  have hcovered := Transition.invariant_of_meets (searchStep humanize) (I := SearchRun.Covered)
    (fun _ _ hq hc => searchStep_covered hc hq) r h.covered turns hm n
  exact hcovered.converged hs

/-- Process `false` saves a new name for Ann and process `true` works on the queue. -/
def annRenames : SearchRun Bool where
  shared :=
    { users := Table.empty.insertFresh (fun id => { id, name := some "ann" })
      index := fun _ => some ⟨some "ann", none, none, none, none⟩ }
  procs := fun i => if i then .worker else .profileSave 1 { name := some (some "anna") }

/-- The same with a location job in place of the save. -/
def annMoves : SearchRun Bool :=
  { annRenames with procs := fun i => if i then .worker else .locate 1 ⟨some "Taipei", none, some "Taiwan"⟩ (some {}) }

theorem annRenames_starts : SearchStarts annRenames := by
  refine ⟨?_, rfl, rfl, by decide⟩
  unfold SearchStore.Converged
  decide

theorem index_converges_after_commit :
    SearchStarts annRenames ∧
      (Transition.run (searchStep id) annRenames [false, false, false, true, true, true]).shared.Converged := by
  refine ⟨annRenames_starts, index_converges id annRenames annRenames_starts [false, false, false, true, true, true] ?_ 6 ?_⟩
  · refine ⟨id, id, ?_, id, id, ?_, trivial⟩
    · rintro ⟨p, -, hno⟩
      exact hno (Or.inl (Or.inl List.mem_cons_self))
    · rintro ⟨p, hget, hne, -⟩
      cases hget
      exact hne rfl
  · exact ⟨rfl, by decide⟩

/-- The worker reads the row before the commit, or before the keywords. -/
theorem index_left_behind :
    SearchStarts annRenames ∧ SearchStarts annMoves ∧
      SearchSettled (Transition.run (searchStep id) annRenames [false, false, true, true, true, false]) ∧
      ¬ (Transition.run (searchStep id) annRenames [false, false, true, true, true, false]).shared.Converged ∧
      SearchSettled (Transition.run (searchStep id) annMoves [false, false, false, false, true, true, true, false]) ∧
      ¬ (Transition.run (searchStep id) annMoves [false, false, false, false, true, true, true, false]).shared.Converged := by
  have hstart := annRenames_starts
  refine ⟨hstart, ⟨hstart.converged, rfl, rfl, by decide⟩, ⟨rfl, by decide⟩, ?_, ⟨rfl, by decide⟩, ?_⟩
  · unfold SearchStore.Converged
    decide
  · unfold SearchStore.Converged
    decide

end Blnkk
